import Mathlib.Algebra.BigOperators.Group.List.Basic
import Mathlib.Algebra.CharZero.Defs
import Mathlib.Algebra.Field.Basic
import Mathlib.Algebra.Order.BigOperators.Group.List
import Mathlib.Algebra.Order.Ring.Basic
import Mathlib.Tactic.FieldSimp
import Mathlib.Tactic.LinearCombination
import Mathlib.Tactic.Ring

/-!
# Squared deviations

The mean of a list, and the sum of the squares of what its values deviate from a point. Both follow
a value put at the list's end: the squared deviations from the mean grow by the product of what it
deviates from the mean before it and from the mean with it.
-/

set_option autoImplicit false

universe u

namespace Deviations

section

variable {K : Type u} [Field K] {xs ys : List K}

def mean (xs : List K) : K := xs.sum / xs.length

/-- The squares of what the values deviate from `c`, in sum. -/
def about (c : K) (xs : List K) : K := (xs.map fun x => (x - c) ^ 2).sum

@[simp] theorem mean_nil : mean ([] : List K) = 0 := by simp [mean]

@[simp] theorem about_nil (c : K) : about c [] = 0 := rfl

theorem about_append (c : K) : about c (xs ++ ys) = about c xs + about c ys := by
  simp [about]

theorem mean_perm (h : xs.Perm ys) : mean xs = mean ys := by
  unfold mean
  rw [h.sum_eq, h.length_eq]

theorem about_perm (c : K) (h : xs.Perm ys) : about c xs = about c ys := (h.map _).sum_eq

/-- Deviations from another point. -/
theorem about_add (c d : K) (xs : List K) : about (c + d) xs =
    about c xs - 2 * d * (xs.sum - xs.length * c) + xs.length * d ^ 2 := by
  induction xs with
  | nil => simp
  | cons x xs ih =>
    have hcons (c : K) : about c (x :: xs) = (x - c) ^ 2 + about c xs := by simp [about]
    rw [hcons, hcons, ih, List.sum_cons, List.length_cons]
    push_cast
    ring

variable [CharZero K]

theorem length_mul_mean (xs : List K) : xs.length * mean xs = xs.sum := by
  cases xs with
  | nil => simp
  | cons x xs =>
    have hlength : ((x :: xs).length : K) ≠ 0 := Nat.cast_ne_zero.mpr (Nat.succ_ne_zero _)
    exact mul_div_cancel₀ _ hlength

/-- Away from the mean, every value deviates by what the mean does more. -/
theorem about_mean_add (d : K) (xs : List K) :
    about (mean xs + d) xs = about (mean xs) xs + xs.length * d ^ 2 := by
  rw [about_add, length_mul_mean, sub_self, mul_zero, sub_zero]

theorem mean_snoc (xs : List K) (x : K) :
    mean (xs ++ [x]) = mean xs + (x - mean xs) / (xs.length + 1) := by
  have hlength : (xs.length : K) + 1 ≠ 0 := Nat.cast_add_one_ne_zero _
  have hsum : mean (xs ++ [x]) = (xs.length * mean xs + x) / (xs.length + 1) := by
    rw [length_mul_mean]
    simp [mean]
  rw [hsum]
  field_simp
  ring

theorem about_mean_snoc (xs : List K) (x : K) :
    about (mean (xs ++ [x])) (xs ++ [x]) =
      about (mean xs) xs + (x - mean xs) * (x - mean (xs ++ [x])) := by
  have hlength : (xs.length : K) + 1 ≠ 0 := Nat.cast_add_one_ne_zero _
  rw [about_append, mean_snoc, about_mean_add]
  have hown : about (mean xs + (x - mean xs) / (xs.length + 1)) [x] =
      (x - (mean xs + (x - mean xs) / (xs.length + 1))) ^ 2 := by simp [about]
  rw [hown]
  field_simp
  ring

end

theorem about_nonneg {K : Type u} [Field K] [LinearOrder K] [IsStrictOrderedRing K] (c : K)
    (xs : List K) : 0 ≤ about c xs := by
  apply List.sum_nonneg
  intro square hsquare
  obtain ⟨x, -, rfl⟩ := List.mem_map.mp hsquare
  exact sq_nonneg _

end Deviations
