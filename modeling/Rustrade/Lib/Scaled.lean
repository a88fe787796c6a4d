import Mathlib.Algebra.Order.Field.Rat
import Mathlib.Algebra.Order.Group.Abs
import Mathlib.Data.Rat.Floor
import Mathlib.Tactic.FieldSimp
import Mathlib.Tactic.Linarith
import Mathlib.Tactic.Ring

/-!
# Decimals of a mantissa and a scale, and rounding to a grid

A decimal is a whole number of units of its last place. Normalized it has no zeros at its end,
and its scale is then the fewest places its value can be written in. A value rounded to a grid
is told by where it lies: on the grid, less than a step off, on one side or at most half a step
off.
-/

set_option autoImplicit false

/-! ## Grids -/

/-- The whole multiples of a step. -/
def OnGrid (step v : ℚ) : Prop := ∃ m : ℤ, v = m * step

namespace OnGrid

variable {step r v y : ℚ}

/-- Two points of the grid less than a step apart are one. -/
theorem eq_of_lt (hr : OnGrid step r) (hy : OnGrid step y) (h : |r - y| < step) : r = y := by
  have hstep : 0 < step := (abs_nonneg _).trans_lt h
  obtain ⟨m, rfl⟩ := hr
  obtain ⟨n, rfl⟩ := hy
  have hdiff : ((m : ℚ) - n) * step = m * step - n * step := by ring
  rw [← hdiff, abs_mul, abs_of_pos hstep] at h
  have hlt : |(m : ℚ) - n| < 1 := by
    by_contra hge
    have hmul := mul_le_mul_of_nonneg_right (not_lt.mp hge) hstep.le
    linarith
  have hint : |m - n| < 1 := by exact_mod_cast hlt
  rw [sub_eq_zero.mp (Int.abs_lt_one_iff.mp hint)]

/-- The point below a value by less than a step is the greatest below it. -/
theorem le_of_below (hr : OnGrid step r) (hnear : v - r < step) (hy : OnGrid step y)
    (hyv : y ≤ v) : y ≤ r := by
  by_contra hlt
  have hpos := sub_pos.mpr (not_le.mp hlt)
  have heq : y = r := hy.eq_of_lt hr (by
    rw [abs_of_pos hpos]
    linarith)
  exact hlt heq.le

theorem le_of_above (hr : OnGrid step r) (hnear : r - v < step) (hy : OnGrid step y)
    (hvy : v ≤ y) : r ≤ y := by
  by_contra hlt
  have hpos := sub_pos.mpr (not_le.mp hlt)
  have heq : r = y := hr.eq_of_lt hy (by
    rw [abs_of_pos hpos]
    linarith)
  exact hlt heq.le

/-- A point within half a step of a value is nearest to it. -/
theorem nearest (hr : OnGrid step r) (hnear : |r - v| ≤ step / 2) (hy : OnGrid step y) :
    |r - v| ≤ |y - v| := by
  by_contra hlt
  rw [not_le] at hlt
  have htriangle : |r - y| ≤ |r - v| + |v - y| := abs_sub_le r v y
  rw [abs_sub_comm v y] at htriangle
  have heq : r = y := hr.eq_of_lt hy (by linarith)
  rw [heq] at hlt
  exact lt_irrefl _ hlt

end OnGrid

/-! ## Mantissa and scale -/

structure Scaled where
  mantissa : ℤ
  scale : ℕ
  deriving DecidableEq

namespace Scaled

def value (x : Scaled) : ℚ := x.mantissa / 10 ^ x.scale

/-- A unit of the last of so many places. -/
def unit (places : ℕ) : ℚ := 1 / 10 ^ places

theorem unit_pos (places : ℕ) : 0 < unit places := by
  unfold unit
  positivity

/-- The zeros at the end of the mantissa left off, as far as the scale goes. -/
def strip (mantissa : ℤ) : ℕ → Scaled
  | 0 => ⟨mantissa, 0⟩
  | scale + 1 => if 10 ∣ mantissa then strip (mantissa / 10) scale else ⟨mantissa, scale + 1⟩

def normalize (x : Scaled) : Scaled := strip x.mantissa x.scale

theorem value_strip (mantissa : ℤ) (scale : ℕ) :
    (strip mantissa scale).value = mantissa / 10 ^ scale := by
  induction scale generalizing mantissa with
  | zero => rfl
  | succ scale ih =>
    unfold strip
    split
    · rename_i hdvd
      obtain ⟨part, rfl⟩ := hdvd
      rw [ih, Int.mul_ediv_cancel_left _ (by decide)]
      push_cast
      rw [pow_succ]
      field_simp
    · rfl

@[simp] theorem value_normalize (x : Scaled) : x.normalize.value = x.value :=
  value_strip x.mantissa x.scale

theorem strip_normal (mantissa : ℤ) (scale : ℕ) :
    (strip mantissa scale).scale = 0 ∨ ¬ 10 ∣ (strip mantissa scale).mantissa := by
  induction scale generalizing mantissa with
  | zero => exact .inl rfl
  | succ scale ih =>
    unfold strip
    split
    · exact ih _
    · rename_i hdvd
      exact .inr hdvd

/-- A normalized decimal is an integer, or its mantissa does not end in a zero. -/
theorem normalize_normal (x : Scaled) :
    x.normalize.scale = 0 ∨ ¬ 10 ∣ x.normalize.mantissa :=
  strip_normal x.mantissa x.scale

theorem onGrid_of_le {x : Scaled} {places : ℕ} (h : x.scale ≤ places) :
    OnGrid (unit places) x.value := by
  obtain ⟨more, rfl⟩ := Nat.exists_eq_add_of_le h
  refine ⟨x.mantissa * 10 ^ more, ?_⟩
  unfold value unit
  rw [pow_add]
  push_cast
  field_simp

/-- The scale of a normalized decimal is the fewest places its value can be written in. -/
theorem normalize_scale_le_iff {x : Scaled} {places : ℕ} :
    x.normalize.scale ≤ places ↔ OnGrid (unit places) x.value := by
  constructor
  · intro h
    rw [← value_normalize]
    exact onGrid_of_le h
  · intro hgrid
    rw [← value_normalize] at hgrid
    obtain hzero | hdvd := x.normalize_normal
    · rw [hzero]
      exact Nat.zero_le _
    · by_contra hlt
      obtain ⟨more, hmore⟩ := Nat.exists_eq_add_of_lt (not_le.mp hlt)
      obtain ⟨m, hm⟩ := hgrid
      refine hdvd ⟨m * 10 ^ more, ?_⟩
      unfold value unit at hm
      rw [hmore] at hm
      have hpow : (10 : ℚ) ^ (places + more + 1) = 10 ^ places * 10 ^ more * 10 := by
        rw [pow_succ, pow_add]
      rw [hpow] at hm
      have hvalue : (x.normalize.mantissa : ℚ) = 10 * (m * 10 ^ more) := by
        field_simp at hm
        linarith
      exact_mod_cast hvalue

end Scaled
