import Mathlib.Order.Lattice
import Mathlib.Tactic.Common

/-!
# Joining a list into a value

`joinAll b l` is the join of `b` with everything in `l`. It is the least upper bound, so it
depends on what the list contains and on nothing else: order and repetition do not matter.
-/

set_option autoImplicit false

universe u

variable {α : Type u} [SemilatticeSup α]

def joinAll (b : α) (l : List α) : α := l.foldl (· ⊔ ·) b

@[simp] theorem joinAll_nil {b : α} : joinAll b [] = b := rfl

@[simp] theorem joinAll_cons {b x : α} {l : List α} :
    joinAll b (x :: l) = joinAll (b ⊔ x) l := rfl

theorem joinAll_le_iff {b a : α} {l : List α} :
    joinAll b l ≤ a ↔ b ≤ a ∧ ∀ x ∈ l, x ≤ a := by
  induction l generalizing b with
  | nil => simp
  | cons x l ih => simp [ih, and_assoc]

theorem joinAll_congr {b : α} {l l' : List α} (h : ∀ x, x ∈ l ↔ x ∈ l') :
    joinAll b l = joinAll b l' := by
  refine le_antisymm (joinAll_le_iff.2 ?_) (joinAll_le_iff.2 ?_)
  · have hle := joinAll_le_iff.1 (le_refl (joinAll b l'))
    exact ⟨hle.1, fun x hx => hle.2 x ((h x).1 hx)⟩
  · have hle := joinAll_le_iff.1 (le_refl (joinAll b l))
    exact ⟨hle.1, fun x hx => hle.2 x ((h x).2 hx)⟩
