import Mathlib.Data.List.Basic
import Mathlib.Data.List.Induction
import Mathlib.Tactic.Common

/-!
# The latest of each key

Elements carry a key and a revision. What is kept under a key is the first of its elements that
none goes beyond.
-/

set_option autoImplicit false

universe u v

namespace Latest

variable {α : Type u} {κ : Type v} [DecidableEq κ] (key : α → κ) (revision : α → ℕ)

/-- An element takes the place of the one kept if it is later. -/
def prefer : Option α → α → Option α
  | some kept, a => if revision kept < revision a then some a else some kept
  | none, a => some a

/-- What is kept under a key, of a list. -/
def latest (l : List α) (k : κ) : Option α :=
  (l.filter fun a => key a = k).foldl (prefer revision) none

@[simp] theorem latest_nil (k : κ) : latest key revision [] k = none := rfl

theorem latest_snoc_self (l : List α) (a : α) :
    latest key revision (l ++ [a]) (key a) =
      prefer revision (latest key revision l (key a)) a := by
  simp [latest]

theorem latest_snoc_of_ne (l : List α) {a : α} {k : κ} (h : key a ≠ k) :
    latest key revision (l ++ [a]) k = latest key revision l k := by
  simp [latest, h]

/-- The element kept is the latest of its key. -/
structure IsLatest (l : List α) (k : κ) (a : α) : Prop where
  mem : a ∈ l
  keyed : key a = k
  le : ∀ b ∈ l, key b = k → revision b ≤ revision a

variable {key revision}

theorem latest_spec (l : List α) (k : κ) :
    (∀ a, latest key revision l k = some a → IsLatest key revision l k a) ∧
      (latest key revision l k = none → ∀ a ∈ l, key a ≠ k) := by
  induction l using List.reverseRecOn with
  | nil => simp
  | append_singleton l b ih =>
    by_cases hkey : key b = k
    · subst hkey
      rw [latest_snoc_self]
      cases hkept : latest key revision l (key b) with
      | none =>
        refine ⟨fun a ha => ?_, fun h => by simp [prefer] at h⟩
        obtain rfl : b = a := by simpa [prefer] using ha
        refine ⟨by simp, rfl, fun c hc hck => ?_⟩
        obtain hold | hnew := List.mem_append.mp hc
        · exact absurd hck (ih.2 hkept c hold)
        · exact Nat.le_of_eq (congrArg revision (List.mem_singleton.mp hnew))
      | some kept =>
        have hlatest := ih.1 kept hkept
        by_cases hlt : revision kept < revision b
        · refine ⟨fun a ha => ?_, fun h => by simp [prefer, hlt] at h⟩
          obtain rfl : b = a := by simpa [prefer, hlt] using ha
          refine ⟨by simp, rfl, fun c hc hck => ?_⟩
          obtain hold | hnew := List.mem_append.mp hc
          · exact Nat.le_trans (hlatest.le c hold hck) (Nat.le_of_lt hlt)
          · exact Nat.le_of_eq (congrArg revision (List.mem_singleton.mp hnew))
        · refine ⟨fun a ha => ?_, fun h => by simp [prefer, hlt] at h⟩
          obtain rfl : kept = a := by simpa [prefer, hlt] using ha
          refine ⟨by simp [hlatest.mem], hlatest.keyed, fun c hc hck => ?_⟩
          obtain hold | hnew := List.mem_append.mp hc
          · exact hlatest.le c hold hck
          · rw [List.mem_singleton.mp hnew]
            exact Nat.le_of_not_lt hlt
    · rw [latest_snoc_of_ne key revision l hkey]
      constructor
      · intro a ha
        have hlatest := ih.1 a ha
        refine ⟨by simp [hlatest.mem], hlatest.keyed, fun c hc hck => ?_⟩
        obtain hold | hnew := List.mem_append.mp hc
        · exact hlatest.le c hold hck
        · exact absurd (List.mem_singleton.mp hnew ▸ hck) hkey
      · intro hnone c hc
        obtain hold | hnew := List.mem_append.mp hc
        · exact ih.2 hnone c hold
        · rw [List.mem_singleton.mp hnew]
          exact hkey

theorem isLatest_of_eq_some {l : List α} {k : κ} {a : α}
    (h : latest key revision l k = some a) : IsLatest key revision l k a :=
  (latest_spec l k).1 a h

theorem exists_latest {l : List α} {a : α} (h : a ∈ l) :
    ∃ kept, latest key revision l (key a) = some kept := by
  cases hkept : latest key revision l (key a) with
  | none => exact absurd rfl ((latest_spec l (key a)).2 hkept a h)
  | some kept => exact ⟨kept, rfl⟩

/-- The latest is a matter of the elements under the key alone. -/
theorem latest_congr {μ : Type v} [DecidableEq μ] {key' : α → μ} {l : List α} {k : κ} {m : μ}
    (h : ∀ a ∈ l, key a = k ↔ key' a = m) :
    latest key revision l k = latest key' revision l m := by
  unfold latest
  congr 1
  exact List.filter_congr fun a ha => by simp [h a ha]

/-- Among elements of no revision the first is kept. -/
theorem latest_of_zero {l : List α} {k : κ} (h : ∀ a ∈ l, key a = k → revision a = 0) :
    latest key revision l k = l.find? fun a => key a = k := by
  induction l using List.reverseRecOn with
  | nil => rfl
  | append_singleton l b ih =>
    have hl := ih fun a ha => h a (List.mem_append_left _ ha)
    rw [List.find?_append, ← hl]
    by_cases hkey : key b = k
    · have hzero := h b (by simp) hkey
      subst hkey
      rw [latest_snoc_self]
      cases latest key revision l (key b) with
      | none => simp [prefer]
      | some kept => simp [prefer, hzero]
    · rw [latest_snoc_of_ne key revision l hkey]
      simp [hkey]

end Latest
