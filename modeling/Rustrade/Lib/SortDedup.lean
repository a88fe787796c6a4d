import Mathlib.Data.List.Destutter
import Mathlib.Data.List.Sort
import Mathlib.Tactic.Common

/-!
# Sorted without duplicates

A list sorted by a linear order and then rid of equal neighbours holds each of its members once, in
ascending order, so it is determined by what the members are. A search by a key for the first
member whose key an earlier one has finds one exactly where keys are shared.
-/

set_option autoImplicit false

universe u v

namespace List

section

variable {α : Type u} [LinearOrder α] {xs ys : List α} {a : α}

/-- `sort` and then `dedup`. -/
def sortDedup (xs : List α) : List α := (xs.insertionSort (· ≤ ·)).destutter (· ≠ ·)

theorem mem_destutter'_ne {x : α} :
    a ∈ destutter' (· ≠ ·) x xs ↔ a ∈ x :: xs := by
  induction xs generalizing x with
  | nil => simp
  | cons y xs ih =>
    by_cases hxy : x ≠ y
    · rw [destutter'_cons_pos _ hxy, mem_cons, ih, mem_cons (a := a) (b := x)]
    · have hxy : x = y := not_not.1 hxy
      subst hxy
      rw [destutter'_cons_neg _ (not_not.2 rfl), ih]
      simp

@[simp] theorem mem_sortDedup : a ∈ xs.sortDedup ↔ a ∈ xs := by
  rw [← (perm_insertionSort (· ≤ ·) xs).mem_iff]
  unfold sortDedup
  cases hsort : xs.insertionSort (· ≤ ·) with
  | nil => simp
  | cons x rest => exact mem_destutter'_ne

theorem isChain_lt (hle : xs.Pairwise (· ≤ ·)) (hne : xs.IsChain (· ≠ ·)) : xs.IsChain (· < ·) := by
  induction xs with
  | nil => exact .nil
  | cons a xs ih =>
    cases xs with
    | nil => exact .singleton a
    | cons b xs =>
      obtain ⟨hab, hne⟩ := isChain_cons_cons.1 hne
      obtain ⟨hale, hle⟩ := pairwise_cons.1 hle
      exact isChain_cons_cons.2 ⟨lt_of_le_of_ne (hale b (mem_cons_self ..)) hab, ih hle hne⟩

theorem pairwise_sortDedup : xs.sortDedup.Pairwise (· < ·) := by
  have hle : xs.sortDedup.Pairwise (· ≤ ·) := (pairwise_insertionSort (· ≤ ·) xs).sublist (destutter_sublist _ _)
  have hne : xs.sortDedup.IsChain (· ≠ ·) := isChain_destutter _ _
  exact (isChain_lt hle hne).pairwise

theorem nodup_sortDedup : xs.sortDedup.Nodup := pairwise_sortDedup.imp ne_of_lt

/-- Ascending lists with the same members are the same. -/
theorem eq_of_pairwise_lt (hxs : xs.Pairwise (· < ·)) (hys : ys.Pairwise (· < ·))
    (h : ∀ a, a ∈ xs ↔ a ∈ ys) : xs = ys := by
  have hperm : xs.Perm ys :=
    (perm_ext_iff_of_nodup (hxs.imp ne_of_lt) (hys.imp ne_of_lt)).2 h
  exact hperm.eq_of_pairwise (fun a b _ _ hab hba => absurd hab hba.asymm) hxs hys

theorem sortDedup_eq_iff : xs.sortDedup = ys.sortDedup ↔ ∀ a, a ∈ xs ↔ a ∈ ys := by
  constructor
  · intro h a
    rw [← mem_sortDedup, h, mem_sortDedup]
  · intro h
    apply eq_of_pairwise_lt pairwise_sortDedup pairwise_sortDedup
    simpa using h

end

/-! ## Shared keys -/

section

variable {α : Type u} {κ : Type v} [DecidableEq κ] {key : α → κ} {xs seen : List α}

/-- The first member whose key is that of an earlier one, which comes with it. -/
def firstDuplicate (key : α → κ) : List α → List α → Option (α × α)
  | _, [] => none
  | seen, a :: rest =>
    match seen.find? fun previous => key previous = key a with
    | some previous => some (previous, a)
    | none => firstDuplicate key (a :: seen) rest

theorem firstDuplicate_eq_none_iff :
    firstDuplicate key seen xs = none ↔
      (xs.map key).Nodup ∧ ∀ a ∈ xs, ∀ previous ∈ seen, key previous ≠ key a := by
  induction xs generalizing seen with
  | nil => simp [firstDuplicate]
  | cons a rest ih =>
    unfold firstDuplicate
    cases hfind : seen.find? fun previous => key previous = key a with
    | some previous =>
      have hkey : key previous = key a := by simpa using find?_some hfind
      refine iff_of_false (by simp) ?_
      rintro ⟨-, hne⟩
      exact hne a (mem_cons_self ..) previous (mem_of_find?_eq_some hfind) hkey
    | none =>
      have hfresh : ∀ previous ∈ seen, key previous ≠ key a := by
        simpa using hfind
      rw [ih, map_cons, nodup_cons]
      constructor
      · rintro ⟨hnodup, hne⟩
        refine ⟨⟨?_, hnodup⟩, ?_⟩
        · intro hmem
          obtain ⟨b, hb, hkey⟩ := mem_map.1 hmem
          exact hne b hb a (mem_cons_self ..) hkey.symm
        · intro b hb previous hprevious
          rcases mem_cons.1 hb with rfl | hb
          · exact hfresh previous hprevious
          · exact hne b hb previous (mem_cons_of_mem a hprevious)
      · rintro ⟨⟨hmem, hnodup⟩, hne⟩
        refine ⟨hnodup, ?_⟩
        intro b hb previous hprevious
        rcases mem_cons.1 hprevious with rfl | hprevious
        · intro hkey
          exact hmem (mem_map.2 ⟨b, hb, hkey.symm⟩)
        · exact hne b (mem_cons_of_mem a hb) previous hprevious

/-- None is found exactly where no two share a key. -/
theorem firstDuplicate_nil_eq_none_iff : firstDuplicate key [] xs = none ↔ (xs.map key).Nodup := by
  rw [firstDuplicate_eq_none_iff]
  simp

end

end List
