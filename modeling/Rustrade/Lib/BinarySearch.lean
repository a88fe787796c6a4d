import Mathlib.Data.List.Basic
import Mathlib.Tactic.Common

/-!
# Binary search by a comparison

`List.binarySearchBy` halves a window the way the standard library's `binary_search_by` does, and
answers the index of a match, or the index at which one would be inserted. On a list the
comparison crosses once (first smaller, then at most one match, then greater) its answer splits
the list, which is all a caller has to know of it.
-/

set_option autoImplicit false

namespace List

universe u

variable {α : Type u} {f : α → Ordering} {xs : List α}

/-- The window `[base, base + size)`, halved until one index is left. -/
def narrow (xs : List α) (f : α → Ordering) (base size : ℕ) : ℕ :=
  if size ≤ 1 then base
  else
    let half := size / 2
    let mid := base + half
    narrow xs f (if xs[mid]?.map f = some .gt then base else mid) (size - half)
termination_by size

/-- The index of a match (`ok`), or where one would go (`error`). -/
def binarySearchBy (xs : List α) (f : α → Ordering) : Except ℕ ℕ :=
  let base := narrow xs f 0 xs.length
  match xs[base]?.map f with
  | none => .error 0
  | some .eq => .ok base
  | some .lt => .error (base + 1)
  | some .gt => .error base

/-- First smaller, then at most one match, then greater. -/
def Crosses (f : α → Ordering) (xs : List α) : Prop :=
  xs.Pairwise fun a b => f a = .lt ∨ f b = .gt

/-- Every index below is smaller, every index from `hi` on is greater. -/
structure Window (f : α → Ordering) (xs : List α) (lo hi : ℕ) : Prop where
  lt : ∀ i, i < lo → ∀ x ∈ xs[i]?, f x = .lt
  gt : ∀ i, hi ≤ i → ∀ x ∈ xs[i]?, f x = .gt

theorem Crosses.getElem? (h : Crosses f xs) {i j : ℕ} {x y : α} (hij : i < j)
    (hx : xs[i]? = some x) (hy : xs[j]? = some y) : f x = .lt ∨ f y = .gt := by
  obtain ⟨hi, rfl⟩ := List.getElem?_eq_some_iff.mp hx
  obtain ⟨hj, rfl⟩ := List.getElem?_eq_some_iff.mp hy
  exact List.pairwise_iff_getElem.mp h i j hi hj hij

theorem narrow_window (h : Crosses f xs) {base size : ℕ} (hsize : 0 < size)
    (hlen : base + size ≤ xs.length) (hw : Window f xs base (base + size)) :
    narrow xs f base size < xs.length ∧
      Window f xs (narrow xs f base size) (narrow xs f base size + 1) := by
  fun_induction narrow xs f base size with
  | case1 base size hone =>
    have : size = 1 := by omega
    subst this
    exact ⟨by omega, hw⟩
  | case2 base size hone half mid ih =>
    have hmid : mid < xs.length := by omega
    have hget : xs[mid]? = some xs[mid] := List.getElem?_eq_getElem hmid
    by_cases hgt : xs[mid]?.map f = some .gt
    · -- What lies past the middle is greater too: only the lower part is left.
      simp only [if_pos hgt, dif_pos hgt] at ih ⊢
      rw [hget, Option.map_some, Option.some.injEq] at hgt
      refine ih (by omega) (by omega) ⟨hw.lt, ?_⟩
      intro i hi x hx
      rcases Nat.lt_or_ge mid i with hlt | hge
      · rcases h.getElem? hlt hget hx with hmidlt | hxgt
        · rw [hgt] at hmidlt
          cases hmidlt
        · exact hxgt
      · have : i = mid := by omega
        subst this
        rw [hget] at hx
        cases hx
        exact hgt
    · simp only [if_neg hgt, dif_neg hgt] at ih ⊢
      rw [hget, Option.map_some, Option.some.injEq] at hgt
      refine ih (by omega) (by omega) ⟨?_, ?_⟩
      · intro i hi x hx
        rcases h.getElem? hi hx hget with hlt | hmidgt
        · exact hlt
        · exact absurd hmidgt hgt
      · intro i hi
        exact hw.gt i (by omega)

/-- What the search found splits the list. -/
inductive Split (f : α → Ordering) (xs : List α) : Except ℕ ℕ → Prop where
  | found {pre post : List α} {x : α} (hxs : xs = pre ++ x :: post) (hx : f x = .eq)
      (hpre : ∀ y ∈ pre, f y = .lt) (hpost : ∀ y ∈ post, f y = .gt) :
      Split f xs (.ok pre.length)
  | missing {pre post : List α} (hxs : xs = pre ++ post)
      (hpre : ∀ y ∈ pre, f y = .lt) (hpost : ∀ y ∈ post, f y = .gt) :
      Split f xs (.error pre.length)

theorem binarySearchBy_split (h : Crosses f xs) : Split f xs (xs.binarySearchBy f) := by
  unfold binarySearchBy
  rcases Nat.eq_zero_or_pos xs.length with hzero | hpos
  · rw [List.length_eq_zero_iff] at hzero
    subst hzero
    have hsplit : Split f ([] : List α) (.error ([] : List α).length) :=
      .missing rfl (fun _ h => absurd h List.not_mem_nil) fun _ h => absurd h List.not_mem_nil
    exact hsplit
  · have hall : Window f xs 0 (0 + xs.length) := by
      refine ⟨fun i hi => absurd hi (Nat.not_lt_zero i), ?_⟩
      intro i hi x hx
      rw [List.getElem?_eq_none (by omega)] at hx
      cases hx
    obtain ⟨hlt, hw⟩ := narrow_window h hpos (by omega) hall
    generalize narrow xs f 0 xs.length = base at hlt hw
    have hpre : ∀ y ∈ xs.take base, f y = .lt := by
      intro y hy
      obtain ⟨i, hi, rfl⟩ := List.mem_take_iff_getElem.mp hy
      exact hw.lt i (by omega) _ (List.getElem?_eq_getElem _)
    have hpost : ∀ y ∈ xs.drop (base + 1), f y = .gt := by
      intro y hy
      obtain ⟨i, hi, rfl⟩ := List.mem_drop_iff_getElem.mp hy
      exact hw.gt (base + 1 + i) (by omega) _ (List.getElem?_eq_getElem _)
    have hlen : (xs.take base).length = base := by
      rw [List.length_take]
      omega
    have hdrop : xs.drop base = xs[base] :: xs.drop (base + 1) := List.drop_eq_getElem_cons hlt
    dsimp only
    rw [List.getElem?_eq_getElem hlt, Option.map_some]
    split
    · rename_i heq
      cases heq
    · rename_i heq
      have hxs : xs = xs.take base ++ xs[base] :: xs.drop (base + 1) := by
        rw [← hdrop, List.take_append_drop]
      have hsplit := Split.found hxs (Option.some.inj heq) hpre hpost
      rwa [hlen] at hsplit
    · rename_i heq
      have hupto : ∀ y ∈ xs.take (base + 1), f y = .lt := by
        intro y hy
        rw [List.take_succ_eq_append_getElem hlt, List.mem_append, List.mem_singleton] at hy
        rcases hy with hy | rfl
        · exact hpre y hy
        · exact Option.some.inj heq
      have hsplit := Split.missing (List.take_append_drop _ _).symm hupto hpost
      rwa [List.length_take, Nat.min_eq_left hlt] at hsplit
    · rename_i heq
      have hfrom : ∀ y ∈ xs.drop base, f y = .gt := by
        intro y hy
        rw [hdrop, List.mem_cons] at hy
        rcases hy with rfl | hy
        · exact Option.some.inj heq
        · exact hpost y hy
      have hsplit := Split.missing (List.take_append_drop _ _).symm hpre hfrom
      rwa [hlen] at hsplit

/-- Where a list that first meets `p` and then does not turns. -/
def partitionPoint (xs : List α) (p : α → Bool) : ℕ :=
  match xs.binarySearchBy fun x => if p x then .lt else .gt with
  | .ok i => i
  | .error i => i

theorem drop_partitionPoint {p : α → Bool} (h : xs.Pairwise fun a b => p b → p a) :
    xs.drop (xs.partitionPoint p) = xs.dropWhile p := by
  have hcrosses : Crosses (fun x => if p x then .lt else .gt) xs := by
    apply h.imp
    intro a b hba
    cases hb : p b with
    | true => simp [hba hb]
    | false => exact .inr (by simp [hb])
  have hsplit := binarySearchBy_split hcrosses
  unfold partitionPoint
  cases hfound : xs.binarySearchBy fun x => if p x then .lt else .gt with
  | ok i =>
    rw [hfound] at hsplit
    cases hsplit with
    | found hxs hx => split at hx <;> cases hx
  | error i =>
    rw [hfound] at hsplit
    cases hsplit with
    | @missing pre post hxs hpre hpost =>
      have hbefore : ∀ y ∈ pre, p y = true := by
        intro y hy
        have := hpre y hy
        split at this
        · assumption
        · cases this
      have hafter : post.dropWhile p = post := by
        cases post with
        | nil => rfl
        | cons y rest =>
          have := hpost y List.mem_cons_self
          split at this
          · cases this
          · rename_i hnot
            exact List.dropWhile_cons_of_neg hnot
      show xs.drop pre.length = xs.dropWhile p
      rw [hxs, List.drop_left, List.dropWhile_append_of_pos hbefore, hafter]

end List
