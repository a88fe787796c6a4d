import Mathlib.Algebra.GroupWithZero.Nat
import Mathlib.Data.Finset.Card
import Mathlib.Data.Finset.Dedup
import Mathlib.Data.List.DropRight
import Mathlib.Data.List.Nodup
import Mathlib.Data.List.Perm.Basic
import Mathlib.Tactic.Common

/-!
# A bounded memory, oldest forgotten first

A list of at most `cap` distinct items. Inserting an item it holds changes nothing; inserting
a new one into a full memory drops the oldest. What the memory guarantees about an item it
holds is `insertAll_behind`: the items behind it grow by exactly what is inserted, and it is
dropped only for `cap` items that are all newer.
-/

set_option autoImplicit false

universe u

/-- At most `cap` distinct items, oldest first. -/
structure BoundedFifo (α : Type u) (cap : Nat) where
  items : List α
  nodup : items.Nodup
  length_le : items.length ≤ cap
  deriving DecidableEq

namespace BoundedFifo

variable {α : Type u} {cap : Nat}

def empty : BoundedFifo α cap := ⟨[], List.nodup_nil, Nat.zero_le cap⟩

instance : Inhabited (BoundedFifo α cap) := ⟨empty⟩

@[simp] theorem items_empty : (empty : BoundedFifo α cap).items = [] := rfl

theorem rtake_rtake_append {l l' : List α} :
    (l.rtake cap ++ l').rtake cap = (l ++ l').rtake cap := by
  simp only [List.rtake, List.length_append, List.length_drop]
  rcases Nat.le_total l.length cap with h | h
  · simp [Nat.sub_eq_zero_of_le h]
  · rw [Nat.sub_sub_self h, show l.length + l'.length - cap = (l.length - cap) + l'.length by omega]
    rw [← List.drop_drop, List.drop_append_of_le_length (Nat.sub_le ..)]
    congr 1; omega

variable [DecidableEq α]

def contains (q : BoundedFifo α cap) (a : α) : Bool := decide (a ∈ q.items)

@[simp] theorem contains_iff {q : BoundedFifo α cap} {a : α} :
    q.contains a = true ↔ a ∈ q.items := by simp [contains]

/-- Drop `a`, keeping the order of the rest. -/
def forget (q : BoundedFifo α cap) (a : α) : BoundedFifo α cap :=
  ⟨q.items.filter (· ≠ a), q.nodup.filter _, (List.length_filter_le _ _).trans q.length_le⟩

@[simp] theorem items_forget {q : BoundedFifo α cap} {a : α} :
    (q.forget a).items = q.items.filter (· ≠ a) := rfl

/-! ## How long an item is held

`Covered a newer q` is what a run keeps true of an item it once inserted: the memory holds `a`
with only items of `newer` behind it, or `newer` has `cap` items besides `a` itself. -/

/-- The items an update brings in. -/
def arrivals (q q' : BoundedFifo α cap) : Finset α := q'.items.toFinset \ q.items.toFinset

@[simp] theorem mem_arrivals {q q' : BoundedFifo α cap} {a : α} :
    a ∈ q.arrivals q' ↔ a ∈ q'.items ∧ a ∉ q.items := by
  simp [arrivals]

def Covered (a : α) (newer : Finset α) (q : BoundedFifo α cap) : Prop :=
  (∃ front back, q.items = front ++ a :: back ∧ ∀ b ∈ back, b ∈ newer) ∨
    cap ≤ (newer.erase a).card

theorem Covered.le_card {a : α} {newer : Finset α} {q : BoundedFifo α cap}
    (h : Covered a newer q) (hout : a ∉ q.items) : cap ≤ (newer.erase a).card := by
  rcases h with ⟨front, back, hq, -⟩ | hcard
  · exact absurd (by rw [hq]; simp) hout
  · exact hcard

theorem Covered.mem {a : α} {newer : Finset α} {q : BoundedFifo α cap}
    (h : Covered a newer q) (hcard : (newer.erase a).card < cap) : a ∈ q.items := by
  by_contra hout
  exact absurd (h.le_card hout) (by omega)

theorem Covered.mono {a : α} {newer newer' : Finset α} {q : BoundedFifo α cap}
    (h : Covered a newer q) (hsub : newer ⊆ newer') : Covered a newer' q := by
  rcases h with ⟨front, back, hq, hb⟩ | hcard
  · exact Or.inl ⟨front, back, hq, fun b hmem => hsub (hb b hmem)⟩
  · exact Or.inr (hcard.trans (Finset.card_le_card (Finset.erase_subset_erase a hsub)))

theorem Covered.forget {a c : α} {newer : Finset α} {q : BoundedFifo α cap}
    (h : Covered a newer q) (hne : c ≠ a) : Covered a newer (q.forget c) := by
  rcases h with ⟨front, back, hq, hb⟩ | hcard
  · refine Or.inl ⟨front.filter (· ≠ c), back.filter (· ≠ c), ?_, ?_⟩
    · simp [hq, Ne.symm hne]
    · intro b hmem; exact hb b (List.mem_of_mem_filter hmem)
  · exact Or.inr hcard

/-! ## Insertion -/

variable [NeZero cap]

/-- Remember `a`, dropping the oldest item to make room for it. -/
def insert (q : BoundedFifo α cap) (a : α) : BoundedFifo α cap :=
  if h : a ∈ q.items then q
  else
    let kept := if q.items.length = cap then q.items.tail else q.items
    ⟨kept ++ [a], by
      have hsub : kept.Sublist q.items := by
        unfold kept; split
        · exact List.tail_sublist _
        · exact List.Sublist.refl _
      refine List.nodup_append.2 ⟨q.nodup.sublist hsub, List.nodup_singleton a, ?_⟩
      rintro x hx y hy rfl
      rw [List.mem_singleton] at hy
      exact h (hsub.subset (hy ▸ hx)), by
      have hcap : 0 < cap := Nat.pos_of_ne_zero (NeZero.ne cap)
      have hle := q.length_le
      unfold kept
      split <;> simp only [List.length_append, List.length_tail, List.length_singleton] <;> omega⟩

theorem insert_of_mem {q : BoundedFifo α cap} {a : α} (h : a ∈ q.items) : q.insert a = q := by
  simp [insert, h]

/-- A new item goes to the end, and the last `cap` are kept. -/
theorem items_insert_of_not_mem {q : BoundedFifo α cap} {a : α} (h : a ∉ q.items) :
    (q.insert a).items = (q.items ++ [a]).rtake cap := by
  have hcap : 0 < cap := Nat.pos_of_ne_zero (NeZero.ne cap)
  have hle := q.length_le
  simp only [insert, h, dif_neg, not_false_eq_true, List.rtake, List.length_append,
    List.length_singleton]
  split
  · rename_i hfull
    rw [show q.items.length + 1 - cap = 1 by omega, List.drop_append_of_le_length (by omega),
      List.drop_one]
  · rename_i hroom
    rw [show q.items.length + 1 - cap = 0 by omega, List.drop_zero]

theorem mem_insert_self (q : BoundedFifo α cap) (a : α) : a ∈ (q.insert a).items := by
  by_cases h : a ∈ q.items
  · rwa [insert_of_mem h]
  · simp [insert, h]

theorem mem_of_mem_insert {q : BoundedFifo α cap} {a b : α} (h : b ∈ (q.insert a).items) :
    b ∈ q.items ∨ b = a := by
  by_cases ha : a ∈ q.items
  · rw [insert_of_mem ha] at h; exact Or.inl h
  · rw [items_insert_of_not_mem ha, List.rtake] at h
    simpa using List.mem_of_mem_drop h

/-! ## A run of insertions -/

/-- Insert the items of a list in order. -/
def insertAll (q : BoundedFifo α cap) (l : List α) : BoundedFifo α cap := l.foldl insert q

@[simp] theorem insertAll_nil {q : BoundedFifo α cap} : q.insertAll [] = q := rfl

@[simp] theorem insertAll_cons {q : BoundedFifo α cap} {a : α} {l : List α} :
    q.insertAll (a :: l) = (q.insert a).insertAll l := rfl

theorem mem_of_mem_insertAll {q : BoundedFifo α cap} {l : List α} {b : α}
    (h : b ∈ (q.insertAll l).items) : b ∈ q.items ∨ b ∈ l := by
  induction l generalizing q with
  | nil => exact Or.inl h
  | cons a l ih =>
    rcases ih h with hq | hl
    · rcases mem_of_mem_insert hq with hq | rfl
      · exact Or.inl hq
      · exact Or.inr (List.mem_cons_self ..)
    · exact Or.inr (List.mem_cons_of_mem _ hl)

/-- New items go to the end in order, and the last `cap` are kept. -/
theorem items_insertAll {q : BoundedFifo α cap} {l : List α} (hl : l.Nodup)
    (hnew : ∀ a ∈ l, a ∉ q.items) : (q.insertAll l).items = (q.items ++ l).rtake cap := by
  induction l generalizing q with
  | nil => simp [List.rtake, Nat.sub_eq_zero_of_le q.length_le]
  | cons a l ih =>
    rw [List.nodup_cons] at hl
    have ha : a ∉ q.items := hnew a (List.mem_cons_self ..)
    rw [insertAll_cons, ih hl.2 ?_, items_insert_of_not_mem ha, rtake_rtake_append,
      List.append_assoc, List.singleton_append]
    intro b hb hmem
    rcases mem_of_mem_insert hmem with hq | rfl
    · exact hnew b (List.mem_cons_of_mem _ hb) hq
    · exact hl.1 hb

/-- After new items are inserted, an item either is still held, with exactly them added behind
    it, or was dropped for `cap` items that were all behind it. -/
theorem insertAll_behind {q : BoundedFifo α cap} {l front back : List α} {a : α}
    (hl : l.Nodup) (hnew : ∀ b ∈ l, b ∉ q.items) (hq : q.items = front ++ a :: back) :
    (∃ front', (q.insertAll l).items = front' ++ a :: (back ++ l)) ∨
    ((q.insertAll l).items.length = cap ∧
      ∀ b ∈ (q.insertAll l).items, b ∈ back ∨ b ∈ l) := by
  rw [items_insertAll hl hnew, hq, List.append_assoc, List.cons_append, List.rtake]
  set n := (front ++ a :: (back ++ l)).length - cap with hn
  rcases Nat.le_total n front.length with h | h
  · exact Or.inl ⟨front.drop n, List.drop_append_of_le_length h⟩
  · rcases Nat.eq_or_lt_of_le h with h | h
    · exact Or.inl ⟨[], by rw [← h]; simp⟩
    · refine Or.inr ⟨?_, fun b hb => ?_⟩
      · rw [List.length_drop]; omega
      · obtain ⟨k, hk⟩ : ∃ k, n = front.length + (k + 1) := ⟨n - front.length - 1, by omega⟩
        rw [hk, ← List.drop_drop, List.drop_left, List.drop_succ_cons] at hb
        simpa using List.mem_of_mem_drop hb

/-! ## How long an item is held, over insertions -/

theorem Covered.insertAll {a : α} {newer : Finset α} {q : BoundedFifo α cap} {l : List α}
    (h : Covered a newer q) (hl : l.Nodup) (hnew : ∀ b ∈ l, b ∉ q.items) :
    Covered a (newer ∪ q.arrivals (q.insertAll l)) (q.insertAll l) := by
  rcases h with ⟨front, back, hq, hb⟩ | hcard
  · rcases insertAll_behind hl hnew hq with ⟨front', hq'⟩ | ⟨hfull, hall⟩
    · refine Or.inl ⟨front', back ++ l, hq', fun b hmem => ?_⟩
      rcases List.mem_append.1 hmem with hback | hin
      · exact Finset.mem_union_left _ (hb b hback)
      · refine Finset.mem_union_right _ (mem_arrivals.2 ⟨?_, hnew b hin⟩)
        rw [hq']; simp [hin]
    · refine Or.inr ?_
      have hlen : cap = (q.insertAll l).items.toFinset.card := by
        rw [List.toFinset_card_of_nodup (q.insertAll l).nodup, hfull]
      refine hlen.le.trans (Finset.card_le_card fun b hmem => ?_)
      rw [List.mem_toFinset] at hmem
      have hnd := q.nodup
      rw [hq] at hnd
      have hback : a ∉ back := (List.nodup_cons.1 (List.nodup_append.1 hnd).2.1).1
      have hin : a ∉ l := fun ha => hnew a ha (by rw [hq]; simp)
      refine Finset.mem_erase.2 ⟨?_, ?_⟩
      · rintro rfl; exact (hall b hmem).elim hback hin
      · rcases hall b hmem with h | h
        · exact Finset.mem_union_left _ (hb b h)
        · exact Finset.mem_union_right _ (mem_arrivals.2 ⟨hmem, hnew b h⟩)
  · exact Or.inr (hcard.trans
      (Finset.card_le_card (Finset.erase_subset_erase a Finset.subset_union_left)))

theorem insert_last {q : BoundedFifo α cap} {a : α} (h : a ∉ q.items) :
    ∃ front, (q.insert a).items = front ++ [a] := by
  simp only [insert, h, dif_neg, not_false_eq_true]
  exact ⟨_, rfl⟩

/-- An item a run of insertions brings in is covered by what came with it. -/
theorem covered_of_insertAll {q : BoundedFifo α cap} {l : List α} {a : α} (hl : l.Nodup)
    (hnew : ∀ b ∈ l, b ∉ q.items) (hout : a ∉ q.items) (hin : a ∈ (q.insertAll l).items) :
    Covered a (q.arrivals (q.insertAll l)) (q.insertAll l) := by
  have hal : a ∈ l := (mem_of_mem_insertAll hin).resolve_left hout
  obtain ⟨l₁, l₂, rfl⟩ := List.append_of_mem hal
  rw [List.nodup_append, List.nodup_cons] at hl
  obtain ⟨hl₁, ⟨ha₂, hl₂⟩, hdisj⟩ := hl
  have ha₁ : a ∉ (q.insertAll l₁).items := fun h =>
    (mem_of_mem_insertAll h).elim hout fun h => hdisj a h a (List.mem_cons_self ..) rfl
  have hsplit : q.insertAll (l₁ ++ a :: l₂) = ((q.insertAll l₁).insert a).insertAll l₂ := by
    rw [BoundedFifo.insertAll, List.foldl_append]; rfl
  obtain ⟨front, hfront⟩ := insert_last ha₁
  have hnew₂ : ∀ b ∈ l₂, b ∉ ((q.insertAll l₁).insert a).items := by
    intro b hb hmem
    rcases mem_of_mem_insert hmem with hmem | rfl
    · rcases mem_of_mem_insertAll hmem with hmem | hmem
      · exact hnew b (by simp [hb]) hmem
      · exact hdisj b hmem b (List.mem_cons_of_mem _ hb) rfl
    · exact ha₂ hb
  rcases insertAll_behind hl₂ hnew₂ hfront with ⟨front', hq'⟩ | ⟨-, hall⟩
  · rw [← hsplit] at hq'
    refine Or.inl ⟨front', [] ++ l₂, hq', fun b hb => mem_arrivals.2 ⟨?_, hnew b ?_⟩⟩
    · rw [hq']; simp at hb; simp [hb]
    · simp at hb; simp [hb]
  · rw [← hsplit] at hall
    exact absurd (hall a hin) (by simp [ha₂])

/-- Inserting the item itself, or one counted as newer, keeps it covered. -/
theorem Covered.insert {a b : α} {newer : Finset α} {q : BoundedFifo α cap}
    (h : Covered a newer q) (hb : b = a ∨ b ∈ newer) : Covered a newer (q.insert b) := by
  by_cases hmem : b ∈ q.items
  · rwa [insert_of_mem hmem]
  · rcases hb with rfl | hb
    · exact Or.inr (h.le_card hmem)
    · have hone : q.insert b = q.insertAll [b] := rfl
      have hnew : ∀ c ∈ [b], c ∉ q.items := by
        intro c hc; rw [List.mem_singleton.1 hc]; exact hmem
      rw [hone]
      refine (h.insertAll (List.nodup_singleton b) hnew).mono fun c hc => ?_
      rcases Finset.mem_union.1 hc with hc | hc
      · exact hc
      · obtain ⟨hin, hout⟩ := mem_arrivals.1 hc
        rcases mem_of_mem_insertAll hin with hin | hin
        · exact absurd hin hout
        · rw [List.mem_singleton.1 hin]; exact hb

theorem Covered.insertAll_of_mem {a : α} {newer : Finset α} {l : List α}
    {q : BoundedFifo α cap} (h : Covered a newer q) (hl : ∀ b ∈ l, b = a ∨ b ∈ newer) :
    Covered a newer (q.insertAll l) := by
  induction l generalizing q with
  | nil => exact h
  | cons b l ih =>
    exact ih (h.insert (hl b (List.mem_cons_self ..)))
      fun b' hb' => hl b' (List.mem_cons_of_mem _ hb')

/-- A run of insertions that brings an item in covers it by what it inserts with it. -/
theorem covered_insertAll_of_mem {a : α} {newer : Finset α} {l : List α}
    {q : BoundedFifo α cap} (ha : a ∈ l) (hout : a ∉ q.items)
    (hl : ∀ b ∈ l, b = a ∨ b ∈ newer) : Covered a newer (q.insertAll l) := by
  induction l generalizing q with
  | nil => exact absurd ha (by simp)
  | cons b l ih =>
    by_cases hb : b = a
    · subst hb
      obtain ⟨front, hfront⟩ := insert_last hout
      have hcov : Covered b newer (q.insert b) := Or.inl ⟨front, [], hfront, by simp⟩
      exact hcov.insertAll_of_mem fun b' hb' => hl b' (List.mem_cons_of_mem _ hb')
    · refine ih ((List.mem_cons.1 ha).resolve_left (Ne.symm hb)) (fun hmem => ?_)
        fun b' hb' => hl b' (List.mem_cons_of_mem _ hb')
      exact (mem_of_mem_insert hmem).elim hout (Ne.symm hb)

end BoundedFifo
