import Mathlib.Data.List.Nodup
import Mathlib.Data.List.Perm.Basic
import Mathlib.Tactic.Common

/-!
# Insertion-ordered maps

A map as the list of its entries in insertion order, with the proof that no key occurs
twice carried as a field. Inserting under a key the map has replaces the value and keeps the
entry's place; a new key goes to the end. A reader never needs the list: `get?` is the whole
observation, and every operation below has one lemma saying what it does to `get?`.

A hash map is the same structure read through `HashOrder`: its entries come in an order the
program does not control, so an operation that iterates takes the order as an argument and its
lemmas hold for every one.
-/

set_option autoImplicit false

universe u v

/-- The order a hash map yields its entries in: any rearrangement of them. -/
structure HashOrder where
  arrange : {α : Type} → List α → List α
  perm : ∀ {α : Type} (l : List α), (arrange l).Perm l

namespace HashOrder

/-- Entries in the order they were first inserted. -/
def insertion : HashOrder := ⟨fun l => l, fun l => List.Perm.refl l⟩

/-- Entries with the most recently inserted first. -/
def reversed : HashOrder := ⟨List.reverse, fun l => List.reverse_perm l⟩

@[simp] theorem mem_arrange {hash : HashOrder} {α : Type} {l : List α} {a : α} :
    a ∈ hash.arrange l ↔ a ∈ l := (hash.perm l).mem_iff

theorem nodup_arrange {hash : HashOrder} {α : Type} {l : List α} :
    (hash.arrange l).Nodup ↔ l.Nodup := (hash.perm l).nodup_iff

end HashOrder

/-- A map from `K` to `V` that remembers the order its keys were inserted in. -/
structure IndexMap (K : Type u) (V : Type v) where
  entries : List (K × V)
  nodup : (entries.map Prod.fst).Nodup
  deriving DecidableEq

namespace IndexMap

variable {K : Type u} {V : Type v} {W : Type v}

@[ext] theorem ext {m m' : IndexMap K V} (h : m.entries = m'.entries) : m = m' := by
  cases m; cases m'; cases h; rfl

/-! ## Operations -/

def empty : IndexMap K V := ⟨[], List.nodup_nil⟩

instance : Inhabited (IndexMap K V) := ⟨empty⟩

def keys (m : IndexMap K V) : List K := m.entries.map Prod.fst

def values (m : IndexMap K V) : List V := m.entries.map Prod.snd

def len (m : IndexMap K V) : Nat := m.entries.length

def isEmpty (m : IndexMap K V) : Bool := m.entries.isEmpty

/-- Drop every entry `p` refuses, keeping the order of the rest. -/
def retain (m : IndexMap K V) (p : K → V → Bool) : IndexMap K V :=
  ⟨m.entries.filter fun e => p e.1 e.2, m.nodup.sublist (List.filter_sublist.map Prod.fst)⟩

/-- Rewrite every value in place. -/
def mapValues (m : IndexMap K V) (f : K → V → W) : IndexMap K W :=
  ⟨m.entries.map fun e => (e.1, f e.1 e.2), by
    have h : ((m.entries.map fun e => (e.1, f e.1 e.2)).map Prod.fst)
        = m.entries.map Prod.fst := by
      rw [List.map_map]; rfl
    rw [h]; exact m.nodup⟩

/-- The oldest entry removed. -/
def removeFirst (m : IndexMap K V) : IndexMap K V :=
  ⟨m.entries.tail, m.nodup.sublist ((List.tail_sublist m.entries).map Prod.fst)⟩

theorem nodup_keys (m : IndexMap K V) : m.keys.Nodup := m.nodup

variable [DecidableEq K]

def get? (m : IndexMap K V) (k : K) : Option V :=
  (m.entries.find? fun e => e.1 = k).map Prod.snd

def contains (m : IndexMap K V) (k : K) : Bool := (m.get? k).isSome

/-- Apply `f` to the value under `k`, if there is one. -/
def modify (m : IndexMap K V) (k : K) (f : V → V) : IndexMap K V :=
  m.mapValues fun k' v => if k' = k then f v else v

/-- Remove `k`, keeping the order of the rest. -/
def remove (m : IndexMap K V) (k : K) : IndexMap K V := m.retain fun k' _ => k' ≠ k

/-- Put `v` under `k`: in place if `k` has an entry, at the end otherwise. -/
def insert (m : IndexMap K V) (k : K) (v : V) : IndexMap K V :=
  if h : k ∈ m.keys then m.modify k fun _ => v
  else ⟨m.entries ++ [(k, v)], by
    simp only [List.map_append, List.map_cons, List.map_nil]
    exact List.nodup_append.2 ⟨m.nodup, List.nodup_singleton k, fun a ha b hb => by
      rintro rfl; rw [List.mem_singleton] at hb; subst hb; exact h ha⟩⟩

/-- Put `v` under `k` unless `k` has an entry already. -/
def insertIfAbsent (m : IndexMap K V) (k : K) (v : V) : IndexMap K V :=
  if m.contains k then m else m.insert k v

/-! ## What a lookup answers -/

theorem get?_eq_some_iff {m : IndexMap K V} {k : K} {v : V} :
    m.get? k = some v ↔ (k, v) ∈ m.entries := by
  have key : ∀ l : List (K × V), (l.map Prod.fst).Nodup →
      ((l.find? fun e => e.1 = k).map Prod.snd = some v ↔ (k, v) ∈ l) := by
    intro l
    induction l with
    | nil => simp
    | cons e l ih =>
      intro hnd
      rw [List.map_cons, List.nodup_cons] at hnd
      obtain ⟨k', v'⟩ := e
      by_cases hk : k' = k
      · subst hk
        have hnot : (k', v) ∉ l := fun hm => hnd.1 (List.mem_map.2 ⟨_, hm, rfl⟩)
        simp [hnot, eq_comm]
      · simp [hk, ih hnd.2, Ne.symm hk]
  exact key m.entries m.nodup

theorem contains_iff {m : IndexMap K V} {k : K} :
    m.contains k = true ↔ ∃ v, m.get? k = some v := by
  simp [contains, Option.isSome_iff_exists]

theorem not_contains_iff {m : IndexMap K V} {k : K} :
    m.contains k = false ↔ m.get? k = none := by
  simp [contains]

theorem mem_keys_iff {m : IndexMap K V} {k : K} : k ∈ m.keys ↔ ∃ v, m.get? k = some v := by
  simp only [keys, List.mem_map, get?_eq_some_iff]
  constructor
  · rintro ⟨⟨k', v⟩, hm, rfl⟩; exact ⟨v, hm⟩
  · rintro ⟨v, hm⟩; exact ⟨(k, v), hm, rfl⟩

theorem mem_keys_iff_contains {m : IndexMap K V} {k : K} : k ∈ m.keys ↔ m.contains k = true := by
  rw [mem_keys_iff, contains_iff]

omit [DecidableEq K] in
/-- A map whose keys are all one holds at most one entry. -/
theorem length_le_one_of_keys {m : IndexMap K V} {k : K} (h : ∀ k' ∈ m.keys, k' = k) :
    m.entries.length ≤ 1 := by
  have hlength : m.entries.length = m.keys.length := by simp [keys]
  rw [hlength]
  have hnodup := m.nodup_keys
  match hkeys : m.keys with
  | [] | [_] => simp
  | k₁ :: k₂ :: _ =>
    have hsame : k₁ = k₂ := (h k₁ (by simp [hkeys])).trans (h k₂ (by simp [hkeys])).symm
    rw [hkeys, hsame] at hnodup
    exact absurd hnodup (by simp)

theorem mem_values_iff {m : IndexMap K V} {v : V} :
    v ∈ m.values ↔ ∃ k, m.get? k = some v := by
  simp only [values, List.mem_map, get?_eq_some_iff]
  constructor
  · rintro ⟨⟨k, v'⟩, hm, rfl⟩; exact ⟨k, hm⟩
  · rintro ⟨k, hm⟩; exact ⟨(k, v), hm, rfl⟩

@[simp] theorem get?_empty {k : K} : (empty : IndexMap K V).get? k = none := rfl

@[simp] theorem contains_empty {k : K} : (empty : IndexMap K V).contains k = false := rfl

theorem get?_retain {m : IndexMap K V} {p : K → V → Bool} {k : K} :
    (m.retain p).get? k = (m.get? k).filter (p k) := by
  ext v
  rw [get?_eq_some_iff, Option.filter_eq_some_iff, get?_eq_some_iff]
  simp [retain]

theorem get?_mapValues {m : IndexMap K V} {f : K → V → W} {k : K} :
    (m.mapValues f).get? k = (m.get? k).map (f k) := by
  ext w
  rw [get?_eq_some_iff, Option.map_eq_some_iff]
  simp only [get?_eq_some_iff, mapValues, List.mem_map, Prod.mk.injEq, Prod.exists]
  constructor
  · rintro ⟨k', v, hm, rfl, rfl⟩; exact ⟨v, hm, rfl⟩
  · rintro ⟨v, hm, rfl⟩; exact ⟨k, v, hm, rfl, rfl⟩

theorem get?_modify {m : IndexMap K V} {k k' : K} {f : V → V} :
    (m.modify k f).get? k' = if k' = k then (m.get? k').map f else m.get? k' := by
  rw [modify, get?_mapValues]
  by_cases h : k' = k <;> simp [h]

theorem modify_of_none {m : IndexMap K V} {k : K} {f : V → V} (h : m.get? k = none) :
    m.modify k f = m := by
  ext1
  refine (List.map_congr_left fun e he => ?_).trans (List.map_id m.entries)
  have hne : e.1 ≠ k := by
    intro hkey
    have hget : m.get? k = some e.2 := get?_eq_some_iff.2 (hkey ▸ he)
    rw [hget] at h
    cases h
  simp [hne]

theorem remove_modify {m : IndexMap K V} {k a : K} {f : V → V} :
    (m.modify a f).remove k = (m.remove k).modify a f := by
  ext1
  simp [modify, remove, retain, mapValues, List.filter_map, Function.comp_def]

theorem get?_remove {m : IndexMap K V} {k k' : K} :
    (m.remove k).get? k' = if k' = k then none else m.get? k' := by
  rw [remove, get?_retain]
  by_cases h : k' = k
  · simp [h]
  · cases hv : m.get? k' <;> simp [h, Option.filter]

theorem get?_insert {m : IndexMap K V} {k k' : K} {v : V} :
    (m.insert k v).get? k' = if k' = k then some v else m.get? k' := by
  unfold insert
  split
  · rename_i hk
    obtain ⟨w, hw⟩ := mem_keys_iff.1 hk
    rw [get?_modify]
    by_cases h : k' = k
    · subst h; simp [hw]
    · simp [h]
  · rename_i hk
    ext w
    rw [get?_eq_some_iff]
    by_cases h : k' = k
    · subst h
      have hnot : (k', w) ∉ m.entries := fun hm => hk (List.mem_map_of_mem (f := Prod.fst) hm)
      simp [hnot, eq_comm]
    · simp [h, get?_eq_some_iff]

@[simp] theorem get?_insert_self {m : IndexMap K V} {k : K} {v : V} :
    (m.insert k v).get? k = some v := by simp [get?_insert]

theorem get?_insert_of_ne {m : IndexMap K V} {k k' : K} {v : V} (h : k' ≠ k) :
    (m.insert k v).get? k' = m.get? k' := by simp [get?_insert, h]

@[simp] theorem get?_remove_self {m : IndexMap K V} {k : K} :
    (m.remove k).get? k = none := by simp [get?_remove]

theorem get?_remove_of_ne {m : IndexMap K V} {k k' : K} (h : k' ≠ k) :
    (m.remove k).get? k' = m.get? k' := by simp [get?_remove, h]

theorem get?_insertIfAbsent {m : IndexMap K V} {k k' : K} {v : V} :
    (m.insertIfAbsent k v).get? k' =
      if k' = k then some ((m.get? k).getD v) else m.get? k' := by
  unfold insertIfAbsent
  split
  · rename_i hk
    obtain ⟨w, hw⟩ := contains_iff.1 hk
    by_cases h : k' = k
    · subst h; simp [hw]
    · simp [h]
  · rename_i hk
    have hnone : m.get? k = none := not_contains_iff.1 (by simpa using hk)
    rw [get?_insert, hnone]
    rfl

/-! ## Membership of keys -/

theorem contains_insert {m : IndexMap K V} {k k' : K} {v : V} :
    (m.insert k v).contains k' = (decide (k' = k) || m.contains k') := by
  unfold contains
  rw [get?_insert]
  by_cases h : k' = k <;> simp [h]

end IndexMap
