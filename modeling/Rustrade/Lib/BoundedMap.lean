import Mathlib.Algebra.GroupWithZero.Nat
import Rustrade.Lib.BoundedFifo
import Rustrade.Lib.IndexMap

/-!
# A bounded map, oldest entry evicted first

An insertion-ordered map of at most `cap` entries. Inserting under a key it has replaces the
value where it stands; a new key goes to the end, and evicts the oldest entry when the map is
full. Its keys are a `BoundedFifo`, and inserting into the map is inserting into that: how long
an entry is held is read off there.
-/

set_option autoImplicit false

universe u v

namespace IndexMap

variable {K : Type u} {V : Type v}

theorem keys_modify [DecidableEq K] {m : IndexMap K V} {k : K} {f : V → V} :
    (m.modify k f).keys = m.keys := by
  simp only [modify, mapValues, keys, List.map_map]
  rfl

theorem len_eq_length_keys {m : IndexMap K V} : m.len = m.keys.length := by
  simp [len, keys]

theorem keys_removeFirst {m : IndexMap K V} : m.removeFirst.keys = m.keys.tail := by
  simp [removeFirst, keys, List.map_tail]

theorem get?_of_get?_removeFirst [DecidableEq K] {m : IndexMap K V} {k : K} {v : V}
    (h : m.removeFirst.get? k = some v) : m.get? k = some v := by
  rw [get?_eq_some_iff] at h ⊢
  exact List.mem_of_mem_tail h

theorem keys_insert [DecidableEq K] {m : IndexMap K V} {k : K} {v : V} :
    (m.insert k v).keys = if k ∈ m.keys then m.keys else m.keys ++ [k] := by
  unfold insert
  split
  · exact keys_modify
  · simp [keys]

theorem entries_insert_of_not_mem [DecidableEq K] {m : IndexMap K V} {k : K} {v : V}
    (h : k ∉ m.keys) : (m.insert k v).entries = m.entries ++ [(k, v)] := by
  unfold insert
  rw [dif_neg h]

/-- Removing a key takes its one entry out. -/
theorem entries_remove [DecidableEq K] {m : IndexMap K V} {k : K} {v : V} (h : m.get? k = some v) :
    ∃ front back, m.entries = front ++ (k, v) :: back ∧ (m.remove k).entries = front ++ back := by
  obtain ⟨front, back, hentries⟩ := List.append_of_mem (get?_eq_some_iff.1 h)
  refine ⟨front, back, hentries, ?_⟩
  have hnodup := m.nodup
  rw [hentries, List.map_append, List.map_cons] at hnodup
  obtain ⟨-, hback, hfront⟩ := List.nodup_append.1 hnodup
  have hkeep : ∀ l : List (K × V), (∀ e ∈ l, e.1 ≠ k) → l.filter (fun e => e.1 ≠ k) = l :=
    fun l hl => List.filter_eq_self.2 fun e he => decide_eq_true (hl e he)
  have hbefore : ∀ e ∈ front, e.1 ≠ k :=
    fun e he heq => hfront e.1 (List.mem_map_of_mem he) k List.mem_cons_self heq
  have hbehind : ∀ e ∈ back, e.1 ≠ k := by
    intro e he heq
    have hmem : e.1 ∈ back.map Prod.fst := List.mem_map_of_mem he
    exact (List.nodup_cons.1 hback).1 (heq ▸ hmem)
  show m.entries.filter (fun e => e.1 ≠ k) = _
  rw [hentries, List.filter_append, hkeep front hbefore, List.filter_cons_of_neg (by simp),
    hkeep back hbehind]

theorem remove_of_none [DecidableEq K] {m : IndexMap K V} {k : K} (h : m.get? k = none) :
    m.remove k = m := by
  apply ext
  refine List.filter_eq_self.2 fun e he => decide_eq_true ?_
  rintro rfl
  rw [get?_eq_some_iff.2 he] at h
  cases h

end IndexMap

/-- At most `cap` entries, oldest first. -/
structure BoundedMap (K : Type u) (V : Type v) (cap : Nat) where
  map : IndexMap K V
  len_le : map.len ≤ cap
  deriving DecidableEq

namespace BoundedMap

variable {K : Type u} {V : Type v} {cap : Nat}

def empty : BoundedMap K V cap := ⟨.empty, Nat.zero_le cap⟩

instance : Inhabited (BoundedMap K V cap) := ⟨empty⟩

def isEmpty (m : BoundedMap K V cap) : Bool := m.map.isEmpty

/-- The keys, as the memory of the last `cap` that came in. -/
def keyFifo (m : BoundedMap K V cap) : BoundedFifo K cap :=
  ⟨m.map.keys, m.map.nodup_keys, IndexMap.len_eq_length_keys ▸ m.len_le⟩

@[simp] theorem items_keyFifo {m : BoundedMap K V cap} : m.keyFifo.items = m.map.keys := rfl

/-- The last `cap` entries of a map. -/
def latest (m : IndexMap K V) : BoundedMap K V cap :=
  ⟨⟨m.entries.rtake cap, m.nodup.sublist ((List.drop_sublist _ _).map Prod.fst)⟩, by
    show (m.entries.drop _).length ≤ cap
    rw [List.length_drop]
    omega⟩

/-- A map with room for all of it is kept whole. -/
theorem latest_map (m : BoundedMap K V cap) : (latest m.map : BoundedMap K V cap) = m := by
  obtain ⟨⟨entries, nodup⟩, hle⟩ := m
  have hlength : entries.length ≤ cap := hle
  have hwhole : entries.rtake cap = entries := by
    rw [List.rtake, Nat.sub_eq_zero_of_le hlength, List.drop_zero]
  simp only [latest, hwhole]

variable [DecidableEq K]

def get? (m : BoundedMap K V cap) (k : K) : Option V := m.map.get? k

def contains (m : BoundedMap K V cap) (k : K) : Bool := m.map.contains k

/-- Remove `k`, keeping the order of the rest. -/
def remove (m : BoundedMap K V cap) (k : K) : BoundedMap K V cap :=
  ⟨m.map.remove k, (List.length_filter_le _ _).trans m.len_le⟩

/-- Apply `f` to the value under `k`, if there is one. -/
def modify (m : BoundedMap K V cap) (k : K) (f : V → V) : BoundedMap K V cap :=
  ⟨m.map.modify k f, by
    rw [IndexMap.len_eq_length_keys, IndexMap.keys_modify, ← IndexMap.len_eq_length_keys]
    exact m.len_le⟩

/-- The map an insertion under `k` adds to: without its oldest entry, if there is no room. -/
def makeRoom (m : BoundedMap K V cap) (k : K) : IndexMap K V :=
  if m.contains k = false ∧ cap ≤ m.map.len then m.map.removeFirst else m.map

theorem get?_of_get?_makeRoom {m : BoundedMap K V cap} {k k' : K} {v : V}
    (h : (m.makeRoom k).get? k' = some v) : m.get? k' = some v := by
  unfold makeRoom at h
  split at h
  · exact IndexMap.get?_of_get?_removeFirst h
  · exact h

theorem contains_iff_mem {m : BoundedMap K V cap} {k : K} :
    m.contains k = true ↔ k ∈ m.map.keys := IndexMap.mem_keys_iff_contains.symm

theorem not_contains_iff {m : BoundedMap K V cap} {k : K} :
    m.contains k = false ↔ k ∉ m.map.keys := by
  rw [← contains_iff_mem, Bool.not_eq_true]

theorem mem_keyFifo_iff {m : BoundedMap K V cap} {k : K} :
    k ∈ m.keyFifo.items ↔ ∃ v, m.get? k = some v := IndexMap.mem_keys_iff

variable [NeZero cap]

theorem keys_insert_makeRoom {m : BoundedMap K V cap} {k : K} {v : V} :
    ((m.makeRoom k).insert k v).keys = (m.keyFifo.insert k).items := by
  rw [IndexMap.keys_insert]
  by_cases hk : k ∈ m.map.keys
  · have hroom : m.makeRoom k = m.map := by
      simp [makeRoom, contains_iff_mem.2 hk]
    rw [hroom, if_pos hk, BoundedFifo.insert_of_mem (q := m.keyFifo) hk]; rfl
  · have hle : m.map.keys.length ≤ cap := m.keyFifo.length_le
    rw [BoundedFifo.items_insert_of_not_mem (q := m.keyFifo) hk]
    simp only [makeRoom, not_contains_iff.2 hk, true_and, IndexMap.len_eq_length_keys,
      items_keyFifo, List.rtake, List.length_append, List.length_singleton]
    by_cases hfull : cap ≤ m.map.keys.length
    · rw [if_pos hfull, IndexMap.keys_removeFirst, if_neg fun h => hk (List.mem_of_mem_tail h),
        show m.map.keys.length + 1 - cap = 1 by omega]
      have hpos : 0 < m.map.keys.length :=
        Nat.lt_of_lt_of_le (Nat.pos_of_ne_zero (NeZero.ne cap)) hfull
      rw [List.drop_append_of_le_length (by omega), List.drop_one]
    · rw [if_neg hfull, if_neg hk, show m.map.keys.length + 1 - cap = 0 by omega, List.drop_zero]

/-- Put `v` under `k`, evicting the oldest entry to make room for a new key. -/
def insert (m : BoundedMap K V cap) (k : K) (v : V) : BoundedMap K V cap :=
  ⟨(m.makeRoom k).insert k v, by
    rw [IndexMap.len_eq_length_keys, keys_insert_makeRoom]
    exact (m.keyFifo.insert k).length_le⟩

/-! ## What an insertion changes -/

@[simp] theorem get?_insert_self {m : BoundedMap K V cap} {k : K} {v : V} :
    (m.insert k v).get? k = some v := IndexMap.get?_insert_self

/-- An insertion changes no other value; it may only evict one. -/
theorem get?_of_get?_insert {m : BoundedMap K V cap} {k k' : K} {v w : V} (hne : k' ≠ k)
    (h : (m.insert k v).get? k' = some w) : m.get? k' = some w := by
  change ((m.makeRoom k).insert k v).get? k' = some w at h
  rw [IndexMap.get?_insert_of_ne hne] at h
  exact get?_of_get?_makeRoom h

/-- Inserting into the map is inserting its key into the memory of its keys. -/
theorem keyFifo_insert {m : BoundedMap K V cap} {k : K} {v : V} :
    (m.insert k v).keyFifo = m.keyFifo.insert k := by
  have hitems : (m.insert k v).keyFifo.items = (m.keyFifo.insert k).items := keys_insert_makeRoom
  cases hq : (m.insert k v).keyFifo
  cases hq' : m.keyFifo.insert k
  rw [hq, hq'] at hitems
  cases hitems
  rfl

/-- Inserting one entry, however often, leaves it there. -/
theorem get?_foldl_insert_of_all {m : BoundedMap K V cap} {k : K} {v : V} {l : List (K × V)}
    (hne : l ≠ []) (hall : ∀ e ∈ l, e = (k, v)) :
    (l.foldl (fun m e => m.insert e.1 e.2) m).get? k = some v := by
  obtain ⟨front, last, rfl⟩ := l.eq_nil_or_concat.resolve_left hne
  rw [List.concat_eq_append, List.foldl_append, List.foldl_cons, List.foldl_nil,
    hall last (by simp)]
  exact get?_insert_self

theorem keyFifo_foldl_insert {m : BoundedMap K V cap} {l : List (K × V)} :
    (l.foldl (fun m e => m.insert e.1 e.2) m).keyFifo = m.keyFifo.insertAll (l.map Prod.fst) := by
  induction l generalizing m with
  | nil => rfl
  | cons e l ih => exact ih.trans (by rw [keyFifo_insert]; rfl)

theorem entries_insert_of_not_mem {m : BoundedMap K V cap} {k : K} {v : V} (h : k ∉ m.map.keys) :
    (m.insert k v).map.entries = (m.map.entries ++ [(k, v)]).rtake cap := by
  have hle : m.map.entries.length ≤ cap := m.len_le
  have hpos : 0 < cap := Nat.pos_of_ne_zero (NeZero.ne cap)
  show ((m.makeRoom k).insert k v).entries = _
  unfold makeRoom List.rtake
  rw [not_contains_iff.2 h, List.length_append, List.length_singleton]
  by_cases hfull : cap ≤ m.map.len
  · have hlen : m.map.entries.length = cap := Nat.le_antisymm hle hfull
    have hnot : k ∉ m.map.removeFirst.keys := by
      rw [IndexMap.keys_removeFirst]
      exact fun hmem => h (List.mem_of_mem_tail hmem)
    rw [if_pos ⟨rfl, hfull⟩, IndexMap.entries_insert_of_not_mem hnot, hlen,
      List.drop_append_of_le_length (by omega), show cap + 1 - cap = 1 by omega, List.drop_one]
    rfl
  · have hlt : m.map.entries.length < cap := not_le.1 hfull
    rw [if_neg fun hroom => hfull hroom.2, IndexMap.entries_insert_of_not_mem h,
      show m.map.entries.length + 1 - cap = 0 by omega, List.drop_zero]

/-- New entries go to the end, and the last `cap` are kept. -/
theorem entries_foldl_insert {m : BoundedMap K V cap} {l : List (K × V)}
    (hl : (l.map Prod.fst).Nodup) (hnew : ∀ k ∈ l.map Prod.fst, k ∉ m.map.keys) :
    (l.foldl (fun m e => m.insert e.1 e.2) m).map.entries = (m.map.entries ++ l).rtake cap := by
  induction l generalizing m with
  | nil =>
    have hle : m.map.entries.length ≤ cap := m.len_le
    simp [List.rtake, Nat.sub_eq_zero_of_le hle]
  | cons e l ih =>
    rw [List.map_cons, List.nodup_cons] at hl
    have hfirst : e.1 ∉ m.map.keys := hnew e.1 List.mem_cons_self
    have hrest : ∀ k ∈ l.map Prod.fst, k ∉ (m.insert e.1 e.2).map.keys := by
      intro k hk hmem
      have hinserted : k ∈ (m.keyFifo.insert e.1).items := by
        rw [← keyFifo_insert]
        exact hmem
      rcases BoundedFifo.mem_of_mem_insert hinserted with hold | rfl
      · exact hnew k (List.mem_cons_of_mem _ hk) hold
      · exact hl.1 hk
    rw [List.foldl_cons, ih hl.2 hrest, entries_insert_of_not_mem hfirst,
      BoundedFifo.rtake_rtake_append, List.append_assoc]
    rfl

/-- What a run of insertions leaves under a key was there, or is one of those inserted. -/
theorem get?_foldl_insert {m : BoundedMap K V cap} {l : List (K × V)} {k : K} {v : V}
    (h : (l.foldl (fun m e => m.insert e.1 e.2) m).get? k = some v) :
    m.get? k = some v ∨ (k, v) ∈ l := by
  induction l generalizing m with
  | nil => exact Or.inl h
  | cons e l ih =>
    rcases ih h with h | h
    · by_cases hk : k = e.1
      · subst hk
        rw [get?_insert_self] at h
        exact Or.inr (by rw [← Option.some.inj h]; exact List.mem_cons_self ..)
      · exact Or.inl (get?_of_get?_insert hk h)
    · exact Or.inr (List.mem_cons_of_mem _ h)

end BoundedMap
