import Rustrade.Lib.BoundedMap

/-!
# What is collected

Entries put one after another into an empty map, and values into an empty set that remembers the
order they came in. Where nothing comes twice, what is collected is what came.
-/

set_option autoImplicit false

universe u v

namespace IndexMap

variable {K : Type u} {V : Type v} [DecidableEq K] {entries : List (K × V)} {m : IndexMap K V}
  {k : K} {v : V}

def collect (entries : List (K × V)) : IndexMap K V :=
  entries.foldl (fun m e => m.insert e.1 e.2) empty

theorem entries_foldl_insert (hnodup : (entries.map Prod.fst).Nodup)
    (hfresh : ∀ e ∈ entries, e.1 ∉ m.keys) :
    (entries.foldl (fun m e => m.insert e.1 e.2) m).entries = m.entries ++ entries := by
  induction entries generalizing m with
  | nil => simp
  | cons e entries ih =>
    rw [List.map_cons, List.nodup_cons] at hnodup
    have hentries := entries_insert_of_not_mem (v := e.2) (hfresh e (List.mem_cons_self ..))
    rw [List.foldl_cons, ih hnodup.2, hentries, List.append_assoc]
    · rfl
    · intro e' he' hmem
      unfold keys at hmem
      rw [hentries, List.map_append, List.mem_append] at hmem
      rcases hmem with hmem | hmem
      · exact hfresh e' (List.mem_cons_of_mem e he') hmem
      · have hsame : e'.1 = e.1 := by simpa using hmem
        exact hnodup.1 (hsame ▸ List.mem_map_of_mem he')

/-- Entries under keys of their own are collected as they are. -/
theorem entries_collect (h : (entries.map Prod.fst).Nodup) : (collect entries).entries = entries := by
  unfold collect
  rw [entries_foldl_insert h]
  · rfl
  · intro e _ hmem
    exact absurd hmem List.not_mem_nil

theorem get?_collect (h : (entries.map Prod.fst).Nodup) :
    (collect entries).get? k = some v ↔ (k, v) ∈ entries := by
  rw [get?_eq_some_iff, entries_collect h]

end IndexMap

/-- A set whose members are also reached by place. -/
@[ext]
structure IndexSet (α : Type u) where
  entries : List α
  nodup : entries.Nodup

instance {α : Type u} [DecidableEq α] : DecidableEq (IndexSet α) := fun _ _ =>
  decidable_of_iff _ IndexSet.ext_iff.symm

namespace IndexSet

variable {α : Type u} {s : IndexSet α} {xs : List α} {a : α}

def empty : IndexSet α := ⟨[], List.nodup_nil⟩

def getIndex (s : IndexSet α) (index : ℕ) : Option α := s.entries[index]?

variable [DecidableEq α]

/-- A member keeps its place. -/
def insert (s : IndexSet α) (a : α) : IndexSet α :=
  if h : a ∈ s.entries then s
  else ⟨s.entries ++ [a], by
    refine List.nodup_append.2 ⟨s.nodup, List.nodup_singleton a, ?_⟩
    rintro b hb c hc rfl
    exact h (List.mem_singleton.1 hc ▸ hb)⟩

def collect (xs : List α) : IndexSet α := xs.foldl insert empty

theorem entries_insert_of_not_mem (h : a ∉ s.entries) :
    (s.insert a).entries = s.entries ++ [a] := by
  unfold insert
  rw [dif_neg h]

theorem entries_foldl_insert (hnodup : xs.Nodup) (hfresh : ∀ a ∈ xs, a ∉ s.entries) :
    (xs.foldl insert s).entries = s.entries ++ xs := by
  induction xs generalizing s with
  | nil => simp
  | cons a xs ih =>
    rw [List.nodup_cons] at hnodup
    have hentries := entries_insert_of_not_mem (hfresh a (List.mem_cons_self ..))
    rw [List.foldl_cons, ih hnodup.2, hentries, List.append_assoc]
    · rfl
    · intro b hb hmem
      rw [hentries, List.mem_append] at hmem
      rcases hmem with hmem | hmem
      · exact hfresh b (List.mem_cons_of_mem a hb) hmem
      · exact hnodup.1 (List.mem_singleton.1 hmem ▸ hb)

/-- Values that are all different keep their places. -/
theorem getIndex_collect (h : xs.Nodup) (index : ℕ) : (collect xs).getIndex index = xs[index]? := by
  unfold getIndex collect
  rw [entries_foldl_insert h]
  · rfl
  · intro a _ hmem
    exact absurd hmem List.not_mem_nil

end IndexSet
