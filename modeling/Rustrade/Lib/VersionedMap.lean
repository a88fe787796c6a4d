import Mathlib.Logic.Function.Basic
import Mathlib.Order.Basic
import Mathlib.Data.List.Nodup
import Mathlib.Tactic.Common

/-!
# A map that numbered updates change

`VersionedMap κ ν` is a map whose updates are numbered from one: what it held at the start, and
what update `n` sets each key to, if it sets it. A difference over the updates `lo` to `hi` lists
once each key one of them set, with the value it has after `hi`. Put over a copy that stands
anywhere from `lo - 1` to `hi`, such a difference makes the copy the map after `hi`: what the
copy already had of it is overwritten by the same values.
-/

set_option autoImplicit false

universe u v

/-- What a map held at the start, and what its numbered updates set. -/
structure VersionedMap (κ : Type u) (ν : Type v) where
  start : κ → ν
  change : ℕ → κ → Option ν

namespace VersionedMap

variable {κ : Type u} {ν : Type v} (m : VersionedMap κ ν) {lo hi at' : ℕ} {key : κ}

/-- The map after update `n`. -/
def version : ℕ → κ → ν
  | 0, key => m.start key
  | n + 1, key => (m.change (n + 1) key).getD (version n key)

/-- One of the updates `lo` to `hi` sets the key. -/
def Touched (lo hi : ℕ) (key : κ) : Prop :=
  ∃ n, lo ≤ n ∧ n ≤ hi ∧ (m.change n key).isSome

variable {m}

theorem version_succ_of_none {n : ℕ} (h : m.change (n + 1) key = none) :
    m.version (n + 1) key = m.version n key := by
  rw [version, h, Option.getD_none]

/-- A key no later update sets keeps its value. -/
theorem version_of_untouched (hle : at' ≤ hi) (h : ¬m.Touched (at' + 1) hi key) :
    m.version hi key = m.version at' key := by
  induction hle with
  | refl => rfl
  | @step n hle ih =>
    have hle : at' ≤ n := hle
    have hnone : m.change (n + 1) key = none := by
      rw [← Option.not_isSome_iff_eq_none]
      intro hsome
      exact h ⟨n + 1, by omega, Nat.le_refl _, hsome⟩
    rw [version_succ_of_none hnone]
    apply ih
    rintro ⟨k, hlo, hhi, hsome⟩
    exact h ⟨k, hlo, by omega, hsome⟩

theorem Touched.mono {lo' : ℕ} (hle : lo' ≤ lo) (h : m.Touched lo hi key) :
    m.Touched lo' hi key := by
  obtain ⟨n, hlo, hhi, hsome⟩ := h
  exact ⟨n, Nat.le_trans hle hlo, hhi, hsome⟩

/-! ## Differences -/

/-- The entries list, once each, the keys the updates `lo` to `hi` set, as they are after `hi`. -/
structure IsDiff (m : VersionedMap κ ν) (lo hi : ℕ) (entries : List (κ × ν)) : Prop where
  nodup : (entries.map Prod.fst).Nodup
  mem : ∀ key value, (key, value) ∈ entries ↔ m.Touched lo hi key ∧ value = m.version hi key

variable [DecidableEq κ]

/-- The entries written over a map, one after the other. -/
def put (base : κ → ν) (entries : List (κ × ν)) : κ → ν :=
  entries.foldl (fun map entry => Function.update map entry.1 entry.2) base

@[simp] theorem put_nil {base : κ → ν} : put base [] = base := rfl

@[simp] theorem put_cons {base : κ → ν} {entry : κ × ν} {entries : List (κ × ν)} :
    put base (entry :: entries) = put (Function.update base entry.1 entry.2) entries := rfl

theorem put_of_not_mem {base : κ → ν} {entries : List (κ × ν)}
    (h : key ∉ entries.map Prod.fst) : put base entries key = base key := by
  induction entries generalizing base with
  | nil => rfl
  | cons entry entries ih =>
    rw [List.map_cons, List.mem_cons, not_or] at h
    rw [put_cons, ih h.2, Function.update_of_ne h.1]

theorem put_of_mem {base : κ → ν} {entries : List (κ × ν)} {value : ν}
    (hnodup : (entries.map Prod.fst).Nodup) (h : (key, value) ∈ entries) :
    put base entries key = value := by
  induction entries generalizing base with
  | nil => cases h
  | cons entry entries ih =>
    rw [List.map_cons, List.nodup_cons] at hnodup
    rcases List.mem_cons.mp h with rfl | h
    · rw [put_cons, put_of_not_mem hnodup.1, Function.update_self]
    · rw [put_cons]
      exact ih hnodup.2 h

/-- A difference brings a copy that stands within its reach to its end. -/
theorem IsDiff.put_version {entries : List (κ × ν)} (h : m.IsDiff lo hi entries)
    (hlo : lo ≤ at' + 1) (hhi : at' ≤ hi) : put (m.version at') entries = m.version hi := by
  funext key
  by_cases htouched : m.Touched lo hi key
  · exact put_of_mem h.nodup ((h.mem key _).2 ⟨htouched, rfl⟩)
  · have hkey : key ∉ entries.map Prod.fst := by
      intro hmem
      obtain ⟨⟨_, value⟩, hentry, rfl⟩ := List.mem_map.mp hmem
      exact htouched ((h.mem _ value).1 hentry).1
    rw [put_of_not_mem hkey]
    exact (version_of_untouched hhi fun hlater => htouched (hlater.mono hlo)).symm

end VersionedMap
