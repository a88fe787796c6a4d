import Mathlib.Algebra.BigOperators.Group.List.Basic
import Mathlib.Algebra.Order.BigOperators.Group.List
import Mathlib.Data.List.Nodup
import Mathlib.Order.Compare
import Mathlib.Tactic.Common

/-!
# Maps in the order of their keys

The standard library's extensional tree map, over a linear order and read with `=` on keys. Two
maps with the same lookups are equal, whatever order they were filled in, so it also stands for a
hash map whose iteration order the program never lets show.

What is added is the total of a quantity over the entries, and how an insertion and a removal
change it.
-/

set_option autoImplicit false

universe u v

instance (priority := 2000) BTreeMap.lawfulEqOrd {K : Type u} [LinearOrder K] :
    Std.LawfulEqOrd K := ⟨compare_eq_iff_eq.1⟩

-- Found before the library's own instances, so that a map's type is the same term everywhere.
instance (priority := 2000) BTreeMap.transCmp {K : Type u} [LinearOrder K] :
    Std.TransCmp (compare : K → K → Ordering) := inferInstance

/-- A map from `K` to `V` that lists its entries by ascending key. -/
abbrev BTreeMap (K : Type u) (V : Type v) [LinearOrder K] := Std.ExtTreeMap K V

/-- A set of `K` that lists its members in ascending order. -/
abbrev BTreeSet (K : Type u) [LinearOrder K] := Std.ExtTreeSet K

namespace BTreeMap

variable {K : Type u} {V : Type v} [LinearOrder K] {m m' : BTreeMap K V} {k a : K} {v : V}

/-! ## Lookups -/

theorem ext_get? (h : ∀ k : K, m[k]? = m'[k]?) : m = m' := Std.ExtTreeMap.ext_getElem? h

@[simp] theorem get?_empty : (∅ : BTreeMap K V)[k]? = none := Std.ExtTreeMap.getElem?_empty

theorem get?_insert : (m.insert k v)[a]? = if k = a then some v else m[a]? := by
  rw [Std.ExtTreeMap.getElem?_insert]
  simp only [compare_eq_iff_eq]

theorem get?_insert_of_ne (h : k ≠ a) : (m.insert k v)[a]? = m[a]? := by simp [get?_insert, h]

theorem get?_erase : (m.erase k)[a]? = if k = a then none else m[a]? := by
  rw [Std.ExtTreeMap.getElem?_erase]
  simp only [compare_eq_iff_eq]

theorem get?_erase_of_ne (h : k ≠ a) : (m.erase k)[a]? = m[a]? := by simp [get?_erase, h]

theorem erase_of_get?_none (h : m[k]? = none) : m.erase k = m := by
  apply ext_get?
  intro a
  rw [get?_erase]
  split
  · subst a; exact h.symm
  · rfl

theorem mem_toList : (k, v) ∈ m.toList ↔ m[k]? = some v :=
  Std.ExtTreeMap.mem_toList_iff_getElem?_eq_some

theorem nodup_keys : (m.toList.map Prod.fst).Nodup := by
  rw [List.nodup_iff_pairwise_ne, List.pairwise_map]
  exact Std.ExtTreeMap.distinct_keys_toList.imp fun h heq => h (compare_eq_iff_eq.2 heq)

theorem nodup_toList : m.toList.Nodup := nodup_keys.of_map _

theorem keys_pairwise : m.toList.Pairwise fun a b => a.1 < b.1 :=
  Std.ExtTreeMap.ordered_keys_toList.imp fun h => compare_lt_iff_lt.1 h

/-! ## Entries under an insertion and a removal -/

theorem toList_erase_perm (h : m[k]? = some v) : m.toList.Perm ((k, v) :: (m.erase k).toList) := by
  have hfresh : (k, v) ∉ (m.erase k).toList := by simp
  refine (List.perm_ext_iff_of_nodup nodup_toList
    (List.nodup_cons.2 ⟨hfresh, nodup_toList⟩)).2 ?_
  rintro ⟨a, w⟩
  rw [List.mem_cons, mem_toList, mem_toList, get?_erase]
  by_cases hka : k = a
  · subst hka
    simp [h, eq_comm]
  · simp [hka, Ne.symm hka]

theorem toList_insert_perm (h : m[k]? = none) :
    (m.insert k v).toList.Perm ((k, v) :: m.toList) := by
  have herase : (m.insert k v).erase k = m := by
    apply ext_get?
    intro a
    rw [get?_erase, get?_insert]
    split
    · subst a; exact h.symm
    · rfl
  have := toList_erase_perm (m := m.insert k v) (k := k) (v := v) Std.ExtTreeMap.getElem?_insert_self
  rwa [herase] at this

/-! ## Totals -/

section Total

variable {M : Type*} [AddCommMonoid M]

/-- What `f` comes to over all entries. -/
def total (m : BTreeMap K V) (f : K → V → M) : M := (m.toList.map fun e => f e.1 e.2).sum

variable {f : K → V → M}

@[simp] theorem total_empty : total (∅ : BTreeMap K V) f = 0 := by
  have hnil : (∅ : BTreeMap K V).toList = [] := by
    rw [List.eq_nil_iff_forall_not_mem]
    rintro ⟨k, v⟩ hmem
    rw [mem_toList, get?_empty] at hmem
    cases hmem
  simp [total, hnil]

theorem total_insert (h : m[k]? = none) : total (m.insert k v) f = f k v + total m f := by
  simpa [total] using ((toList_insert_perm h).map fun e => f e.1 e.2).sum_eq

theorem total_erase (h : m[k]? = some v) : total m f = f k v + total (m.erase k) f := by
  simpa [total] using ((toList_erase_perm h).map fun e => f e.1 e.2).sum_eq

/-- Replacing a value trades its share for the new one's. -/
theorem total_replace {w : V} (h : m[k]? = some v) :
    total (m.insert k w) f + f k v = total m f + f k w := by
  have herase : (m.insert k w).erase k = m.erase k := by
    apply ext_get?
    intro a
    rw [get?_erase, get?_erase, get?_insert]
    split <;> rfl
  rw [total_erase (m := m.insert k w) Std.ExtTreeMap.getElem?_insert_self, herase, total_erase h]
  rw [add_right_comm, add_comm (f k v), add_right_comm, add_comm (f k w)]
  exact add_right_comm _ _ _

theorem total_nonneg [PartialOrder M] [IsOrderedAddMonoid M]
    (h : ∀ k v, m[k]? = some v → 0 ≤ f k v) : 0 ≤ total m f := by
  apply List.sum_nonneg
  intro x hx
  obtain ⟨⟨k, v⟩, hmem, rfl⟩ := List.mem_map.1 hx
  exact h k v (mem_toList.1 hmem)

end Total

end BTreeMap

namespace BTreeSet

variable {K : Type u} [LinearOrder K] {s t : BTreeSet K} {k a : K}

theorem ext_mem (h : ∀ a, a ∈ s ↔ a ∈ t) : s = t := Std.ExtTreeSet.ext_mem h

theorem mem_insert : a ∈ s.insert k ↔ k = a ∨ a ∈ s := by
  rw [Std.ExtTreeSet.mem_insert, compare_eq_iff_eq]

theorem mem_erase : a ∈ s.erase k ↔ k ≠ a ∧ a ∈ s := by
  rw [Std.ExtTreeSet.mem_erase, Ne, compare_eq_iff_eq]

theorem erase_of_not_mem (h : k ∉ s) : s.erase k = s := by
  apply ext_mem
  intro a
  rw [mem_erase, and_iff_right_iff_imp]
  rintro hmem rfl
  exact h hmem

end BTreeSet
