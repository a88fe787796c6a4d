import Rustrade.Lib.BoundedFifo

/-!
# A bounded memory, least recently put forgotten first

Putting an item it holds makes it the newest again; putting a new one into a full memory drops the
one put longest ago. An item stays until it is forgotten or as many others as the memory holds have
been put since.
-/

set_option autoImplicit false

universe u

namespace BoundedFifo

variable {α : Type u} {cap : Nat} [DecidableEq α] [NeZero cap] {q : BoundedFifo α cap} {a b : α}
  {newer : Finset α}

def put (q : BoundedFifo α cap) (a : α) : BoundedFifo α cap := (q.forget a).insert a

theorem not_mem_forget : a ∉ (q.forget a).items := by
  simp

theorem mem_of_mem_put (h : b ∈ (q.put a).items) : b ∈ q.items ∨ b = a := by
  rcases mem_of_mem_insert h with h | h
  · exact .inl (List.mem_of_mem_filter h)
  · exact .inr h

/-- What has just been put has nothing behind it. -/
theorem covered_put_self : Covered a ∅ (q.put a) := by
  obtain ⟨front, hfront⟩ := insert_last (not_mem_forget (q := q) (a := a))
  exact .inl ⟨front, [], hfront, by simp⟩

/-- What is put comes behind the others. -/
theorem Covered.put (h : Covered a newer q) (hne : b ≠ a) :
    Covered a (Insert.insert b newer) (q.put b) := by
  have hall := (h.forget hne).insertAll (l := [b]) (List.nodup_singleton b) (by
    intro c hc
    rw [List.mem_singleton] at hc
    subst hc
    exact not_mem_forget)
  refine hall.mono ?_
  intro c hc
  rw [Finset.mem_union, mem_arrivals] at hc
  rw [Finset.mem_insert]
  rcases hc with hc | ⟨hin, hout⟩
  · exact .inr hc
  · exact .inl ((mem_of_mem_insert hin).resolve_left hout)

end BoundedFifo
