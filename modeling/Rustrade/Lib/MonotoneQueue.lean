import Mathlib.Data.List.DropRight
import Mathlib.Order.Lattice

/-!
# Monotone queues

A queue of timed values that drops from its back what a new value outranks, and from its front what
a moving bound leaves behind. From any instant at or after the bound on, its first entry outranks
everything that was ever pushed.
-/

set_option autoImplicit false

universe u v

/-- What a sorted list drops up to a bound is what stands before it. -/
theorem List.mem_dropWhile_lt {T : Type u} {P : Type v} [LinearOrder T] {queue : List (T × P)}
    (hsorted : queue.Pairwise fun a b => a.1 ≤ b.1) {bound : T} {e : T × P} :
    e ∈ queue.dropWhile (fun a => a.1 < bound) ↔ e ∈ queue ∧ bound ≤ e.1 := by
  induction queue with
  | nil => simp
  | cons a rest ih =>
    obtain ⟨hfirst, hrest⟩ := List.pairwise_cons.1 hsorted
    by_cases hbefore : a.1 < bound
    · rw [List.dropWhile_cons_of_pos (by simpa using hbefore), ih hrest]
      constructor
      · rintro ⟨hmem, hbound⟩
        exact ⟨List.mem_cons_of_mem _ hmem, hbound⟩
      · rintro ⟨hmem, hbound⟩
        rcases List.mem_cons.1 hmem with rfl | hmem
        · exact absurd hbefore (not_lt.2 hbound)
        · exact ⟨hmem, hbound⟩
    · rw [List.dropWhile_cons_of_neg (by simpa using hbefore)]
      refine ⟨fun hmem => ⟨hmem, ?_⟩, And.left⟩
      rcases List.mem_cons.1 hmem with rfl | hmem
      · exact not_lt.1 hbefore
      · exact (not_lt.1 hbefore).trans (hfirst e hmem)

namespace MonotoneQueue

variable {T : Type u} {P : Type v} [LinearOrder T] {outranks : P → P → Prop}
  [DecidableRel outranks]

/-- Push a value, dropping what it outranks from the back and what is before the bound from the
    front. -/
def push (outranks : P → P → Prop) [DecidableRel outranks] (queue : List (T × P)) (e : T × P)
    (bound : T) : List (T × P) :=
  (queue.rdropWhile (fun a => outranks e.2 a.2) ++ [e]).dropWhile fun a => a.1 < bound

/-- The queue keeps of the log what nothing later outranks, from the bound on. -/
structure Keeps (outranks : P → P → Prop) (log queue : List (T × P)) (bound : Option T) : Prop where
  sorted : log.Pairwise fun a b => a.1 ≤ b.1
  sublist : queue.Sublist log
  unranked : queue.Pairwise fun a b => ¬ outranks b.2 a.2
  covers : ∀ e ∈ log, (∀ since ∈ bound, since ≤ e.1) → ∃ a ∈ queue, e.1 ≤ a.1 ∧ outranks a.2 e.2

omit [DecidableRel outranks] in
theorem Keeps.nil : Keeps outranks ([] : List (T × P)) [] none where
  sorted := List.Pairwise.nil
  sublist := .slnil
  unranked := List.Pairwise.nil
  covers := by simp

variable {log queue : List (T × P)} {bound : Option T} {e : T × P} {since : T}

omit [DecidableRel outranks] in
theorem Keeps.queue_sorted (h : Keeps outranks log queue bound) :
    queue.Pairwise fun a b => a.1 ≤ b.1 := h.sorted.sublist h.sublist

omit [LinearOrder T] in
/-- What is left once the outranked are dropped from the back. -/
theorem not_outranks_of_mem (htrans : ∀ a b c : P, outranks a b → outranks b c → outranks a c)
    (htotal : ∀ a b : P, outranks a b ∨ outranks b a) {new : P}
    (hunranked : queue.Pairwise fun a b => ¬ outranks b.2 a.2) {a : T × P}
    (ha : a ∈ queue.rdropWhile fun b => outranks new b.2) : ¬ outranks new a.2 := by
  have hne : queue.rdropWhile (fun b => outranks new b.2) ≠ [] := List.ne_nil_of_mem ha
  have hlast : ¬ outranks new ((queue.rdropWhile fun b => outranks new b.2).getLast hne).2 := by
    simpa using List.rdropWhile_last_not (fun b : T × P => decide (outranks new b.2)) queue hne
  intro hnew
  -- The last one left is not outranked, and nothing before it outranks it the less.
  rcases eq_or_ne a ((queue.rdropWhile fun b => outranks new b.2).getLast hne) with heq | hother
  · exact hlast (heq ▸ hnew)
  · have hkept : (queue.rdropWhile fun b => outranks new b.2).Pairwise
        fun a b => ¬ outranks b.2 a.2 :=
      hunranked.sublist (List.rdropWhile_prefix _ _).sublist
    rw [← List.dropLast_append_getLast hne] at hkept ha
    have hbefore : a ∈ (queue.rdropWhile fun b => outranks new b.2).dropLast := by
      rcases List.mem_append.1 ha with hmem | hmem
      · exact hmem
      · exact absurd (List.mem_singleton.1 hmem) hother
    have hlater := (List.pairwise_append.1 hkept).2.2 a hbefore _ (List.mem_singleton_self _)
    rcases htotal a.2 ((queue.rdropWhile fun b => outranks new b.2).getLast hne).2 with hle | hle
    · exact hlast (htrans _ _ _ hnew hle)
    · exact hlater hle

theorem Keeps.push (htrans : ∀ a b c : P, outranks a b → outranks b c → outranks a c)
    (htotal : ∀ a b : P, outranks a b ∨ outranks b a) (h : Keeps outranks log queue bound)
    (htime : ∀ a ∈ log, a.1 ≤ e.1) (hsince : ∀ last ∈ bound, last ≤ since) :
    Keeps outranks (log ++ [e]) (push outranks queue e since) (some since) := by
  have hprefix : queue.rdropWhile (fun a => outranks e.2 a.2) <+: queue :=
    List.rdropWhile_prefix _ _
  have hpushed : (queue.rdropWhile (fun a => outranks e.2 a.2) ++ [e]).Sublist (log ++ [e]) :=
    ( hprefix.sublist.trans h.sublist).append (.refl _)
  have hsorted : (log ++ [e]).Pairwise fun a b => a.1 ≤ b.1 := by
    rw [List.pairwise_append]
    refine ⟨h.sorted, List.pairwise_singleton _ _, ?_⟩
    intro a ha b hb
    rw [List.mem_singleton.1 hb]
    exact htime a ha
  refine ⟨hsorted, (List.dropWhile_sublist _).trans hpushed, ?_, ?_⟩
  · apply List.Pairwise.sublist (List.dropWhile_sublist _)
    rw [List.pairwise_append]
    refine ⟨h.unranked.sublist hprefix.sublist, List.pairwise_singleton _ _, ?_⟩
    intro a ha b hb
    rw [List.mem_singleton.1 hb]
    exact not_outranks_of_mem htrans htotal h.unranked ha
  · intro logged hlogged hbound
    have hreached : since ≤ logged.1 := hbound since rfl
    have hkeep : ∀ a ∈ queue.rdropWhile (fun a => outranks e.2 a.2) ++ [e], logged.1 ≤ a.1 →
        a ∈ MonotoneQueue.push outranks queue e since := by
      intro a ha hle
      exact (List.mem_dropWhile_lt (hsorted.sublist hpushed)).2 ⟨ha, hreached.trans hle⟩
    have hnew : logged.1 ≤ e.1 → outranks e.2 logged.2 →
        ∃ a ∈ MonotoneQueue.push outranks queue e since, logged.1 ≤ a.1 ∧ outranks a.2 logged.2 :=
      fun hle hranks => ⟨e, hkeep e (by simp) hle, hle, hranks⟩
    rcases List.mem_append.1 hlogged with hold | hlast
    · obtain ⟨a, ha, hle, hranks⟩ := h.covers logged hold fun last hlast =>
        (hsince last hlast).trans hreached
      by_cases hkept : a ∈ queue.rdropWhile fun a => outranks e.2 a.2
      · exact ⟨a, hkeep a (List.mem_append_left _ hkept) hle, hle, hranks⟩
      · -- What is dropped from the back is outranked by the new value.
        have hdropped : outranks e.2 a.2 := by
          have hsplit : queue.rdropWhile (fun a => outranks e.2 a.2) ++
              queue.rtakeWhile (fun a => outranks e.2 a.2) = queue := List.rdropWhile_append_rtakeWhile
          rw [← hsplit] at ha
          rcases List.mem_append.1 ha with hmem | hmem
          · exact absurd hmem hkept
          · simpa using List.mem_rtakeWhile_imp hmem
        exact hnew (htime logged hold) (htrans _ _ _ hdropped hranks)
    · rw [List.mem_singleton.1 hlast] at hnew ⊢
      exact hnew le_rfl ((htotal e.2 e.2).elim id id)

omit [DecidableRel outranks] in
/-- From an instant at or after the bound on, the first entry is logged then, and outranks all that
    is. -/
theorem Keeps.first (htrans : ∀ a b c : P, outranks a b → outranks b c → outranks a c)
    (htotal : ∀ a b : P, outranks a b ∨ outranks b a) (h : Keeps outranks log queue bound)
    (hsince : ∀ last ∈ bound, last ≤ since) :
    match (queue.dropWhile fun a => a.1 < since).head? with
    | none => ∀ a ∈ log, a.1 < since
    | some first => first ∈ log ∧ since ≤ first.1 ∧
        ∀ a ∈ log, since ≤ a.1 → outranks first.2 a.2 := by
  have hcovers (a : T × P) (ha : a ∈ log) (hle : since ≤ a.1) :
      ∃ b ∈ queue.dropWhile (fun b => b.1 < since), outranks b.2 a.2 := by
    obtain ⟨b, hb, htime, hranks⟩ := h.covers a ha fun last hlast => (hsince last hlast).trans hle
    exact ⟨b, (List.mem_dropWhile_lt h.queue_sorted).2 ⟨hb, hle.trans htime⟩, hranks⟩
  cases hleft : queue.dropWhile (fun a => a.1 < since) with
  | nil =>
    rw [hleft] at hcovers
    intro a ha
    by_contra hnot
    obtain ⟨b, hb, -⟩ := hcovers a ha (not_lt.1 hnot)
    cases hb
  | cons first rest =>
    have hfirst : first ∈ queue.dropWhile fun a => a.1 < since := by
      rw [hleft]
      exact List.mem_cons_self
    obtain ⟨hmem, hreached⟩ := (List.mem_dropWhile_lt h.queue_sorted).1 hfirst
    refine ⟨h.sublist.subset hmem, hreached, ?_⟩
    intro a ha hle
    obtain ⟨b, hb, hranks⟩ := hcovers a ha hle
    have hunranked : (first :: rest).Pairwise fun a b => ¬ outranks b.2 a.2 := by
      rw [← hleft]
      exact h.unranked.sublist (List.dropWhile_sublist _)
    rw [hleft] at hb
    rcases List.mem_cons.1 hb with rfl | hrest
    · exact hranks
    · have hnot := (List.pairwise_cons.1 hunranked).1 b hrest
      exact htrans _ _ _ ((htotal first.2 b.2).resolve_right hnot) hranks

end MonotoneQueue
