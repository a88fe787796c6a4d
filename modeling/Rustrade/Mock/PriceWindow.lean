import Rustrade.Lib.BinarySearch
import Rustrade.Lib.MonotoneQueue
import Rustrade.Lib.Ensures
import Rustrade.Mock.Margin

/-!
# A price window reads the extremes

What a price window answers, of the candidates it keeps, is the lowest and the highest of everything
recorded from an instant on.
-/

set_option autoImplicit false

namespace Rustrade.Mock

namespace PriceWindow

/-- One call of `record`. -/
structure Observation where
  time : DateTime
  low : Decimal
  high : Decimal
  since : DateTime

def recordAll [Build] (calls : List Observation) : Except Fault PriceWindow :=
  calls.foldlM (fun window call => window.record call.time call.low call.high call.since) default

/-- Time never moves back, nor does what is forgotten, and no low is above its high. -/
structure Ordered (calls : List Observation) : Prop where
  time : calls.Pairwise fun a b => a.time ≤ b.time
  since : calls.Pairwise fun a b => a.since ≤ b.since
  range : ∀ call ∈ calls, call.low ≤ call.high

/-- The lowest of everything recorded from an instant on. -/
def lowest (calls : List Observation) (since : DateTime) : Option Decimal :=
  ((calls.filter fun call => since ≤ call.time).map Observation.low).min?

/-- The highest of everything recorded from an instant on. -/
def highest (calls : List Observation) (since : DateTime) : Option Decimal :=
  ((calls.filter fun call => since ≤ call.time).map Observation.high).max?

/-! ## What is kept -/

/-- The window keeps the candidates of what was recorded. -/
structure Keeps (calls : List Observation) (window : PriceWindow) : Prop where
  lows : MonotoneQueue.Keeps (fun new old => new ≤ old)
    (calls.map fun call => (call.time, call.low)) window.lows
    (calls.getLast?.map Observation.since)
  highs : MonotoneQueue.Keeps (fun new old => old ≤ new)
    (calls.map fun call => (call.time, call.high)) window.highs
    (calls.getLast?.map Observation.since)

variable {calls : List Observation} {call : Observation} {window : PriceWindow} {since : DateTime}

theorem Ordered.of_append (h : Ordered (calls ++ [call])) : Ordered calls where
  time := (List.pairwise_append.1 h.time).1
  since := (List.pairwise_append.1 h.since).1
  range c hc := h.range c (List.mem_append_left _ hc)

theorem Ordered.since_le (h : Ordered (calls ++ [call])) :
    ∀ last ∈ calls.getLast?.map Observation.since, last ≤ call.since := by
  intro last hlast
  obtain ⟨final, hfinal, rfl⟩ := Option.map_eq_some_iff.1 hlast
  exact (List.pairwise_append.1 h.since).2.2 final (List.mem_of_getLast? hfinal) call
    (List.mem_singleton_self _)

theorem Ordered.time_le (h : Ordered (calls ++ [call])) {price : Observation → Decimal} :
    ∀ a ∈ calls.map fun call => (call.time, price call), a.1 ≤ call.time := by
  intro a ha
  obtain ⟨recorded, hrecorded, rfl⟩ := List.mem_map.1 ha
  exact (List.pairwise_append.1 h.time).2.2 recorded hrecorded call (List.mem_singleton_self _)

/-- Recording keeps the candidates, and fails no assertion. -/
theorem record_keeps [Build] (h : Keeps calls window) (hordered : Ordered (calls ++ [call])) :
    ∃ after, window.record call.time call.low call.high call.since = .ok after ∧
      Keeps (calls ++ [call]) after := by
  have hrange : call.low ≤ call.high := hordered.range call (by simp)
  have hlast : ∀ last ∈ window.lows.getLast?, last.1 ≤ call.time := by
    intro last hlast
    have hbefore : ∀ a ∈ calls.map fun call => (call.time, call.low), a.1 ≤ call.time :=
      hordered.time_le
    exact hbefore last (h.lows.sublist.subset (List.mem_of_getLast? hlast))
  have hsince : (calls ++ [call]).getLast?.map Observation.since = some call.since := by simp
  refine ⟨⟨MonotoneQueue.push (fun new old => new ≤ old) window.lows (call.time, call.low)
    call.since, MonotoneQueue.push (fun new old => old ≤ new) window.highs (call.time, call.high)
    call.since⟩, ?_, ?_, ?_⟩
  · unfold record debugAssert
    rw [decide_eq_true hrange, decide_eq_true hlast, Bool.not_true, Bool.and_false]
    rfl
  · rw [hsince, List.map_append]
    exact h.lows.push (fun _ _ _ => le_trans) le_total hordered.time_le hordered.since_le
  · rw [hsince, List.map_append]
    exact h.highs.push (fun _ _ _ hnew hold => hold.trans hnew) (fun a b => le_total b a)
      hordered.time_le hordered.since_le

theorem recordAll_keeps [Build] (h : Ordered calls) :
    ∃ window, recordAll calls = .ok window ∧ Keeps calls window := by
  induction calls using List.reverseRecOn with
  | nil => exact ⟨default, rfl, .nil, .nil⟩
  | append_singleton calls call ih =>
    obtain ⟨window, hrecorded, hkeeps⟩ := ih h.of_append
    obtain ⟨after, hafter, hkept⟩ := record_keeps hkeeps h
    refine ⟨after, ?_, hkept⟩
    unfold recordAll at hrecorded ⊢
    rw [List.foldlM_append, hrecorded]
    show (window.record call.time call.low call.high call.since >>= pure) = _
    rw [hafter]
    rfl

/-! ## What is read -/

/-- A queue of candidates answers a recorded price that outranks every other from the instant on,
    if one was recorded. -/
theorem firstSince_extreme {outranks : Decimal → Decimal → Prop} [DecidableRel outranks]
    (htrans : ∀ a b c, outranks a b → outranks b c → outranks a c)
    (htotal : ∀ a b, outranks a b ∨ outranks b a) {price : Observation → Decimal}
    {queue : List (DateTime × Decimal)}
    (h : MonotoneQueue.Keeps outranks (calls.map fun call => (call.time, price call)) queue
      (calls.getLast?.map Observation.since))
    (hsince : ∀ last ∈ calls.getLast?, last.since ≤ since) :
    match firstSince queue since with
    | none => (calls.filter fun call => since ≤ call.time).map price = []
    | some extreme => extreme ∈ (calls.filter fun call => since ≤ call.time).map price ∧
        ∀ other ∈ (calls.filter fun call => since ≤ call.time).map price, outranks extreme other := by
  have hbound : ∀ last ∈ calls.getLast?.map Observation.since, last ≤ since := by
    intro last hlast
    obtain ⟨final, hfinal, rfl⟩ := Option.map_eq_some_iff.1 hlast
    exact hsince final hfinal
  have hfirst := h.first htrans htotal hbound
  unfold firstSince
  cases hhead : (queue.dropWhile fun e => e.1 < since).head? with
  | none =>
    rw [hhead] at hfirst
    dsimp only [Option.map_none]
    rw [List.map_eq_nil_iff, List.filter_eq_nil_iff]
    intro call hcall
    have hbefore : call.time < since := hfirst _ (List.mem_map_of_mem hcall)
    simpa using hbefore
  | some first =>
    rw [hhead] at hfirst
    obtain ⟨hmem, hreached, hranks⟩ := hfirst
    obtain ⟨call, hcall, rfl⟩ := List.mem_map.1 hmem
    refine ⟨List.mem_map_of_mem (List.mem_filter.2 ⟨hcall, by simpa using hreached⟩), ?_⟩
    intro other hother
    obtain ⟨recorded, hrecorded, rfl⟩ := List.mem_map.1 hother
    obtain ⟨hrecorded, htime⟩ := List.mem_filter.1 hrecorded
    exact hranks (recorded.time, price recorded) (List.mem_map_of_mem hrecorded)
      (by simpa using htime)

theorem Keeps.low_eq (h : Keeps calls window)
    (hsince : ∀ last ∈ calls.getLast?, last.since ≤ since) :
    window.low since = lowest calls since := by
  have hextreme := firstSince_extreme (fun _ _ _ hnew hold => hnew.trans hold)
    (fun a b => le_total a b) h.lows hsince
  unfold low lowest
  cases hfirst : firstSince window.lows since with
  | none =>
    rw [hfirst] at hextreme
    rw [hextreme]
    rfl
  | some price =>
    rw [hfirst] at hextreme
    exact (List.min?_eq_some_iff.2 hextreme).symm

theorem Keeps.high_eq (h : Keeps calls window)
    (hsince : ∀ last ∈ calls.getLast?, last.since ≤ since) :
    window.high since = highest calls since := by
  have hextreme := firstSince_extreme (fun _ _ _ hnew hold => hold.trans hnew)
    (fun a b => le_total b a) h.highs hsince
  unfold high highest
  cases hfirst : firstSince window.highs since with
  | none =>
    rw [hfirst] at hextreme
    rw [hextreme]
    rfl
  | some price =>
    rw [hfirst] at hextreme
    exact (List.max?_eq_some_iff.2 hextreme).symm

/-- A queue in the order of its times is read where a binary search finds the instant. -/
theorem firstSince_partitionPoint {queue : List (DateTime × Decimal)}
    (hsorted : queue.Pairwise fun a b => a.1 ≤ b.1) (since : DateTime) :
    firstSince queue since =
      queue[queue.partitionPoint fun e => e.1 < since]?.map Prod.snd := by
  have hpartitioned : queue.Pairwise fun a b =>
      decide (b.1 < since) = true → decide (a.1 < since) = true := by
    apply hsorted.imp
    intro a b hle hb
    simpa using hle.trans_lt (by simpa using hb)
  unfold firstSince
  rw [← List.drop_partitionPoint hpartitioned, List.head?_drop]

/-- Whatever is recorded, the window reads the lowest and the highest of everything recorded from
    any instant on that it has not forgotten, and its queues can be searched for the instant. -/
theorem reads_extremes [Build] {calls : List Observation} (h : Ordered calls) :
    ∃ window, recordAll calls = .ok window ∧
      ∀ since, (∀ last ∈ calls.getLast?, last.since ≤ since) →
        window.low since = lowest calls since ∧ window.high since = highest calls since ∧
        (∀ queue ∈ [window.lows, window.highs], firstSince queue since =
          queue[queue.partitionPoint fun e => e.1 < since]?.map Prod.snd) := by
  obtain ⟨window, hrecorded, hkeeps⟩ := recordAll_keeps h
  refine ⟨window, hrecorded, ?_⟩
  intro since hsince
  refine ⟨hkeeps.low_eq hsince, hkeeps.high_eq hsince, ?_⟩
  intro queue hqueue
  apply firstSince_partitionPoint
  rcases List.mem_cons.1 hqueue with rfl | hqueue
  · exact hkeeps.lows.queue_sorted
  · rw [List.mem_singleton.1 hqueue]
    exact hkeeps.highs.queue_sorted

/-- A low of three, then one of five: both are read from the first instant, the second alone from
    its own. -/
theorem reads_extremes_of_rise : ∃ (_ : Build) (window : PriceWindow),
    recordAll [⟨0, 3, 4, 0⟩, ⟨1, 5, 6, 0⟩] = .ok window ∧ window.low 0 = some 3 ∧
      window.low 1 = some 5 := by
  let _ : Build := ⟨true⟩
  have hordered : Ordered [⟨0, 3, 4, 0⟩, ⟨1, 5, 6, 0⟩] := ⟨by simp, by simp, by simp; norm_num⟩
  obtain ⟨window, hrecorded, hreads⟩ := reads_extremes hordered
  refine ⟨_, window, hrecorded, ?_, ?_⟩
  · rw [(hreads 0 (by simp)).1]
    decide +kernel
  · rw [(hreads 1 (by simp)).1]
    decide +kernel

end PriceWindow

end Rustrade.Mock
