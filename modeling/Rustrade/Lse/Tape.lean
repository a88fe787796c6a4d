import Mathlib.Data.Int.ConditionallyCompleteOrder
import Mathlib.Data.Nat.Count
import Mathlib.Order.Monotone.Basic
import Rustrade.Lse.Connection

/-!
# What a replay owes a stream

A stream has emitted the tape from `first` up to `next` (`Marks` is what its watermark says of
that), and the next frame it is sent is tick `position`. `Skips` says that its transformer drops
exactly the ticks from `position` to `next`: those before the watermark's instant because the
window was opened earlier, and as many at the instant as remain to be skipped by position. It is
kept by every frame, and it holds of a tracker built from the watermark, if no tick before the
stream's first one carries the watermark's instant: the count is of the ticks emitted there, the
replay is of all of them.
-/

set_option autoImplicit false

namespace Rustrade.Lse

variable {tape : ℕ → DateTime}

/-- How many of the first `n` ticks carry the instant. -/
abbrev ticksAt (tape : ℕ → DateTime) (instant : DateTime) (n : ℕ) : ℕ :=
  Nat.count (fun position => tape position = instant) n

theorem ticksAt_eq_zero {instant : DateTime} {n : ℕ} :
    ticksAt tape instant n = 0 ↔ ∀ i < n, tape i ≠ instant := Nat.count_iff_forall_not

theorem ticksAt_succ {instant : DateTime} {n : ℕ} :
    ticksAt tape instant (n + 1) = ticksAt tape instant n + if tape n = instant then 1 else 0 :=
  Nat.count_succ _ _

/-! ## Where a replay begins -/

namespace Connection

variable {start : DateTime} {published : ℕ}

theorem replayFrom_le : replayFrom tape start published ≤ published := by
  unfold replayFrom
  exact List.findIdx_le_length.trans (List.length_range).le

theorem lt_start_of_lt_replayFrom {i : ℕ} (h : i < replayFrom tape start published) :
    tape i < start := by
  have hnot := List.not_of_lt_findIdx h
  rw [List.getElem_range, decide_eq_false_iff_not] at hnot
  exact not_le.1 hnot

theorem start_le_of_replayFrom_le (hmono : Monotone tape) {i : ℕ}
    (h : replayFrom tape start published ≤ i) (hi : i < published) : start ≤ tape i := by
  have hlt : replayFrom tape start published < (List.range published).length := by
    rw [List.length_range]
    omega
  have hfound : (List.range published)[replayFrom tape start published]? =
      some (replayFrom tape start published) := by
    rw [List.getElem?_eq_getElem hlt, List.getElem_range]
  have hstart := List.findIdx_of_getElem?_eq_some hfound
  rw [decide_eq_true_eq] at hstart
  exact hstart.trans (hmono h)

end Connection

/-! ## Skipping what was emitted -/

/-- The transformer drops the ticks from `position` to `next`, and then nothing. -/
def Skips (tape : ℕ → DateTime) (pending : Option PendingDrop) (position next : ℕ) : Prop :=
  match pending with
  | none => position = next
  | some pending =>
    pending.timeExchange ≤ tape next ∧ position ≤ next ∧
    pending.remaining + ticksAt tape pending.timeExchange position =
      ticksAt tape pending.timeExchange next ∧
    ∀ i, position ≤ i → i < next → tape i ≤ pending.timeExchange ∧
      (tape i < pending.timeExchange → pending.openedEarlier = true ∧ pending.passed = false)

theorem Skips.le {pending : Option PendingDrop} {position next : ℕ}
    (h : Skips tape pending position next) : position ≤ next := by
  cases pending with
  | none => exact Nat.le_of_eq h
  | some pending => exact h.2.1

/-- A tick that was emitted is dropped. -/
theorem Skips.drop {pending : PendingDrop} {position next : ℕ}
    (h : Skips tape (some pending) position next) (hlt : position < next) :
    (pending.shouldDrop (tape position)).2 = true ∧
      Skips tape (some (pending.shouldDrop (tape position)).1) (position + 1) next := by
  obtain ⟨htime, hle, hcount, hbefore⟩ := h
  obtain ⟨hat, hearlier⟩ := hbefore position le_rfl hlt
  have hlater : ∀ i, position + 1 ≤ i → i < next → tape i ≤ pending.timeExchange ∧
      (tape i < pending.timeExchange → pending.openedEarlier = true ∧ pending.passed = false) :=
    fun i hi => hbefore i (by omega)
  unfold PendingDrop.shouldDrop
  by_cases heq : tape position = pending.timeExchange
  · -- Inside the instant: one of those that remain to be skipped.
    have hnow : ticksAt tape pending.timeExchange (position + 1) =
        ticksAt tape pending.timeExchange position + 1 := by
      rw [ticksAt_succ, if_pos heq]
    have hmono : ticksAt tape pending.timeExchange (position + 1) ≤
        ticksAt tape pending.timeExchange next := Nat.count_monotone _ hlt
    rw [if_pos heq, if_pos (by omega)]
    refine ⟨rfl, htime, hlt, ?_, hlater⟩
    show pending.remaining - 1 + ticksAt tape pending.timeExchange (position + 1) =
      ticksAt tape pending.timeExchange next
    omega
  · have hlt' : tape position < pending.timeExchange := lt_of_le_of_ne hat heq
    obtain ⟨hopened, hpassed⟩ := hearlier hlt'
    have hnow : ticksAt tape pending.timeExchange (position + 1) =
        ticksAt tape pending.timeExchange position := by
      rw [ticksAt_succ, if_neg heq, Nat.add_zero]
    rw [if_neg heq, if_neg (not_lt.2 hat)]
    refine ⟨by simp [hopened, hpassed], htime, hlt, ?_, hlater⟩
    show pending.remaining + ticksAt tape pending.timeExchange (position + 1) =
      ticksAt tape pending.timeExchange next
    omega

/-- The next tick is not. -/
theorem Skips.emit (hmono : Monotone tape) {pending : PendingDrop} {next : ℕ}
    (h : Skips tape (some pending) next next) :
    (pending.shouldDrop (tape next)).2 = false ∧
      Skips tape (some (pending.shouldDrop (tape next)).1) (next + 1) (next + 1) := by
  obtain ⟨htime, -, hcount, -⟩ := h
  have hnone : pending.remaining = 0 := by omega
  have hstep : tape next ≤ tape (next + 1) := hmono (Nat.le_succ next)
  have hempty : ∀ i, next + 1 ≤ i → i < next + 1 → tape i ≤ pending.timeExchange ∧
      (tape i < pending.timeExchange → pending.openedEarlier = true ∧ pending.passed = false) :=
    fun i hi hlt => absurd hlt (by omega)
  unfold PendingDrop.shouldDrop
  by_cases heq : tape next = pending.timeExchange
  · rw [if_pos heq, if_neg (by omega)]
    refine ⟨rfl, htime.trans hstep, le_rfl, ?_, hempty⟩
    show pending.remaining + ticksAt tape pending.timeExchange (next + 1) =
      ticksAt tape pending.timeExchange (next + 1)
    omega
  · have hlt : pending.timeExchange < tape next := lt_of_le_of_ne htime (Ne.symm heq)
    rw [if_neg heq, if_pos hlt]
    refine ⟨rfl, htime.trans hstep, le_rfl, ?_, ?_⟩
    · show 0 + ticksAt tape pending.timeExchange (next + 1) =
        ticksAt tape pending.timeExchange (next + 1)
      omega
    · intro i hi hlt
      omega

/-! ## What a watermark says of what was emitted -/

/-- The watermark of a stream that has emitted the ticks from `first` up to `next`. -/
structure Marks (tape : ℕ → DateTime) (first next : ℕ) (mark : LseWatermark) : Prop where
  time : mark.timeExchange = tape (next - 1)
  count : mark.countAtTime + ticksAt tape mark.timeExchange first =
    ticksAt tape mark.timeExchange next

theorem marks_first (position : ℕ) :
    Marks tape position (position + 1) (LseResumeState.advance (tape position) none) := by
  refine ⟨rfl, ?_⟩
  show 1 + ticksAt tape (tape position) position = ticksAt tape (tape position) (position + 1)
  rw [ticksAt_succ, if_pos rfl, Nat.add_comm]

theorem Marks.advance (hmono : Monotone tape) {first next : ℕ} {mark : LseWatermark}
    (h : Marks tape first next mark) (hlt : first < next) :
    Marks tape first (next + 1) (LseResumeState.advance (tape next) (some mark)) := by
  have hbefore : ∀ i < next, tape i ≤ mark.timeExchange := by
    intro i hi
    rw [h.time]
    exact hmono (by omega)
  have hle : mark.timeExchange ≤ tape next := by
    rw [h.time]
    exact hmono (by omega)
  unfold LseResumeState.advance
  dsimp only
  by_cases hnew : mark.timeExchange < tape next
  · -- A newer instant: none of the ticks before carries it.
    rw [if_pos hnew]
    have hnone : ∀ n ≤ next, ticksAt tape (tape next) n = 0 := by
      intro n hn
      rw [ticksAt_eq_zero]
      intro i hi heq
      exact absurd (hbefore i (by omega)) (not_le.2 (heq ▸ hnew))
    refine ⟨rfl, ?_⟩
    show 1 + ticksAt tape (tape next) first = ticksAt tape (tape next) (next + 1)
    rw [ticksAt_succ, if_pos rfl, hnone first hlt.le, hnone next le_rfl]
  · have heq : tape next = mark.timeExchange := le_antisymm (not_lt.1 hnew) hle
    rw [if_neg hnew, if_pos heq]
    refine ⟨heq.symm, ?_⟩
    show mark.countAtTime + 1 + ticksAt tape mark.timeExchange first =
      ticksAt tape mark.timeExchange (next + 1)
    rw [ticksAt_succ, if_pos heq, ← h.count]
    omega

/-- A replay from no later than the watermark is skipped up to what was emitted, if none of the
ticks before the first one emitted carries the watermark's instant. -/
theorem Marks.skips (hmono : Monotone tape) {first next published : ℕ} {mark : LseWatermark}
    {start : DateTime} (h : Marks tape first next mark) (hlt : first < next)
    (hnext : next ≤ published) (hstart : start ≤ mark.timeExchange)
    (hjoined : ∀ i < first, tape i ≠ mark.timeExchange) :
    Skips tape (some (.new mark start)) (Connection.replayFrom tape start published) next := by
  have hlast : start ≤ tape (next - 1) := by
    rw [← h.time]
    exact hstart
  have hle : Connection.replayFrom tape start published ≤ next := by
    by_contra hgt
    have hreplay : next - 1 < Connection.replayFrom tape start published := by omega
    exact absurd hlast (not_le.2 (Connection.lt_start_of_lt_replayFrom hreplay))
  refine ⟨?_, hle, ?_, ?_⟩
  · show mark.timeExchange ≤ tape next
    rw [h.time]
    exact hmono (by omega)
  · show mark.countAtTime + ticksAt tape mark.timeExchange _ = ticksAt tape mark.timeExchange next
    have hbefore : ticksAt tape mark.timeExchange
        (Connection.replayFrom tape start published) = 0 := by
      rw [ticksAt_eq_zero]
      intro i hi heq
      exact absurd hstart (not_le.2 (heq ▸ Connection.lt_start_of_lt_replayFrom hi))
    have hfirst : ticksAt tape mark.timeExchange first = 0 := ticksAt_eq_zero.2 hjoined
    have hcount := h.count
    omega
  · intro i hi hilt
    constructor
    · show tape i ≤ mark.timeExchange
      rw [h.time]
      exact hmono (by omega)
    · intro hearlier
      refine ⟨?_, rfl⟩
      show decide (start < mark.timeExchange) = true
      rw [decide_eq_true_eq]
      exact (Connection.start_le_of_replayFrom_le hmono hi (by omega)).trans_lt hearlier

end Rustrade.Lse
