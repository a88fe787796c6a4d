import Mathlib.Order.Bounds.Basic
import Rustrade.Lib.Deviations
import Rustrade.Statistic.Drawdown

/-!
# Data sets

`DataSetSummary` keeps the count, the sum, the mean, the range and Welford's recurrence relation of
the values it is given one by one. It is what the whole batch of them comes to, so it does not tell
the order they came in. Decimals are exact; the standard deviation, which takes a square root, is
left out.
-/

set_option autoImplicit false

namespace Rustrade.Statistic

/-- `welford_online::calculate_recurrence_relation_m`. -/
def calculateRecurrenceRelationM (prevM prevMean newValue newMean : Decimal) : Decimal :=
  prevM + (newValue - prevMean) * (newValue - newMean)

/-- `welford_online::calculate_population_variance`. -/
def calculatePopulationVariance (recurrenceRelationM count : Decimal) : Decimal :=
  if count < 1 then 0 else recurrenceRelationM / count

structure Range where
  activated : Bool
  high : Decimal
  low : Decimal
  deriving DecidableEq

namespace Range

def default : Range := ⟨false, 0, 0⟩

def update (range : Range) (newValue : Decimal) : Range :=
  if range.activated then
    let range := if range.high < newValue then { range with high := newValue } else range
    if newValue < range.low then { range with low := newValue } else range
  else ⟨true, newValue, newValue⟩

end Range

structure Dispersion where
  range : Range
  recurrenceRelationM : Decimal
  deriving DecidableEq

namespace Dispersion

def default : Dispersion := ⟨.default, 0⟩

def update (dispersion : Dispersion) (prevMean newMean newValue : Decimal) : Dispersion :=
  { range := dispersion.range.update newValue
    recurrenceRelationM :=
      calculateRecurrenceRelationM dispersion.recurrenceRelationM prevMean newValue newMean }

def variance (dispersion : Dispersion) (count : Decimal) : Decimal :=
  calculatePopulationVariance dispersion.recurrenceRelationM count

end Dispersion

structure DataSetSummary where
  count : Decimal
  sum : Decimal
  mean : Decimal
  dispersion : Dispersion
  deriving DecidableEq

namespace DataSetSummary

def default : DataSetSummary := ⟨0, 0, 0, .default⟩

def update (summary : DataSetSummary) (nextValue : Decimal) : DataSetSummary :=
  let count := summary.count + 1
  let mean := calculateMean (· / ·) summary.mean nextValue count
  { count
    sum := summary.sum + nextValue
    mean
    dispersion := summary.dispersion.update summary.mean mean nextValue }

def variance (summary : DataSetSummary) : Decimal := summary.dispersion.variance summary.count

end DataSetSummary

/-! ## The range -/

/-- An active range is stretched to a value outside it. -/
theorem Range.update_activated {range : Range} (h : range.activated = true) (value : Decimal) :
    range.update value = ⟨true, max range.high value, min range.low value⟩ := by
  unfold Range.update
  rw [if_pos h]
  obtain ⟨activated, high, low⟩ := range
  obtain rfl : activated = true := h
  by_cases hhigh : high < value
  · by_cases hlow : value < low
    · simp [hhigh, hlow, max_eq_right hhigh.le, min_eq_right hlow.le]
    · simp [hhigh, hlow, max_eq_right hhigh.le, min_eq_left (not_lt.mp hlow)]
  · by_cases hlow : value < low
    · simp [hhigh, hlow, max_eq_left (not_lt.mp hhigh), min_eq_right hlow.le]
    · simp [hhigh, hlow, max_eq_left (not_lt.mp hhigh), min_eq_left (not_lt.mp hlow)]

/-- The range holds the largest and the smallest of the values, and is inactive where there is
none. -/
structure Range.Spans (range : Range) (values : List Decimal) : Prop where
  empty : values = [] → range = .default
  activated : values ≠ [] → range.activated = true
  high : values ≠ [] → IsGreatest {value | value ∈ values} range.high
  low : values ≠ [] → IsLeast {value | value ∈ values} range.low

namespace Range.Spans

variable {range other : Range} {values values' : List Decimal}

theorem default : Range.default.Spans [] :=
  ⟨fun _ => rfl, fun h => absurd rfl h, fun h => absurd rfl h, fun h => absurd rfl h⟩

theorem perm (h : range.Spans values) (hperm : values.Perm values') : range.Spans values' := by
  have hsame : {value | value ∈ values'} = {value | value ∈ values} :=
    Set.ext fun _ => hperm.mem_iff.symm
  have hnil : values' = [] ↔ values = [] := by
    rw [← List.length_eq_zero_iff, ← hperm.length_eq, List.length_eq_zero_iff]
  refine ⟨fun hempty => h.empty (hnil.mp hempty), ?_, ?_, ?_⟩
  · rw [ne_eq, hnil]
    exact h.activated
  · rw [ne_eq, hnil, hsame]
    exact h.high
  · rw [ne_eq, hnil, hsame]
    exact h.low

/-- One range spans the values. -/
theorem unique (h : range.Spans values) (hother : other.Spans values) : range = other := by
  by_cases hnil : values = []
  · rw [h.empty hnil, hother.empty hnil]
  · obtain ⟨activated, high, low⟩ := range
    obtain ⟨activated', high', low'⟩ := other
    obtain rfl : activated = true := h.activated hnil
    obtain rfl : activated' = true := hother.activated hnil
    obtain rfl : high = high' := (h.high hnil).unique (hother.high hnil)
    obtain rfl : low = low' := (h.low hnil).unique (hother.low hnil)
    rfl

theorem update (h : range.Spans values) (value : Decimal) :
    (range.update value).Spans (values ++ [value]) := by
  by_cases hnil : values = []
  · -- The first value is both bounds, whatever the inactive range held.
    rw [h.empty hnil, hnil]
    have hfirst : Range.default.update value = ⟨true, value, value⟩ := rfl
    rw [hfirst]
    exact ⟨fun h => absurd h (by simp), fun _ => rfl, fun _ => by simp, fun _ => by simp⟩
  · have hmore : {other | other ∈ values ++ [value]} = {other | other ∈ values} ∪ {value} := by
      ext other
      simp [or_comm]
    rw [Range.update_activated (h.activated hnil)]
    refine ⟨fun h => absurd h (by simp), fun _ => rfl, fun _ => ?_, fun _ => ?_⟩
    · rw [hmore]
      exact (h.high hnil).union isGreatest_singleton
    · rw [hmore]
      exact (h.low hnil).union isLeast_singleton

end Range.Spans

/-! ## The batch -/

open Deviations

/-- What the whole batch of values comes to. -/
structure DataSetSummary.Summarises (summary : DataSetSummary) (values : List Decimal) : Prop where
  count : summary.count = values.length
  sum : summary.sum = values.sum
  mean : summary.mean = Deviations.mean values
  recurrenceRelationM :
    summary.dispersion.recurrenceRelationM = about (Deviations.mean values) values
  range : summary.dispersion.range.Spans values

namespace DataSetSummary.Summarises

variable {summary other : DataSetSummary} {values values' : List Decimal}

theorem default : DataSetSummary.default.Summarises [] :=
  ⟨rfl, rfl, mean_nil.symm, rfl, Range.Spans.default⟩

theorem update (h : summary.Summarises values) (value : Decimal) :
    (summary.update value).Summarises (values ++ [value]) where
  count := by
    show summary.count + 1 = _
    rw [h.count, List.length_append]
    push_cast
    rfl
  sum := by
    show summary.sum + value = _
    rw [h.sum, List.sum_append, List.sum_singleton]
  mean := by
    show summary.mean + (value - summary.mean) / (summary.count + 1) = _
    rw [h.mean, h.count, mean_snoc]
  recurrenceRelationM := by
    have hmean : (summary.update value).mean = Deviations.mean (values ++ [value]) := by
      show summary.mean + (value - summary.mean) / (summary.count + 1) = _
      rw [h.mean, h.count, mean_snoc]
    show summary.dispersion.recurrenceRelationM +
      (value - summary.mean) * (value - (summary.update value).mean) = _
    rw [hmean, h.mean, h.recurrenceRelationM, about_mean_snoc]
  range := h.range.update value

theorem ofValues (values : List Decimal) :
    (values.foldl DataSetSummary.update .default).Summarises values := by
  induction values using List.reverseRecOn with
  | nil => exact default
  | append_singleton values value ih =>
    rw [List.foldl_append]
    exact ih.update value

theorem perm (h : summary.Summarises values) (hperm : values.Perm values') :
    summary.Summarises values' where
  count := h.count.trans (congrArg Nat.cast hperm.length_eq)
  sum := h.sum.trans hperm.sum_eq
  mean := h.mean.trans (mean_perm hperm)
  recurrenceRelationM := by rw [h.recurrenceRelationM, mean_perm hperm, about_perm _ hperm]
  range := h.range.perm hperm

/-- One summary is that of the batch. -/
theorem unique (h : summary.Summarises values) (hother : other.Summarises values) :
    summary = other := by
  obtain ⟨count, sum, mean, range, m⟩ := summary
  obtain ⟨count', sum', mean', range', m'⟩ := other
  obtain rfl : count = count' := h.count.trans hother.count.symm
  obtain rfl : sum = sum' := h.sum.trans hother.sum.symm
  obtain rfl : mean = mean' := h.mean.trans hother.mean.symm
  obtain rfl : m = m' := h.recurrenceRelationM.trans hother.recurrenceRelationM.symm
  obtain rfl : range = range' := h.range.unique hother.range
  rfl

theorem variance (h : summary.Summarises values) :
    summary.variance = summary.dispersion.recurrenceRelationM / summary.count := by
  show (if summary.count < 1 then 0 else _) = _
  cases values with
  | nil => simp [h.count]
  | cons value values =>
    rw [if_neg]
    rw [h.count, not_lt, List.length_cons]
    push_cast
    linarith [Nat.cast_nonneg (α := ℚ) values.length]

end DataSetSummary.Summarises

/-- Whatever values a summary is given, and in whatever order, it holds what the batch of them comes
to. Of no values the mean and the variance are zero, as division by their count is. -/
theorem summary_eq_batch (values : List Decimal) :
    let summary := values.foldl DataSetSummary.update .default
    summary.count = values.length ∧
      summary.sum = values.sum ∧
      summary.mean = summary.sum / summary.count ∧
      summary.dispersion.recurrenceRelationM =
        (values.map fun value => (value - summary.mean) ^ 2).sum ∧
      0 ≤ summary.dispersion.recurrenceRelationM ∧
      summary.variance = summary.dispersion.recurrenceRelationM / summary.count ∧
      summary.dispersion.range.Spans values ∧
      ∀ values', values.Perm values' →
        values'.foldl DataSetSummary.update .default = summary := by
  intro summary
  have h : summary.Summarises values := .ofValues values
  refine ⟨h.count, h.sum, ?_, ?_, ?_, h.variance, h.range, fun values' hperm => ?_⟩
  · rw [h.mean, h.sum, h.count]
    rfl
  · rw [h.recurrenceRelationM, h.mean]
    rfl
  · rw [h.recurrenceRelationM]
    exact about_nonneg _ _
  · exact (DataSetSummary.Summarises.ofValues values').unique (h.perm hperm)

example : ([11 / 10, 12 / 10, 13 / 10].foldl DataSetSummary.update .default).variance = 1 / 150 := by
  decide +kernel

end Rustrade.Statistic
