import Mathlib.Algebra.BigOperators.Group.List.Basic
import Mathlib.Algebra.Order.Group.Int
import Mathlib.Tactic.Ring

/-!
# Durations and times with a range

A `Duration` holds whole nanoseconds up to a largest one, and its saturating operations stop
there. A time on a clock of UTC is between two limits as well, and adding to one fails outside
them.
-/

set_option autoImplicit false

namespace Chrono

/-- `Duration::MAX`: the seconds of a `u64` and all but one nanosecond of another. -/
abbrev durationMax : ℕ := 18446744073709551615999999999

def saturatingAdd (a b : ℕ) : ℕ := min (a + b) durationMax

def saturatingMul (a : ℕ) (times : ℕ) : ℕ := min (a * times) durationMax

/-- `fold(Duration::ZERO, Duration::saturating_add)`. -/
def saturatingSum (durations : List ℕ) : ℕ := durations.foldl saturatingAdd 0

/-- The longest `TimeDelta`: the milliseconds of an `i64`. -/
abbrev deltaMax : ℕ := 9223372036854775807000000

/-- `DateTime::<Utc>::MIN_UTC`, in nanoseconds from 1970. -/
abbrev minNanos : ℤ := -8334601228800000000000

/-- `DateTime::<Utc>::MAX_UTC`. -/
abbrev maxNanos : ℤ := 8210266876799999999999

/-- `DateTime<Utc>`. -/
abbrev UtcTime := { nanos : ℤ // minNanos ≤ nanos ∧ nanos ≤ maxNanos }

instance : DecidableLT UtcTime := fun a b => inferInstanceAs (Decidable (a.val < b.val))

instance : DecidableLE UtcTime := fun a b => inferInstanceAs (Decidable (a.val ≤ b.val))

def UtcTime.min : UtcTime := ⟨minNanos, le_refl _, by decide⟩

def UtcTime.max : UtcTime := ⟨maxNanos, by decide, le_refl _⟩

def UtcTime.ofNanos (nanos : ℤ) : Option UtcTime :=
  if h : minNanos ≤ nanos ∧ nanos ≤ maxNanos then some ⟨nanos, h⟩ else none

/-- `checked_add_signed`, of a span that is not negative. -/
def UtcTime.checkedAdd (time : UtcTime) (span : ℕ) : Option UtcTime :=
  UtcTime.ofNanos (time.val + span)

def UtcTime.checkedSub (time : UtcTime) (span : ℕ) : Option UtcTime :=
  UtcTime.ofNanos (time.val - span)

/-- `TimeDelta::from_std`. -/
def toDelta (duration : ℕ) : Option ℕ := if duration ≤ deltaMax then some duration else none

theorem foldl_saturatingAdd (durations : List ℕ) (start : ℕ) :
    durations.foldl saturatingAdd (min start durationMax) =
      min (start + durations.sum) durationMax := by
  induction durations generalizing start with
  | nil => simp
  | cons duration durations ih =>
    have hstep : saturatingAdd (min start durationMax) duration =
        min (start + duration) durationMax := by
      unfold saturatingAdd
      omega
    rw [List.foldl_cons, hstep, ih, List.sum_cons, Nat.add_assoc]

/-- A saturating sum is the sum, cut off once. -/
theorem saturatingSum_eq (durations : List ℕ) :
    saturatingSum durations = min durations.sum durationMax := by
  have h := foldl_saturatingAdd durations 0
  rw [Nat.zero_min, Nat.zero_add] at h
  exact h

theorem saturatingSum_append (early late : List ℕ) :
    saturatingSum (early ++ late) = saturatingAdd (saturatingSum early) (saturatingSum late) := by
  rw [saturatingSum_eq, saturatingSum_eq, saturatingSum_eq, List.sum_append]
  unfold saturatingAdd
  omega

theorem saturatingSum_replicate (times duration : ℕ) :
    saturatingSum (List.replicate times duration) = saturatingMul duration times := by
  rw [saturatingSum_eq, List.sum_replicate_nat, Nat.mul_comm]
  rfl

theorem UtcTime.min_le (time : UtcTime) : UtcTime.min ≤ time := time.property.1

theorem UtcTime.le_max (time : UtcTime) : time ≤ UtcTime.max := time.property.2

theorem UtcTime.ofNanos_eq_some_iff {nanos : ℤ} {time : UtcTime} :
    UtcTime.ofNanos nanos = some time ↔ time.val = nanos := by
  unfold UtcTime.ofNanos
  split
  · simp [Subtype.ext_iff, eq_comm]
  · rename_i h
    constructor
    · simp
    · intro hval
      exact absurd (hval ▸ time.property) h

theorem toDelta_eq_some_iff {duration delta : ℕ} :
    toDelta duration = some delta ↔ delta = duration ∧ duration ≤ deltaMax := by
  unfold toDelta
  split
  · rename_i h
    simp [h, eq_comm]
  · rename_i h
    simp [h]

/-- Counting on within the range is exact: a span between two times is never too long. -/
theorem checkedAdd_toDelta {time later : UtcTime} {span : ℕ}
    (h : time.val + span ≤ later.val) :
    ∃ sum : UtcTime, (toDelta span).bind time.checkedAdd = some sum ∧
      sum.val = time.val + span := by
  have hlow := time.property.1
  have hhigh := later.property.2
  refine ⟨⟨time.val + span, by omega, by omega⟩, ?_, rfl⟩
  have hspan : span ≤ deltaMax := by
    unfold minNanos at hlow
    unfold maxNanos at hhigh
    unfold deltaMax
    omega
  simp [toDelta, hspan, UtcTime.checkedAdd, UtcTime.ofNanos_eq_some_iff]

end Chrono
