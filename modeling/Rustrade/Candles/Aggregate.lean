import Mathlib.Algebra.Order.Ring.Rat
import Mathlib.Data.List.Induction
import Mathlib.Data.List.Nodup
import Mathlib.Tactic.Linarith
import Rustrade.Decimal
import Rustrade.Lib.Chrono
import Rustrade.Lib.Runs

/-!
# Candles of a longer interval

`aggregate_candles` puts each candle into the bucket of the target grid its open falls in, and
gives one candle a bucket. Instants and intervals are in nanoseconds, decimals are exact.
-/

set_option autoImplicit false

namespace Rustrade.Candles

open Chrono

structure Bar where
  «open» : Decimal
  high : Decimal
  low : Decimal
  close : Decimal
  volume : Option Decimal
  tradeCount : Option ℕ
  deriving DecidableEq

structure Candle extends Bar where
  closeTime : UtcTime
  deriving DecidableEq

def closeTimeFromOpen («open» : UtcTime) (step : ℤ) : Option UtcTime :=
  UtcTime.ofNanos («open».val + step)

def openTimeFromClose (close : UtcTime) (step : ℤ) : Option UtcTime :=
  UtcTime.ofNanos (close.val - step)

inductive AggregateCandlesError where
  | nonPositiveInterval (base target : ℤ)
  | subMillisecondInterval (base target : ℤ)
  | targetSmallerThanBase (base target : ℤ)
  | targetNotMultipleOfBase (base target : ℤ)
  | nonMonotonicInput (index : ℕ)
  | timestampOutOfRange (index : ℕ)
  deriving DecidableEq

inductive Failure where
  | error (error : AggregateCandlesError)
  | panic
  deriving DecidableEq

abbrev milli : ℤ := 1000000

def numMilliseconds (duration : ℤ) : ℤ := duration.tdiv milli

def timestampMillis (time : UtcTime) : ℤ := time.val / milli

structure Bucket extends Bar where
  openMs : ℤ
  firstIndex : ℕ

def flush (bucket : Bucket) (target : ℤ) : Except Failure Candle :=
  match (UtcTime.ofNanos (bucket.openMs * milli)).bind fun bucketOpen =>
      closeTimeFromOpen bucketOpen target with
  | some closeTime => .ok { bucket.toBar with closeTime }
  | none => .error (.error (.timestampOutOfRange bucket.firstIndex))

/-- A sum that is unknown if a part of it is. -/
def both {T : Type} [Add T] : Option T → Option T → Option T
  | some a, some b => some (a + b)
  | _, _ => none

/-- One candle and the next as one, however many trades they count. -/
def Bar.merge (a b : Bar) : Bar :=
  { «open» := a.open
    high := max a.high b.high
    low := min a.low b.low
    close := b.close
    volume := both a.volume b.volume
    tradeCount := both a.tradeCount b.tradeCount }

def u64Limit : ℕ := 18446744073709551616

/-- A candle folded into the bucket; a count past a `u64` panics. -/
def Bucket.add (bucket : Bucket) (candle : Candle) : Except Failure Bucket :=
  let merged := bucket.toBar.merge candle.toBar
  if merged.tradeCount.all (· < u64Limit) then .ok { bucket with toBar := merged }
  else .error .panic

/-- The start, in milliseconds, of the bucket an instant is in. -/
def floorMs (target instant : ℤ) : ℤ :=
  instant / milli / numMilliseconds target * numMilliseconds target

/-- The loop over the candles from number `index` on. -/
def aggregateFrom (base target : ℤ) (index : ℕ) (prev : Option UtcTime) (bucket : Option Bucket)
    (output : List Candle) : List Candle → Except Failure (List Candle)
  | [] =>
    match bucket with
    | some last =>
      match flush last target with
      | .ok candle => .ok (output ++ [candle])
      | .error failure => .error failure
    | none => .ok output
  | candle :: candles =>
    if prev.any fun prev => candle.closeTime.val ≤ prev.val then .error (.error (.nonMonotonicInput index))
    else
      match openTimeFromClose candle.closeTime base with
      | none => .error (.error (.timestampOutOfRange index))
      | some subOpen =>
        let bucketOpenMs := floorMs target subOpen.val
        let fresh : Bucket :=
          { toBar := candle.toBar, openMs := bucketOpenMs, firstIndex := index }
        match bucket with
        | some current =>
          if current.openMs = bucketOpenMs then
            match current.add candle with
            | .ok current => aggregateFrom base target (index + 1) (some candle.closeTime)
                (some current) output candles
            | .error failure => .error failure
          else
            match flush current target with
            | .ok completed => aggregateFrom base target (index + 1) (some candle.closeTime)
                (some fresh) (output ++ [completed]) candles
            | .error failure => .error failure
        | none => aggregateFrom base target (index + 1) (some candle.closeTime) (some fresh)
            output candles

def aggregateCandles (candles : List Candle) (base target : ℤ) : Except Failure (List Candle) :=
  if base ≤ 0 ∨ target ≤ 0 then .error (.error (.nonPositiveInterval base target))
  else if numMilliseconds base * milli ≠ base ∨ numMilliseconds target * milli ≠ target then
    .error (.error (.subMillisecondInterval base target))
  else if target < base then .error (.error (.targetSmallerThanBase base target))
  else if (numMilliseconds target).tmod (numMilliseconds base) ≠ 0 then
    .error (.error (.targetNotMultipleOfBase base target))
  else aggregateFrom base target 0 none none [] candles

/-! ## The candles of a bucket as one -/

theorem both_assoc {T : Type} [AddSemigroup T] (a b c : Option T) :
    both (both a b) c = both a (both b c) := by
  cases a <;> cases b <;> cases c <;> simp [both, add_assoc]

theorem Bar.merge_assoc (a b c : Bar) : (a.merge b).merge c = a.merge (b.merge c) := by
  simp [Bar.merge, both_assoc, max_assoc, min_assoc]

/-- What a run of candles comes to. -/
def barOf (run : Run Candle) : Bar := run.fold Bar.merge Candle.toBar

/-- No count of the run's first candles, two or more, goes past a `u64`. -/
def Tallies (run : Run Candle) : Prop :=
  ∀ early last late, run.rest = early ++ last :: late →
    ∀ count ∈ (barOf (Run.snoc ⟨run.first, early⟩ last)).tradeCount, count < u64Limit

/-- The bucket a candle is in. -/
def bucketOf (base target : ℤ) (candle : Candle) : ℤ :=
  floorMs target (candle.closeTime.val - base)

/-- The candle of a run: its bucket is a span of time that chrono can hold. -/
structure Emitted (base target : ℤ) (run : Run Candle) (candle : Candle) : Prop where
  bar : candle.toBar = barOf run
  opens : minNanos ≤ bucketOf base target run.first * milli ∧
    bucketOf base target run.first * milli ≤ maxNanos
  closes : candle.closeTime.val = bucketOf base target run.first * milli + target

theorem barOf_snoc (run : Run Candle) (candle : Candle) :
    barOf (run.snoc candle) = (barOf run).merge candle.toBar :=
  Run.fold_snoc Bar.merge Candle.toBar run candle

theorem tallies_single (candle : Candle) : Tallies (.single candle) := by
  intro early last late h
  simp [Run.single] at h

theorem tallies_snoc {run : Run Candle} {candle : Candle} :
    Tallies (run.snoc candle) ↔
      Tallies run ∧ ∀ count ∈ (barOf (run.snoc candle)).tradeCount, count < u64Limit := by
  constructor
  · intro h
    refine ⟨fun early last late hrest => h early last (late ++ [candle]) ?_, ?_⟩
    · simp [Run.snoc, hrest]
    · exact h run.rest candle [] rfl
  · rintro ⟨hrun, hlast⟩ early last late hrest
    obtain rfl | ⟨late, final, rfl⟩ := late.eq_nil_or_concat
    · have hsplit : run.rest = early ∧ candle = last := by
        have h := hrest
        simp only [Run.snoc] at h
        have := List.append_inj' h rfl
        exact ⟨this.1, by simpa using this.2⟩
      obtain ⟨rfl, rfl⟩ := hsplit
      exact hlast
    · refine hrun early last late ?_
      have h : run.rest ++ [candle] = (early ++ last :: late) ++ [final] := by
        simpa [Run.snoc] using hrest
      exact (List.append_inj' h rfl).1

/-- A run goes on with more candles only if it tallied before. -/
theorem Tallies.of_append {first : Candle} {early late : List Candle}
    (h : Tallies ⟨first, early ++ late⟩) : Tallies ⟨first, early⟩ := by
  intro before last after hrest
  refine h before last (after ++ late) ?_
  have hearly : early = before ++ last :: after := hrest
  simp [hearly]

theorem add_eq_ok_iff {bucket next : Bucket} {candle : Candle} :
    bucket.add candle = .ok next ↔
      next = { bucket with toBar := bucket.toBar.merge candle.toBar } ∧
        ∀ count ∈ (bucket.toBar.merge candle.toBar).tradeCount, count < u64Limit := by
  unfold Bucket.add
  dsimp only
  generalize bucket.toBar.merge candle.toBar = merged
  cases hcount : merged.tradeCount with
  | none => simp [eq_comm]
  | some count =>
    by_cases hlt : count < u64Limit
    · simp [hlt, eq_comm]
    · simp [hlt]

theorem flush_eq_ok_iff {base target : ℤ} {bucket : Bucket} {run : Run Candle} {candle : Candle}
    (hbar : bucket.toBar = barOf run) (hopen : bucket.openMs = bucketOf base target run.first) :
    flush bucket target = .ok candle ↔ Emitted base target run candle := by
  unfold flush
  constructor
  · intro h
    split at h
    · rename_i closeTime htime
      obtain ⟨bucketOpen, hbucketOpen, hclose⟩ := Option.bind_eq_some_iff.mp htime
      have hval := UtcTime.ofNanos_eq_some_iff.mp hbucketOpen
      have hcloseVal := UtcTime.ofNanos_eq_some_iff.mp hclose
      obtain rfl := Except.ok.inj h
      refine ⟨hbar, ?_, ?_⟩
      · rw [← hopen, ← hval]
        exact bucketOpen.property
      · rw [← hopen, ← hval]
        exact hcloseVal
    · exact absurd h (by simp)
  · intro h
    have hbucketOpen : UtcTime.ofNanos (bucket.openMs * milli) =
        some ⟨bucket.openMs * milli, hopen ▸ h.opens⟩ := UtcTime.ofNanos_eq_some_iff.mpr rfl
    have hclose : closeTimeFromOpen ⟨bucket.openMs * milli, hopen ▸ h.opens⟩ target =
        some candle.closeTime := by
      refine UtcTime.ofNanos_eq_some_iff.mpr ?_
      show candle.closeTime.val = bucket.openMs * milli + target
      rw [hopen]
      exact h.closes
    rw [hbucketOpen, Option.bind_some, hclose, hbar, ← h.bar]

/-! ## What a list of candles comes to -/

/-- The candles of a list that goes on from `run`: in the order of their close times, their opens
    times chrono holds, and one candle given for each bucket. -/
structure Aggregated (base target : ℤ) (last : UtcTime) (run : Run Candle) (candles : List Candle)
    (output : List Candle) : Prop where
  ordered : (last :: candles.map Candle.closeTime).Pairwise (· < ·)
  opens : ∀ candle ∈ candles, minNanos ≤ candle.closeTime.val - base
  emitted : List.Forall₂ (Emitted base target)
    (runsFrom (bucketOf base target) run candles) output
  tallies : ∀ cut ∈ runsFrom (bucketOf base target) run candles, Tallies cut

theorem ordered_cons_iff {last : UtcTime} {candle : Candle} {candles : List Candle}
    (hlater : last < candle.closeTime) :
    ((last :: (candle :: candles).map Candle.closeTime).Pairwise (· < ·)) ↔
      (candle.closeTime :: candles.map Candle.closeTime).Pairwise (· < ·) := by
  rw [List.map_cons, List.pairwise_cons]
  refine ⟨And.right, fun h => ⟨fun time htime => ?_, h⟩⟩
  obtain rfl | hin := List.mem_cons.mp htime
  · exact hlater
  · exact hlater.trans ((List.pairwise_cons.mp h).1 time hin)

/-- One turn of the loop, for a candle later than the last whose open chrono holds. -/
theorem aggregateFrom_cons {base target : ℤ} {index : ℕ} {last subOpen : UtcTime}
    {bucket : Bucket} {candle : Candle} {candles output : List Candle}
    (hle : ¬ candle.closeTime ≤ last)
    (hsub : openTimeFromClose candle.closeTime base = some subOpen) :
    aggregateFrom base target index (some last) (some bucket) output (candle :: candles) =
      if bucket.openMs = bucketOf base target candle then
        match bucket.add candle with
        | .ok current => aggregateFrom base target (index + 1) (some candle.closeTime)
            (some current) output candles
        | .error failure => .error failure
      else
        match flush bucket target with
        | .ok completed => aggregateFrom base target (index + 1) (some candle.closeTime)
            (some { toBar := candle.toBar, openMs := bucketOf base target candle,
                    firstIndex := index }) (output ++ [completed]) candles
        | .error failure => .error failure := by
  have hval : subOpen.val = candle.closeTime.val - base := UtcTime.ofNanos_eq_some_iff.mp hsub
  have hbucket : floorMs target subOpen.val = bucketOf base target candle := by
    rw [hval, bucketOf]
  simp only [aggregateFrom, Option.any_some, Subtype.coe_le_coe, hle, decide_false, hsub, hbucket]
  rfl

/-- A candle that goes into the bucket goes on with the run. -/
theorem Aggregated.cons_same {base target : ℤ} {last : UtcTime} {run : Run Candle}
    {candle : Candle} {candles output : List Candle} (hlater : last < candle.closeTime)
    (hmin : minNanos ≤ candle.closeTime.val - base)
    (hkey : bucketOf base target run.first = bucketOf base target candle) :
    Aggregated base target last run (candle :: candles) output ↔
      Aggregated base target candle.closeTime (run.snoc candle) candles output := by
  constructor
  · intro h
    have hemitted := h.emitted
    have htallies := h.tallies
    rw [runsFrom_cons_pos _ candles hkey] at hemitted htallies
    exact ⟨(ordered_cons_iff hlater).mp h.ordered,
      fun other hother => h.opens other (List.mem_cons_of_mem _ hother), hemitted, htallies⟩
  · intro h
    refine ⟨(ordered_cons_iff hlater).mpr h.ordered, ?_, ?_, ?_⟩
    · intro other hother
      obtain rfl | hin := List.mem_cons.mp hother
      · exact hmin
      · exact h.opens other hin
    · rw [runsFrom_cons_pos _ candles hkey]
      exact h.emitted
    · rw [runsFrom_cons_pos _ candles hkey]
      exact h.tallies

/-- A candle of another bucket ends the run, whose candle is given. -/
theorem Aggregated.cons_other {base target : ℤ} {last : UtcTime} {run : Run Candle}
    {candle : Candle} {candles output : List Candle} (hlater : last < candle.closeTime)
    (hmin : minNanos ≤ candle.closeTime.val - base) (hrun : Tallies run)
    (hkey : ¬ bucketOf base target run.first = bucketOf base target candle) :
    Aggregated base target last run (candle :: candles) output ↔
      ∃ completed rest, output = completed :: rest ∧ Emitted base target run completed ∧
        Aggregated base target candle.closeTime (.single candle) candles rest := by
  constructor
  · intro h
    have hemitted := h.emitted
    have htallies := h.tallies
    rw [runsFrom_cons_neg _ candles hkey] at hemitted htallies
    obtain ⟨completed, rest, hfirst, hrest, rfl⟩ := List.forall₂_cons_left_iff.mp hemitted
    exact ⟨completed, rest, rfl, hfirst, (ordered_cons_iff hlater).mp h.ordered,
      fun other hother => h.opens other (List.mem_cons_of_mem _ hother), hrest,
      fun cut hcut => htallies cut (List.mem_cons_of_mem _ hcut)⟩
  · rintro ⟨completed, rest, rfl, hfirst, h⟩
    refine ⟨(ordered_cons_iff hlater).mpr h.ordered, ?_, ?_, ?_⟩
    · intro other hother
      obtain rfl | hin := List.mem_cons.mp hother
      · exact hmin
      · exact h.opens other hin
    · rw [runsFrom_cons_neg _ candles hkey]
      exact .cons hfirst h.emitted
    · rw [runsFrom_cons_neg _ candles hkey]
      intro cut hcut
      obtain rfl | hin := List.mem_cons.mp hcut
      · exact hrun
      · exact h.tallies cut hin

theorem Aggregated.tallies_run {base target : ℤ} {last : UtcTime} {run : Run Candle}
    {candles output : List Candle} (h : Aggregated base target last run candles output) :
    Tallies run := by
  have htallies := h.tallies
  obtain ⟨first, rest, heq, hfirst, more, hmore⟩ :=
    runsFrom_ne_nil (bucketOf base target) run candles
  rw [heq] at htallies
  have hlong := htallies first List.mem_cons_self
  obtain ⟨start, tail⟩ := first
  obtain rfl : start = run.first := hfirst
  obtain rfl : tail = run.rest ++ more := hmore
  exact hlong.of_append

theorem openTimeFromClose_eq_some_iff {close «open» : UtcTime} {step : ℤ} :
    openTimeFromClose close step = some «open» ↔ «open».val = close.val - step :=
  UtcTime.ofNanos_eq_some_iff

theorem aggregateFrom_eq_ok_iff {base target : ℤ} (hbase : 0 < base) {index : ℕ} {last : UtcTime}
    {bucket : Bucket} {run : Run Candle} (hbar : bucket.toBar = barOf run)
    (hopen : bucket.openMs = bucketOf base target run.first) (hrun : Tallies run)
    {candles output result : List Candle} :
    aggregateFrom base target index (some last) (some bucket) output candles = .ok result ↔
      ∃ more, result = output ++ more ∧ Aggregated base target last run candles more := by
  induction candles generalizing index last bucket run output with
  | nil =>
    unfold aggregateFrom
    constructor
    · intro h
      dsimp only at h
      split at h
      · rename_i candle hflush
        obtain rfl := Except.ok.inj h
        have hemitted := (flush_eq_ok_iff hbar hopen).mp hflush
        refine ⟨[candle], rfl, by simp, by simp, .cons hemitted .nil, ?_⟩
        simpa [runsFrom] using hrun
      · exact absurd h (by simp)
    · rintro ⟨more, rfl, h⟩
      obtain ⟨candle, rest, hemitted, hnil, rfl⟩ := List.forall₂_cons_left_iff.mp h.emitted
      obtain rfl := List.forall₂_nil_left_iff.mp hnil
      dsimp only
      rw [(flush_eq_ok_iff hbar hopen).mpr hemitted]
  | cons candle candles ih =>
    by_cases hle : candle.closeTime ≤ last
    · -- Not later than the one before.
      constructor
      · intro h
        simp [aggregateFrom, hle] at h
      · rintro ⟨more, -, h⟩
        have hlt := (List.pairwise_cons.mp h.ordered).1 candle.closeTime (by simp)
        exact absurd hlt (not_lt.mpr hle)
    have hlater := not_le.mp hle
    cases hsub : openTimeFromClose candle.closeTime base with
    | none =>
      constructor
      · intro h
        simp [aggregateFrom, hle, hsub] at h
      · rintro ⟨more, -, h⟩
        -- Its open is no instant chrono holds.
        have hmin := h.opens candle List.mem_cons_self
        have hmax : candle.closeTime.val - base ≤ maxNanos :=
          (Int.sub_le_self _ hbase.le).trans candle.closeTime.property.2
        have hsome : openTimeFromClose candle.closeTime base =
            some ⟨candle.closeTime.val - base, hmin, hmax⟩ :=
          openTimeFromClose_eq_some_iff.mpr rfl
        rw [hsub] at hsome
        exact absurd hsome (by simp)
    | some subOpen =>
      have hmin : minNanos ≤ candle.closeTime.val - base :=
        openTimeFromClose_eq_some_iff.mp hsub ▸ subOpen.property.1
      rw [aggregateFrom_cons hle hsub, hopen]
      by_cases hkey : bucketOf base target run.first = bucketOf base target candle
      · -- The candle goes into the bucket.
        simp only [hkey, if_true, Aggregated.cons_same hlater hmin hkey]
        cases hadd : bucket.add candle with
        | error failure =>
          constructor
          · intro h
            exact absurd h (by simp)
          · rintro ⟨more, -, h⟩
            have hcount := (tallies_snoc.mp h.tallies_run).2
            rw [barOf_snoc, ← hbar] at hcount
            have hok := add_eq_ok_iff.mpr ⟨rfl, hcount⟩
            rw [hadd] at hok
            exact absurd hok (by simp)
        | ok current =>
          obtain ⟨rfl, hcount⟩ := add_eq_ok_iff.mp hadd
          rw [hbar, ← barOf_snoc] at hcount
          have hnext : ({ bucket with toBar := bucket.toBar.merge candle.toBar } : Bucket).toBar =
              barOf (run.snoc candle) := by
            show bucket.toBar.merge candle.toBar = _
            rw [hbar, barOf_snoc]
          exact ih hnext hopen (tallies_snoc.mpr ⟨hrun, hcount⟩)
      · -- The candle begins a bucket of its own.
        simp only [hkey, if_false, Aggregated.cons_other hlater hmin hrun hkey]
        cases hflush : flush bucket target with
        | error failure =>
          constructor
          · intro h
            exact absurd h (by simp)
          · rintro ⟨more, -, completed, rest, -, hemitted, -⟩
            rw [(flush_eq_ok_iff hbar hopen).mpr hemitted] at hflush
            exact absurd hflush (by simp)
        | ok completed =>
          have hemitted := (flush_eq_ok_iff hbar hopen).mp hflush
          dsimp only
          have hfresh : ({ toBar := candle.toBar, openMs := bucketOf base target candle,
                           firstIndex := index } : Bucket).toBar = barOf (.single candle) := rfl
          rw [ih hfresh rfl (tallies_single candle)]
          constructor
          · rintro ⟨more, rfl, h⟩
            exact ⟨completed :: more, by simp, completed, more, rfl, hemitted, h⟩
          · rintro ⟨more, rfl, other, rest, rfl, hother, h⟩
            rw [(flush_eq_ok_iff hbar hopen).mpr hother] at hflush
            obtain rfl := Except.ok.inj hflush
            exact ⟨rest, by simp, h⟩

/-! ## A list of candles from its first on -/

/-- Intervals of whole milliseconds, the longer of them some of the shorter. -/
structure Grid (base target : ℤ) : Prop where
  positive : 0 < base ∧ 0 < target
  whole : numMilliseconds base * milli = base ∧ numMilliseconds target * milli = target
  smaller : base ≤ target
  multiple : (numMilliseconds target).tmod (numMilliseconds base) = 0

/-- A list whose candles are given bucket by bucket. -/
structure Bucketed (base target : ℤ) (candles output : List Candle) : Prop where
  ordered : (candles.map Candle.closeTime).Pairwise (· < ·)
  opens : ∀ candle ∈ candles, minNanos ≤ candle.closeTime.val - base
  emitted : List.Forall₂ (Emitted base target) (runsOf (bucketOf base target) candles) output
  tallies : ∀ run ∈ runsOf (bucketOf base target) candles, Tallies run

theorem aggregateFrom_start {base target : ℤ} (hbase : 0 < base) {candles output : List Candle} :
    aggregateFrom base target 0 none none [] candles = .ok output ↔
      Bucketed base target candles output := by
  cases candles with
  | nil =>
    constructor
    · intro h
      obtain rfl := Except.ok.inj h
      exact ⟨.nil, by simp, .nil, by simp [runsOf]⟩
    · intro h
      obtain rfl := List.forall₂_nil_left_iff.mp h.emitted
      rfl
  | cons candle candles =>
    cases hsub : openTimeFromClose candle.closeTime base with
    | none =>
      constructor
      · intro h
        simp [aggregateFrom, hsub] at h
      · intro h
        have hmin := h.opens candle List.mem_cons_self
        have hmax : candle.closeTime.val - base ≤ maxNanos :=
          (Int.sub_le_self _ hbase.le).trans candle.closeTime.property.2
        have hsome : openTimeFromClose candle.closeTime base =
            some ⟨candle.closeTime.val - base, hmin, hmax⟩ :=
          openTimeFromClose_eq_some_iff.mpr rfl
        rw [hsub] at hsome
        exact absurd hsome (by simp)
    | some subOpen =>
      have hval : subOpen.val = candle.closeTime.val - base :=
        openTimeFromClose_eq_some_iff.mp hsub
      have hmin : minNanos ≤ candle.closeTime.val - base := hval ▸ subOpen.property.1
      have hbucket : floorMs target subOpen.val = bucketOf base target candle := by
        rw [hval, bucketOf]
      have hstep : aggregateFrom base target 0 none none [] (candle :: candles) =
          aggregateFrom base target 1 (some candle.closeTime)
            (some { toBar := candle.toBar, openMs := bucketOf base target candle,
                    firstIndex := 0 }) [] candles := by
        simp only [aggregateFrom, Option.any_none, hsub, hbucket]
        rfl
      have hfresh : ({ toBar := candle.toBar, openMs := bucketOf base target candle,
                       firstIndex := 0 } : Bucket).toBar = barOf (.single candle) := rfl
      rw [hstep, aggregateFrom_eq_ok_iff hbase hfresh rfl (tallies_single candle)]
      constructor
      · rintro ⟨more, rfl, h⟩
        refine ⟨h.ordered, ?_, h.emitted, h.tallies⟩
        intro other hother
        obtain rfl | hin := List.mem_cons.mp hother
        · exact hmin
        · exact h.opens other hin
      · intro h
        exact ⟨output, rfl, h.ordered,
          fun other hother => h.opens other (List.mem_cons_of_mem _ hother), h.emitted, h.tallies⟩

theorem aggregateCandles_eq_ok_iff {base target : ℤ} {candles output : List Candle} :
    aggregateCandles candles base target = .ok output ↔
      Grid base target ∧ Bucketed base target candles output := by
  unfold aggregateCandles
  constructor
  · intro h
    split at h
    · exact absurd h (by simp)
    rename_i hpositive
    split at h
    · exact absurd h (by simp)
    rename_i hwhole
    split at h
    · exact absurd h (by simp)
    rename_i hsmaller
    split at h
    · exact absurd h (by simp)
    rename_i hmultiple
    push Not at hpositive hwhole hsmaller hmultiple
    exact ⟨⟨hpositive, hwhole, hsmaller, hmultiple⟩, (aggregateFrom_start hpositive.1).mp h⟩
  · rintro ⟨hgrid, h⟩
    have hpositive : ¬ (base ≤ 0 ∨ target ≤ 0) := by
      push Not
      exact hgrid.positive
    have hwhole : ¬ (numMilliseconds base * milli ≠ base ∨
        numMilliseconds target * milli ≠ target) := by
      push Not
      exact hgrid.whole
    rw [if_neg hpositive, if_neg hwhole, if_neg (not_lt.mpr hgrid.smaller),
      if_neg (not_not.mpr hgrid.multiple)]
    exact (aggregateFrom_start hgrid.positive.1).mpr h

/-- What the checks come to, in milliseconds. -/
theorem Grid.millis {base target : ℤ} (h : Grid base target) :
    ∃ b t, 0 < b ∧ 0 < t ∧ base = b * milli ∧ target = t * milli ∧ b ∣ t ∧
      numMilliseconds base = b ∧ numMilliseconds target = t := by
  refine ⟨numMilliseconds base, numMilliseconds target, ?_, ?_, h.whole.1.symm, h.whole.2.symm,
    Int.dvd_of_tmod_eq_zero h.multiple, rfl, rfl⟩
  · have hpositive := h.positive.1
    have hwhole := h.whole.1
    unfold milli at hwhole
    omega
  · have hpositive := h.positive.2
    have hwhole := h.whole.2
    unfold milli at hwhole
    omega

/-! ## Windows -/

/-- The candle's open is in the output's window. -/
abbrev Within (base target : ℤ) (output candle : Candle) : Prop :=
  output.closeTime.val - target ≤ candle.closeTime.val - base ∧
    candle.closeTime.val - base < output.closeTime.val

theorem floorMs_eq {t target : ℤ} (hmillis : numMilliseconds target = t)
    (htarget : target = t * milli) (instant : ℤ) :
    floorMs target instant = instant / target * t := by
  rw [floorMs, hmillis, htarget, Int.ediv_ediv_of_nonneg (by decide), Int.mul_comm milli]

/-- A candle's bucket is the one whose window its open is in. -/
theorem within_iff {base target : ℤ} (hgrid : Grid base target) {run : Run Candle}
    {output : Candle} (h : Emitted base target run output) {candle : Candle} :
    Within base target output candle ↔
      bucketOf base target candle = bucketOf base target run.first := by
  obtain ⟨b, t, -, ht, -, htarget, -, -, hmillis⟩ := hgrid.millis
  have hpositive := hgrid.positive.2
  have hcloses := h.closes
  unfold Within
  rw [hcloses]
  unfold bucketOf
  rw [floorMs_eq hmillis htarget, floorMs_eq hmillis htarget]
  generalize candle.closeTime.val - base = «open»
  generalize (run.first.closeTime.val - base) / target = key
  have hkey : key * t * milli = key * target := by
    rw [htarget, Int.mul_assoc]
  rw [hkey]
  constructor
  · rintro ⟨hlow, hhigh⟩
    have hdiv : «open» / target = key := by
      apply le_antisymm
      · exact Int.le_of_lt_add_one ((Int.ediv_lt_iff_lt_mul hpositive).mpr (by linarith))
      · exact (Int.le_ediv_iff_mul_le hpositive).mpr (by linarith)
    rw [hdiv]
  · intro heq
    obtain rfl : «open» / target = key := mul_right_cancel₀ (ne_of_gt ht) heq
    have hlow := Int.ediv_mul_le «open» (ne_of_gt hpositive)
    have hhigh := Int.lt_ediv_add_one_mul_self «open» hpositive
    constructor
    · linarith
    · linarith

theorem bucketOf_mono {base target : ℤ} (hgrid : Grid base target) {a b : Candle}
    (h : a.closeTime < b.closeTime) : bucketOf base target a ≤ bucketOf base target b := by
  obtain ⟨-, t, -, ht, -, htarget, -, -, hmillis⟩ := hgrid.millis
  unfold bucketOf
  rw [floorMs_eq hmillis htarget, floorMs_eq hmillis htarget]
  have hle : a.closeTime.val - base ≤ b.closeTime.val - base := by
    have hval : a.closeTime.val < b.closeTime.val := h
    linarith
  exact mul_le_mul_of_nonneg_right (Int.ediv_le_ediv hgrid.positive.2 hle) ht.le

theorem Bucketed.keys_ordered {base target : ℤ} (hgrid : Grid base target)
    {candles output : List Candle} (h : Bucketed base target candles output) :
    candles.Pairwise fun a b => bucketOf base target a ≤ bucketOf base target b := by
  have hordered := h.ordered
  rw [List.pairwise_map] at hordered
  exact hordered.imp fun hlt => bucketOf_mono hgrid hlt

/-- The outputs close one after the other. -/
theorem Bucketed.output_ordered {base target : ℤ} (hgrid : Grid base target)
    {candles output : List Candle} (h : Bucketed base target candles output) :
    (output.map Candle.closeTime).Pairwise (· < ·) := by
  have hkeys := pairwise_runsOf _ (h.keys_ordered hgrid)
  have hemitted := h.emitted
  clear h
  generalize runsOf (bucketOf base target) candles = runs at hkeys hemitted
  rw [List.pairwise_map]
  induction hemitted with
  | nil => exact .nil
  | @cons run out runs output hout hrest ih =>
    rw [List.pairwise_cons] at hkeys ⊢
    refine ⟨fun other hother => ?_, ih hkeys.2⟩
    obtain ⟨later, hlater, hother⟩ := hrest.exists_left hother
    have hlt := hkeys.1 later hlater
    show out.closeTime.val < other.closeTime.val
    rw [hout.closes, hother.closes]
    unfold milli
    omega

/-! ## What an output is made of -/

/-- The sum of parts is known if each part is. -/
def SumOf {T : Type} [AddMonoid T] (parts : List (Option T)) (sum : Option T) : Prop :=
  ∀ total, sum = some total ↔ ∃ known : List T, parts = known.map some ∧ total = known.sum

/-- A bar is that of its parts. -/
structure MadeOf (parts : List Candle) (bar : Bar) : Prop where
  «open» : ∃ first, parts.head? = some first ∧ bar.open = first.open
  high : IsGreatest {high | ∃ part ∈ parts, part.high = high} bar.high
  low : IsLeast {low | ∃ part ∈ parts, part.low = low} bar.low
  close : ∃ last, parts.getLast? = some last ∧ bar.close = last.close
  volume : SumOf (parts.map fun part => part.volume) bar.volume
  tradeCount : SumOf (parts.map fun part => part.tradeCount) bar.tradeCount

theorem sumOf_single {T : Type} [AddMonoid T] (part : Option T) : SumOf [part] part := by
  intro total
  constructor
  · rintro rfl
    exact ⟨[total], rfl, by simp⟩
  · rintro ⟨known, hknown, rfl⟩
    obtain ⟨a, rfl⟩ := List.length_eq_one_iff.mp
      (show known.length = 1 by simpa using (congrArg List.length hknown).symm)
    simpa using hknown

theorem sumOf_snoc {T : Type} [AddMonoid T] {parts : List (Option T)} {sum : Option T}
    (h : SumOf parts sum) (part : Option T) : SumOf (parts ++ [part]) (both sum part) := by
  intro total
  constructor
  · intro hboth
    cases sum with
    | none => simp [both] at hboth
    | some early =>
      cases part with
      | none => simp [both] at hboth
      | some late =>
        obtain ⟨known, hknown, hearly⟩ := (h early).mp rfl
        refine ⟨known ++ [late], by simp [hknown], ?_⟩
        have htotal := Option.some.inj hboth
        simp [← htotal, hearly]
  · rintro ⟨known, hknown, rfl⟩
    obtain rfl | ⟨early, late, rfl⟩ := known.eq_nil_or_concat
    · simp at hknown
    · rw [List.concat_eq_append] at hknown ⊢
      rw [List.map_append] at hknown
      obtain ⟨hparts, hpart⟩ := List.append_inj' hknown rfl
      have hsum := (h early.sum).mpr ⟨early, hparts, rfl⟩
      obtain rfl : part = some late := by simpa using hpart
      simp [hsum, both]

theorem madeOf_single (candle : Candle) : MadeOf [candle] candle.toBar := by
  refine ⟨⟨candle, rfl, rfl⟩, ?_, ?_, ⟨candle, rfl, rfl⟩, sumOf_single _, sumOf_single _⟩
  · constructor
    · exact ⟨candle, by simp, rfl⟩
    · rintro high ⟨part, hpart, rfl⟩
      rw [List.mem_singleton.mp hpart]
  · constructor
    · exact ⟨candle, by simp, rfl⟩
    · rintro low ⟨part, hpart, rfl⟩
      rw [List.mem_singleton.mp hpart]

theorem madeOf_snoc {parts : List Candle} {bar : Bar} (h : MadeOf parts bar) (candle : Candle) :
    MadeOf (parts ++ [candle]) (bar.merge candle.toBar) := by
  obtain ⟨first, hfirst, hopen⟩ := h.open
  refine ⟨⟨first, by simp [hfirst], hopen⟩, ?_, ?_, ⟨candle, by simp, rfl⟩, ?_, ?_⟩
  · have hset : {high | ∃ part ∈ parts ++ [candle], part.high = high} =
        {high | ∃ part ∈ parts, part.high = high} ∪ {candle.high} := by
      ext high
      simp [or_and_right, exists_or, eq_comm, or_comm]
    rw [hset]
    exact h.high.union isGreatest_singleton
  · have hset : {low | ∃ part ∈ parts ++ [candle], part.low = low} =
        {low | ∃ part ∈ parts, part.low = low} ∪ {candle.low} := by
      ext low
      simp [or_and_right, exists_or, eq_comm, or_comm]
    rw [hset]
    exact h.low.union isLeast_singleton
  · rw [List.map_append]
    exact sumOf_snoc h.volume _
  · rw [List.map_append]
    exact sumOf_snoc h.tradeCount _

theorem madeOf_barOf (run : Run Candle) : MadeOf run.toList (barOf run) := by
  obtain ⟨first, rest⟩ := run
  induction rest using List.reverseRecOn with
  | nil => exact madeOf_single first
  | append_singleton rest last ih =>
    have hsnoc := madeOf_snoc ih last
    rw [← barOf_snoc] at hsnoc
    exact hsnoc

/-! ## A longer interval yet -/

/-- The buckets of the longer interval are those of the shorter one's. -/
theorem bucketOf_of_emitted {base target longer : ℤ} (hgrid : Grid base target)
    (hlonger : Grid base longer) (hdvd : target ∣ longer) {run : Run Candle} {output : Candle}
    (h : Emitted base target run output) :
    bucketOf target longer output = bucketOf base longer run.first := by
  obtain ⟨-, t, -, ht, -, htarget, -, -, hmillis⟩ := hgrid.millis
  obtain ⟨-, l, -, hl, -, hlong, -, -, hmillisLong⟩ := hlonger.millis
  obtain ⟨times, rfl⟩ := hdvd
  have hpositive := hgrid.positive.2
  unfold bucketOf
  rw [h.closes, bucketOf, floorMs_eq hmillisLong hlong, floorMs_eq hmillisLong hlong,
    floorMs_eq hmillis htarget]
  congr 1
  generalize run.first.closeTime.val - base = «open»
  have hkey : «open» / target * t * milli + target - target = «open» / target * target := by
    rw [Int.mul_assoc, ← htarget, Int.add_sub_cancel]
  rw [hkey, ← Int.ediv_ediv_of_nonneg hpositive.le, ← Int.ediv_ediv_of_nonneg hpositive.le,
    Int.mul_ediv_cancel _ (ne_of_gt hpositive)]

/-- Runs of outputs, as runs of the candles the outputs are made of. -/
abbrev Composed (base target : ℤ) (runs : Run (Run Candle)) (outputs : Run Candle) : Prop :=
  Run.Related (Emitted base target) runs outputs

theorem barOf_composed {base target : ℤ} {runs : Run (Run Candle)} {outputs : Run Candle}
    (h : Composed base target runs outputs) : barOf outputs = barOf runs.flatten := by
  have hfold : runs.fold Bar.merge barOf = barOf outputs :=
    h.fold_eq fun _ _ hemitted => hemitted.bar.symm
  rw [← hfold]
  exact Run.fold_fold Bar.merge Bar.merge_assoc Candle.toBar runs

theorem Tallies.bounds {first : Candle} {early : List Candle} {last : Candle}
    (h : Tallies ⟨first, early ++ [last]⟩) :
    ∀ count ∈ (barOf ⟨first, early ++ [last]⟩).tradeCount, count < u64Limit :=
  h early last [] rfl

/-- The sums of the outputs stay within what the sums of all the candles reach. -/
theorem tallies_composed {base target : ℤ} {runs : Run (Run Candle)} {outputs : Run Candle}
    (h : Composed base target runs outputs) (htallies : Tallies runs.flatten) :
    Tallies outputs := by
  intro early last late hrest
  have hrel := h.rest
  rw [hrest] at hrel
  obtain ⟨earlyRuns, lateRuns, hsplit, hearly, hlate⟩ := hrel.append_right
  obtain ⟨lastRun, lateRuns, hlast, -, rfl⟩ := List.forall₂_cons_right_iff.mp hlate
  have hcomposed : Composed base target (Run.snoc ⟨runs.first, earlyRuns⟩ lastRun)
      (Run.snoc ⟨outputs.first, early⟩ last) := Run.Related.snoc ⟨h.first, hearly⟩ hlast
  rw [barOf_composed hcomposed]
  -- The candles up to the last of these runs begin the whole.
  obtain ⟨before, final, hfinal⟩ : ∃ before final, lastRun.toList = before ++ [final] := by
    obtain hnil | hconcat := lastRun.toList.eq_nil_or_concat
    · exact absurd hnil (by simp [Run.toList])
    · obtain ⟨before, final, hconcat⟩ := hconcat
      exact ⟨before, final, by rw [hconcat, List.concat_eq_append]⟩
  have hflatten : (Run.snoc ⟨runs.first, earlyRuns⟩ lastRun).flatten =
      ⟨runs.first.first, (runs.first.rest ++ earlyRuns.flatMap Run.toList ++ before) ++ [final]⟩ := by
    simp [Run.flatten, Run.snoc, hfinal]
  have hwhole : runs.flatten = ⟨runs.first.first,
      ((runs.first.rest ++ earlyRuns.flatMap Run.toList ++ before) ++ [final]) ++
        lateRuns.flatMap Run.toList⟩ := by
    simp [Run.flatten, hsplit, hfinal]
  rw [hwhole] at htallies
  rw [hflatten]
  exact htallies.of_append.bounds

/-- A run of outputs gives the candle the run of all their candles gives. -/
theorem emitted_composed {base target longer : ℤ} (hgrid : Grid base target)
    (hlonger : Grid base longer) (hdvd : target ∣ longer) {runs : Run (Run Candle)}
    {outputs : Run Candle} (h : Composed base target runs outputs) {direct : Candle}
    (hdirect : Emitted base longer runs.flatten direct) : Emitted target longer outputs direct := by
  have hkey : bucketOf target longer outputs.first = bucketOf base longer runs.flatten.first := by
    rw [bucketOf_of_emitted hgrid hlonger hdvd h.first]
    rfl
  refine ⟨hdirect.bar.trans (barOf_composed h).symm, ?_, ?_⟩
  · rw [hkey]
    exact hdirect.opens
  · rw [hkey]
    exact hdirect.closes

theorem Grid.longer {base target longer : ℤ} (hgrid : Grid base target)
    (hlonger : Grid base longer) (hdvd : target ∣ longer) : Grid target longer := by
  obtain ⟨-, t, -, ht, -, htarget, -, -, hmillis⟩ := hgrid.millis
  obtain ⟨-, l, -, hl, -, hlong, -, -, hmillisLong⟩ := hlonger.millis
  refine ⟨⟨hgrid.positive.2, hlonger.positive.2⟩, ⟨hgrid.whole.2, hlonger.whole.2⟩,
    Int.le_of_dvd hlonger.positive.2 hdvd, ?_⟩
  rw [hmillis, hmillisLong]
  apply Int.tmod_eq_zero_of_dvd
  rw [htarget, hlong] at hdvd
  exact Int.dvd_of_mul_dvd_mul_right (by decide) hdvd

/-- The bucket of a candle, of the longer interval, is one of its bucket of the shorter. -/
theorem bucketOf_coarse {base target longer : ℤ} (hgrid : Grid base target)
    (hlonger : Grid base longer) (hdvd : target ∣ longer) (candle : Candle) :
    bucketOf base longer candle =
      bucketOf base target candle * milli / longer * numMilliseconds longer := by
  obtain ⟨-, t, -, ht, -, htarget, -, -, hmillis⟩ := hgrid.millis
  obtain ⟨-, l, -, hl, -, hlong, -, -, hmillisLong⟩ := hlonger.millis
  obtain ⟨times, rfl⟩ := hdvd
  have hpositive := hgrid.positive.2
  unfold bucketOf
  rw [floorMs_eq hmillisLong hlong, floorMs_eq hmillis htarget, hmillisLong]
  generalize candle.closeTime.val - base = «open»
  have hkey : «open» / target * t * milli = «open» / target * target := by
    rw [Int.mul_assoc, ← htarget]
  rw [hkey, ← Int.ediv_ediv_of_nonneg hpositive.le, ← Int.ediv_ediv_of_nonneg hpositive.le,
    Int.mul_ediv_cancel _ (ne_of_gt hpositive)]

theorem bucketed_composed {base target longer : ℤ} (hgrid : Grid base target)
    (hlonger : Grid base longer) (hdvd : target ∣ longer) {candles output direct : List Candle}
    (h : Bucketed base target candles output) (hdirect : Bucketed base longer candles direct) :
    Bucketed target longer output direct := by
  -- The runs of the longer interval, as runs of the runs of the shorter.
  have hkey : bucketOf base longer = fun candle =>
      (fun key => key * milli / longer * numMilliseconds longer) (bucketOf base target candle) :=
    funext fun candle => bucketOf_coarse hgrid hlonger hdvd candle
  have hruns := runsOf_coarse (bucketOf base target)
    (fun key => key * milli / longer * numMilliseconds longer) candles
  rw [← hkey] at hruns
  have hrelated : List.Forall₂ (Composed base target)
      (runsOf (fun run => bucketOf base target run.first * milli / longer * numMilliseconds longer)
        (runsOf (bucketOf base target) candles)) (runsOf (bucketOf target longer) output) := by
    refine runsOf_related (fun run out hout => ?_) h.emitted
    rw [bucketOf_of_emitted hgrid hlonger hdvd hout, bucketOf_coarse hgrid hlonger hdvd]
  have hemitted := hdirect.emitted
  have htallies := hdirect.tallies
  rw [hruns] at hemitted htallies
  rw [List.forall₂_map_left_iff] at hemitted
  refine ⟨h.output_ordered hgrid, ?_, ?_, ?_⟩
  · intro out hout
    obtain ⟨run, -, hemittedRun⟩ := h.emitted.exists_left hout
    rw [hemittedRun.closes, Int.add_sub_cancel]
    exact hemittedRun.opens.1
  · refine List.Forall₂.comp ?_ hrelated.flip hemitted
    intro outputs runs out hcomposed hout
    exact emitted_composed hgrid hlonger hdvd hcomposed hout
  · intro outputs houtputs
    obtain ⟨runs, hin, hcomposed⟩ := hrelated.exists_left houtputs
    exact tallies_composed hcomposed (htallies runs.flatten (List.mem_map_of_mem hin))

/-! ## The result -/

/-- Each candle is in the window of one output, each output is made of the candles in its window,
    and aggregating the outputs further is aggregating the candles themselves that far. -/
theorem aggregateCandles_exact_and_composes {base target : ℤ} {candles output : List Candle}
    (h : aggregateCandles candles base target = .ok output) :
    (∀ candle ∈ candles, ∃! out, out ∈ output ∧ Within base target out candle) ∧
      (output.map Candle.closeTime).Pairwise (· < ·) ∧
      (∀ out ∈ output, target ∣ out.closeTime.val ∧
        MadeOf (candles.filter fun candle => Within base target out candle) out.toBar) ∧
      ∀ longer direct, target ∣ longer → aggregateCandles candles base longer = .ok direct →
        aggregateCandles output target longer = .ok direct := by
  obtain ⟨hgrid, hbucketed⟩ := aggregateCandles_eq_ok_iff.mp h
  have hkeys := hbucketed.keys_ordered hgrid
  refine ⟨?_, hbucketed.output_ordered hgrid, ?_, ?_⟩
  · intro candle hcandle
    -- The run the candle is in, and the output of that run.
    rw [← flatMap_runsOf (bucketOf base target) candles] at hcandle
    obtain ⟨run, hrun, hmem⟩ := List.mem_flatMap.mp hcandle
    obtain ⟨out, hout, hemitted⟩ := hbucketed.emitted.exists_right hrun
    have hkey := key_eq_of_mem_runsOf _ run hrun candle hmem
    refine ⟨out, ⟨hout, (within_iff hgrid hemitted).mpr hkey⟩, ?_⟩
    rintro other ⟨hother, hwithin⟩
    obtain ⟨otherRun, -, hotherEmitted⟩ := hbucketed.emitted.exists_left hother
    have hotherKey := (within_iff hgrid hotherEmitted).mp hwithin
    -- Two outputs that close at once are one.
    have hclose : other.closeTime = out.closeTime := by
      apply Subtype.ext
      rw [hotherEmitted.closes, hemitted.closes, ← hotherKey, hkey]
    have hordered := hbucketed.output_ordered hgrid
    have hnodup : (output.map Candle.closeTime).Nodup := hordered.imp ne_of_lt
    exact List.inj_on_of_nodup_map hnodup hother hout hclose
  · intro out hout
    obtain ⟨run, hrun, hemitted⟩ := hbucketed.emitted.exists_left hout
    constructor
    · obtain ⟨-, t, -, -, -, htarget, -, -, hmillis⟩ := hgrid.millis
      rw [hemitted.closes, bucketOf, floorMs_eq hmillis htarget, Int.mul_assoc, ← htarget]
      exact Int.dvd_add (Int.dvd_mul_left _ _) (Int.dvd_refl _)
    · have hfilter : candles.filter (fun candle => Within base target out candle) =
          run.toList := by
        rw [← filter_key_of_mem_runsOf (bucketOf base target) hkeys hrun]
        exact List.filter_congr fun candle _ => by simp [within_iff hgrid hemitted]
      rw [hfilter, hemitted.bar]
      exact madeOf_barOf run
  · intro longer direct hdvd hdirect
    obtain ⟨hlonger, hdirectBucketed⟩ := aggregateCandles_eq_ok_iff.mp hdirect
    exact aggregateCandles_eq_ok_iff.mpr ⟨hgrid.longer hlonger hdvd,
      bucketed_composed hgrid hlonger hdvd hbucketed hdirectBucketed⟩

/-- Three candles of a minute, of which the second and the third are of one pair of minutes. -/
def minutes : List Candle :=
  [{ «open» := 10, high := 12, low := 9, close := 11, volume := some 5, tradeCount := some 2,
     closeTime := ⟨-60000000000, by decide, by decide⟩ },
   { «open» := 11, high := 15, low := 11, close := 14, volume := some 1, tradeCount := some 1,
     closeTime := ⟨60000000000, by decide, by decide⟩ },
   { «open» := 14, high := 14, low := 8, close := 9, volume := none, tradeCount := some 4,
     closeTime := ⟨120000000000, by decide, by decide⟩ }]

def pairsOfMinutes : List Candle :=
  [{ «open» := 10, high := 12, low := 9, close := 11, volume := some 5, tradeCount := some 2,
     closeTime := ⟨0, by decide, by decide⟩ },
   { «open» := 11, high := 15, low := 8, close := 9, volume := none, tradeCount := some 5,
     closeTime := ⟨120000000000, by decide, by decide⟩ }]

theorem aggregateCandles_exact_and_composes_minutes :
    (∀ candle ∈ minutes, ∃! out, out ∈ pairsOfMinutes ∧
        Within 60000000000 120000000000 out candle) ∧
      (pairsOfMinutes.map Candle.closeTime).Pairwise (· < ·) ∧
      (∀ out ∈ pairsOfMinutes, 120000000000 ∣ out.closeTime.val ∧
        MadeOf (minutes.filter fun candle => Within 60000000000 120000000000 out candle)
          out.toBar) ∧
      ∀ longer direct, 120000000000 ∣ longer →
        aggregateCandles minutes 60000000000 longer = .ok direct →
        aggregateCandles pairsOfMinutes 120000000000 longer = .ok direct :=
  aggregateCandles_exact_and_composes (by decide +kernel)

end Rustrade.Candles
