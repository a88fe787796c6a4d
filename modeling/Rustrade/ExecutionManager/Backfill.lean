import Mathlib.Data.List.Sort
import Rustrade.Execution.Trade
import Rustrade.Execution.VenueClock

/-!
# Reading back the fills a stream missed

After an account stream reopens, `backfill` reads what it missed from the venue, page by page, and
reports as a gap each span it gives up on. The ends of two of these gaps are cut back by a
millisecond, while times are finer than that: they are in nanoseconds.
-/

set_option autoImplicit false

namespace Rustrade.Backfilling

open Chrono Client

structure FillRecoveryConfig where
  overlap : ℕ
  maxClockSkew : ℕ
  readTimeout : ℕ
  maxPages : ℕ
  maxSpan : ℕ

/-! ## What is to be read -/

/-- The last moment the stream is known to be in sync. -/
structure Watermark where
  last : HostMoment
  venue : VenueClock

def later (time : UtcTime) (duration : ℕ) : UtcTime :=
  ((toDelta duration).bind time.checkedAdd).getD UtcTime.max

def earlier (time : UtcTime) (duration : ℕ) : UtcTime :=
  ((toDelta duration).bind time.checkedSub).getD UtcTime.min

namespace Watermark

def opened (now : UtcTime) (instant : ℕ) : Watermark := ⟨⟨now, instant⟩, .new⟩

def readFrom (watermark : Watermark) (config : FillRecoveryConfig) : UtcTime :=
  let bound := (watermark.venue.spanStart watermark.last).getD
    (earlier watermark.last.time config.maxClockSkew)
  earlier bound config.overlap

def readTo (watermark : Watermark) (now : UtcTime) (instant : ℕ) (config : FillRecoveryConfig) :
    UtcTime :=
  later (watermark.venue.spanEnd watermark.last ⟨now, instant⟩) config.maxClockSkew

end Watermark

theorem earlier_le (time : UtcTime) (duration : ℕ) : earlier time duration ≤ time := by
  unfold earlier
  cases h : (toDelta duration).bind time.checkedSub with
  | none => exact UtcTime.min_le _
  | some sum =>
    obtain ⟨delta, -, hsub⟩ := Option.bind_eq_some_iff.mp h
    have hval := UtcTime.ofNanos_eq_some_iff.mp hsub
    show sum.val ≤ time.val
    omega

theorem le_later (time : UtcTime) (duration : ℕ) : time ≤ later time duration := by
  unfold later
  cases h : (toDelta duration).bind time.checkedAdd with
  | none => exact UtcTime.le_max _
  | some sum =>
    obtain ⟨delta, -, hadd⟩ := Option.bind_eq_some_iff.mp h
    have hval := UtcTime.ofNanos_eq_some_iff.mp hadd
    show time.val ≤ sum.val
    omega

/-- What is to be read is never a span that ends before it starts. -/
theorem Watermark.readFrom_le_readTo (watermark : Watermark) (now : UtcTime) (instant : ℕ)
    (config : FillRecoveryConfig) :
    watermark.readFrom config ≤ watermark.readTo now instant config := by
  have hstart : watermark.readFrom config ≤ watermark.last.time := by
    refine (earlier_le _ _).trans ?_
    cases h : watermark.venue.spanStart watermark.last with
    | none => exact earlier_le _ _
    | some start =>
      obtain ⟨venue, -, rfl⟩ := Option.map_eq_some_iff.mp h
      exact min_le_right _ _
  have hend := (VenueClock.le_spanEnd watermark.venue watermark.last ⟨now, instant⟩).2.2
    watermark.last.time (by omega)
  exact hstart.trans (hend.trans (le_later _ _))

/-! ## The read -/

structure TradesRead (AssetKey InstrumentKey : Type) where
  trades : List (Trade AssetKey InstrumentKey)
  resume : Option ℤ
  heldSince : Option ℤ
  deriving DecidableEq

inductive FillRecoveryScope (InstrumentKey : Type) where
  | instruments (instruments : List InstrumentKey)
  | allInstruments
  deriving DecidableEq

inductive FillRecoveryFailure where
  | request (error : String)
  | timedOut (timeoutSecs : ℕ)
  | spanLimit (maxSpanSecs : ℕ)
  | venueRetention (heldSince : ℤ)
  | truncated (fillsRead : ℕ)
  | pageLimit (maxPages : ℕ)
  deriving DecidableEq

/-- A span of fills given up on, both its ends included. -/
structure FillRecoveryGap (InstrumentKey : Type) where
  scope : FillRecoveryScope InstrumentKey
  start : ℤ
  finish : ℤ
  attempts : ℕ
  reason : FillRecoveryFailure
  deriving DecidableEq

/-- What a call of `fetch` comes to within the time the whole read may take. -/
inductive Fetched (AssetKey InstrumentKey : Type) where
  | read (read : TradesRead AssetKey InstrumentKey)
  | failed (error : String)
  | timedOut
  deriving DecidableEq

structure Call (AssetKey InstrumentKey : Type) where
  start : ℤ
  answer : Fetched AssetKey InstrumentKey
  deriving DecidableEq

variable {AssetKey InstrumentKey : Type}

/-- The fills read and the spans given up on, with the calls made for them. -/
structure Backfill (AssetKey InstrumentKey : Type) where
  trades : List (Trade AssetKey InstrumentKey)
  gaps : List (FillRecoveryGap InstrumentKey)
  calls : List (Call AssetKey InstrumentKey)
  deriving DecidableEq

namespace Backfill

def addGap (result : Backfill AssetKey InstrumentKey) (scope : FillRecoveryScope InstrumentKey)
    (start finish : ℤ) (reason : FillRecoveryFailure) : Backfill AssetKey InstrumentKey :=
  { result with gaps := result.gaps ++ [⟨scope, start, finish, 1, reason⟩] }

end Backfill

abbrev millisecond : ℤ := 1000000

section Read

variable (fetch : ℕ → ℤ → ℤ → Fetched AssetKey InstrumentKey)
  (config : FillRecoveryConfig) (scope : FillRecoveryScope InstrumentKey)

/-- The loop, from page number `page` on, `left` pages short of the most it reads. -/
def readPages (finish : ℤ) (page : ℕ) (cursor : ℤ)
    (result : Backfill AssetKey InstrumentKey) (left : ℕ) : Backfill AssetKey InstrumentKey :=
  let answer := fetch page cursor finish
  let result : Backfill AssetKey InstrumentKey :=
    { result with calls := result.calls ++ [⟨cursor, answer⟩] }
  match answer with
  | .failed error => result.addGap scope cursor finish (.request error)
  | .timedOut => result.addGap scope cursor finish (.timedOut (config.readTimeout / 1000000000))
  | .read read =>
    let result : Backfill AssetKey InstrumentKey :=
      match if page = 1 then read.heldSince.filter (cursor < ·) else none with
      | some heldSince =>
        result.addGap scope cursor (max (heldSince - millisecond) cursor) (.venueRetention heldSince)
      | none => result
    let result := { result with trades := result.trades ++ read.trades }
    match read.resume with
    | none => result
    | some resume =>
      -- A call that came back no further is not progress.
      if resume ≤ cursor then
        result.addGap scope cursor finish (.truncated result.trades.length)
      else
        match left with
        | 0 => result.addGap scope resume finish (.pageLimit config.maxPages)
        | left + 1 => readPages finish (page + 1) resume result left

/-- The earliest time the span limit lets a read start at; a limit past chrono's range is none. -/
def oldest (start finish : ℤ) : ℤ :=
  ((toDelta config.maxSpan).bind fun span =>
    if minNanos ≤ finish - span then some (finish - span) else none).getD start

def backfill (instruments : List InstrumentKey) (start finish : ℤ) :
    Backfill AssetKey InstrumentKey :=
  let scope := if instruments.isEmpty then .allInstruments else .instruments instruments
  let oldest := oldest config start finish
  let result : Backfill AssetKey InstrumentKey := ⟨[], [], []⟩
  let result :=
    if start < oldest then
      readPages fetch config scope finish 1 oldest
        (result.addGap scope start (oldest - millisecond)
          (.spanLimit (config.maxSpan / 1000000000))) (config.maxPages - 1)
    else readPages fetch config scope finish 1 start result (config.maxPages - 1)
  { result with trades := result.trades.insertionSort (·.timeExchange ≤ ·.timeExchange) }

end Read

/-! ## The pages of a read -/

def Call.trades (call : Call AssetKey InstrumentKey) : List (Trade AssetKey InstrumentKey) :=
  match call.answer with
  | .read read => read.trades
  | _ => []

/-- The pages of a read and where it gives up, as the answers decide them. -/
inductive Pages (fetch : ℕ → ℤ → ℤ → Fetched AssetKey InstrumentKey)
    (finish : ℤ) :
    ℕ → ℤ → ℕ → List (Call AssetKey InstrumentKey) → Option ℤ → Prop
  | failed (page : ℕ) (cursor : ℤ) (left : ℕ) (error : String)
      (hanswer : fetch page cursor finish = .failed error) :
      Pages fetch finish page cursor left [⟨cursor, .failed error⟩] (some cursor)
  | timedOut (page : ℕ) (cursor : ℤ) (left : ℕ)
      (hanswer : fetch page cursor finish = .timedOut) :
      Pages fetch finish page cursor left [⟨cursor, .timedOut⟩] (some cursor)
  | complete (page : ℕ) (cursor : ℤ) (left : ℕ) (read : TradesRead AssetKey InstrumentKey)
      (hanswer : fetch page cursor finish = .read read) (hresume : read.resume = none) :
      Pages fetch finish page cursor left [⟨cursor, .read read⟩] none
  | stuck (page : ℕ) (cursor : ℤ) (left : ℕ) (read : TradesRead AssetKey InstrumentKey)
      (resume : ℤ) (hanswer : fetch page cursor finish = .read read)
      (hresume : read.resume = some resume) (hback : resume ≤ cursor) :
      Pages fetch finish page cursor left [⟨cursor, .read read⟩] (some cursor)
  | limit (page : ℕ) (cursor : ℤ) (read : TradesRead AssetKey InstrumentKey)
      (resume : ℤ) (hanswer : fetch page cursor finish = .read read)
      (hresume : read.resume = some resume) (hon : cursor < resume) :
      Pages fetch finish page cursor 0 [⟨cursor, .read read⟩] (some resume)
  | onward (page : ℕ) (cursor : ℤ) (left : ℕ) (read : TradesRead AssetKey InstrumentKey)
      (resume : ℤ) (calls : List (Call AssetKey InstrumentKey)) (gaveUp : Option ℤ)
      (hanswer : fetch page cursor finish = .read read) (hresume : read.resume = some resume)
      (hon : cursor < resume) (hrest : Pages fetch finish (page + 1) resume left calls gaveUp) :
      Pages fetch finish page cursor (left + 1) (⟨cursor, .read read⟩ :: calls) gaveUp

/-- Where a read gives up: at the page of a call that failed, that came back no further, or that
    may no longer be read. -/
def gaveUpAt (fetch : ℕ → ℤ → ℤ → Fetched AssetKey InstrumentKey)
    (finish : ℤ) (page : ℕ) (cursor : ℤ) (left : ℕ) : Option ℤ :=
  match fetch page cursor finish with
  | .read read =>
    match read.resume with
    | none => none
    | some resume =>
      if resume ≤ cursor then some cursor
      else
        match left with
        | 0 => some resume
        | left + 1 => gaveUpAt fetch finish (page + 1) resume left
  | _ => some cursor

variable {fetch : ℕ → ℤ → ℤ → Fetched AssetKey InstrumentKey}
  {config : FillRecoveryConfig} {scope : FillRecoveryScope InstrumentKey}

/-- The gap of the venue's retention, which only the first page reports. -/
def retention (scope : FillRecoveryScope InstrumentKey) (page : ℕ) (cursor : ℤ) :
    Fetched AssetKey InstrumentKey → List (FillRecoveryGap InstrumentKey)
  | .read read =>
    (if page = 1 then read.heldSince.filter (cursor < ·) else none).toList.map fun heldSince =>
      ⟨scope, cursor, max (heldSince - millisecond) cursor, 1, .venueRetention heldSince⟩
  | _ => []

/-- The gap from where a read gave up to its end. -/
def Gives (scope : FillRecoveryScope InstrumentKey) (finish : ℤ)
    (gaveUp : Option ℤ) (gaps : List (FillRecoveryGap InstrumentKey)) : Prop :=
  match gaveUp with
  | none => gaps = []
  | some cursor => ∃ reason, gaps = [⟨scope, cursor, finish, 1, reason⟩]

theorem retention_of_page {page : ℕ} (hpage : page ≠ 1) (cursor : ℤ)
    (answer : Fetched AssetKey InstrumentKey) : retention scope page cursor answer = [] := by
  cases answer <;> simp [retention, hpage]

/-- A page read: its fills, its call, and the retention it reports. -/
def Backfill.addPage (result : Backfill AssetKey InstrumentKey)
    (scope : FillRecoveryScope InstrumentKey) (page : ℕ) (cursor : ℤ)
    (read : TradesRead AssetKey InstrumentKey) : Backfill AssetKey InstrumentKey :=
  { trades := result.trades ++ read.trades
    gaps := result.gaps ++ retention scope page cursor (.read read)
    calls := result.calls ++ [⟨cursor, .read read⟩] }

theorem readPages_of_read {finish : ℤ} {page : ℕ} {cursor : ℤ}
    {read : TradesRead AssetKey InstrumentKey} (result : Backfill AssetKey InstrumentKey)
    (left : ℕ) (hanswer : fetch page cursor finish = .read read) :
    readPages fetch config scope finish page cursor result left =
      match read.resume with
      | none => result.addPage scope page cursor read
      | some resume =>
        if resume ≤ cursor then
          (result.addPage scope page cursor read).addGap scope cursor finish
            (.truncated (result.trades ++ read.trades).length)
        else
          match left with
          | 0 => (result.addPage scope page cursor read).addGap scope resume finish
              (.pageLimit config.maxPages)
          | left + 1 => readPages fetch config scope finish (page + 1) resume
              (result.addPage scope page cursor read) left := by
  rw [readPages.eq_def, hanswer]
  unfold Backfill.addPage retention
  dsimp only
  generalize (if page = 1 then read.heldSince.filter (cursor < ·) else none) = held
  cases held with
  | none =>
    simp only [Option.toList_none, List.map_nil, List.append_nil]
  | some heldSince => rfl

variable (fetch config scope) in
/-- The loop makes the calls of the pages, keeps what they return, and reports the retention and
    where it gave up. The induction is on the pages left. -/
theorem readPages_pages (finish : ℤ) (page : ℕ) (cursor : ℤ)
    (result : Backfill AssetKey InstrumentKey) (left : ℕ) (hpage : page ≠ 0) :
    ∃ calls gaps,
      Pages fetch finish page cursor left calls (gaveUpAt fetch finish page cursor left) ∧
      Gives scope finish (gaveUpAt fetch finish page cursor left) gaps ∧
      readPages fetch config scope finish page cursor result left =
        { trades := result.trades ++ calls.flatMap Call.trades
          gaps := result.gaps ++ retention scope page cursor (fetch page cursor finish) ++ gaps
          calls := result.calls ++ calls } := by
  induction left using Nat.strong_induction_on generalizing page cursor result with
  | _ left ih =>
    cases hanswer : fetch page cursor finish with
    | failed error =>
      rw [readPages.eq_def, gaveUpAt.eq_def, hanswer]
      exact ⟨_, _, .failed page cursor left error hanswer, ⟨.request error, rfl⟩, by
        simp [Backfill.addGap, Call.trades, retention]⟩
    | timedOut =>
      rw [readPages.eq_def, gaveUpAt.eq_def, hanswer]
      exact ⟨_, _, .timedOut page cursor left hanswer,
        ⟨.timedOut (config.readTimeout / 1000000000), rfl⟩, by
        simp [Backfill.addGap, Call.trades, retention]⟩
    | read read =>
      rw [readPages_of_read result left hanswer, gaveUpAt.eq_def, hanswer]
      dsimp only
      cases hresume : read.resume with
      | none =>
        exact ⟨_, _, .complete page cursor left read hanswer hresume, rfl, by
          simp [Backfill.addPage, Call.trades]⟩
      | some resume =>
        dsimp only
        by_cases hback : resume ≤ cursor
        · rw [if_pos hback, if_pos hback]
          exact ⟨_, _, .stuck page cursor left read resume hanswer hresume hback,
            ⟨.truncated (result.trades ++ read.trades).length, rfl⟩, by
            simp [Backfill.addPage, Backfill.addGap, Call.trades]⟩
        · rw [if_neg hback, if_neg hback]
          have hon := not_le.mp hback
          cases left with
          | zero =>
            exact ⟨_, _, .limit page cursor read resume hanswer hresume hon,
              ⟨.pageLimit config.maxPages, rfl⟩, by
              simp [Backfill.addPage, Backfill.addGap, Call.trades]⟩
          | succ left =>
            obtain ⟨calls, gaps, hpages, hgives, heq⟩ := ih left (Nat.lt_succ_self left)
              (page + 1) resume (result.addPage scope page cursor read) (Nat.succ_ne_zero page)
            refine ⟨_, gaps, .onward page cursor left read resume calls _ hanswer hresume hon
              hpages, hgives, ?_⟩
            dsimp only
            rw [heq, retention_of_page (by omega : page + 1 ≠ 1)]
            simp [Backfill.addPage, Call.trades]

/-! ## What the pages cover -/

/-- A call read all the fills of a time that the venue, as far as the call says, still held. -/
def Call.Covers (finish time : ℤ) (call : Call AssetKey InstrumentKey) : Prop :=
  match call.answer with
  | .read read => call.start ≤ time ∧ (∀ held ∈ read.heldSince, held ≤ time) ∧
      (match read.resume with
        | none => time ≤ finish
        | some resume => time < resume)
  | _ => False

/-- Where the venue's fills begin, as the first call reports it. -/
def heldSince : List (Call AssetKey InstrumentKey) → Option ℤ
  | ⟨_, .read read⟩ :: _ => read.heldSince
  | _ => none

/-- The venue's limit cuts into a span from its start: a later call has no news of it. -/
def Obeys (fetch : ℕ → ℤ → ℤ → Fetched AssetKey InstrumentKey) : Prop :=
  ∀ page start finish read, fetch (page + 2) start finish = .read read →
    ∀ held ∈ read.heldSince, held ≤ start

section Pages

variable {finish : ℤ} {page : ℕ} {cursor : ℤ} {left : ℕ}
  {calls : List (Call AssetKey InstrumentKey)} {gaveUp : Option ℤ}

theorem Pages.length_le (h : Pages fetch finish page cursor left calls gaveUp) :
    calls.length ≤ left + 1 := by
  induction h with
  | onward page cursor left read resume calls gaveUp hanswer hresume hon hrest ih =>
    rw [List.length_cons]
    omega
  | _ => simp

theorem Pages.le_start (h : Pages fetch finish page cursor left calls gaveUp) :
    ∀ call ∈ calls, cursor ≤ call.start := by
  induction h with
  | onward page cursor left read resume calls gaveUp hanswer hresume hon hrest ih =>
    intro call hcall
    obtain rfl | hin := List.mem_cons.mp hcall
    · exact le_refl _
    · exact hon.le.trans (ih call hin)
  | _ => simp

theorem Pages.starts_lt (h : Pages fetch finish page cursor left calls gaveUp) :
    (calls.map Call.start).Pairwise (· < ·) := by
  induction h with
  | onward page cursor left read resume calls gaveUp hanswer hresume hon hrest ih =>
    rw [List.map_cons, List.pairwise_cons]
    refine ⟨fun start hstart => ?_, ih⟩
    obtain ⟨call, hcall, rfl⟩ := List.mem_map.mp hstart
    exact hon.trans_le (hrest.le_start call hcall)
  | _ => simp

theorem Pages.le_gaveUp (h : Pages fetch finish page cursor left calls gaveUp) :
    ∀ place ∈ gaveUp, cursor ≤ place := by
  induction h with
  | onward page cursor left read resume calls gaveUp hanswer hresume hon hrest ih =>
    exact fun place hplace => hon.le.trans (ih place hplace)
  | limit page cursor read resume hanswer hresume hon =>
    intro place hplace
    rw [Option.mem_some_iff.mp hplace] at hon
    exact hon.le
  | _ => simp

/-- A page after the first covers every time from it on, or the read gave up before that time. -/
theorem Pages.covers_later (h : Pages fetch finish (page + 2) cursor left calls gaveUp)
    (hobeys : Obeys fetch) {time : ℤ} (hstart : cursor ≤ time) (hfinish : time ≤ finish) :
    (∃ call ∈ calls, call.Covers finish time) ∨ ∃ place ∈ gaveUp, place ≤ time := by
  generalize hpage : page + 2 = later at h
  induction h generalizing page with
  | failed later cursor left error hanswer => exact Or.inr ⟨cursor, rfl, hstart⟩
  | timedOut later cursor left hanswer => exact Or.inr ⟨cursor, rfl, hstart⟩
  | stuck later cursor left read resume hanswer hresume hback =>
    exact Or.inr ⟨cursor, rfl, hstart⟩
  | complete later cursor left read hanswer hresume =>
    subst hpage
    refine Or.inl ⟨_, List.mem_singleton.mpr rfl, hstart, fun held hheld => ?_, ?_⟩
    · exact (hobeys page cursor finish read hanswer held hheld).trans hstart
    · rw [hresume]
      exact hfinish
  | limit later cursor read resume hanswer hresume hon =>
    subst hpage
    by_cases hin : time < resume
    · refine Or.inl ⟨_, List.mem_singleton.mpr rfl, hstart, fun held hheld => ?_, ?_⟩
      · exact (hobeys page cursor finish read hanswer held hheld).trans hstart
      · rw [hresume]
        exact hin
    · exact Or.inr ⟨resume, rfl, not_lt.mp hin⟩
  | onward later cursor left read resume calls gaveUp hanswer hresume hon hrest ih =>
    subst hpage
    by_cases hin : time < resume
    · refine Or.inl ⟨_, List.mem_cons_self, hstart, fun held hheld => ?_, ?_⟩
      · exact (hobeys page cursor finish read hanswer held hheld).trans hstart
      · rw [hresume]
        exact hin
    · obtain ⟨call, hcall, hcovers⟩ | hplace := ih (not_lt.mp hin) (by omega : page + 1 + 2 = _)
      · exact Or.inl ⟨call, List.mem_cons_of_mem _ hcall, hcovers⟩
      · exact Or.inr hplace

/-- From its first page on a read covers every time the venue still held. -/
theorem Pages.covers (h : Pages fetch finish 1 cursor left calls gaveUp) (hobeys : Obeys fetch)
    {time : ℤ} (hstart : cursor ≤ time) (hfinish : time ≤ finish)
    (hheld : ∀ held ∈ heldSince calls, held ≤ time) :
    (∃ call ∈ calls, call.Covers finish time) ∨ ∃ place ∈ gaveUp, place ≤ time := by
  cases h with
  | failed _ _ _ error hanswer => exact Or.inr ⟨cursor, rfl, hstart⟩
  | timedOut _ _ _ hanswer => exact Or.inr ⟨cursor, rfl, hstart⟩
  | stuck _ _ _ read resume hanswer hresume hback => exact Or.inr ⟨cursor, rfl, hstart⟩
  | complete _ _ _ read hanswer hresume =>
    refine Or.inl ⟨_, List.mem_singleton.mpr rfl, hstart, hheld, ?_⟩
    rw [hresume]
    exact hfinish
  | limit _ _ read resume hanswer hresume hon =>
    by_cases hin : time < resume
    · refine Or.inl ⟨_, List.mem_singleton.mpr rfl, hstart, hheld, ?_⟩
      rw [hresume]
      exact hin
    · exact Or.inr ⟨resume, rfl, not_lt.mp hin⟩
  | onward _ _ left read resume calls _ hanswer hresume hon hrest =>
    by_cases hin : time < resume
    · refine Or.inl ⟨_, List.mem_cons_self, hstart, hheld, ?_⟩
      rw [hresume]
      exact hin
    · obtain ⟨call, hcall, hcovers⟩ | hplace :=
        hrest.covers_later hobeys (not_lt.mp hin) hfinish
      · exact Or.inl ⟨call, List.mem_cons_of_mem _ hcall, hcovers⟩
      · exact Or.inr hplace

theorem Pages.heldSince_eq (h : Pages fetch finish page cursor left calls gaveUp) :
    heldSince calls =
      match fetch page cursor finish with
      | .read read => read.heldSince
      | _ => none := by
  cases h <;> simp [heldSince, *]

end Pages

/-! ## What a read accounts for -/

/-- Every time of the span was read while the venue held it, or is in a gap; the gaps are spans
    within it, at most one of them reaching its end; the fills of every call are there, by time;
    and the calls are as many as allowed, each starting later than the one before. -/
structure Accounted (config : FillRecoveryConfig) (start finish : ℤ)
    (result : Backfill AssetKey InstrumentKey) : Prop where
  covered : ∀ time, start ≤ time → time ≤ finish →
    ((∀ held ∈ heldSince result.calls, held ≤ time) ∧
      ∃ call ∈ result.calls, call.Covers finish time) ∨
    ∃ gap ∈ result.gaps, gap.start ≤ time ∧ time ≤ gap.finish
  within : ∀ gap ∈ result.gaps, start ≤ gap.start ∧ gap.start ≤ gap.finish ∧ gap.finish ≤ finish
  tails : (result.gaps.filter (·.finish = finish)).length ≤ 1
  kept : result.trades.Perm (result.calls.flatMap Call.trades)
  sorted : result.trades.Pairwise (·.timeExchange ≤ ·.timeExchange)
  calls_le : result.calls.length ≤ max 1 config.maxPages
  increasing : (result.calls.map Call.start).Pairwise (· < ·)

/-- What the answers have to be like for a read to account for its span: the span limit does not
    cut it, the read does not give up past its end, and the times just before the venue's fills
    begin, which the gap of the retention leaves out, are in the gap from where it gave up. -/
structure LeavesNothing (fetch : ℕ → ℤ → ℤ → Fetched AssetKey InstrumentKey)
    (config : FillRecoveryConfig) (start finish : ℤ) : Prop where
  uncut : oldest config start finish ≤ start
  inside : ∀ place ∈ gaveUpAt fetch finish 1 start (config.maxPages - 1), place ≤ finish
  retained : ∀ read, fetch 1 start finish = .read read →
    ∀ held ∈ read.heldSince, start < held →
      max (held - millisecond) start ≤ finish ∧
      (max (held - millisecond) start = finish →
        gaveUpAt fetch finish 1 start (config.maxPages - 1) = none) ∧
      (max (held - millisecond) start + 1 < held → max (held - millisecond) start + 1 ≤ finish →
        ∃ place ∈ gaveUpAt fetch finish 1 start (config.maxPages - 1),
          place ≤ max (held - millisecond) start + 1)

theorem sortTrades_perm (trades : List (Trade AssetKey InstrumentKey)) :
    (trades.insertionSort (·.timeExchange ≤ ·.timeExchange)).Perm trades :=
  List.perm_insertionSort _ _

theorem sortTrades_pairwise (trades : List (Trade AssetKey InstrumentKey)) :
    (trades.insertionSort (·.timeExchange ≤ ·.timeExchange)).Pairwise
      (·.timeExchange ≤ ·.timeExchange) := by
  have htotal : Std.Total fun a b : Trade AssetKey InstrumentKey =>
      a.timeExchange ≤ b.timeExchange :=
    ⟨fun a b => le_total a.timeExchange b.timeExchange⟩
  have htrans : IsTrans (Trade AssetKey InstrumentKey) fun a b =>
      a.timeExchange ≤ b.timeExchange :=
    ⟨fun _ _ _ => le_trans⟩
  exact List.pairwise_insertionSort _ _

/-- Where the read starts: at the span limit, if that cuts the span. -/
def firstPage (config : FillRecoveryConfig) (start finish : ℤ) : ℤ :=
  if start < oldest config start finish then oldest config start finish else start

def spanLimit (scope : FillRecoveryScope InstrumentKey) (config : FillRecoveryConfig)
    (start finish : ℤ) : List (FillRecoveryGap InstrumentKey) :=
  if start < oldest config start finish then
    [⟨scope, start, oldest config start finish - millisecond, 1,
      .spanLimit (config.maxSpan / 1000000000)⟩]
  else []

variable (fetch config) in
/-- What a read comes to: its pages, and the gaps in the order they are reported. -/
theorem backfill_pages (instruments : List InstrumentKey) (start finish : ℤ) :
    ∃ scope calls gaps,
      Pages fetch finish 1 (firstPage config start finish) (config.maxPages - 1) calls
        (gaveUpAt fetch finish 1 (firstPage config start finish) (config.maxPages - 1)) ∧
      Gives scope finish
        (gaveUpAt fetch finish 1 (firstPage config start finish) (config.maxPages - 1)) gaps ∧
      backfill fetch config instruments start finish =
        { trades := (calls.flatMap Call.trades).insertionSort (·.timeExchange ≤ ·.timeExchange)
          gaps := spanLimit scope config start finish ++
            retention scope 1 (firstPage config start finish)
              (fetch 1 (firstPage config start finish) finish) ++ gaps
          calls } := by
  generalize hscope : (if instruments.isEmpty then .allInstruments else .instruments instruments :
    FillRecoveryScope InstrumentKey) = scope
  unfold backfill spanLimit firstPage
  simp only [hscope]
  by_cases hcut : start < oldest config start finish
  · simp only [hcut, if_true]
    obtain ⟨calls, gaps, hpages, hgives, heq⟩ := readPages_pages fetch config scope
      finish 1 (oldest config start finish)
      (Backfill.addGap ⟨[], [], []⟩ scope start (oldest config start finish - millisecond)
        (.spanLimit (config.maxSpan / 1000000000))) (config.maxPages - 1) one_ne_zero
    exact ⟨scope, calls, gaps, hpages, hgives, by rw [heq]; simp [Backfill.addGap]⟩
  · simp only [hcut, if_false]
    obtain ⟨calls, gaps, hpages, hgives, heq⟩ := readPages_pages fetch config scope
      finish 1 start ⟨[], [], []⟩ (config.maxPages - 1)
      one_ne_zero
    exact ⟨scope, calls, gaps, hpages, hgives, by rw [heq]; simp⟩

/-- A gap of a read that gave up goes from there to its end. -/
theorem Gives.mem {finish : ℤ} {gaveUp : Option ℤ}
    {gaps : List (FillRecoveryGap InstrumentKey)} (h : Gives scope finish gaveUp gaps)
    {gap : FillRecoveryGap InstrumentKey} (hgap : gap ∈ gaps) :
    gaveUp = some gap.start ∧ gap.finish = finish := by
  cases gaveUp with
  | none =>
    obtain rfl : gaps = [] := h
    simp at hgap
  | some place =>
    obtain ⟨reason, rfl⟩ := h
    rw [List.mem_singleton.mp hgap]
    exact ⟨rfl, rfl⟩

theorem Gives.exists_mem {finish place : ℤ} {gaps : List (FillRecoveryGap InstrumentKey)}
    (h : Gives scope finish (some place) gaps) :
    ∃ gap ∈ gaps, gap.start = place ∧ gap.finish = finish := by
  obtain ⟨reason, rfl⟩ := h
  exact ⟨_, List.mem_singleton.mpr rfl, rfl, rfl⟩

/-- The first page reports the retention if the venue's fills begin after its start. -/
theorem mem_retention {cursor : ℤ} {answer : Fetched AssetKey InstrumentKey}
    {gap : FillRecoveryGap InstrumentKey} :
    gap ∈ retention scope 1 cursor answer ↔
      ∃ read held, answer = .read read ∧ read.heldSince = some held ∧ cursor < held ∧
        gap = ⟨scope, cursor, max (held - millisecond) cursor, 1, .venueRetention held⟩ := by
  cases answer with
  | failed error => simp [retention]
  | timedOut => simp [retention]
  | read read =>
    cases hheld : read.heldSince with
    | none => simp [retention, hheld]
    | some held =>
      by_cases hafter : cursor < held
      · simp [retention, hheld, hafter, Option.filter]
      · simp [retention, hheld, hafter, Option.filter]

variable (scope) in
theorem retention_length_le (cursor : ℤ) (answer : Fetched AssetKey InstrumentKey) :
    (retention scope 1 cursor answer).length ≤ 1 := by
  cases answer with
  | failed error => simp [retention]
  | timedOut => simp [retention]
  | read read =>
    simp only [retention, if_true, List.length_map]
    cases read.heldSince.filter (cursor < ·) <;> simp

variable (config) in
theorem oldest_le {start finish : ℤ} (hspan : start ≤ finish) :
    oldest config start finish ≤ finish := by
  unfold oldest
  cases h : ((toDelta config.maxSpan).bind fun span =>
      if minNanos ≤ finish - span then some (finish - span) else none) with
  | none => exact hspan
  | some time =>
    obtain ⟨span, -, hsome⟩ := Option.bind_eq_some_iff.mp h
    split at hsome
    · obtain rfl := Option.some.inj hsome
      have hnonneg : (0 : ℤ) ≤ span := Int.natCast_nonneg span
      exact Int.sub_le_self finish hnonneg
    · exact absurd hsome (by simp)

theorem heldSince_of_read {finish : ℤ} {page : ℕ} {cursor : ℤ} {left : ℕ}
    {calls : List (Call AssetKey InstrumentKey)} {gaveUp : Option ℤ}
    (h : Pages fetch finish page cursor left calls gaveUp) {held : ℤ} :
    held ∈ heldSince calls ↔
      ∃ read, fetch page cursor finish = .read read ∧ read.heldSince = some held := by
  rw [h.heldSince_eq]
  cases fetch page cursor finish <;> simp

section Account

variable {start finish : ℤ} {calls : List (Call AssetKey InstrumentKey)}
  {gaps : List (FillRecoveryGap InstrumentKey)} {left : ℕ}

/-- Every time a read of pages from `start` leaves out is one just before the venue's fills
    begin. -/
theorem LeavesNothing.covered (h : LeavesNothing fetch config start finish)
    (hobeys : Obeys fetch)
    (hpages : Pages fetch finish 1 start (config.maxPages - 1) calls
      (gaveUpAt fetch finish 1 start (config.maxPages - 1)))
    (hgives : Gives scope finish (gaveUpAt fetch finish 1 start (config.maxPages - 1)) gaps)
    {time : ℤ} (hstart : start ≤ time) (hfinish : time ≤ finish) :
    ((∀ held ∈ heldSince calls, held ≤ time) ∧
      ∃ call ∈ calls, call.Covers finish time) ∨
    ∃ gap ∈ retention scope 1 start (fetch 1 start finish) ++ gaps,
      gap.start ≤ time ∧ time ≤ gap.finish := by
  have hgap : ∀ place ∈ gaveUpAt fetch finish 1 start (config.maxPages - 1), place ≤ time →
      ∃ gap ∈ retention scope 1 start (fetch 1 start finish) ++ gaps,
        gap.start ≤ time ∧ time ≤ gap.finish := by
    intro place hplace hle
    rw [Option.mem_def.mp hplace] at hgives
    obtain ⟨gap, hmem, hgapStart, hgapFinish⟩ := hgives.exists_mem
    exact ⟨gap, List.mem_append_right _ hmem, by omega, by omega⟩
  by_cases hheld : ∀ held ∈ heldSince calls, held ≤ time
  · obtain hcovered | ⟨place, hplace, hle⟩ := hpages.covers hobeys hstart hfinish hheld
    · exact Or.inl ⟨hheld, hcovered⟩
    · exact Or.inr (hgap place hplace hle)
  · push Not at hheld
    obtain ⟨held, hmem, hbefore⟩ := hheld
    obtain ⟨read, hanswer, hsince⟩ := (heldSince_of_read hpages).mp hmem
    obtain ⟨-, -, hleft⟩ := h.retained read hanswer held hsince (by omega)
    refine Or.inr ?_
    by_cases hreported : time ≤ max (held - millisecond) start
    · exact ⟨_, List.mem_append_left _ (mem_retention.mpr
        ⟨read, held, hanswer, hsince, by omega, rfl⟩), hstart, hreported⟩
    · obtain ⟨place, hplace, hle⟩ := hleft (by omega) (by omega)
      exact hgap place hplace (by omega)

theorem LeavesNothing.tails (h : LeavesNothing fetch config start finish)
    (hgives : Gives scope finish (gaveUpAt fetch finish 1 start (config.maxPages - 1)) gaps) :
    ((retention scope 1 start (fetch 1 start finish) ++ gaps).filter
      (·.finish = finish)).length ≤ 1 := by
  rw [List.filter_append, List.length_append]
  have hretention := retention_length_le scope start (fetch 1 start finish)
  have hfilter := (retention scope 1 start (fetch 1 start finish)).length_filter_le
    fun gap => decide (gap.finish = finish)
  cases hgave : gaveUpAt fetch finish 1 start (config.maxPages - 1) with
  | none =>
    rw [hgave] at hgives
    obtain rfl : gaps = [] := hgives
    simp only [List.filter_nil, List.length_nil]
    omega
  | some place =>
    rw [hgave] at hgives
    obtain ⟨reason, rfl⟩ := hgives
    -- The retention ends before the span does, as the read gave up.
    have hnone : (retention scope 1 start (fetch 1 start finish)).filter
        (fun gap => decide (gap.finish = finish)) = [] := by
      rw [List.filter_eq_nil_iff]
      intro gap hmem
      obtain ⟨read, held, hanswer, hsince, hafter, rfl⟩ := mem_retention.mp hmem
      have hends := (h.retained read hanswer held hsince hafter).2.1
      rw [hgave] at hends
      simpa using hends
    rw [hnone]
    simp

end Account

/-- A read accounts for every time of its span, as it should, if and only if the answers leave
    nothing to the milliseconds its gaps are cut back by. -/
theorem backfill_accounted_iff
    (fetch : ℕ → ℤ → ℤ → Fetched AssetKey InstrumentKey) (hobeys : Obeys fetch)
    (config : FillRecoveryConfig) (instruments : List InstrumentKey) (start finish : ℤ)
    (hspan : start ≤ finish) :
    Accounted config start finish (backfill fetch config instruments start finish) ↔
      LeavesNothing fetch config start finish := by
  obtain ⟨scope, calls, gaps, hpages, hgives, heq⟩ := backfill_pages fetch config
    instruments start finish
  rw [heq]
  by_cases hcut : start < oldest config start finish
  · refine ⟨fun h => ?_, fun h => absurd hcut (not_lt.mpr h.uncut)⟩
    exfalso
    -- The last nanosecond before the first page is in no gap.
    have hfirst : firstPage config start finish = oldest config start finish := if_pos hcut
    have hwithin := oldest_le config hspan
    obtain ⟨-, call, hcall, hcovers⟩ | ⟨gap, hgap, hgapStart, hgapFinish⟩ :=
      h.covered (oldest config start finish - 1) (by omega) (by omega)
    · have hle := hpages.le_start call hcall
      rw [hfirst] at hle
      unfold Call.Covers at hcovers
      split at hcovers
      · omega
      · exact hcovers
    · rw [List.append_assoc, List.mem_append, List.mem_append] at hgap
      obtain hlimit | hretention | hlast := hgap
      · rw [spanLimit, if_pos hcut, List.mem_singleton] at hlimit
        subst hlimit
        have hmilli : millisecond = 1000000 := rfl
        simp only at hgapFinish
        omega
      · obtain ⟨read, held, -, -, -, rfl⟩ := mem_retention.mp hretention
        rw [hfirst] at hgapStart
        simp only at hgapStart
        omega
      · have hle := hpages.le_gaveUp gap.start (hgives.mem hlast).1
        rw [hfirst] at hle
        omega
  · have hfirst : firstPage config start finish = start := if_neg hcut
    have hlimit : spanLimit scope config start finish = [] := if_neg hcut
    rw [hfirst] at hpages hgives
    rw [hfirst, hlimit, List.nil_append]
    constructor
    · intro h
      refine ⟨not_lt.mp hcut, fun place hplace => ?_, fun read hanswer held hsince hafter => ?_⟩
      · have hgives' := hgives
        rw [Option.mem_def.mp hplace] at hgives'
        obtain ⟨gap, hmem, rfl, -⟩ := hgives'.exists_mem
        have hin := h.within gap (List.mem_append_right _ hmem)
        exact hin.2.1.trans hin.2.2
      · have hmem : ⟨scope, start, max (held - millisecond) start, 1, .venueRetention held⟩ ∈
            retention scope 1 start (fetch 1 start finish) :=
          mem_retention.mpr ⟨read, held, hanswer, hsince, hafter, rfl⟩
        have hin := h.within _ (List.mem_append_left _ hmem)
        refine ⟨hin.2.2, fun hends => ?_, fun hshort hroom => ?_⟩
        · cases hgave : gaveUpAt fetch finish 1 start (config.maxPages - 1) with
          | none => rfl
          | some place =>
            exfalso
            have hgives' := hgives
            rw [hgave] at hgives'
            obtain ⟨reason, rfl⟩ := hgives'
            have htails := h.tails
            have hone : 0 < ((retention scope 1 start (fetch 1 start finish)).filter
                (·.finish = finish)).length :=
              List.length_pos_of_mem (List.mem_filter.mpr ⟨hmem, by simpa using hends⟩)
            rw [List.filter_append, List.length_append] at htails
            simp only [decide_true, List.filter_cons_of_pos, List.filter_nil,
              List.length_singleton] at htails
            omega
        · obtain ⟨hheld, -⟩ | ⟨gap, hgap, hgapStart, hgapFinish⟩ :=
            h.covered (max (held - millisecond) start + 1) (by omega) hroom
          · have hle := hheld held ((heldSince_of_read hpages).mpr ⟨read, hanswer, hsince⟩)
            omega
          · obtain hretention | hlast := List.mem_append.mp hgap
            · obtain ⟨other, since, hother, hothers, -, rfl⟩ := mem_retention.mp hretention
              rw [hanswer] at hother
              obtain rfl : read = other := by simpa using hother
              rw [hsince] at hothers
              obtain rfl : held = since := by simpa using hothers
              simp only at hgapFinish
              omega
            · exact ⟨gap.start, (hgives.mem hlast).1, hgapStart⟩
    · intro h
      have hlength := hpages.length_le
      refine ⟨fun time hstart hfinish => h.covered hobeys hpages hgives hstart hfinish, ?_,
        h.tails hgives, sortTrades_perm _, sortTrades_pairwise _, ?_,
        hpages.starts_lt⟩
      · intro gap hgap
        obtain hretention | hlast := List.mem_append.mp hgap
        · obtain ⟨read, held, hanswer, hsince, hafter, rfl⟩ := mem_retention.mp hretention
          have hends := (h.retained read hanswer held hsince hafter).1
          exact ⟨le_refl _, le_max_right _ _, hends⟩
        · obtain ⟨hgave, hends⟩ := hgives.mem hlast
          have hplace := h.inside gap.start hgave
          exact ⟨hpages.le_gaveUp gap.start hgave, by omega, hends.le⟩
      · show calls.length ≤ max 1 config.maxPages
        omega

/-- A venue that answers every call in full, with no fills. -/
def quiet (_page : ℕ) (_start _finish : ℤ) : Fetched ℕ ℕ := .read ⟨[], none, none⟩

theorem obeys_quiet : Obeys quiet := by
  intro page start finish read hread held hheld
  obtain rfl : (⟨[], none, none⟩ : TradesRead ℕ ℕ) = read := by simpa [quiet] using hread
  simp at hheld

def spanOf (seconds : ℕ) : FillRecoveryConfig :=
  { overlap := 2000000000
    maxClockSkew := 30000000000
    readTimeout := 30000000000
    maxPages := 20
    maxSpan := seconds * 1000000000 }

theorem backfill_accounted_iff_quiet :
    Accounted (spanOf 20) 0 10000000000 (backfill quiet (spanOf 20) [] 0 10000000000) := by
  refine (backfill_accounted_iff quiet obeys_quiet (spanOf 20) [] 0 10000000000
    (by decide)).mpr ⟨by decide, by simp [gaveUpAt, quiet], ?_⟩
  intro read hread held hheld
  obtain rfl : (⟨[], none, none⟩ : TradesRead ℕ ℕ) = read := by simpa [quiet] using hread
  simp at hheld

/-- Of ten seconds to read with a limit of five, the last nanosecond of the first five is neither
    read nor reported. -/
theorem cut_not_accounted :
    ¬ Accounted (spanOf 5) 0 10000000000 (backfill quiet (spanOf 5) [] 0 10000000000) := by
  intro h
  have hresult : backfill quiet (spanOf 5) [] 0 10000000000 =
      { trades := []
        gaps := [⟨.allInstruments, 0, 4999000000, 1, .spanLimit 5⟩]
        calls := [⟨5000000000, .read ⟨[], none, none⟩⟩] } := by
    decide +kernel
  rw [hresult] at h
  obtain ⟨-, call, hcall, hcovers⟩ | ⟨gap, hgap, hgapStart, hgapFinish⟩ :=
    h.covered 4999999999 (by decide) (by decide)
  · obtain rfl := List.mem_singleton.mp hcall
    exact absurd hcovers.1 (by decide)
  · obtain rfl := List.mem_singleton.mp hgap
    exact absurd hgapFinish (by decide)

end Rustrade.Backfilling
