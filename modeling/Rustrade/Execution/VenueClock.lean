import Rustrade.Lib.Chrono

/-!
# A venue's clock, from the times it stamps

`VenueClock` keeps one time a venue stamped with the instant its event arrived, and counts on from
there on this host's monotonic clock, less what that clock may have drifted. Instants are
nanoseconds of the monotonic clock.
-/

set_option autoImplicit false

namespace Rustrade.Client

open Chrono

abbrev driftDivisor : ℕ := 10000

structure HostMoment where
  time : UtcTime
  instant : ℕ

/-- A time the venue stamped and the instant its event arrived. -/
structure Sample where
  stamp : UtcTime
  received : ℕ

structure VenueClock where
  sample : Option Sample

def VenueClock.new : VenueClock := ⟨none⟩

/-- What is left of a span of the monotonic clock if it ran fast. -/
def lessDrift (elapsed : ℕ) : ℕ := elapsed - elapsed / driftDivisor

/-- The earliest the venue's clock can read at `at`, by one sample. -/
def Sample.earliestAt (sample : Sample) (instant : ℕ) : UtcTime :=
  if sample.received ≤ instant then
    let elapsed := instant - sample.received
    -- Past chrono's range the stamp is still a bound.
    ((toDelta (lessDrift elapsed)).bind sample.stamp.checkedAdd).getD sample.stamp
  else
    let before := sample.received - instant
    ((toDelta (saturatingAdd before (before / driftDivisor))).bind
      sample.stamp.checkedSub).getD UtcTime.min

namespace VenueClock

variable (clock : VenueClock)

def earliestAt (instant : ℕ) : Option UtcTime :=
  clock.sample.map fun sample => sample.earliestAt instant

def observe (stamp : UtcTime) (received : ℕ) : VenueClock :=
  if (clock.earliestAt received).all (· < stamp) then ⟨some ⟨stamp, received⟩⟩ else clock

/-- The samples of a run, observed one after the other. -/
def observeAll (samples : List Sample) : VenueClock :=
  samples.foldl (fun clock sample => clock.observe sample.stamp sample.received) clock

def merge (other : VenueClock) : VenueClock :=
  match other.sample with
  | some sample => clock.observe sample.stamp sample.received
  | none => clock

def hostLead (hostTime : UtcTime) (instant : ℕ) : Option ℤ :=
  (clock.earliestAt instant).map fun earliest => hostTime.val - earliest.val

def spanStart (moment : HostMoment) : Option UtcTime :=
  (clock.earliestAt moment.instant).map (min · moment.time)

def spanEnd (since now : HostMoment) : UtcTime :=
  let countedOn := ((toDelta (now.instant - since.instant)).bind
    since.time.checkedAdd).getD UtcTime.max
  let venue := (clock.earliestAt now.instant).getD now.time
  max (max venue now.time) countedOn

end VenueClock

/-! ## The venue's own clock -/

/-- A venue's clock against the monotonic one, up to its instant `last`: over every span they
    differ by at most the drift allowed. -/
def Drifts (venue : ℕ → UtcTime) (last : ℕ) : Prop :=
  ∀ x y, x ≤ y → y ≤ last →
    (venue x).val + ((y - x : ℕ) - ((y - x) / driftDivisor : ℕ)) ≤ (venue y).val ∧
    (venue y).val ≤ (venue x).val + ((y - x : ℕ) + ((y - x) / driftDivisor : ℕ))

/-- The venue stamped the sample before it arrived. -/
structure Sample.Genuine (venue : ℕ → UtcTime) (last : ℕ) (sample : Sample) : Prop where
  within : sample.received ≤ last
  stamped : sample.stamp ≤ venue sample.received

theorem lessDrift_cast (elapsed : ℕ) :
    (lessDrift elapsed : ℤ) = (elapsed : ℤ) - (elapsed / driftDivisor : ℕ) := by
  unfold lessDrift driftDivisor
  omega

/-- Rounding each of two spans down loses at most a nanosecond on rounding their sum, -/
theorem lessDrift_add_le (a b : ℕ) : lessDrift a + lessDrift b ≤ lessDrift (a + b) + 1 := by
  unfold lessDrift driftDivisor
  omega

/-- and never gains one. -/
theorem lessDrift_le_add (a b : ℕ) : lessDrift (a + b) ≤ lessDrift a + lessDrift b := by
  unfold lessDrift driftDivisor
  omega

section Sound

variable {venue : ℕ → UtcTime} {last : ℕ}

theorem Drifts.lessDrift_le (hdrifts : Drifts venue last) {x y : ℕ} (hxy : x ≤ y)
    (hlast : y ≤ last) : (venue x).val + lessDrift (y - x) ≤ (venue y).val := by
  have h := (hdrifts x y hxy hlast).1
  rw [lessDrift_cast]
  exact h

theorem Sample.stamped_add_le (hdrifts : Drifts venue last) {sample : Sample}
    (hgenuine : sample.Genuine venue last) {instant : ℕ} (hafter : sample.received ≤ instant)
    (hlast : instant ≤ last) :
    sample.stamp.val + lessDrift (instant - sample.received) ≤ (venue instant).val := by
  have hstamp : sample.stamp.val ≤ (venue sample.received).val := hgenuine.stamped
  have hcounted := hdrifts.lessDrift_le hafter hlast
  omega

/-- From its arrival on a genuine sample's bound is exact: it never leaves chrono's range. -/
theorem Sample.earliestAt_after (hdrifts : Drifts venue last) {sample : Sample}
    (hgenuine : sample.Genuine venue last) {instant : ℕ} (hafter : sample.received ≤ instant)
    (hlast : instant ≤ last) :
    (sample.earliestAt instant).val =
      sample.stamp.val + lessDrift (instant - sample.received) := by
  obtain ⟨sum, hsum, hval⟩ :=
    checkedAdd_toDelta (sample.stamped_add_le hdrifts hgenuine hafter hlast)
  simp only [Sample.earliestAt, hafter, if_true, hsum, Option.getD_some]
  exact hval

/-- Counting back is bounded by the most the venue's clock can have run since. -/
theorem Sample.earliestAt_before_le (hdrifts : Drifts venue last) {sample : Sample}
    (hgenuine : sample.Genuine venue last) {instant : ℕ} (hbefore : instant < sample.received) :
    sample.earliestAt instant ≤ venue instant := by
  have hstamp : sample.stamp.val ≤ (venue sample.received).val := hgenuine.stamped
  have hback := (hdrifts instant sample.received hbefore.le hgenuine.within).2
  simp only [Sample.earliestAt, Nat.not_le.mpr hbefore, if_false]
  generalize hspan : saturatingAdd (sample.received - instant)
    ((sample.received - instant) / driftDivisor) = span
  cases hdelta : (toDelta span).bind sample.stamp.checkedSub with
  | none => exact UtcTime.min_le _
  | some time =>
    obtain ⟨delta, hto, hsub⟩ := Option.bind_eq_some_iff.mp hdelta
    obtain ⟨rfl, hdeltaMax⟩ := toDelta_eq_some_iff.mp hto
    have htime := UtcTime.ofNanos_eq_some_iff.mp hsub
    -- A span that fits a `TimeDelta` was not cut by the saturating sum.
    have hexact : delta = sample.received - instant +
        (sample.received - instant) / driftDivisor := by
      rw [← hspan]
      unfold saturatingAdd durationMax at hspan ⊢
      unfold deltaMax at hdeltaMax
      omega
    show time.val ≤ (venue instant).val
    rw [htime, hexact]
    push_cast
    push_cast at hback
    omega

theorem Sample.earliestAt_le (hdrifts : Drifts venue last) {sample : Sample}
    (hgenuine : sample.Genuine venue last) {instant : ℕ} (hlast : instant ≤ last) :
    sample.earliestAt instant ≤ venue instant := by
  by_cases hafter : sample.received ≤ instant
  · show (sample.earliestAt instant).val ≤ (venue instant).val
    rw [sample.earliestAt_after hdrifts hgenuine hafter hlast]
    exact sample.stamped_add_le hdrifts hgenuine hafter hlast
  · exact sample.earliestAt_before_le hdrifts hgenuine (Nat.not_le.mp hafter)

end Sound

/-! ## A run of samples -/

namespace VenueClock

theorem observe_cases (clock : VenueClock) (sample : Sample) :
    (clock.observe sample.stamp sample.received = ⟨some sample⟩ ∧
      ∀ held, clock.sample = some held → held.earliestAt sample.received < sample.stamp) ∨
    (clock.observe sample.stamp sample.received = clock ∧
      ∃ held, clock.sample = some held ∧ sample.stamp ≤ held.earliestAt sample.received) := by
  cases hsample : clock.sample with
  | none => simp [observe, earliestAt, hsample]
  | some held =>
    by_cases hlater : held.earliestAt sample.received < sample.stamp
    · simp [observe, earliestAt, hsample, hlater]
    · simp [observe, earliestAt, hsample, hlater, not_lt.mp hlater]

theorem observeAll_cons (clock : VenueClock) (sample : Sample) (samples : List Sample) :
    clock.observeAll (sample :: samples) =
      (clock.observe sample.stamp sample.received).observeAll samples := rfl

/-- The sample held is one of those observed. -/
theorem sample_observeAll {clock : VenueClock} {samples : List Sample} {held : Sample}
    (hheld : (clock.observeAll samples).sample = some held) :
    held ∈ samples ∨ clock.sample = some held := by
  induction samples generalizing clock with
  | nil => exact Or.inr hheld
  | cons sample samples ih =>
    rw [observeAll_cons] at hheld
    obtain hin | hbefore := ih hheld
    · exact Or.inl (List.mem_cons_of_mem _ hin)
    · obtain ⟨hkept, -⟩ | ⟨hdropped, -⟩ := clock.observe_cases sample
      · rw [hkept, Option.some.injEq] at hbefore
        exact Or.inl (hbefore ▸ List.mem_cons_self)
      · rw [hdropped] at hbefore
        exact Or.inr hbefore

variable {venue : ℕ → UtcTime} {last : ℕ}

/-- The clock holds a genuine sample that from `since` on bounds the venue's time as late as each
    of `observed` does, less a nanosecond. -/
def Covers (venue : ℕ → UtcTime) (last since : ℕ) (observed : List Sample) (clock : VenueClock) :
    Prop :=
  ∃ held, clock.sample = some held ∧ held.Genuine venue last ∧ held.received ≤ since ∧
    ∀ sample ∈ observed, sample.received ≤ since ∧ ∀ instant, since ≤ instant → instant ≤ last →
      sample.stamp.val + lessDrift (instant - sample.received) ≤
        held.stamp.val + lessDrift (instant - held.received) + 1

theorem covers_single {sample : Sample} (hgenuine : sample.Genuine venue last) :
    Covers venue last sample.received [sample]
      (VenueClock.new.observe sample.stamp sample.received) := by
  refine ⟨sample, by simp [observe, earliestAt, new], hgenuine, le_refl _, ?_⟩
  intro other hother
  rw [List.mem_singleton] at hother
  subst hother
  exact ⟨le_refl _, fun instant _ _ => by omega⟩

/-- A sample kept gains a nanosecond at least on the one it replaces, which makes up for what that
    one lost; a sample dropped loses one at most. -/
theorem Covers.observe (hdrifts : Drifts venue last) {clock : VenueClock} {since : ℕ}
    {observed : List Sample} (hcovers : Covers venue last since observed clock) {sample : Sample}
    (hgenuine : sample.Genuine venue last) (hsince : since ≤ sample.received) :
    Covers venue last sample.received (sample :: observed)
      (clock.observe sample.stamp sample.received) := by
  obtain ⟨held, hheld, hheldGenuine, hheldSince, hobserved⟩ := hcovers
  have hbound := held.earliestAt_after hdrifts hheldGenuine (hheldSince.trans hsince)
    hgenuine.within
  obtain ⟨hkept, hlater⟩ | ⟨hdropped, hheld', hheldEq, hnot⟩ := clock.observe_cases sample
  · have hgain : (held.earliestAt sample.received).val < sample.stamp.val := hlater held hheld
    refine ⟨sample, by rw [hkept], hgenuine, le_refl _, ?_⟩
    intro other hother
    obtain rfl | hin := List.mem_cons.mp hother
    · exact ⟨le_refl _, fun instant _ _ => by omega⟩
    · refine ⟨(hobserved other hin).1.trans hsince, fun instant hafter hlast => ?_⟩
      have hold := (hobserved other hin).2 instant (hsince.trans hafter) hlast
      have hsplit := lessDrift_le_add (sample.received - held.received)
        (instant - sample.received)
      rw [show sample.received - held.received + (instant - sample.received) =
        instant - held.received by omega] at hsplit
      omega
  · rw [hheld, Option.some.injEq] at hheldEq
    subst hheldEq
    have hloss : sample.stamp.val ≤ (held.earliestAt sample.received).val := hnot
    refine ⟨held, by rw [hdropped, hheld], hheldGenuine, hheldSince.trans hsince, ?_⟩
    intro other hother
    obtain rfl | hin := List.mem_cons.mp hother
    · refine ⟨le_refl _, fun instant hafter _ => ?_⟩
      have hsplit := lessDrift_add_le (other.received - held.received)
        (instant - other.received)
      rw [show other.received - held.received + (instant - other.received) =
        instant - held.received by omega] at hsplit
      omega
    · exact ⟨(hobserved other hin).1.trans hsince, fun instant hafter hlast =>
        (hobserved other hin).2 instant (hsince.trans hafter) hlast⟩

theorem Covers.observeAll (hdrifts : Drifts venue last) {samples : List Sample}
    (hgenuine : ∀ sample ∈ samples, sample.Genuine venue last)
    (hordered : samples.Pairwise (·.received ≤ ·.received)) {clock : VenueClock} {since : ℕ}
    {observed : List Sample} (hcovers : Covers venue last since observed clock)
    (hsince : ∀ sample ∈ samples, since ≤ sample.received) :
    ∃ received, (∀ instant, since ≤ instant → (∀ sample ∈ samples, sample.received ≤ instant) →
        received ≤ instant) ∧
      Covers venue last received (samples ++ observed) (clock.observeAll samples) := by
  induction samples generalizing clock since observed with
  | nil => exact ⟨since, fun instant h _ => h, hcovers⟩
  | cons sample samples ih =>
    rw [List.pairwise_cons] at hordered
    have hstep := hcovers.observe hdrifts (hgenuine sample List.mem_cons_self)
      (hsince sample List.mem_cons_self)
    obtain ⟨received, hreceived, held, hheld, hheldGenuine, hheldReceived, hall⟩ :=
      ih (fun other hother => hgenuine other (List.mem_cons_of_mem _ hother)) hordered.2 hstep
        hordered.1
    refine ⟨received, fun instant _ hinstant => ?_, held, hheld, hheldGenuine, hheldReceived, ?_⟩
    · exact hreceived instant (hinstant sample List.mem_cons_self)
        fun other hother => hinstant other (List.mem_cons_of_mem _ hother)
    · intro other hother
      apply hall other
      simp only [List.mem_append, List.mem_cons] at hother ⊢
      tauto

theorem earliestAt_observeAll_le (hdrifts : Drifts venue last) {samples : List Sample}
    (hgenuine : ∀ sample ∈ samples, sample.Genuine venue last) {instant : ℕ}
    (hlast : instant ≤ last) {time : UtcTime}
    (htime : (new.observeAll samples).earliestAt instant = some time) :
    time ≤ venue instant := by
  obtain ⟨held, hheld, rfl⟩ := Option.map_eq_some_iff.mp htime
  obtain hin | hnone := sample_observeAll hheld
  · exact held.earliestAt_le hdrifts (hgenuine held hin) hlast
  · simp [new] at hnone

theorem earliestAt_only (sample : Sample) (instant : ℕ) :
    (new.observe sample.stamp sample.received).earliestAt instant =
      some (sample.earliestAt instant) := by
  simp [observe, earliestAt, new]

theorem exists_earliestAt_observeAll (hdrifts : Drifts venue last) {samples : List Sample}
    (hgenuine : ∀ sample ∈ samples, sample.Genuine venue last)
    (hordered : samples.Pairwise (·.received ≤ ·.received)) {sample : Sample}
    (hsample : sample ∈ samples) {instant : ℕ}
    (hinstant : ∀ other ∈ samples, other.received ≤ instant) (hlast : instant ≤ last) :
    ∃ time, (new.observeAll samples).earliestAt instant = some time ∧
      (sample.earliestAt instant).val ≤ time.val + 1 := by
  obtain _ | ⟨first, rest⟩ := samples
  · simp at hsample
  · rw [List.pairwise_cons] at hordered
    have hfirst := hgenuine first List.mem_cons_self
    obtain ⟨received, hreceived, held, hheld, hheldGenuine, hheldReceived, hall⟩ :=
      (covers_single hfirst).observeAll hdrifts
        (fun other hother => hgenuine other (List.mem_cons_of_mem _ hother)) hordered.2
        hordered.1
    have hafter : received ≤ instant := hreceived instant (hinstant first List.mem_cons_self)
      fun other hother => hinstant other (List.mem_cons_of_mem _ hother)
    obtain ⟨-, hbound⟩ := hall sample (by simpa [or_comm] using hsample)
    refine ⟨held.earliestAt instant, ?_, ?_⟩
    · rw [observeAll_cons, earliestAt, hheld]
      rfl
    · rw [sample.earliestAt_after hdrifts (hgenuine sample hsample) (hinstant sample hsample)
        hlast, held.earliestAt_after hdrifts hheldGenuine (hheldReceived.trans hafter) hlast]
      exact hbound instant hafter hlast

/-- The clock's bound is never later than the venue's clock, and of samples observed in the order
    they arrived no single one bounds it more than a nanosecond later. -/
theorem earliestAt_sound_and_tight (venue : ℕ → UtcTime) (last : ℕ) (hdrifts : Drifts venue last)
    (samples : List Sample) (hgenuine : ∀ sample ∈ samples, sample.Genuine venue last) :
    (∀ instant ≤ last, ∀ time, (new.observeAll samples).earliestAt instant = some time →
      time ≤ venue instant) ∧
    (samples.Pairwise (·.received ≤ ·.received) → ∀ instant ≤ last,
      (∀ sample ∈ samples, sample.received ≤ instant) → ∀ sample ∈ samples, ∀ bound,
        (new.observe sample.stamp sample.received).earliestAt instant = some bound →
        ∃ time, (new.observeAll samples).earliestAt instant = some time ∧
          bound.val - 1 ≤ time.val) := by
  constructor
  · intro instant hlast time htime
    exact earliestAt_observeAll_le hdrifts hgenuine hlast htime
  · intro hordered instant hlast hinstant sample hsample bound hbound
    rw [earliestAt_only, Option.some.injEq] at hbound
    subst hbound
    obtain ⟨time, htime, hclose⟩ :=
      exists_earliestAt_observeAll hdrifts hgenuine hordered hsample hinstant hlast
    exact ⟨time, htime, by omega⟩

/-- A venue's clock that keeps time with the monotonic one for three seconds. -/
def steady (instant : ℕ) : UtcTime :=
  ⟨min instant 3000000000, by unfold minNanos; omega, by unfold maxNanos; omega⟩

theorem drifts_steady : Drifts steady 3000000000 := by
  intro x y hxy hlast
  unfold driftDivisor
  simp only [steady]
  omega

def lateThenEarly : List Sample :=
  [⟨steady 0, 100⟩, ⟨steady 1999900000, 2000000000⟩]

theorem earliestAt_sound_and_tight_steady :
    steady 2999800000 ≤ steady 3000000000 ∧
    ∃ time, (new.observeAll lateThenEarly).earliestAt 3000000000 = some time ∧
      (steady 2999699901).val - 1 ≤ time.val := by
  have hgenuine : ∀ sample ∈ lateThenEarly, sample.Genuine steady 3000000000 := by
    intro sample hsample
    simp only [lateThenEarly, List.mem_cons, List.not_mem_nil, or_false] at hsample
    obtain rfl | rfl := hsample
    · exact ⟨by decide, by decide⟩
    · exact ⟨by decide, by decide⟩
  have h := earliestAt_sound_and_tight steady 3000000000 drifts_steady lateThenEarly hgenuine
  refine ⟨h.1 3000000000 (le_refl _) _ (by decide), ?_⟩
  exact h.2 (by simp [lateThenEarly]) 3000000000 (le_refl _) (by simp [lateThenEarly])
    ⟨steady 0, 100⟩ (by simp [lateThenEarly]) _ (by decide)

/-! ## What is read from the clock -/

/-- A clock learns from another what observing its sample would teach it. -/
theorem merge_new_observeAll (clock : VenueClock) (samples : List Sample) :
    ∃ kept ⊆ samples, clock.merge (new.observeAll samples) = clock.observeAll kept := by
  unfold merge
  cases hheld : (new.observeAll samples).sample with
  | none => exact ⟨[], by simp, rfl⟩
  | some held =>
    refine ⟨[held], ?_, rfl⟩
    obtain hin | hnone := sample_observeAll hheld
    · simpa using hin
    · simp [new] at hnone

/-- A read starts no later than the venue's clock, nor than this host's. -/
theorem spanStart_le (hdrifts : Drifts venue last) {samples : List Sample}
    (hgenuine : ∀ sample ∈ samples, sample.Genuine venue last) {moment : HostMoment}
    (hlast : moment.instant ≤ last) {start : UtcTime}
    (hstart : (new.observeAll samples).spanStart moment = some start) :
    start ≤ venue moment.instant ∧ start ≤ moment.time := by
  obtain ⟨earliest, hearliest, rfl⟩ := Option.map_eq_some_iff.mp hstart
  have hbound := earliestAt_observeAll_le hdrifts hgenuine hlast hearliest
  exact ⟨(min_le_left _ _).trans hbound, min_le_right _ _⟩

/-- A read ends no earlier than this host's clock, the bound on the venue's, and the start counted
    on, where that is still a time. -/
theorem le_spanEnd (clock : VenueClock) (since now : HostMoment) :
    now.time ≤ clock.spanEnd since now ∧
    (∀ earliest, clock.earliestAt now.instant = some earliest →
      earliest ≤ clock.spanEnd since now) ∧
    (∀ time : UtcTime, time.val ≤ since.time.val + (now.instant - since.instant : ℕ) →
      time ≤ clock.spanEnd since now) := by
  refine ⟨?_, ?_, ?_⟩
  · exact le_max_of_le_left (le_max_right _ _)
  · intro earliest hearliest
    refine le_max_of_le_left (le_max_of_le_left ?_)
    simp [hearliest]
  · intro time htime
    refine le_max_of_le_right ?_
    cases hcounted : (toDelta (now.instant - since.instant)).bind since.time.checkedAdd with
    | none => exact time.le_max
    | some sum =>
      obtain ⟨delta, hto, hadd⟩ := Option.bind_eq_some_iff.mp hcounted
      obtain ⟨rfl, -⟩ := toDelta_eq_some_iff.mp hto
      show time.val ≤ sum.val
      rw [UtcTime.ofNanos_eq_some_iff.mp hadd]
      exact htime

end VenueClock

end Rustrade.Client
