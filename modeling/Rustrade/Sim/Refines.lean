import Rustrade.Sim.Lockstep

/-!
# The stepper refines the runner

From every step of the runner that takes nothing due later than the instant comes a turn of the
stepper's loop, from those between two instants comes the return from one call and the first turn of
the next. So calls at each instant in turn go as far as the runner is when it first takes anything
due after the last of them.
-/

set_option autoImplicit false

namespace Rustrade.Sim

open Mock

variable {MarketKind Other : Type} [VenueMarketUpdate MarketKind]
  {source : Source (SourceEvent MarketKind Other)} {time : DateTime}
  {core : SimCore MarketKind Other} {batch : List (SourceEvent MarketKind Other)}
  {ahead : Instants MarketKind Other} {runner r : SimRunner MarketKind Other}
  {engine : Engine MarketKind Other}

/-- Whether the stepper's loop has more to do once the requests are drained. -/
def Stays (time : DateTime) (core : SimCore MarketKind Other)
    (batch : List (SourceEvent MarketKind Other)) : Prop :=
  core.deferred.isSome ∨ batch ≠ [] ∨ core.dueBy time = true

/-- The source's next instant is after `time`. -/
def NextAfter (time : DateTime) (ahead : Instants MarketKind Other) : Prop :=
  ∃ timed ∈ (timeline ahead).head?, time < timed.time

theorem SimCore.head_of_leads {ordering : Ordering} (h : core.leads ordering = true) :
    ∃ entry ∈ core.schedule.pending.head?, entry.time ≤ ordering.1 := by
  cases hhead : core.schedule.pending.head? with
  | none =>
    unfold SimCore.leads at h
    rw [hhead] at h
    cases h
  | some entry => exact ⟨entry, rfl, SimCore.time_of_leads h hhead⟩

theorem SimCore.head_of_dueBy (h : core.dueBy time = true) :
    ∃ entry ∈ core.schedule.pending.head?, entry.time ≤ time := by
  unfold SimCore.dueBy at h
  cases hhead : core.schedule.pending.head? with
  | none =>
    rw [hhead] at h
    cases h
  | some entry =>
    rw [hhead, Option.any_some, decide_eq_true_eq] at h
    exact ⟨entry, rfl, h⟩

/-- What is due by `time` comes before whatever is due later. -/
theorem SimCore.leads_of_dueBy (ordering : Ordering) (h : core.dueBy time = true)
    (hlt : time < ordering.1) : core.leads ordering = true := by
  obtain ⟨entry, hhead, hentry⟩ := SimCore.head_of_dueBy h
  unfold SimCore.leads
  rw [Option.mem_def.1 hhead, Option.any_some]
  exact dueBy_of_lt (hentry.trans_lt hlt)

/-- The held-back event let go is the one held. -/
theorem SimCore.takeDeferred_some {after_ : SimCore MarketKind Other}
    {event : SourceEvent MarketKind Other} (h : core.takeDeferred = some (after_, event)) :
    ∃ ordering, core.deferred = some (ordering, event) ∧
      after_ = { core with deferred := none } := by
  unfold SimCore.takeDeferred at h
  split at h
  · cases h
  · rename_i ordering held hheld
    split at h
    · cases h
    · cases h
      exact ⟨ordering, hheld, rfl⟩

theorem SimCore.takeDeferred_none (h : core.takeDeferred = none) :
    ∀ ordering event, core.deferred = some (ordering, event) → core.leads ordering = true := by
  intro ordering event hheld
  unfold SimCore.takeDeferred at h
  rw [hheld] at h
  by_contra hnot
  dsimp only at h
  rw [if_neg hnot] at h
  cases h

section

variable [DateTimeRange] [Build] [RandomStream] [DecimalScale]

/-- A turn that the instant has more for is the stepper's. -/
theorem turn_matches (h : Matches source time core batch ahead runner)
    (hnext : NextAfter time ahead) (hstays : Stays time core batch)
    (hr : runner.turn engine source = .ok r) (hlive : r.terminated = false) :
    ∃ core' batch',
      SimStepper.turn engine core batch (.instant time) = .ok (.continued core' batch') ∧
      Matches source time core' batch' ahead r ∧
      ∀ later, time ≤ later → Reached runner.core.history later → Reached r.core.history later := by
  have hmatches := h
  obtain ⟨count, hcount, rfl⟩ := h.core
  unfold SimRunner.turn at hr
  unfold SimStepper.turn
  rw [SimCore.takeDeferred_counting]
  cases htake : runner.core.takeDeferred with
  | some held =>
    obtain ⟨after_, event⟩ := held
    rw [htake] at hr
    obtain ⟨ordering, hheld, rfl⟩ := SimCore.takeDeferred_some htake
    cases hr
    refine ⟨_, batch, rfl, ⟨⟨count, hcount, rfl⟩, h.source, h.going, h.live, h.stamped, ?_, ?_⟩,
      fun later _ hbefore => SimCore.reached_shown hbefore⟩
    · exact fun _ _ hnone => (by cases hnone)
    · intro _ _
      exact (SimCore.clock_shown engine (.source event)).2 time
        (timeExchange_of_stamp (h.held ordering event hheld).2)
  | none =>
    rw [htake] at hr
    dsimp only [Option.map_none] at hr ⊢
    cases hheld : runner.core.deferred with
    | some held =>
      obtain ⟨ordering, event⟩ := held
      rw [hheld, Option.isSome_some, if_pos rfl] at hr
      have hdue := SimCore.head_of_leads (SimCore.takeDeferred_none htake ordering event hheld)
      rw [(h.held ordering event hheld).1] at hdue
      have hleads : SimStepper.queueLeads (runner.core.counting count) batch (.instant time) =
          true := by
        unfold SimStepper.queueLeads
        rw [show (runner.core.counting count).deferred = _ from hheld]
        rfl
      rw [if_pos hleads]
      obtain ⟨core', hcore', hdone⟩ := pop_matches hmatches hr hlive hdue
      exact ⟨core', batch, hcore', hdone⟩
    | none =>
      rw [hheld, h.going] at hr
      simp only [Option.isSome_none, Bool.false_eq_true, if_false] at hr
      have hfirst := h.source 0
      rw [Nat.add_zero] at hfirst
      cases batch with
      | cons event batch =>
        have hsource : source.next runner.drawn = some ⟨event, time⟩ := hfirst
        rw [hsource] at hr
        dsimp only at hr
        have hleads : SimStepper.queueLeads (runner.core.counting count) (event :: batch)
            (.instant time) = runner.core.leads (time, sourceClass event) := by
          unfold SimStepper.queueLeads
          rw [show (runner.core.counting count).deferred = _ from hheld]
          rfl
        rw [hleads]
        split at hr
        · rename_i hlead
          rw [if_pos hlead]
          obtain ⟨core', hcore', hdone⟩ :=
            pop_matches hmatches hr hlive (SimCore.head_of_leads hlead)
          exact ⟨core', event :: batch, hcore', hdone⟩
        · rename_i hlead
          rw [if_neg hlead]
          obtain ⟨core', hcore', hdone⟩ := draw_matches hmatches hr
          exact ⟨core', batch, hcore', hdone⟩
      | nil =>
        obtain ⟨timed, htimed, hlater⟩ := hnext
        have hsource : source.next runner.drawn = some timed := by
          rw [hfirst, List.map_nil, List.nil_append, ← List.head?_eq_getElem?]
          exact htimed
        have hdue : runner.core.dueBy time = true := by
          rcases hstays with hsome | hne | hdue
          · rw [show (runner.core.counting count).deferred = _ from hheld] at hsome
            cases hsome
          · exact absurd rfl hne
          · exact hdue
        have hlead := SimCore.leads_of_dueBy (timed.time, sourceClass timed.value) hdue hlater
        rw [hsource] at hr
        dsimp only at hr
        rw [if_pos hlead] at hr
        have hleads : SimStepper.queueLeads (runner.core.counting count) []
            (.instant time) = true := by
          unfold SimStepper.queueLeads
          rw [Bool.or_eq_true]
          exact .inr hdue
        rw [if_pos hleads]
        obtain ⟨core', hcore', hdone⟩ :=
          pop_matches hmatches hr hlive (SimCore.head_of_dueBy hdue)
        exact ⟨core', [], hcore', hdone⟩

/-! ## One step -/

/-- The stepper's call ends at `drained`, from where the runner takes its turn. -/
structure Rests (source : Source (SourceEvent MarketKind Other)) (engine : Engine MarketKind Other)
    (time : DateTime) (core : SimCore MarketKind Other)
    (batch : List (SourceEvent MarketKind Other)) (ahead : Instants MarketKind Other)
    (runner r : SimRunner MarketKind Other) (drained : SimCore MarketKind Other) : Prop where
  returned : ∃ count, SimStepper.loopTurn engine core batch (.instant time) =
    .ok (.returned (drained.counting count))
  delivered : batch = []
  quiet : runner.core.Quiet drained
  requests : ∀ exchange ∈ drained.exchanges, (drained.venues exchange).requestRx = []
  venues : ∀ exchange, (drained.venues exchange).venue = (runner.core.venues exchange).venue
  seeded : drained.seeding = []
  held : drained.deferred = none
  due : drained.dueBy time = false
  turn : SimRunner.turn { runner with core := drained } engine source = .ok r
  ahead : ∀ index, source.next (runner.drawn + index) = (timeline ahead)[index]?
  going : runner.sourceDone = false
  live : runner.terminated = false
  caught : time ≤ drained.clock

omit [DateTimeRange] [Build] [RandomStream] [DecimalScale] in
theorem Stays.not (h : ¬ Stays time core batch) :
    core.deferred = none ∧ batch = [] ∧ core.dueBy time = false := by
  refine ⟨?_, ?_, ?_⟩
  · cases hheld : core.deferred with
    | none => rfl
    | some held => exact absurd (.inl (hheld ▸ rfl)) h
  · by_contra hne
    exact h (.inr (.inl hne))
  · rw [← Bool.not_eq_true]
    exact fun hdue => h (.inr (.inr hdue))

/-- The loop returns once nothing is held back, left of the batch, or due. -/
theorem turn_returned (h : ¬ Stays time core batch) :
    SimStepper.turn engine core batch (.instant time) = .ok (.returned core) := by
  obtain ⟨hheld, rfl, hdue⟩ := Stays.not h
  have hleads : SimStepper.queueLeads core [] (.instant time) = false := by
    unfold SimStepper.queueLeads
    rw [hheld]
    exact hdue
  unfold SimStepper.turn SimCore.takeDeferred
  rw [hheld]
  dsimp only
  rw [hleads]
  rfl

/-- A step of the runner is a turn of the stepper's loop, or what comes after its call. -/
theorem step_matches (h : Matches source time core batch ahead runner)
    (hnext : NextAfter time ahead) (hr : runner.step engine source = .ok r)
    (hlive : r.terminated = false) :
    (∃ core' batch',
      SimStepper.loopTurn engine core batch (.instant time) = .ok (.continued core' batch') ∧
      Matches source time core' batch' ahead r ∧
      ∀ later, time ≤ later → Reached runner.core.history later → Reached r.core.history later) ∨
    ∃ drained, Rests source engine time core batch ahead runner r drained := by
  obtain ⟨count, hcount, hcore⟩ := h.core
  unfold SimRunner.step at hr
  have hgoing : ¬ runner.terminated = true := by
    rw [h.live]
    exact Bool.false_ne_true
  rw [if_neg hgoing] at hr
  cases hseeding : runner.core.seeding with
  | cons seed seeding =>
    obtain ⟨exchange, snapshot⟩ := seed
    rw [hseeding] at hr
    cases hr
    have hsame : core.seeding = (exchange, snapshot) :: seeding := by
      rw [hcore]
      exact hseeding
    have hloop : SimStepper.loopTurn engine core batch (.instant time) =
        .ok (.continued ({ core with seeding }.showTo engine (.seeding exchange snapshot)) batch) := by
      unfold SimStepper.loopTurn
      rw [hsame]
    refine .inl ⟨_, batch, hloop, ⟨⟨count, hcount, by rw [hcore]; rfl⟩, h.source, h.going, h.live,
      h.stamped, h.held, ?_⟩, fun later _ hbefore => SimCore.reached_shown hbefore⟩
    intro hnone hbatch
    have hclock : { runner.core with seeding }.clock ≤
        ({ runner.core with seeding }.showTo engine (.seeding exchange snapshot)).clock :=
      (SimCore.clock_shown engine _).1
    exact (h.caught hnone hbatch).trans hclock
  | nil =>
    rw [hseeding] at hr
    obtain ⟨⟨drained, drain⟩, hdrain, hr⟩ := Except.bind_eq_ok.1 hr
    have hquiet := SimCore.drainRequests_quiet.result hdrain
    obtain ⟨hrequests, hvenues⟩ := SimCore.drainRequests_venues.result hdrain
    have hcounted : core.drainRequests = .ok (drained.counting count, drain) := by
      rw [hcore, SimCore.drainRequests_counting, hdrain]
      rfl
    have hnone : core.seeding = [] := by
      rw [hcore]
      exact hseeding
    have ⟨_, hdeferred, _, hclock, hseeded⟩ := hquiet
    cases drain with
    | abandon =>
      cases hr
      cases hlive
    | «continue» =>
      have hloop : SimStepper.loopTurn engine core batch (.instant time) =
          SimStepper.turn engine (drained.counting count) batch (.instant time) := by
        unfold SimStepper.loopTurn
        rw [hnone]
        dsimp only
        rw [hcounted]
        rfl
      have hspent : count ≤ drained.sinceSource := by
        -- Draining counts nothing.
        have hsame : (runner.core.counting runner.core.sinceSource).drainRequests = _ :=
          SimCore.drainRequests_counting
        rw [show runner.core.counting runner.core.sinceSource = runner.core from rfl, hdrain] at hsame
        have hfirst := congrArg (fun r => r.1.sinceSource) (Except.ok.inj hsame)
        exact hcount.trans (le_of_eq hfirst.symm)
      have hmatches : Matches source time (drained.counting count) batch ahead
          { runner with core := drained } := by
        refine ⟨⟨count, hspent, rfl⟩, h.source, h.going, h.live, h.stamped, ?_, ?_⟩
        · intro ordering event hheld
          exact h.held ordering event (hdeferred ▸ hheld)
        · intro hheld hbatch
          show time ≤ drained.clock
          rw [hclock]
          exact h.caught (hdeferred ▸ hheld) hbatch
      by_cases hstays : Stays time (drained.counting count) batch
      · obtain ⟨core', batch', hturn, hmatches', hreached⟩ :=
          turn_matches hmatches hnext hstays hr hlive
        refine .inl ⟨core', batch', hloop.trans hturn, hmatches', ?_⟩
        intro later hle hbefore
        exact hreached later hle (hquiet.reached hbefore)
      · obtain ⟨hheld, hbatch, hdue⟩ := Stays.not hstays
        refine .inr ⟨drained, ⟨count, hloop.trans (turn_returned hstays)⟩, hbatch, hquiet, hrequests, hvenues,
          hseeded.trans hseeding, hheld, hdue, hr, ?_, h.going, h.live, ?_⟩
        · intro index
          rw [h.source, hbatch]
          rfl
        · exact hmatches.caught hheld hbatch

/-! ## From one call to the next -/

/-- What the runner takes once the stepper's call ends is due later. -/
theorem Rests.late {drained : SimCore MarketKind Other}
    (h : Rests source engine time core batch ahead runner r drained) (hnext : NextAfter time ahead)
    (hlive : r.terminated = false) : ¬ Reached r.core.history time := by
  obtain ⟨timed, htimed, hlater⟩ := hnext
  have hsource : source.next runner.drawn = some timed := by
    have hfirst := h.ahead 0
    rw [Nat.add_zero, ← List.head?_eq_getElem?] at hfirst
    exact hfirst.trans htimed
  have hr := h.turn
  unfold SimRunner.turn SimCore.takeDeferred at hr
  rw [h.held] at hr
  simp only [h.going, h.held, Option.isSome_none, Bool.false_eq_true, if_false, hsource] at hr
  split at hr
  · rename_i hlead
    obtain ⟨entry, hhead, -⟩ := SimCore.head_of_leads hlead
    have hentry : time < entry.time := by
      by_contra hnot
      have hdue : drained.dueBy time = true := by
        unfold SimCore.dueBy
        rw [Option.mem_def.1 hhead, Option.any_some, decide_eq_true_eq]
        exact not_lt.1 hnot
      rw [h.due] at hdue
      cases hdue
    have hpopped : .popped entry ∈ r.core.history := by
      unfold SimRunner.queueLeads at hr
      split at hr
      · cases hr
        cases hlive
      · obtain ⟨⟨after_, step⟩, hpop, hr⟩ := Except.bind_eq_ok.1 hr
        have hmem := (SimCore.pop_history.result hpop).2 entry hhead
        cases step with
        | emitted event =>
          cases hr
          exact List.mem_append_left _ hmem
        | acted =>
          cases hr
          exact hmem
        | woken =>
          cases hr
          exact hmem
        | empty =>
          rw [(SimCore.pop_same.result hpop).2.2.2.1 rfl] at hhead
          cases hhead
    intro hreached
    exact absurd (hreached entry.time (List.mem_flatMap.2 ⟨_, hpopped, List.mem_singleton_self _⟩))
      (not_le.2 hentry)
  · have hdrew := (SimRunner.draw_history.result hr).2.2.subset
      (List.mem_append_right _ (List.mem_singleton_self _))
    intro hreached
    exact absurd (hreached timed.time (List.mem_flatMap.2 ⟨_, hdrew, List.mem_singleton_self _⟩))
      (not_le.2 hlater)

/-- The next call's first turn is the one the runner takes after the call that ended. -/
theorem Rests.restart {drained : SimCore MarketKind Other} {next : DateTime}
    {events : List (SourceEvent MarketKind Other)}
    (h : Rests source engine time core batch ((next, events) :: ahead) runner r drained)
    (hinstant : IsInstant (next, events)) (hnext : NextAfter next ahead)
    (hlive : r.terminated = false) :
    ∃ core' batch', SimStepper.loopTurn engine (drained.counting 0) events (.instant next) =
        .ok (.continued core' batch') ∧ Matches source next core' batch' ahead r ∧
      ∀ later, next ≤ later → Reached runner.core.history later → Reached r.core.history later := by
  have hmatches : Matches source next (drained.counting 0) events ahead
      { runner with core := drained } := by
    refine ⟨⟨0, Nat.zero_le _, rfl⟩, ?_, h.going, h.live, hinstant.stamped, ?_, ?_⟩
    · exact h.ahead
    · intro ordering event hheld
      rw [show drained.deferred = none from h.held] at hheld
      cases hheld
    · exact fun _ hempty => absurd hempty hinstant.nonempty
  have hstays : Stays next (drained.counting 0) events := .inr (.inl hinstant.nonempty)
  obtain ⟨core', batch', hturn, hdone, hreached⟩ := turn_matches hmatches hnext hstays h.turn hlive
  refine ⟨core', batch', ?_, hdone, ?_⟩
  · have hnothing : (drained.counting 0).drainRequests = .ok (drained.counting 0, .continue) :=
      SimCore.drainRequests_nothing h.requests
    have hseeded : (drained.counting 0).seeding = [] := h.seeded
    unfold SimStepper.loopTurn
    rw [hseeded]
    dsimp only
    rw [hnothing]
    exact hturn
  · intro later hle hbefore
    exact hreached later hle (h.quiet.reached hbefore)

/-- A call at an instant, given its events by class, runs them and goes on to the calls after it. -/
theorem steps_cons (self : SimStepper MarketKind Other) {events : List (SourceEvent MarketKind Other)}
    (hinstant : IsInstant (time, events)) (hstart : self.instant.getD self.sessionStart ≤ time)
    (hnew : self.instant ≠ some time) (turns : ℕ) (rest : Instants MarketKind Other) :
    SimStepper.steps engine turns self ((time, events) :: rest) =
      (SimStepper.run engine (.instant time) turns { self.core with sinceSource := 0 } events >>=
        fun
        | none => .ok none
        | some core => SimStepper.steps engine turns
            ⟨{ core with clock := max core.clock time }, self.sessionStart, some time⟩ rest) := by
  have hlater : (decide (time < self.instant.getD self.sessionStart) ||
      decide (self.instant = some time)) = false := by
    rw [Bool.or_eq_false_iff, decide_eq_false_iff_not, decide_eq_false_iff_not]
    exact ⟨not_lt.2 hstart, hnew⟩
  have hstamps : (events.filterMap stamp).find? (fun found => found ≠ time) = none := by
    rw [List.find?_eq_none]
    intro found hfound
    obtain ⟨event, hevent, hstamp⟩ := List.mem_filterMap.1 hfound
    rw [hinstant.stamped event hevent] at hstamp
    simpa using hstamp.symm
  have hsorted : events.mergeSort (fun a b => sourceClass a ≤ sourceClass b) = events := by
    apply List.mergeSort_of_pairwise
    exact hinstant.sorted.imp fun h => decide_eq_true h
  rw [SimStepper.steps]
  unfold SimStepper.step
  dsimp only
  rw [hlater, hstamps, hsorted]
  cases SimStepper.run engine (.instant time) turns { self.core with sinceSource := 0 } events with
  | error fault => rfl
  | ok ran =>
    cases ran with
    | none => rfl
    | some core => rfl

/-! ## Whole runs -/

/-- Given turns enough, the call that is here, and then those that are left, come to `result`. -/
def Ends (engine : Engine MarketKind Other) (start time : DateTime)
    (core : SimCore MarketKind Other) (batch : List (SourceEvent MarketKind Other))
    (rest : Instants MarketKind Other) (result : SimStepper MarketKind Other) : Prop :=
  ∃ enough, ∀ left turns, enough ≤ left → enough ≤ turns →
    (SimStepper.run engine (.instant time) left core batch >>= fun
      | none => .ok none
      | some core => SimStepper.steps engine turns
          ⟨{ core with clock := max core.clock time }, start, some time⟩ rest) = .ok (some result)

section

variable {start next : DateTime} {rest : Instants MarketKind Other}
  {result : SimStepper MarketKind Other} {core' : SimCore MarketKind Other}
  {batch' events : List (SourceEvent MarketKind Other)}

theorem Ends.turn (hturn : SimStepper.loopTurn engine core batch (.instant time) =
    .ok (.continued core' batch')) (h : Ends engine start time core' batch' rest result) :
    Ends engine start time core batch rest result := by
  obtain ⟨enough, hresult⟩ := h
  refine ⟨enough + 1, ?_⟩
  intro left turns hleft hturns
  obtain ⟨left, rfl⟩ : ∃ fewer, left = fewer + 1 := ⟨left - 1, by omega⟩
  unfold SimStepper.run
  rw [hturn]
  exact hresult left turns (by omega) (by omega)

/-- A call that returned with the clock at its instant leaves the core as its loop did. -/
theorem ends_returned (hturn : SimStepper.loopTurn engine core batch (.instant time) =
    .ok (.returned core')) (hclock : time ≤ core'.clock)
    (h : ∃ enough, ∀ turns, enough ≤ turns →
      SimStepper.steps engine turns ⟨core', start, some time⟩ rest = .ok (some result)) :
    Ends engine start time core batch rest result := by
  obtain ⟨enough, hresult⟩ := h
  refine ⟨enough + 1, ?_⟩
  intro left turns hleft hturns
  obtain ⟨left, rfl⟩ : ∃ fewer, left = fewer + 1 := ⟨left - 1, by omega⟩
  have hcaught : { core' with clock := max core'.clock time } = core' := by
    rw [max_eq_left hclock]
  unfold SimStepper.run
  rw [hturn]
  show SimStepper.steps engine turns ⟨{ core' with clock := max core'.clock time }, _, _⟩ _ = _
  rw [hcaught]
  exact hresult turns (by omega)

/-- The next call starts from the core as it is, with the feedback budget afresh. -/
theorem Ends.called (self : SimStepper MarketKind Other) (hinstant : IsInstant (time, events))
    (hstart : self.instant.getD self.sessionStart ≤ time) (hnew : self.instant ≠ some time)
    (h : Ends engine self.sessionStart time (self.core.counting 0) events rest result) :
    ∃ enough, ∀ turns, enough ≤ turns →
      SimStepper.steps engine turns self ((time, events) :: rest) = .ok (some result) := by
  obtain ⟨enough, hresult⟩ := h
  refine ⟨enough, ?_⟩
  intro turns hturns
  rw [steps_cons self hinstant hstart hnew]
  exact hresult turns turns hturns hturns

end

/-- Where the stepper is, in one of the calls at each instant through `until_`: in step with the
runner, and on the way that the whole of them goes. -/
structure Along (source : Source (SourceEvent MarketKind Other)) (engine : Engine MarketKind Other)
    (start : DateTime) (first : SimStepper MarketKind Other) (calls later : Instants MarketKind Other)
    (runner : SimRunner MarketKind Other) (time : DateTime) (core : SimCore MarketKind Other)
    (batch : List (SourceEvent MarketKind Other)) (rest : Instants MarketKind Other) : Prop where
  matches_ : Matches source time core batch (rest ++ later) runner
  left : ∃ done events, calls = done ++ (time, events) :: rest
  goes : ∀ result, Ends engine start time core batch rest result → ∃ enough, ∀ turns,
    enough ≤ turns → SimStepper.steps engine turns first calls = .ok (some result)

section

variable {start until_ : DateTime} {first : SimStepper MarketKind Other}
  {calls rest later : Instants MarketKind Other}

omit [VenueMarketUpdate MarketKind] [DateTimeRange] [Build] [RandomStream] [DecimalScale] in
theorem Grouped.nextAfter {done : Instants MarketKind Other}
    {events : List (SourceEvent MarketKind Other)}
    (h : Grouped start (done ++ (time, events) :: ahead)) (hne : ahead ≠ []) :
    NextAfter time ahead := by
  match ahead with
  | [] => exact absurd rfl hne
  | (next, events') :: ahead =>
    have hinstant : IsInstant (next, events') := h.instants _ (by simp)
    have hlt : time < next :=
      (List.pairwise_cons.1 (List.pairwise_append.1 h.ascending).2.1).1 _ List.mem_cons_self
    match events' with
    | [] => exact absurd rfl hinstant.nonempty
    | event :: events' => exact ⟨⟨event, next⟩, rfl, hlt⟩

/-- A step of the runner that takes nothing due after the last call is the stepper's. -/
theorem Along.step (h : Along source engine start first calls later runner time core batch rest)
    (hgrouped : Grouped start (calls ++ later)) (hlater : later ≠ [])
    (hlast : ∀ group ∈ calls.getLast?, group.1 = until_)
    (hr : runner.step engine source = .ok r) (hlive : r.terminated = false)
    (hreached : Reached r.core.history until_) :
    ∃ time core batch rest, Along source engine start first calls later r time core batch rest := by
  obtain ⟨done, events, hcalls⟩ := h.left
  have hgroups : Grouped start (done ++ (time, events) :: (rest ++ later)) := by
    rw [hcalls, List.append_assoc] at hgrouped
    exact hgrouped
  have hnext : NextAfter time (rest ++ later) :=
    hgroups.nextAfter (List.append_ne_nil_of_right_ne_nil _ hlater)
  rcases step_matches h.matches_ hnext hr hlive with
    ⟨core', batch', hturn, hmatches, -⟩ | ⟨drained, hrests⟩
  · exact ⟨time, core', batch', rest, hmatches, ⟨done, events, hcalls⟩,
      fun result hends => h.goes result (hends.turn hturn)⟩
  · match rest with
    | [] =>
      -- The runner goes on past the last call.
      have htime : time = until_ := hlast (time, events) (by rw [hcalls]; simp)
      rw [← htime] at hreached
      exact absurd hreached (hrests.late hnext hlive)
    | (next, events') :: rest =>
      have hgroups' : Grouped start ((done ++ [(time, events)]) ++ (next, events') ::
          (rest ++ later)) := by
        rw [List.append_assoc]
        exact hgroups
      have hlt : time < next := (List.pairwise_append.1 hgroups'.ascending).2.2 (time, events)
        (by simp) (next, events') List.mem_cons_self
      have hinstant : IsInstant (next, events') := hgroups'.instants _ (by simp)
      obtain ⟨core', batch', hturn, hmatches, -⟩ := hrests.restart hinstant
        (hgroups'.nextAfter (List.append_ne_nil_of_right_ne_nil _ hlater)) hlive
      refine ⟨next, core', batch', rest, hmatches, ⟨done ++ [(time, events)], events', ?_⟩, ?_⟩
      · rw [hcalls, List.append_assoc]
        rfl
      · intro result hends
        obtain ⟨count, hreturned⟩ := hrests.returned
        refine h.goes result (ends_returned hreturned hrests.caught ?_)
        have hnew : some time ≠ some next := fun heq => hlt.ne (Option.some.inj heq)
        exact Ends.called ⟨drained.counting count, start, some time⟩ hinstant hlt.le hnew
          (hends.turn hturn)

theorem SimRunner.step_of_terminated (h : runner.terminated = true) :
    runner.step engine source = .ok runner := by
  unfold SimRunner.step
  rw [if_pos h]

/-- As far as the runner takes nothing due after the last call, the stepper is on its way. -/
theorem along_of_reached {core : SimCore MarketKind Other} (hheld : core.deferred = none)
    (hgrouped : Grouped core.clock (calls ++ later)) (hcalls : calls ≠ []) (hlater : later ≠ [])
    (hlast : ∀ group ∈ calls.getLast?, group.1 = until_)
    (hsource : ∀ index, source.next index = (timeline (calls ++ later))[index]?) {count : ℕ}
    (hr : (SimRunner.new core).steps engine source count = .ok r) (hlive : r.terminated = false)
    (hreached : Reached r.core.history until_) :
    ∃ time core' batch rest, Along source engine core.clock (SimStepper.new core) calls later r time
      core' batch rest := by
  induction count generalizing r with
  | zero =>
    cases hr
    match calls with
    | [] => exact absurd rfl hcalls
    | (time, events) :: rest =>
      have hinstant : IsInstant (time, events) := hgrouped.instants _ List.mem_cons_self
      refine ⟨time, core.counting 0, events, rest, ⟨⟨0, Nat.zero_le _, rfl⟩, ?_, rfl, rfl,
        hinstant.stamped, ?_, ?_⟩, ⟨[], events, rfl⟩, ?_⟩
      · intro index
        show source.next (0 + index) = _
        rw [Nat.zero_add, hsource]
        rfl
      · intro ordering event hdeferred
        rw [show core.deferred = _ from hdeferred] at hheld
        cases hheld
      · exact fun _ hempty => absurd hempty hinstant.nonempty
      · intro result hends
        exact Ends.called (SimStepper.new core) hinstant
          (hgrouped.starts _ List.mem_cons_self) (fun hnone => (by cases hnone)) hends
  | succ count ih =>
    obtain ⟨runner, hrunner, hstep⟩ := Except.bind_eq_ok.1 hr
    have hrunning : runner.terminated = false := by
      rw [← Bool.not_eq_true]
      intro hterminated
      rw [SimRunner.step_of_terminated hterminated] at hstep
      cases hstep
      rw [hlive] at hterminated
      cases hterminated
    have hbefore : Reached runner.core.history until_ := by
      have hgrown := (SimRunner.step_history.result hstep).1
      intro instant hinstant
      exact hreached instant (hgrown.flatMap _ |>.subset hinstant)
    obtain ⟨time, core', batch, rest, halong⟩ := ih hrunner hrunning hbefore
    exact halong.step hgrouped hlater hlast hstep hlive hreached

end

/-! ## A run that ends takes nothing more -/

/-- A step the run ends on takes nothing from the queue or the source. -/
theorem SimRunner.reached_of_terminated {until_ : DateTime} : (runner.step engine source).Gives
    fun r => runner.terminated = false → r.terminated = true →
      Reached runner.core.history until_ → Reached r.core.history until_ := by
  have hlead : ∀ runner : SimRunner MarketKind Other, (runner.queueLeads engine).Gives fun r =>
      runner.terminated = false → r.terminated = true →
        Reached runner.core.history until_ → Reached r.core.history until_ := by
    intro runner
    unfold SimRunner.queueLeads
    split
    · exact fun _ _ hreached => hreached.append fun _ hinstant => absurd hinstant List.not_mem_nil
    · apply SimCore.pop_same.bind
      rintro ⟨after_, step⟩ ⟨_, _, _, hempty, hreached⟩
      cases step with
      | emitted event =>
        exact fun hlive hterminated => absurd (hlive.symm.trans hterminated) Bool.false_ne_true
      | acted =>
        exact fun hlive hterminated => absurd (hlive.symm.trans hterminated) Bool.false_ne_true
      | woken =>
        exact fun hlive hterminated => absurd (hlive.symm.trans hterminated) Bool.false_ne_true
      | empty =>
        apply SimCore.expireHeld_quiet.bind
        rintro ⟨expired, scheduled⟩ hquiet
        have hdone : Reached runner.core.history until_ → Reached expired.history until_ := by
          intro hbefore
          refine hquiet.reached (hreached until_ hbefore ?_)
          rw [hempty rfl]
          exact fun _ hnone => (by cases hnone)
        dsimp only
        split
        · exact fun _ _ => hdone
        · exact fun _ _ => hdone
  unfold SimRunner.step
  split
  · exact fun _ _ hreached => hreached
  · split
    · exact fun hlive hterminated => absurd (hlive.symm.trans hterminated) Bool.false_ne_true
    · apply SimCore.drainRequests_quiet.bind
      rintro ⟨drained, drain⟩ hquiet
      cases drain with
      | abandon =>
        exact fun _ _ hreached => (hquiet.reached hreached).append
          fun _ hinstant => absurd hinstant List.not_mem_nil
      | «continue» =>
        have hstays : ∀ r : SimRunner MarketKind Other, r.terminated = runner.terminated →
            runner.terminated = false → r.terminated = true →
              Reached runner.core.history until_ → Reached r.core.history until_ :=
          fun r hsame hlive hterminated =>
            absurd ((hsame.trans hlive).symm.trans hterminated) Bool.false_ne_true
        have hleads := (hlead { runner with core := drained }).mono
          fun r h hlive hterminated hreached => h hlive hterminated (hquiet.reached hreached)
        show (SimRunner.turn { runner with core := drained } engine source).Gives _
        unfold SimRunner.turn
        dsimp only
        split
        · exact hstays _ rfl
        · split
          · exact hleads
          · split
            · split
              · exact hleads
              · exact hstays _ rfl
            · split
              · exact hstays _ rfl
              · split
                · exact hleads
                · unfold SimRunner.draw
                  apply SimCore.routeSource_quiet.bind
                  rintro _ ⟨routed, -, rfl | rfl⟩
                  · exact hstays _ rfl
                  · exact hstays _ rfl

/-- The events the engine was shown, in order. -/
def shown (history : List (Happening MarketKind Other)) : List (Shown MarketKind Other) :=
  history.filterMap fun
    | .showed event => some event
    | _ => none

omit [DateTimeRange] [Build] [RandomStream] [DecimalScale] in
/-- What is between the driver and the venues shows nothing. -/
theorem SimCore.Quiet.shown {after_ : SimCore MarketKind Other} (h : core.Quiet after_) :
    shown after_.history = Sim.shown core.history := by
  obtain ⟨⟨more, hhistory, hvenues⟩, -⟩ := h
  have hnil : Sim.shown more = [] := by
    unfold Sim.shown
    rw [List.filterMap_eq_nil_iff]
    intro happening hmem
    have hisVenues := hvenues happening hmem
    cases happening with
    | showed event => cases hisVenues
    | drained exchange request action => rfl
    | gave exchange request input events response => rfl
    | popped entry => rfl
    | drew event => rfl
    | refused entry => rfl
    | abandoned => rfl
  unfold Sim.shown at hnil ⊢
  rw [hhistory, List.filterMap_append, hnil, List.append_nil]

/-- Calls at each instant of a source through `time`, one after another, have shown what the runner
over the whole source has, and leave the venues as it does, when it first takes anything due later. -/
theorem SimStepper.refines_runner {exchanges : List ExchangeIndex} {nodup : exchanges.Nodup}
    {venues : ExchangeIndex → SimVenue} {clock : DateTime} {feedbackLimit : ℕ}
    (engine : Engine MarketKind Other) {events : List (Timed (SourceEvent MarketKind Other))}
    (h : IsSource clock events) {earlier later : Instants MarketKind Other} {time : DateTime}
    {batch : List (SourceEvent MarketKind Other)}
    (hinstants : instants events = earlier ++ (time, batch) :: later) (hlater : later ≠ [])
    {count : ℕ} {r r' : SimRunner MarketKind Other}
    (hr : (SimRunner.new (.new exchanges nodup venues clock feedbackLimit)).steps engine
      (.ofList events h.ascending) count = .ok r)
    (hreached : Reached r.core.history time)
    (hr' : r.step engine (.ofList events h.ascending) = .ok r')
    (hfirst : ¬ Reached r'.core.history time) :
    ∃ stepper enough, (∀ turns, enough ≤ turns →
      (SimStepper.new (.new exchanges nodup venues clock feedbackLimit)).steps engine turns
        (earlier ++ [(time, batch)]) = .ok (some stepper)) ∧
      shown stepper.core.history = shown r.core.history ∧
      ∀ exchange, (stepper.core.venues exchange).venue = (r.core.venues exchange).venue := by
  have hgrouped : Grouped clock ((earlier ++ [(time, batch)]) ++ later) := by
    rw [List.append_assoc]
    exact hinstants ▸ h.grouped
  have hline : ∀ index : ℕ, events[index]? =
      (timeline ((earlier ++ [(time, batch)]) ++ later))[index]? := by
    intro index
    have hsame : (earlier ++ [(time, batch)]) ++ later = instants events := by
      rw [List.append_assoc]
      exact hinstants.symm
    rw [hsame, timeline_instants]
  have hlast : ∀ group ∈ (earlier ++ [(time, batch)]).getLast?, group.1 = time := by
    rw [List.getLast?_concat]
    rintro _ ⟨⟩
    rfl
  have hlive : r.terminated = false := by
    rw [← Bool.not_eq_true]
    intro hterminated
    rw [SimRunner.step_of_terminated hterminated] at hr'
    cases hr'
    exact hfirst hreached
  have hlive' : r'.terminated = false := by
    rw [← Bool.not_eq_true]
    intro hterminated
    exact hfirst (SimRunner.reached_of_terminated.result hr' hlive hterminated hreached)
  obtain ⟨instant, core, left, rest, halong⟩ :=
    along_of_reached rfl hgrouped (List.append_ne_nil_of_right_ne_nil _ (List.cons_ne_nil _ _))
      hlater hlast hline hr hlive hreached
  obtain ⟨done, drawn, hcalls⟩ := halong.left
  have hgroups : Grouped clock (done ++ (instant, drawn) :: (rest ++ later)) := by
    rw [hcalls, List.append_assoc] at hgrouped
    exact hgrouped
  have hnext : NextAfter instant (rest ++ later) :=
    hgroups.nextAfter (List.append_ne_nil_of_right_ne_nil _ hlater)
  have hthrough : ∀ group ∈ earlier ++ [(time, batch)], group.1 ≤ time := by
    intro group hgroup
    rcases List.mem_append.1 hgroup with hgroup | hgroup
    · have hascending := (List.pairwise_append.1 hgrouped.ascending).1
      exact ((List.pairwise_append.1 hascending).2.2 group hgroup _ List.mem_cons_self).le
    · rw [List.mem_singleton.1 hgroup]
  have hinstant : instant ≤ time := hthrough (instant, drawn) (by rw [hcalls]; simp)
  -- The runner's next step is past the last call: the stepper's call ends here, and is the last.
  rcases step_matches halong.matches_ hnext hr' hlive' with
    ⟨core', batch', -, -, hlate⟩ | ⟨drained, hrests⟩
  · exact absurd (hlate time hinstant hreached) hfirst
  · match rest with
    | (next, events') :: rest =>
      have hgroups' : Grouped clock ((done ++ [(instant, drawn)]) ++ (next, events') ::
          (rest ++ later)) := by
        rw [List.append_assoc]
        exact hgroups
      have hle : next ≤ time := hthrough (next, events') (by rw [hcalls]; simp)
      obtain ⟨core', batch', -, -, hlate⟩ := hrests.restart (hgroups'.instants _ (by simp))
        (hgroups'.nextAfter (List.append_ne_nil_of_right_ne_nil _ hlater)) hlive'
      exact absurd (hlate time hle hreached) hfirst
    | [] =>
      obtain ⟨spent, hreturned⟩ := hrests.returned
      have hends : Ends engine clock instant core left []
          ⟨drained.counting spent, clock, some instant⟩ :=
        ends_returned hreturned hrests.caught ⟨0, fun _ _ => rfl⟩
      obtain ⟨enough, hsteps⟩ := halong.goes _ hends
      exact ⟨_, enough, hsteps, hrests.quiet.shown, hrests.venues⟩

end

/-! A tick at 0, one at 20 and one at 100, and a bid on the first that expires at 50. -/

def pace : List (Timed (SourceEvent Unit Unit)) := [tick 0, tick 20, tick 100]

theorem pace_isSource : IsSource 0 pace where
  sorted := by decide
  stamped := by
    intro timed htimed
    simp only [pace, List.mem_cons, List.not_mem_nil, or_false] at htimed
    rcases htimed with rfl | rfl | rfl <;> rfl
  starts := by decide

/-- The call at 20 has shown the bid's answer, and ends where the runner takes the bid's expiry. -/
theorem refines_runner_bid :
    let _range : DateTimeRange := ⟨fun _ => true⟩
    let _build : Build := ⟨false⟩
    let _random : RandomStream := ⟨fun _ _ => 0, fun _ _ => by decide⟩
    let _scale : DecimalScale := ⟨fun _ => 0⟩
    ∃ stepper enough, (∀ turns, enough ≤ turns →
      (SimStepper.new (.new [0] (List.nodup_singleton 0) (fun _ => laggingVenue) 0 100)).steps
        (bidder (.goodTillDate 50) none) turns [(0, [(tick 0).value]), (20, [(tick 20).value])] =
          .ok (some stepper)) ∧
      (shown stepper.core.history).length = 5 := by
  intro _range _build _random _scale
  have hrun : (match (SimRunner.new (.new [0] (List.nodup_singleton 0)
        (fun _ => laggingVenue) 0 100)).steps (bidder (.goodTillDate 50) none)
          (.ofList pace pace_isSource.ascending) 6 with
      | .ok r => decide ((∀ instant ∈ r.core.history.flatMap Happening.taken, instant ≤ 20) ∧
          (shown r.core.history).length = 5) &&
        match r.step (bidder (.goodTillDate 50) none) (.ofList pace pace_isSource.ascending) with
        | .ok r' => decide (¬ ∀ instant ∈ r'.core.history.flatMap Happening.taken, instant ≤ 20)
        | .error _ => false
      | .error _ => false) = true := by
    decide +kernel
  split at hrun
  · rename_i r hr
    rw [Bool.and_eq_true] at hrun
    obtain ⟨hthrough, hnext⟩ := hrun
    obtain ⟨hreached, hshown⟩ := of_decide_eq_true hthrough
    split at hnext
    · rename_i r' hr'
      have hlate : ¬ ∀ instant ∈ r'.core.history.flatMap Happening.taken, instant ≤ 20 :=
        of_decide_eq_true hnext
      have hinstants : instants pace =
          [(0, [(tick 0).value])] ++ (20, [(tick 20).value]) :: [(100, [(tick 100).value])] := rfl
      obtain ⟨stepper, enough, hsteps, hsame, -⟩ := SimStepper.refines_runner
        (bidder (.goodTillDate 50) none) pace_isSource hinstants (List.cons_ne_nil _ _) hr hreached
        hr' hlate
      refine ⟨stepper, enough, hsteps, ?_⟩
      rw [hsame]
      exact hshown
    · cases hnext
  · cases hrun

end Rustrade.Sim
