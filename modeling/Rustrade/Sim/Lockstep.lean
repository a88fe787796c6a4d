import Rustrade.Sim.Onward
import Rustrade.Sim.Stepper

/-!
# The stepper goes as the runner does

Handed the source's events one instant at a time, the stepper takes the turns the runner takes over
the whole source, up to the feedback budget, which a step starts afresh. It returns from a step
where the runner would take something due later, and its clock is at the instant by then: every
event of the instant was shown, and carries its stamp.
-/

set_option autoImplicit false

namespace Rustrade.Sim

open Mock

variable {MarketKind Other : Type} [VenueMarketUpdate MarketKind]

/-! ## The feedback budget decides nothing else -/

namespace SimCore

/-- The core with another count since the latest source event. -/
def counting (core : SimCore MarketKind Other) (count : ℕ) : SimCore MarketKind Other :=
  { core with sinceSource := count }

variable {core : SimCore MarketKind Other} {count : ℕ}

section

variable [DateTimeRange]

theorem drainVenue_counting (exchange : ExchangeIndex) (slot : SimVenue)
    (core : SimCore MarketKind Other) (drain : RequestDrain) (requests : List ExecutionRequest) :
    drainVenue exchange slot (core.counting count) drain requests =
      (drainVenue exchange slot core drain requests).map fun r => (r.1.counting count, r.2) := by
  induction requests generalizing core drain with
  | nil => rfl
  | cons request requests ih =>
    unfold drainVenue
    show (checkedOffset core.clock slot.toVenue >>= _) = _
    cases checkedOffset core.clock slot.toVenue with
    | error fault => rfl
    | ok arrives =>
      match request with
      | .drain => exact ih core drain
      | .shutdown => exact ih core .abandon
      | .open request =>
        dsimp only
        cases slot.indexer.orderRequest request with
        | none => rfl
        | some request =>
          exact ih (core.queueRequest exchange arrives (.open request)) drain
      | .cancel request =>
        dsimp only
        cases slot.indexer.orderRequest request with
        | none => rfl
        | some request =>
          exact ih (core.queueRequest exchange arrives (.cancel request)) drain

theorem drainRequests_counting : (core.counting count).drainRequests =
    core.drainRequests.map fun r => (r.1.counting count, r.2) := by
  have hvenue : ∀ (r : SimCore MarketKind Other × RequestDrain) exchange,
      drainVenue exchange (r.1.venues exchange) ((r.1.counting count).setVenue exchange
        { r.1.venues exchange with requestRx := [] }) r.2 (r.1.venues exchange).requestRx =
      (drainVenue exchange (r.1.venues exchange) (r.1.setVenue exchange
        { r.1.venues exchange with requestRx := [] }) r.2 (r.1.venues exchange).requestRx).map
          fun r => (r.1.counting count, r.2) :=
    fun r exchange => drainVenue_counting exchange _ (r.1.setVenue exchange _) r.2 _
  exact Except.foldlM_map (g := fun r : SimCore MarketKind Other × RequestDrain =>
    (r.1.counting count, r.2)) hvenue (core, .continue) core.exchanges

variable [Build] [RandomStream] [DecimalScale] {exchange : ExchangeIndex} {slot : SimVenue}
  {time due : DateTime} {request : ℕ} {action : Action}

omit [DateTimeRange] in
theorem advance_counting : (core.counting count).advance exchange slot time due =
    (core.advance exchange slot time due).map fun r => (r.1.counting count, r.2) := by
  unfold advance
  cases orPanic (slot.venue.advanceTime time) with
  | error fault => rfl
  | ok r => rfl

theorem serve_counting (core : SimCore MarketKind Other) :
    (core.counting count).serve exchange slot time request action =
    (core.serve exchange slot time request action).map fun r => (r.1.counting count, r.2) := by
  unfold serve
  cases checkedOffset time slot.fromVenue with
  | error fault => rfl
  | ok due =>
    show ((core.counting count).advance exchange slot time due >>= _) =
      Except.map _ (core.advance exchange slot time due >>= _)
    rw [advance_counting]
    cases core.advance exchange slot time due with
    | error fault => rfl
    | ok r =>
      obtain ⟨after_, venue⟩ := r
      match action with
      | .open request =>
        show (orPanic (venue.openOrder request) >>= _) =
          Except.map _ (orPanic (venue.openOrder request) >>= _)
        cases orPanic (venue.openOrder request) with
        | error fault => rfl
        | ok r => rfl
      | .cancel request =>
        show (orPanic (venue.cancelOrder request) >>= _) =
          Except.map _ (orPanic (venue.cancelOrder request) >>= _)
        cases orPanic (venue.cancelOrder request) with
        | error fault => rfl
        | ok r => rfl
      | .wake => rfl

theorem act_counting (core : SimCore MarketKind Other) (exchange : ExchangeIndex)
    (time : DateTime) (request : ℕ) (action : Action) : (core.counting count).act exchange time request action =
    (core.act exchange time request action).map fun r => (r.1.counting count, r.2) := by
  have hslot : (core.counting count).slot? exchange = core.slot? exchange := rfl
  unfold act
  rw [hslot]
  cases core.slot? exchange with
  | none => rfl
  | some slot =>
    dsimp only
    split
    · have hsame : (core.counting count).wakeups = core.wakeups := rfl
      rw [hsame]
      generalize core.wakeups.take exchange time = taken
      obtain ⟨wakeups, live⟩ := taken
      cases live with
      | true => exact serve_counting { core with wakeups }
      | false => rfl
    · exact serve_counting core

/-- The count once a step of the queue is taken. -/
def Step.recount (count : ℕ) : Step MarketKind Other → ℕ
  | .emitted _ => count + 1
  | .woken => 0
  | .acted | .empty => count

omit [VenueMarketUpdate MarketKind] [DateTimeRange] [Build] [RandomStream] [DecimalScale] in
theorem Step.recount_mono {step : Step MarketKind Other} {more : ℕ} (h : count ≤ more) :
    Step.recount count step ≤ Step.recount more step := by
  cases step with
  | emitted event => exact Nat.succ_le_succ h
  | woken => exact le_rfl
  | acted => exact h
  | empty => exact h

theorem pop_counting : (core.counting count).pop =
    core.pop.map fun r => (r.1.counting (Step.recount count r.2), r.2) := by
  have hpending : (core.counting count).schedule.pending = core.schedule.pending := rfl
  unfold pop
  rw [hpending]
  cases core.schedule.pending with
  | nil => rfl
  | cons entry rest =>
    dsimp only
    cases entry.payload with
    | act action =>
      show ((SimCore.counting (core.popped entry rest) count).act entry.exchange entry.time
        entry.seq action >>= _) = Except.map _ ((core.popped entry rest).act entry.exchange
          entry.time entry.seq action >>= _)
      rw [act_counting]
      cases (core.popped entry rest).act entry.exchange entry.time entry.seq action with
      | error fault => rfl
      | ok r =>
        obtain ⟨after_, woken⟩ := r
        cases woken with
        | true => rfl
        | false => rfl
    | deliver deliverable =>
      -- The count is none of what a slot is read from.
      dsimp only [slot?, counting, record]
      by_cases hlisted : entry.exchange ∈ core.exchanges
      · rw [if_pos hlisted]
        dsimp only
        split <;> rfl
      · rw [if_neg hlisted]
        rfl

end

/-- A budget less spent refuses nothing the other does not. -/
theorem checkFeedback_counting (h : count ≤ core.sinceSource) (hnone : core.checkFeedback = none) :
    (core.counting count).checkFeedback = none := by
  unfold checkFeedback at hnone ⊢
  split
  · rfl
  · rename_i hspent
    have hlimit : ¬ core.sinceSource < core.feedbackLimit := fun hlt => hspent (h.trans_lt hlt)
    rw [if_neg hlimit] at hnone
    exact hnone

theorem takeDeferred_counting : (core.counting count).takeDeferred =
    core.takeDeferred.map fun r => (r.1.counting count, r.2) := by
  have hdeferred : (core.counting count).deferred = core.deferred := rfl
  unfold takeDeferred
  rw [hdeferred]
  cases core.deferred with
  | none => rfl
  | some held =>
    obtain ⟨ordering, event⟩ := held
    show (if core.leads ordering = true then _ else _) =
      Option.map _ (if core.leads ordering = true then _ else _)
    split <;> rfl

/-! ## Draining drained requests -/

variable [DateTimeRange]

theorem drainVenue_venues {exchange : ExchangeIndex} {slot : SimVenue} {drain : RequestDrain}
    {requests : List ExecutionRequest} : (drainVenue exchange slot core drain requests).Gives
      fun r => r.1.venues = core.venues ∧ r.1.exchanges = core.exchanges := by
  induction requests generalizing core drain with
  | nil => exact ⟨rfl, rfl⟩
  | cons request requests ih =>
    apply checkedOffset_gives.bind
    intro arrives _
    match request with
    | .drain => exact ih
    | .shutdown => exact ih
    | .open request =>
      dsimp only
      split
      · exact id
      · exact ih.mono fun r hr => hr
    | .cancel request =>
      dsimp only
      split
      · exact id
      · exact ih.mono fun r hr => hr

/-- Draining leaves no request, and every venue as it is. -/
theorem drainRequests_venues : core.drainRequests.Gives fun r =>
    (∀ exchange ∈ r.1.exchanges, (r.1.venues exchange).requestRx = []) ∧
      ∀ exchange, (r.1.venues exchange).venue = (core.venues exchange).venue := by
  refine (Except.Ensures.foldlM_rest (fun (r : SimCore MarketKind Other × RequestDrain) rest =>
    r.1.exchanges = core.exchanges ∧ (∀ exchange ∈ r.1.exchanges, exchange ∈ rest ∨
      (r.1.venues exchange).requestRx = []) ∧
      ∀ exchange, (r.1.venues exchange).venue = (core.venues exchange).venue) ?_
    ⟨rfl, fun exchange hexchange => .inl hexchange, fun _ => rfl⟩).mono
      fun r ⟨_, hempty, hvenue⟩ => ⟨fun exchange hexchange =>
        (hempty exchange hexchange).resolve_left List.not_mem_nil, hvenue⟩
  rintro ⟨before_, drain⟩ exchange rest ⟨hexchanges, hempty, hvenue⟩
  refine drainVenue_venues.mono fun r ⟨hvenues, hlisted⟩ => ⟨hlisted.trans hexchanges, ?_, ?_⟩
  · intro other hother
    rw [hvenues]
    by_cases heq : other = exchange
    · subst heq
      rw [setVenue_self]
      exact .inr rfl
    · rw [setVenue_of_ne heq]
      rcases hempty other (hlisted ▸ hother) with hrest | hdone
      · exact .inl ((List.mem_cons.1 hrest).resolve_left heq)
      · exact .inr hdone
  · intro other
    rw [hvenues, ← hvenue other]
    by_cases heq : other = exchange
    · subst heq
      rw [setVenue_self]
    · rw [setVenue_of_ne heq]

/-- Nothing to drain. -/
theorem drainRequests_nothing (h : ∀ exchange ∈ core.exchanges,
    (core.venues exchange).requestRx = []) : core.drainRequests = .ok (core, .continue) := by
  have hfold : ∀ rest : List ExchangeIndex, (∀ exchange ∈ rest, exchange ∈ core.exchanges) →
      rest.foldlM (fun (r : SimCore MarketKind Other × RequestDrain) exchange =>
        drainVenue exchange (r.1.venues exchange) (r.1.setVenue exchange
          { r.1.venues exchange with requestRx := [] }) r.2 (r.1.venues exchange).requestRx)
        (core, .continue) = .ok (core, .continue) := by
    intro rest hrest
    induction rest with
    | nil => rfl
    | cons exchange rest ih =>
      have hnone := h exchange (hrest exchange List.mem_cons_self)
      have hslot : { core.venues exchange with requestRx := [] } = core.venues exchange := by
        rw [← hnone]
      have hsame : core.setVenue exchange { core.venues exchange with requestRx := [] } = core := by
        unfold setVenue
        rw [hslot, Function.update_eq_self]
      rw [List.foldlM_cons]
      dsimp only
      rw [hnone, hsame]
      exact ih fun other hother => hrest other (List.mem_cons_of_mem _ hother)
  exact hfold core.exchanges fun _ hexchange => hexchange

end SimCore

/-! ## The instants of a source -/

/-- A source's events by instant. -/
abbrev Instants (MarketKind Other : Type) := List (DateTime × List (SourceEvent MarketKind Other))

def timeline (groups : Instants MarketKind Other) : List (Timed (SourceEvent MarketKind Other)) :=
  groups.flatMap fun group => group.2.map fun event => ⟨event, group.1⟩

/-- The events of one instant, by class, each stamped with it. -/
structure IsInstant (group : DateTime × List (SourceEvent MarketKind Other)) : Prop where
  nonempty : group.2 ≠ []
  sorted : group.2.Pairwise fun a b => sourceClass a ≤ sourceClass b
  stamped : ∀ event ∈ group.2, stamp event = some group.1

/-- Instants one after another, none before `start`. -/
structure Grouped (start : DateTime) (groups : Instants MarketKind Other) : Prop where
  instants : ∀ group ∈ groups, IsInstant group
  starts : ∀ group ∈ groups, start ≤ group.1
  ascending : groups.Pairwise fun a b => a.1 < b.1

/-- A finite source of events that state their instants, by instant and class, none before
`start`. -/
structure IsSource (start : DateTime) (events : List (Timed (SourceEvent MarketKind Other))) :
    Prop where
  sorted : events.Pairwise fun a b =>
    dueBy (a.time, sourceClass a.value) (b.time, sourceClass b.value) = true
  stamped : ∀ timed ∈ events, stamp timed.value = some timed.time
  starts : ∀ timed ∈ events, start ≤ timed.time

/-- The source's events grouped by instant. -/
def instants : List (Timed (SourceEvent MarketKind Other)) → Instants MarketKind Other
  | [] => []
  | timed :: rest => match instants rest with
    | (time, events) :: groups =>
      if timed.time = time then (time, timed.value :: events) :: groups
      else (timed.time, [timed.value]) :: (time, events) :: groups
    | [] => [(timed.time, [timed.value])]

section

variable {start : DateTime} {events : List (Timed (SourceEvent MarketKind Other))}

omit [VenueMarketUpdate MarketKind]

theorem time_of_dueBy {a b : Ordering} (h : dueBy a b = true) : a.1 ≤ b.1 := by
  unfold dueBy at h
  simp only [Bool.or_eq_true, Bool.and_eq_true, decide_eq_true_eq] at h
  rcases h with hlt | ⟨heq, -⟩
  · exact hlt.le
  · exact heq.le

theorem class_of_dueBy {a b : Ordering} (h : dueBy a b = true) (heq : a.1 = b.1) : a.2 ≤ b.2 := by
  unfold dueBy at h
  simp only [Bool.or_eq_true, Bool.and_eq_true, decide_eq_true_eq] at h
  rcases h with hlt | ⟨-, hle⟩
  · exact absurd heq hlt.ne
  · exact hle

theorem IsSource.ascending (h : IsSource start events) :
    events.Pairwise fun a b => a.time ≤ b.time :=
  h.sorted.imp time_of_dueBy

theorem timeline_instants (events : List (Timed (SourceEvent MarketKind Other))) :
    timeline (instants events) = events := by
  induction events with
  | nil => rfl
  | cons timed rest ih =>
    unfold instants
    cases hrest : instants rest with
    | nil =>
      rw [hrest] at ih
      rw [← ih]
      rfl
    | cons group groups =>
      obtain ⟨time, events⟩ := group
      rw [hrest] at ih
      dsimp only
      split
      · rename_i heq
        rw [← ih, ← heq]
        rfl
      · rw [← ih]
        rfl

theorem IsSource.grouped (h : IsSource start events) : Grouped start (instants events) := by
  induction events with
  | nil => exact ⟨(fun _ h => absurd h List.not_mem_nil), (fun _ h => absurd h List.not_mem_nil),
      List.Pairwise.nil⟩
  | cons timed rest ih =>
    obtain ⟨hfirst, hsorted⟩ := List.pairwise_cons.1 h.sorted
    have hstamp : stamp timed.value = some timed.time := h.stamped timed List.mem_cons_self
    have hstart : start ≤ timed.time := h.starts timed List.mem_cons_self
    have hgrouped := ih ⟨hsorted, fun other hother => h.stamped other (List.mem_cons_of_mem _ hother),
      fun other hother => h.starts other (List.mem_cons_of_mem _ hother)⟩
    have hline := timeline_instants rest
    have hsingle : IsInstant (timed.time, [timed.value]) := by
      refine ⟨List.cons_ne_nil _ _, List.pairwise_singleton _ _, ?_⟩
      intro event hevent
      rw [List.mem_singleton.1 hevent]
      exact hstamp
    unfold instants
    cases hrest : instants rest with
    | nil =>
      refine ⟨?_, ?_, List.pairwise_singleton _ _⟩
      · intro group hgroup
        rw [List.mem_singleton.1 hgroup]
        exact hsingle
      · intro group hgroup
        rw [List.mem_singleton.1 hgroup]
        exact hstart
    | cons group groups =>
      obtain ⟨time, events⟩ := group
      rw [hrest] at hgrouped hline
      obtain ⟨hnext, hascending⟩ := List.pairwise_cons.1 hgrouped.ascending
      have hinstant := hgrouped.instants (time, events) List.mem_cons_self
      have hmem : ∀ event ∈ events, (⟨event, time⟩ : Timed _) ∈ rest := by
        intro event hevent
        rw [← hline]
        exact List.mem_append_left _ (List.mem_map_of_mem hevent)
      dsimp only
      split
      · rename_i heq
        refine ⟨?_, ?_, List.pairwise_cons.2 ⟨hnext, hascending⟩⟩
        · intro group hgroup
          rcases List.mem_cons.1 hgroup with rfl | hgroup
          · refine ⟨List.cons_ne_nil _ _, List.pairwise_cons.2 ⟨?_, hinstant.sorted⟩, ?_⟩
            · intro event hevent
              exact class_of_dueBy (hfirst _ (hmem event hevent)) heq
            · intro event hevent
              rcases List.mem_cons.1 hevent with rfl | hevent
              · rw [hstamp, heq]
              · exact hinstant.stamped event hevent
          · exact hgrouped.instants group (List.mem_cons_of_mem _ hgroup)
        · intro group hgroup
          rcases List.mem_cons.1 hgroup with rfl | hgroup
          · exact hgrouped.starts (time, events) List.mem_cons_self
          · exact hgrouped.starts group (List.mem_cons_of_mem _ hgroup)
      · rename_i hne
        have hlt : timed.time < time := by
          obtain ⟨event, hevent⟩ := List.exists_mem_of_ne_nil _ hinstant.nonempty
          exact lt_of_le_of_ne (time_of_dueBy (hfirst _ (hmem event hevent))) hne
        refine ⟨?_, ?_, List.pairwise_cons.2 ⟨?_, hgrouped.ascending⟩⟩
        · intro group hgroup
          rcases List.mem_cons.1 hgroup with rfl | hgroup
          · exact hsingle
          · exact hgrouped.instants group hgroup
        · intro group hgroup
          rcases List.mem_cons.1 hgroup with rfl | hgroup
          · exact hstart
          · exact hgrouped.starts group hgroup
        · intro group hgroup
          rcases List.mem_cons.1 hgroup with rfl | hgroup
          · exact hlt
          · exact hlt.trans (hnext group hgroup)

end

omit [VenueMarketUpdate MarketKind] in
theorem timeExchange_of_stamp {event : SourceEvent MarketKind Other} {time : DateTime}
    (h : stamp event = some time) : Shown.timeExchange (.source event) = some time := by
  cases event with
  | market event => exact h
  | marketReconnecting exchange => cases h
  | account stamp event => cases h
  | auxiliary stamp event => exact h

namespace SimCore

variable {core : SimCore MarketKind Other} {count : ℕ} {time : DateTime}

theorem Quiet.reached {after_ : SimCore MarketKind Other} (h : core.Quiet after_)
    (hreached : Reached core.history time) : Reached after_.history time := by
  obtain ⟨⟨more, hhistory, hvenues⟩, -⟩ := h
  have hnil : more.flatMap Happening.taken = [] := by
    rw [List.flatMap_eq_nil_iff]
    intro happening hmem
    have hisVenues := hvenues happening hmem
    cases happening with
    | drained exchange request action => rfl
    | gave exchange request input events response => rfl
    | popped entry => cases hisVenues
    | drew event => cases hisVenues
    | showed event => cases hisVenues
    | refused entry => cases hisVenues
    | abandoned => cases hisVenues
  unfold Reached
  rw [hhistory, List.flatMap_append, hnil, List.append_nil]
  exact hreached

theorem clock_shown (engine : Engine MarketKind Other) (event : Shown MarketKind Other) :
    core.clock ≤ (core.showTo engine event).clock ∧
      ∀ time ∈ event.timeExchange, time ≤ (core.showTo engine event).clock := by
  show core.clock ≤ HistoricalClock.process core.clock event ∧
    ∀ time ∈ event.timeExchange, time ≤ HistoricalClock.process core.clock event
  unfold HistoricalClock.process
  cases event.timeExchange with
  | none => exact ⟨le_rfl, fun _ h => (by cases h)⟩
  | some stamp =>
    refine ⟨le_max_left _ _, ?_⟩
    rintro _ ⟨⟩
    exact le_max_right _ _

variable [DateTimeRange] [Build] [RandomStream] [DecimalScale]

/-- What popping leaves as it was, and how far it moves the run on. -/
theorem pop_same : core.pop.Gives fun r => r.1.clock = core.clock ∧ r.1.deferred = core.deferred ∧
    r.1.seeding = core.seeding ∧ (r.2 = .empty → core.schedule.pending = []) ∧
    ∀ time, Reached core.history time → (∀ entry ∈ core.schedule.pending.head?,
      entry.time ≤ time) → Reached r.1.history time := by
  unfold pop
  split
  · rename_i hempty
    exact ⟨rfl, rfl, rfl, fun _ => hempty, fun _ hreached _ => hreached⟩
  · rename_i entry rest hpending
    have hpopped : ∀ time, Reached core.history time → (∀ entry ∈ core.schedule.pending.head?,
        entry.time ≤ time) → Reached (core.popped entry rest).history time := by
      intro time hreached hhead
      refine hreached.append ?_
      intro instant hinstant
      rw [List.mem_singleton.1 hinstant]
      exact hhead entry (by rw [hpending]; rfl)
    dsimp only
    split
    · apply act_quiet.bind
      rintro ⟨after_, woken⟩ hquiet
      have hdone : ∀ time, Reached core.history time →
          (∀ entry ∈ core.schedule.pending.head?, entry.time ≤ time) →
            Reached after_.history time :=
        fun time hreached hhead => hquiet.reached (hpopped time hreached hhead)
      obtain ⟨-, hdeferred, -, hclock, hseeding⟩ := hquiet
      dsimp only
      split
      · exact ⟨hclock, hdeferred, hseeding, (fun h => by cases h), hdone⟩
      · exact ⟨hclock, hdeferred, hseeding, (fun h => by cases h), hdone⟩
    · split
      · exact id
      · split
        · exact ⟨rfl, rfl, rfl, (fun h => by cases h), hpopped⟩
        · exact id

/-- How popping counts. -/
theorem pop_sinceSource : core.pop.Gives fun r =>
    r.1.sinceSource = Step.recount core.sinceSource r.2 := by
  have hcount : core.pop =
      core.pop.map fun r => (r.1.counting (Step.recount core.sinceSource r.2), r.2) :=
    pop_counting
  cases hpop : core.pop with
  | error fault => exact id
  | ok r =>
    rw [hpop] at hcount
    exact congrArg (fun r => r.1.sinceSource) (Except.ok.inj hcount)

end SimCore

/-! ## One turn -/

section

variable {source : Source (SourceEvent MarketKind Other)} {time : DateTime}
  {core : SimCore MarketKind Other} {batch : List (SourceEvent MarketKind Other)}
  {ahead : Instants MarketKind Other} {runner r : SimRunner MarketKind Other}
  {engine : Engine MarketKind Other}

/-- Where the stepper is in a step, and the runner over the whole source: in the same state, with
the same left to draw. Once the instant's events were all shown the clock is at the instant. -/
structure Matches (source : Source (SourceEvent MarketKind Other)) (time : DateTime)
    (core : SimCore MarketKind Other) (batch : List (SourceEvent MarketKind Other))
    (ahead : Instants MarketKind Other) (runner : SimRunner MarketKind Other) : Prop where
  core : ∃ count ≤ runner.core.sinceSource, core = runner.core.counting count
  source : ∀ index, source.next (runner.drawn + index) =
    (batch.map (fun event => (⟨event, time⟩ : Timed _)) ++ timeline ahead)[index]?
  going : runner.sourceDone = false
  live : runner.terminated = false
  stamped : ∀ event ∈ batch, stamp event = some time
  held : ∀ ordering event, runner.core.deferred = some (ordering, event) →
    ordering.1 = time ∧ stamp event = some time
  caught : runner.core.deferred = none → batch = [] → time ≤ runner.core.clock

variable [DateTimeRange] [Build] [RandomStream] [DecimalScale]

theorem pop_matches (h : Matches source time core batch ahead runner)
    (hr : runner.queueLeads engine = .ok r) (hlive : r.terminated = false)
    (hdue : ∃ entry ∈ runner.core.schedule.pending.head?, entry.time ≤ time) :
    ∃ core', SimStepper.popNext engine core batch (.instant time) = .ok (.continued core' batch) ∧
      Matches source time core' batch ahead r ∧
      ∀ later, time ≤ later → Reached runner.core.history later → Reached r.core.history later := by
  obtain ⟨count, hcount, rfl⟩ := h.core
  obtain ⟨entry, hhead, hentry⟩ := hdue
  unfold SimRunner.queueLeads at hr
  split at hr
  · cases hr
    cases hlive
  · rename_i hbudget
    obtain ⟨⟨after_, step⟩, hpop, hr⟩ := Except.bind_eq_ok.1 hr
    obtain ⟨hclock, hdeferred, -, hempty, hreached⟩ := SimCore.pop_same.result hpop
    have hspent := SimCore.pop_sinceSource.result hpop
    have hmono : SimCore.Step.recount count step ≤ after_.sinceSource := by
      rw [hspent]
      exact SimCore.Step.recount_mono hcount
    have hlater : ∀ later, time ≤ later → Reached runner.core.history later →
        Reached after_.history later := by
      intro later hle hbefore
      refine hreached later hbefore ?_
      intro first hfirst
      rw [Option.mem_unique hfirst hhead]
      exact hentry.trans hle
    have hpopped : (runner.core.counting count).pop =
        .ok (after_.counting (SimCore.Step.recount count step), step) := by
      rw [SimCore.pop_counting, hpop]
      rfl
    have hmatches : Matches source time (after_.counting (SimCore.Step.recount count step)) batch
        ahead { runner with core := after_ } := by
      refine ⟨⟨_, hmono, rfl⟩, h.source, h.going, h.live, h.stamped, ?_, ?_⟩
      · intro ordering event hevent
        exact h.held ordering event (hdeferred ▸ hevent)
      · intro hnone hbatch
        rw [show after_.clock = _ from hclock]
        exact h.caught (hdeferred ▸ hnone) hbatch
    unfold SimStepper.popNext
    rw [SimCore.checkFeedback_counting hcount hbudget]
    dsimp only
    rw [hpopped]
    match step with
    | .emitted event =>
      cases hr
      refine ⟨_, rfl, ?_, fun later hle hbefore =>
        SimCore.reached_shown (hlater later hle hbefore)⟩
      refine ⟨⟨_, hmono, rfl⟩, h.source, h.going, h.live, h.stamped, hmatches.held, ?_⟩
      intro hnone hbatch
      exact (hmatches.caught hnone hbatch).trans (SimCore.clock_shown engine event).1
    | .acted =>
      cases hr
      exact ⟨_, rfl, hmatches, hlater⟩
    | .woken =>
      cases hr
      exact ⟨_, rfl, hmatches, hlater⟩
    | .empty =>
      rw [hempty rfl] at hhead
      cases hhead

theorem draw_matches {event : SourceEvent MarketKind Other}
    (h : Matches source time core (event :: batch) ahead runner)
    (hr : runner.draw engine ⟨event, time⟩ = .ok r) :
    ∃ core', SimStepper.routeNext engine core batch time event = .ok (.continued core' batch) ∧
      Matches source time core' batch ahead r ∧
      ∀ later, time ≤ later → Reached runner.core.history later → Reached r.core.history later := by
  obtain ⟨count, hcount, rfl⟩ := h.core
  have hstamp : stamp event = some time := h.stamped event List.mem_cons_self
  have hstamped : ∀ event ∈ batch, stamp event = some time :=
    fun other hother => h.stamped other (List.mem_cons_of_mem _ hother)
  have hsource : ∀ index, source.next (runner.drawn + 1 + index) =
      (batch.map (fun event => (⟨event, time⟩ : Timed _)) ++ timeline ahead)[index]? := by
    intro index
    rw [Nat.add_assoc, Nat.add_comm 1 index]
    exact h.source (index + 1)
  obtain ⟨routed, hroute, hr⟩ := Except.bind_eq_ok.1 hr
  obtain ⟨after_, hquiet, hrouted⟩ := SimCore.routeSource_quiet.result hroute
  have hlater : ∀ later, time ≤ later → Reached runner.core.history later →
      Reached after_.history later := by
    intro later hle hbefore
    refine hquiet.reached (hbefore.append ?_)
    intro instant hinstant
    rw [List.mem_singleton.1 hinstant]
    exact hle
  have hsame : ((runner.core.counting count).record (.drew ⟨event, time⟩)).routeSource time event =
      .ok routed := hroute
  unfold SimStepper.routeNext
  rw [hsame]
  rcases hrouted with rfl | rfl
  · cases hr
    refine ⟨_, rfl, ⟨⟨_, le_rfl, rfl⟩, hsource, h.going, h.live, hstamped, ?_, ?_⟩, fun later hle hbefore =>
      SimCore.reached_shown (hlater later hle hbefore)⟩
    · intro ordering held hheld
      refine h.held ordering held ?_
      exact hquiet.2.1 ▸ hheld
    · intro _ _
      exact (SimCore.clock_shown engine (.source event)).2 time
        (timeExchange_of_stamp hstamp)
  · cases hr
    refine ⟨_, rfl, ⟨⟨_, le_rfl, rfl⟩, hsource, h.going, h.live, hstamped, ?_, ?_⟩, hlater⟩
    · rintro ordering held ⟨⟩
      exact ⟨rfl, hstamp⟩
    · exact fun hnone => (by cases hnone)

end

end Rustrade.Sim
