import Rustrade.Mock.Unheld
import Rustrade.Sim.Accounts
import Rustrade.Sim.Lookahead

/-!
# What a simulation loses, repeats or reorders

Nothing, in a run that never moves a venue to an instant from which what it returns is due before
something the venue returned earlier (`InStep`). The queue is in order of when entries come due,
and would show the later answer first.
-/

set_option autoImplicit false

namespace Rustrade.Sim

open Mock

variable {MarketKind Other : Type} [VenueMarketUpdate MarketKind]

namespace SimCore

variable {self : SimCore MarketKind Other} {taken : Option ScheduledEvent} {entry : ScheduledEvent}
  {exchange : ExchangeIndex} {slot : SimVenue} {time due : DateTime} {request : ℕ} {action : Action}

/-- What the venue returned earlier is due no later than what it returns at that instant. -/
def InStep (self : SimCore MarketKind Other) (exchange : ExchangeIndex) (instant : DateTime) :
    Prop :=
  self.schedule.InOrder exchange (instant + (self.venues exchange).fromVenue)

/-! ## The accounts of a core -/

/-- The accounts of what a core did. -/
abbrev Accounted (self : SimCore MarketKind Other) (taken : Option ScheduledEvent) : Prop :=
  Accounts self.history self.schedule taken

variable [DateTimeRange]

theorem drainVenue_accounted {requests : List ExecutionRequest} {drain : RequestDrain}
    (h : self.Accounted none) :
    (drainVenue exchange slot self drain requests).Gives fun r => r.1.Accounted none := by
  induction requests generalizing self drain with
  | nil => exact h
  | cons request requests ih =>
    apply checkedOffset_gives.bind
    intro arrives _
    match request with
    | .drain => exact ih h
    | .shutdown => exact ih h
    | .open request =>
      dsimp only
      split
      · exact id
      · rename_i request _
        have hwake : Action.open request ≠ .wake := fun h => (by cases h)
        exact ih (h.drained hwake arrives)
    | .cancel request =>
      dsimp only
      split
      · exact id
      · rename_i request _
        have hwake : Action.cancel request ≠ .wake := fun h => (by cases h)
        exact ih (h.drained hwake arrives)

theorem drainRequests_accounted (h : self.Accounted none) :
    self.drainRequests.Gives fun r => r.1.Accounted none := by
  refine Except.Ensures.foldlM (fun r : SimCore MarketKind Other × RequestDrain =>
    r.1.Accounted none) ?_ h _
  rintro ⟨core, drain⟩ exchange h
  exact drainVenue_accounted h

variable [Build] [RandomStream] [DecimalScale]

/-- The entry in hand is an action, and what its venue answers is due in order. -/
structure Acting (core : SimCore MarketKind Other) (entry : ScheduledEvent) (action : Action)
    (due : DateTime) : Prop where
  accounts : core.Accounted (some entry)
  payload : entry.payload = .act action
  inOrder : action ≠ .wake → core.schedule.InOrder entry.exchange due

omit [DateTimeRange] [Build] [RandomStream] [DecimalScale] in
theorem Acting.owes (h : self.Acting entry action due) (exchange : ExchangeIndex) :
    entry.owes? exchange = none := by
  unfold ScheduledEvent.owes?
  rw [h.payload]

omit [DateTimeRange] in
theorem advance_accounted (h : self.Acting entry action due)
    (horder : slot.venue.Returns (.advanceTime time) →
      self.schedule.InOrder entry.exchange due) :
    (self.advance entry.exchange slot time due).Gives fun r => r.1.Acting entry action due := by
  unfold advance
  apply orPanic_gives.bind
  rintro ⟨venue, events⟩ hadvanced
  have hnil := Schedule.Owes.nil entry.exchange h.accounts.sorted
  match events with
  | [] => exact ⟨h.accounts.moved hnil h.owes, h.payload, h.inOrder⟩
  | event :: events =>
    obtain ⟨howes, hlater⟩ := hnil.scheduleEvents
      (horder (SimulatedVenue.returns_of_advanceTime hadvanced (List.cons_ne_nil _ _)))
      (event :: events)
    exact ⟨h.accounts.moved howes h.owes, h.payload, fun _ => hlater⟩

omit [DateTimeRange] [Build] [RandomStream] [DecimalScale] in
theorem answer_accounted (h : self.Acting entry action due) (hwake : action ≠ .wake)
    {input : SimulatedVenue.Input} {venue : SimulatedVenue} {events : List Mock.AccountEvent}
    {response : Deliverable} (hasked : (Happening.asked input).isSome)
    (hanswers : response.answers? = some entry.seq)
    (hserved : entry.request?.toList = Happening.served
      (.gave entry.exchange (some entry.seq) input events (some response) :
        Happening MarketKind Other)) :
    (self.answer entry.exchange slot due entry.seq input venue events response).Accounted none := by
  have howes := Schedule.scheduleOutcome_owes h.accounts.sorted (h.inOrder hwake) events response
  have hgave : Accounts (self.history ++ [.gave entry.exchange (some entry.seq) input events
      (some response)]) (self.schedule.scheduleOutcome entry.exchange due events response)
      none := by
    refine h.accounts.gave howes (fun exchange => ⟨h.owes exchange, rfl⟩) ?_
      ⟨hasked, response, rfl, hanswers⟩
    show entry.request?.toList = _ ++ []
    rw [hserved, List.append_nil]
  exact hgave.arm _ _

theorem serve_accounted (h : self.Accounted (some entry)) (hpayload : entry.payload = .act action)
    (horder : action ≠ .wake ∨ slot.venue.Returns (.advanceTime time) →
      self.schedule.InOrder entry.exchange (time + slot.fromVenue)) :
    (self.serve entry.exchange slot time entry.seq action).Gives fun r => r.1.Accounted none := by
  unfold serve
  apply checkedOffset_gives.bind
  rintro _ rfl
  have hacting : self.Acting entry action (time + slot.fromVenue) :=
    ⟨h, hpayload, fun hwake => horder (.inl hwake)⟩
  apply (advance_accounted hacting fun hreturns => horder (.inr hreturns)).bind
  rintro ⟨core, venue⟩ hacting
  match action with
  | .open open_ =>
    apply orPanic_gives.bind
    rintro ⟨venue, events, response⟩ _
    refine answer_accounted hacting (fun h => (by cases h)) rfl rfl ?_
    unfold ScheduledEvent.request?
    rw [hpayload]
    rfl
  | .cancel cancel =>
    apply orPanic_gives.bind
    rintro ⟨venue, events, response⟩ _
    refine answer_accounted hacting (fun h => (by cases h)) rfl rfl ?_
    unfold ScheduledEvent.request?
    rw [hpayload]
    rfl
  | .wake => exact (hacting.accounts.woken hpayload).arm _ _

/-- An action at the queue's head moves its venue, which returns something. -/
def Acts (core : SimCore MarketKind Other) (entry : ScheduledEvent) (action : Action) : Prop :=
  entry.payload = .act action ∧ (action ≠ .wake ∨
    ((core.wakeups.take entry.exchange entry.time).2 = true ∧
      (core.venues entry.exchange).venue.Returns (.advanceTime entry.time)))

theorem act_accounted (h : self.Accounted (some entry)) (hpayload : entry.payload = .act action)
    (hstep : self.Acts entry action → self.InStep entry.exchange entry.time) :
    (self.act entry.exchange entry.time entry.seq action).Gives fun r => r.1.Accounted none := by
  unfold act slot?
  split
  · exact id
  · rename_i slot hslot
    have hvenue : slot = self.venues entry.exchange := by
      split at hslot
      · exact (Option.some.inj hslot).symm
      · cases hslot
    subst hvenue
    split
    · rename_i hwake
      dsimp only
      split
      · rename_i hlive
        refine serve_accounted h hpayload ?_
        rintro (hne | hreturns)
        · exact absurd hwake hne
        · exact hstep ⟨hpayload, .inr ⟨hlive, hreturns⟩⟩
      · exact h.woken (hwake ▸ hpayload)
    · rename_i hne
      exact serve_accounted h hpayload fun _ => hstep ⟨hpayload, .inl hne⟩

/-- What popping leaves in hand: an event for the engine, or nothing. -/
theorem pop_accounted (h : self.Accounted none)
    (hstep : ∀ entry ∈ self.schedule.pending.head?, ∀ action, self.Acts entry action →
      self.InStep entry.exchange entry.time) :
    self.pop.Gives fun r => match r.2 with
      | .emitted event => ∃ entry deliverable, event = .venue entry.exchange deliverable ∧
          entry.payload = .deliver deliverable ∧ r.1.Accounted (some entry)
      | .empty => r.1 = self ∧ self.schedule.pending = []
      | .acted | .woken => r.1.Accounted none := by
  unfold pop
  split
  · rename_i hempty
    exact ⟨rfl, hempty⟩
  · rename_i entry rest hpending
    have hpopped := h.popped hpending
    have horder : ∀ due, self.schedule.InOrder entry.exchange due →
        Schedule.InOrder { self.schedule with pending := rest } entry.exchange due := by
      intro due hbefore later hlater
      refine hbefore later ?_
      rw [hpending]
      exact List.mem_cons_of_mem _ hlater
    dsimp only
    split
    · rename_i action hpayload
      have hhead : entry ∈ self.schedule.pending.head? := by
        rw [hpending]
        rfl
      have hhand : SimCore.Accounted { self.record (.popped entry) with
          schedule := { self.schedule with pending := rest } } (some entry) := hpopped
      apply (act_accounted hhand hpayload
        fun hacts => horder _ (hstep entry hhead action hacts)).bind
      rintro ⟨core, woken⟩ hdone
      dsimp only
      split <;> exact hdone
    · rename_i deliverable hpayload
      split
      · exact id
      · split
        · exact ⟨entry, deliverable, rfl, hpayload, hpopped⟩
        · exact id

/-! ## The market, and the end -/

/-- What one venue was given, and what it returned queued: the others are as they were. -/
structure Gave (before_ : SimCore MarketKind Other) (exchange : ExchangeIndex)
    (after_ : SimCore MarketKind Other) : Prop where
  accounts : after_.Accounted none
  venues : ∀ other, other ≠ exchange → after_.venues other = before_.venues other
  inOrder : ∀ other due, other ≠ exchange → before_.schedule.InOrder other due →
    after_.schedule.InOrder other due

omit [DateTimeRange] [Build] [RandomStream] [DecimalScale] in
theorem gave_of_owes (h : self.Accounted none) {after_ : SimCore MarketKind Other}
    {input : SimulatedVenue.Input} {events : List Mock.AccountEvent}
    (howes : self.schedule.Owes exchange (events.map .account) after_.schedule)
    (hhistory : after_.history = self.history ++ [.gave exchange none input events none])
    (hvenues : ∀ other, other ≠ exchange → after_.venues other = self.venues other) :
    self.Gave exchange after_ := by
  refine ⟨?_, hvenues, howes.inOrder⟩
  show Accounts after_.history after_.schedule none
  rw [hhistory]
  exact h.moved howes fun _ => rfl

/-- A venue hears of a market event of an instrument it lists, and returns something. -/
def Hears (core : SimCore MarketKind Other) (exchange : ExchangeIndex)
    (event : MarketEvent InstrumentIndex MarketKind) (observation : MarketObservation) : Prop :=
  ∃ name, (core.venues exchange).indexer.findOwnInstrumentNameExchange event.instrument =
    some name ∧ (core.venues exchange).venue.Returns
      (.applyMarket name observation event.timeExchange)

theorem routeVenue_gave {event : MarketEvent InstrumentIndex MarketKind}
    {observation : MarketObservation} {ahead : Bool} (h : self.Accounted none)
    (hstep : self.Hears exchange event observation → self.InStep exchange event.timeExchange) :
    (routeVenue event observation self ahead exchange).Gives
      fun r => self.Gave exchange r.1 := by
  unfold routeVenue
  dsimp only
  split
  · exact ⟨h, fun _ _ => rfl, fun _ _ _ h => h⟩
  · rename_i name hname
    apply orPanic_gives.bind
    rintro ⟨venue, fills⟩ happlied
    have hothers : ∀ other, other ≠ exchange →
        (self.setVenue exchange { self.venues exchange with venue }).venues other =
          self.venues other := fun other hne => Function.update_of_ne hne _ _
    dsimp only
    split
    · rename_i hempty
      have howes := (Schedule.Owes.nil exchange h.sorted).arm self.wakeups
        ((self.setVenue exchange { self.venues exchange with venue }).venues exchange).venue
      cases List.isEmpty_iff.1 hempty
      refine gave_of_owes h ?_ rfl hothers
      exact howes
    · rename_i hfills
      have hne : fills ≠ [] := fun hnil => hfills (List.isEmpty_iff.2 hnil)
      have horder : self.InStep exchange event.timeExchange :=
        hstep ⟨name, hname, SimulatedVenue.returns_of_applyMarket happlied hne⟩
      have howes := (Schedule.Owes.nil exchange h.sorted).arm self.wakeups
        ((self.setVenue exchange { self.venues exchange with venue }).venues exchange).venue
      apply checkedOffset_gives.bind
      rintro _ rfl
      exact gave_of_owes h (howes.scheduleEvents (horder.arm h.sorted _ _) fills).1 rfl hothers

/-- What the venues are given of a market event. -/
def observation (core : SimCore MarketKind Other)
    (event : MarketEvent InstrumentIndex MarketKind) : MarketObservation :=
  let state := core.market event.instrument
  let next := VenueMarketUpdate.apply state event
  ⟨VenueMarketUpdate.snapshot next, VenueMarketUpdate.depth next,
    VenueMarketUpdate.bar state event, VenueMarketUpdate.fresh state event⟩

/-- The accounts while some venues have yet to be given what each is given. -/
structure Giving (before_ : SimCore MarketKind Other) (core : SimCore MarketKind Other)
    (rest : List ExchangeIndex) : Prop where
  accounts : core.Accounted none
  nodup : rest.Nodup
  venues : ∀ exchange ∈ rest, core.venues exchange = before_.venues exchange
  inOrder : ∀ exchange ∈ rest, ∀ due, before_.schedule.InOrder exchange due →
    core.schedule.InOrder exchange due

omit [DateTimeRange] [Build] [RandomStream] [DecimalScale] in
theorem Giving.init (h : self.Accounted none) : self.Giving self self.exchanges :=
  ⟨h, self.nodup, fun _ _ => rfl, fun _ _ _ h => h⟩

omit [DateTimeRange] [Build] [RandomStream] [DecimalScale] in
theorem Giving.next {core after_ : SimCore MarketKind Other} {rest : List ExchangeIndex}
    (h : self.Giving core (exchange :: rest)) (hgave : core.Gave exchange after_) :
    self.Giving after_ rest := by
  obtain ⟨hfirst, hnodup⟩ := List.nodup_cons.1 h.nodup
  have hne : ∀ other ∈ rest, other ≠ exchange := by
    rintro other hother rfl
    exact hfirst hother
  refine ⟨hgave.accounts, hnodup, ?_, ?_⟩
  · intro other hother
    rw [hgave.venues other (hne other hother)]
    exact h.venues other (List.mem_cons_of_mem _ hother)
  · intro other hother due hbefore
    exact hgave.inOrder other due (hne other hother)
      (h.inOrder other (List.mem_cons_of_mem _ hother) due hbefore)

theorem routeMarket_accounted {event : SourceEvent MarketKind Other} (h : self.Accounted none)
    (hstep : ∀ market, event = .market market → ∀ exchange ∈ self.exchanges,
      self.Hears exchange market (self.observation market) →
        self.InStep exchange market.timeExchange) :
    (self.routeMarket event).Gives fun r => r.1.Accounted none := by
  unfold routeMarket
  split
  · rename_i market
    refine (Except.Ensures.foldlM_rest (fun (r : SimCore MarketKind Other × Bool) rest =>
      self.Giving r.1 rest ∧ ∀ exchange ∈ rest, exchange ∈ self.exchanges) ?_
      ⟨⟨h, self.nodup, fun _ _ => rfl, fun _ _ _ h => h⟩, fun _ hexchange => hexchange⟩).mono
        fun r hr => hr.1.accounts
    rintro ⟨core, ahead⟩ exchange rest ⟨hgiving, hlisted⟩
    refine (routeVenue_gave hgiving.accounts ?_).mono fun r hgave =>
      ⟨hgiving.next hgave, fun other hother => hlisted other (List.mem_cons_of_mem _ hother)⟩
    intro hhears
    unfold Hears at hhears
    unfold InStep
    rw [hgiving.venues exchange List.mem_cons_self] at hhears ⊢
    exact hgiving.inOrder exchange List.mem_cons_self _
      (hstep market rfl exchange (hlisted exchange List.mem_cons_self) hhears)
  · exact h

theorem routeSource_accounted {event : SourceEvent MarketKind Other} (h : self.Accounted none)
    (hstep : ∀ market, event = .market market → ∀ exchange ∈ self.exchanges,
      self.Hears exchange market (self.observation market) →
        self.InStep exchange market.timeExchange) :
    (self.routeSource time event).Gives fun r => r.1.Accounted none := by
  unfold routeSource
  have hreset : SimCore.Accounted { self with sinceSource := 0 } none := h
  apply (routeMarket_accounted hreset hstep).bind
  rintro ⟨core, ahead⟩ hrouted
  dsimp only
  split <;> exact hrouted

omit [RandomStream] [DecimalScale] in
theorem expireVenue_gave {scheduled : Bool} (h : self.Accounted none)
    (hnone : self.schedule.InOrder exchange (max self.clock (self.venues exchange).venue.timeExchange + (self.venues exchange).fromVenue)) :
    (expireVenue self scheduled exchange).Gives fun r => self.Gave exchange r.1 ∧
      (r.2 = false → scheduled = false ∧ r.1.schedule = self.schedule ∧
        (r.1.venues exchange).venue.account.ordersOpen.Unheld) := by
  unfold expireVenue
  apply orPanic_gives.bind
  rintro ⟨venue, events⟩ hexpired
  have hothers : ∀ other, other ≠ exchange →
      (self.setVenue exchange { self.venues exchange with venue }).venues other =
        self.venues other := fun other hne => Function.update_of_ne hne _ _
  have hnil := Schedule.Owes.nil exchange h.sorted
  dsimp only
  split
  · rename_i hempty
    cases List.isEmpty_iff.1 hempty
    refine ⟨?_, ?_⟩
    · refine gave_of_owes h ?_ rfl hothers
      exact hnil
    · intro hscheduled
      refine ⟨hscheduled, rfl, ?_⟩
      have hsame : (self.setVenue exchange { self.venues exchange with venue }).venues exchange =
          { self.venues exchange with venue } := Function.update_self _ _ _
      show ((self.setVenue exchange
        { self.venues exchange with venue }).venues exchange).venue.account.ordersOpen.Unheld
      rw [hsame]
      exact SimulatedVenue.expireHeld_eq_nil hexpired
  · apply checkedOffset_gives.bind
    rintro _ rfl
    refine ⟨?_, fun hscheduled => (by cases hscheduled)⟩
    exact gave_of_owes h (hnil.scheduleEvents hnone events).1 rfl hothers

omit [RandomStream] [DecimalScale] in
/-- Once the queue is empty the venues retire what they hold, and nothing is held if that queues
nothing. -/
theorem expireHeld_accounted (h : self.Accounted none) (hempty : self.schedule.pending = []) :
    self.expireHeld.Gives fun r => r.1.Accounted none ∧ (r.2 = false →
      r.1.schedule.pending = [] ∧
        ∀ exchange ∈ self.exchanges, (r.1.venues exchange).venue.account.ordersOpen.Unheld) := by
  have hinOrder : ∀ exchange due, self.schedule.InOrder exchange due := by
    intro exchange due entry hentry
    rw [hempty] at hentry
    cases hentry
  refine (Except.Ensures.foldlM_rest (fun (r : SimCore MarketKind Other × Bool) rest =>
    self.Giving r.1 rest ∧ (r.2 = false → r.1.schedule = self.schedule ∧
      ∀ exchange ∈ self.exchanges, exchange ∈ rest ∨
        (r.1.venues exchange).venue.account.ordersOpen.Unheld)) ?_
    ⟨Giving.init h, fun _ => ⟨rfl, fun exchange hexchange => .inl hexchange⟩⟩).mono ?_
  · intro ⟨core, scheduled⟩ exchange rest ⟨hgiving, hquiet⟩
    have horder := hgiving.inOrder exchange List.mem_cons_self _ (hinOrder exchange
      (max core.clock (core.venues exchange).venue.timeExchange +
        (core.venues exchange).fromVenue))
    refine (expireVenue_gave hgiving.accounts horder).mono fun r ⟨hgave, hlast⟩ =>
      ⟨hgiving.next hgave, ?_⟩
    intro hnone
    obtain ⟨hscheduled, hschedule, hunheld⟩ := hlast hnone
    obtain ⟨hsame, hunhelds⟩ := hquiet hscheduled
    refine ⟨hschedule.trans hsame, ?_⟩
    intro other hother
    by_cases heq : other = exchange
    · subst heq
      exact .inr hunheld
    · rw [hgave.venues other heq]
      rcases hunhelds other hother with hrest | hdone
      · rcases List.mem_cons.1 hrest with hfirst | hrest
        · exact absurd hfirst heq
        · exact .inl hrest
      · exact .inr hdone
  · intro r ⟨hgiving, hquiet⟩
    refine ⟨hgiving.accounts, ?_⟩
    intro hnone
    obtain ⟨hsame, hunhelds⟩ := hquiet hnone
    refine ⟨by rw [hsame, hempty], ?_⟩
    intro exchange hexchange
    exact (hunhelds exchange hexchange).resolve_left List.not_mem_nil

/-! ## Source events -/

omit [DateTimeRange] [Build] [RandomStream] [DecimalScale]

/-- No source event was shown or held back. -/
structure SameSource (core after_ : SimCore MarketKind Other) : Prop where
  sourced : after_.history.flatMap Happening.sourced = core.history.flatMap Happening.sourced
  deferred : after_.deferred = core.deferred
  exchanges : after_.exchanges = core.exchanges

theorem Quiet.sameSource {core : SimCore MarketKind Other} (h : self.Quiet core) :
    self.SameSource core := by
  obtain ⟨⟨more, hhistory, hvenues⟩, hdeferred, hexchanges, -⟩ := h
  have hnil : more.flatMap Happening.sourced = [] := by
    rw [List.flatMap_eq_nil_iff]
    intro happening hmem
    have hisVenues := hvenues happening hmem
    cases happening with
    | drained exchange request action => rfl
    | gave exchange request input events response => rfl
    | popped entry => cases hisVenues
    | drew event => cases hisVenues
    | showed event => cases hisVenues
    | refused entry => cases hisVenues
    | abandoned => cases hisVenues
  refine ⟨?_, hdeferred, hexchanges⟩
  rw [hhistory, List.flatMap_append, hnil, List.append_nil]

theorem SameSource.trans {core after_ : SimCore MarketKind Other} (h : self.SameSource core)
    (hafter : core.SameSource after_) : self.SameSource after_ :=
  ⟨hafter.sourced.trans h.sourced, hafter.deferred.trans h.deferred,
    hafter.exchanges.trans h.exchanges⟩

theorem pop_sameSource [DateTimeRange] [Build] [RandomStream] [DecimalScale] :
    self.pop.Gives fun r => self.SameSource r.1 := by
  unfold pop
  split
  · exact ⟨rfl, rfl, rfl⟩
  · rename_i entry rest hpending
    have hpopped : self.SameSource { self.record (.popped entry) with
        schedule := { self.schedule with pending := rest } } :=
      ⟨Accounts.flatMap_same rfl, rfl, rfl⟩
    dsimp only
    split
    · apply act_quiet.bind
      rintro ⟨core, woken⟩ hquiet
      have hdone := hpopped.trans hquiet.sameSource
      dsimp only
      split
      · exact ⟨hdone.sourced, hdone.deferred, hdone.exchanges⟩
      · exact hdone
    · split
      · exact id
      · split
        · exact ⟨hpopped.sourced, hpopped.deferred, hpopped.exchanges⟩
        · exact id

end SimCore

/-! ## Runs -/

/-- The source's first events. -/
def Source.take {Event : Type} (source : Source Event) (count : ℕ) : List (Timed Event) :=
  (List.range count).filterMap source.next

theorem Source.take_succ {Event : Type} {source : Source Event} {count : ℕ} {event : Timed Event}
    (h : source.next count = some event) : source.take (count + 1) = source.take count ++ [event] := by
  unfold take
  rw [List.range_succ, List.filterMap_append, List.filterMap_cons_some h, List.filterMap_nil]

namespace SimRunner

variable [DateTimeRange] [Build] [RandomStream] [DecimalScale]

section

variable (self : SimRunner MarketKind Other) (source : Source (SourceEvent MarketKind Other))

/-- The action at the queue's head, if its venue returns anything, keeps the venue in step. -/
def PopsInStep : Prop :=
  ∀ entry ∈ self.core.schedule.pending.head?, ∀ action, self.core.Acts entry action →
    self.core.InStep entry.exchange entry.time

/-- A market event keeps each venue that returns anything for it in step. -/
def HearsInStep (event : SourceEvent MarketKind Other) : Prop :=
  ∀ market, event = .market market → ∀ exchange ∈ self.core.exchanges,
    self.core.Hears exchange market (self.core.observation market) →
      self.core.InStep exchange market.timeExchange

/-- Whichever of the two the turn of the loop does. -/
def TurnInStep : Prop :=
  match self.core.takeDeferred with
  | some _ => True
  | none =>
    if self.core.deferred.isSome then self.PopsInStep
    else if self.sourceDone then self.drainSignalled = true → self.PopsInStep
    else match source.next self.drawn with
      | none => True
      | some timed =>
        if self.core.leads (timed.time, sourceClass timed.value) then self.PopsInStep
        else self.HearsInStep timed.value

/-- A step keeps the venues in step: whatever one returns is due no earlier than what it returned
before. -/
def InStep : Prop :=
  self.terminated = false → self.core.seeding = [] → ∀ core,
    self.core.drainRequests = .ok (core, .continue) → TurnInStep { self with core } source

end

/-- The runner was not shut down by the engine, nor by the feedback limit. -/
def Whole (history : List (Happening MarketKind Other)) : Prop :=
  ∀ happening ∈ history, happening.cutsShort = false

/-- The accounts of a run. -/
structure Accounted (source : Source (SourceEvent MarketKind Other))
    (runner : SimRunner MarketKind Other) : Prop where
  accounts : runner.core.Accounted none
  sourced : runner.core.history.flatMap Happening.sourced ++
    (runner.core.deferred.map Prod.snd).toList = (source.take runner.drawn).map Timed.value
  done : runner.sourceDone = true → source.next runner.drawn = none
  ended : runner.terminated = true → runner.sourceDone = true ∧
    runner.core.schedule.pending = [] ∧ runner.core.deferred = none ∧
    ∀ exchange ∈ runner.core.exchanges,
      (runner.core.venues exchange).venue.account.ordersOpen.Unheld

variable {self : SimRunner MarketKind Other} {engine : Engine MarketKind Other}
  {source : Source (SourceEvent MarketKind Other)}

omit [DateTimeRange] [Build] [RandomStream] [DecimalScale] in
theorem Accounted.same (h : self.Accounted source) {r : SimRunner MarketKind Other}
    (haccounts : r.core.Accounted none) (hsame : self.core.SameSource r.core)
    (hdrawn : r.drawn = self.drawn) (hdone : r.sourceDone = self.sourceDone)
    (hlive : r.terminated = false) : r.Accounted source := by
  refine ⟨haccounts, ?_, ?_, ?_⟩
  · rw [hsame.sourced, hsame.deferred, hdrawn]
    exact h.sourced
  · rw [hdone, hdrawn]
    exact h.done
  · exact fun hterminated => (by cases hterminated.symm.trans hlive)

omit [DateTimeRange] [Build] [RandomStream] [DecimalScale] in
/-- What is shown that is neither a source event nor a venue's. -/
theorem Accounted.ready (h : self.Accounted source) (hlive : self.terminated = false)
    {event : Shown MarketKind Other}
    (haside : (.showed event : Happening MarketKind Other).isAside = true)
    (hsourced : Happening.sourced (.showed event : Happening MarketKind Other) = []) :
    (self.ready engine event).Accounted source :=
  h.same (h.accounts.aside haside) ⟨Accounts.flatMap_same hsourced, rfl, rfl⟩ rfl rfl hlive

theorem queueLeads_accounted (h : self.Accounted source) (hlive : self.terminated = false)
    (hstep : self.PopsInStep) (hlast : self.core.schedule.pending = [] →
      self.core.deferred = none ∧ self.sourceDone = true) :
    (self.queueLeads engine).Gives fun r => Whole r.core.history → r.Accounted source := by
  unfold queueLeads
  split
  · rename_i next _
    intro hwhole
    have hcut := hwhole (.refused next) (List.mem_append_right _ (List.mem_singleton_self _))
    cases hcut
  · apply ((SimCore.pop_accounted h.accounts hstep).and SimCore.pop_sameSource).bind
    rintro ⟨core, step⟩ ⟨hpopped, hsame⟩
    match step with
    | .emitted event =>
      obtain ⟨entry, deliverable, rfl, hpayload, hhand⟩ := hpopped
      intro _
      refine h.same (hhand.showed hpayload) ?_ rfl rfl hlive
      exact ⟨(Accounts.flatMap_same rfl).trans hsame.sourced, hsame.deferred, hsame.exchanges⟩
    | .acted => exact fun _ => h.same hpopped hsame rfl rfl hlive
    | .woken => exact fun _ => h.same hpopped hsame rfl rfl hlive
    | .empty =>
      obtain ⟨rfl, hempty⟩ := hpopped
      apply ((SimCore.expireHeld_accounted h.accounts hempty).and
        SimCore.expireHeld_quiet).bind
      rintro ⟨core, scheduled⟩ ⟨⟨haccounts, hquiet⟩, hvenues⟩
      have hsame := hvenues.sameSource
      obtain ⟨hdeferred, hdone⟩ := hlast hempty
      dsimp only
      split
      · exact fun _ => h.same haccounts hsame rfl rfl hlive
      · rename_i hscheduled
        obtain ⟨hpending, hunheld⟩ := hquiet (Bool.eq_false_iff.2 hscheduled)
        intro _
        refine ⟨haccounts, ?_, h.done, fun _ => ⟨hdone, hpending, ?_, ?_⟩⟩
        · show core.history.flatMap _ ++ (core.deferred.map Prod.snd).toList = _
          rw [hsame.sourced, hsame.deferred]
          exact h.sourced
        · exact hsame.deferred.trans hdeferred
        · intro exchange hexchange
          exact hunheld exchange (hsame.exchanges ▸ hexchange)

theorem draw_accounted (h : self.Accounted source) (hlive : self.terminated = false)
    {timed : Timed (SourceEvent MarketKind Other)} (hnext : source.next self.drawn = some timed)
    (hdeferred : self.core.deferred = none) (hdone : self.sourceDone = false)
    (hstep : self.HearsInStep timed.value) :
    (self.draw engine timed).Gives fun r => r.Accounted source := by
  have hsourced := h.sourced
  rw [hdeferred] at hsourced
  have htake : source.take (self.drawn + 1) = source.take self.drawn ++ [timed] :=
    Source.take_succ hnext
  have hdrew : (self.core.record (.drew timed)).Accounted none := h.accounts.aside rfl
  have hsame : self.core.SameSource (self.core.record (.drew timed)) :=
    ⟨Accounts.flatMap_same rfl, rfl, rfl⟩
  unfold draw
  apply ((SimCore.routeSource_accounted hdrew hstep).and SimCore.routeSource_quiet).bind
  rintro _ ⟨haccounts, core, hquiet, rfl | rfl⟩
  · have hrouted := hsame.trans hquiet.sameSource
    refine ⟨haccounts.aside rfl, ?_, ?_, ?_⟩
    · show List.flatMap _ (core.history ++ [.showed (.source timed.value)]) ++
        (core.deferred.map Prod.snd).toList = (source.take (self.drawn + 1)).map Timed.value
      rw [List.flatMap_append, hrouted.sourced, hrouted.deferred, hdeferred, htake, List.map_append,
        ← hsourced]
      simp only [Option.map_none, Option.toList_none, List.append_nil]
      rfl
    · exact fun hsourceDone => (by cases hsourceDone.symm.trans hdone)
    · exact fun hterminated => (by cases hterminated.symm.trans hlive)
  · have hrouted := hsame.trans hquiet.sameSource
    refine ⟨haccounts, ?_, ?_, ?_⟩
    · show List.flatMap _ core.history ++ [timed.value] =
        (source.take (self.drawn + 1)).map Timed.value
      rw [hrouted.sourced, htake, List.map_append, ← hsourced]
      simp only [Option.map_none, Option.toList_none, List.append_nil]
      rfl
    · exact fun hsourceDone => (by cases hsourceDone.symm.trans hdone)
    · exact fun hterminated => (by cases hterminated.symm.trans hlive)

theorem turn_accounted (h : self.Accounted source) (hlive : self.terminated = false)
    (hstep : self.TurnInStep source) :
    (self.turn engine source).Gives fun r => Whole r.core.history → r.Accounted source := by
  unfold turn
  unfold TurnInStep at hstep
  split
  · rename_i core event htaken
    intro _
    have hdeferred : self.core.deferred.map Prod.snd = some event ∧
        core = { self.core with deferred := none } := by
      unfold SimCore.takeDeferred at htaken
      split at htaken
      · cases htaken
      · rename_i hdeferred
        split at htaken
        · cases htaken
        · cases htaken
          rw [hdeferred]
          exact ⟨rfl, rfl⟩
    obtain ⟨hevent, rfl⟩ := hdeferred
    have hsourced := h.sourced
    rw [hevent] at hsourced
    refine ⟨h.accounts.aside rfl, ?_, h.done, ?_⟩
    · show List.flatMap _ (self.core.history ++ [.showed (.source event)]) ++ [] = _
      rw [List.append_nil, List.flatMap_append]
      exact hsourced
    · exact fun hterminated => (by cases hterminated.symm.trans hlive)
  · rename_i htaken
    rw [htaken] at hstep
    dsimp only at hstep
    split
    · rename_i hdeferred
      rw [if_pos hdeferred] at hstep
      refine queueLeads_accounted h hlive hstep ?_
      intro hempty
      -- What holds the event back is in the queue.
      obtain ⟨⟨ordering, event⟩, hevent⟩ := Option.isSome_iff_exists.1 hdeferred
      unfold SimCore.takeDeferred SimCore.leads at htaken
      rw [hevent, hempty] at htaken
      cases htaken
    · rename_i hdeferred
      rw [if_neg hdeferred] at hstep
      have hnone : self.core.deferred = none := Option.not_isSome_iff_eq_none.1 hdeferred
      split
      · rename_i hdone
        rw [if_pos hdone] at hstep
        split
        · rename_i hsignalled
          exact queueLeads_accounted h hlive (hstep hsignalled) fun _ => ⟨hnone, hdone⟩
        · intro _
          have hquiet : SimRunner.Accounted source { self with
              core := { self.core with sinceSource := 0 }, drainSignalled := true } :=
            h.same h.accounts ⟨rfl, rfl, rfl⟩ rfl rfl hlive
          exact hquiet.ready hlive rfl rfl
      · rename_i hdone
        rw [if_neg hdone] at hstep
        have hgoing : self.sourceDone = false := Bool.eq_false_iff.2 hdone
        split
        · rename_i hended
          intro _
          refine ⟨h.accounts, h.sourced, fun _ => hended, ?_⟩
          exact fun hterminated => (by cases hterminated.symm.trans hlive)
        · rename_i timed hnext
          rw [hnext] at hstep
          dsimp only at hstep
          split
          · rename_i hleads
            rw [if_pos hleads] at hstep
            refine queueLeads_accounted h hlive hstep ?_
            intro hempty
            unfold SimCore.leads at hleads
            rw [hempty] at hleads
            cases hleads
          · rename_i hleads
            rw [if_neg hleads] at hstep
            exact (draw_accounted h hlive hnext hnone hgoing hstep).mono fun r hr _ => hr

/-- A step keeps the accounts. -/
theorem step_accounted (h : self.Accounted source) (hstep : self.InStep source) :
    (self.step engine source).Gives fun r => Whole r.core.history → r.Accounted source := by
  unfold step
  split
  · exact fun _ => h
  · rename_i hterminated
    have hlive : self.terminated = false := Bool.eq_false_iff.2 hterminated
    split
    · rename_i exchange snapshot seeding hseeding
      intro _
      have hquiet : SimRunner.Accounted source { self with core := { self.core with seeding } } :=
        h.same h.accounts ⟨rfl, rfl, rfl⟩ rfl rfl hlive
      exact hquiet.ready hlive rfl rfl
    · rename_i hseeding
      apply ((SimCore.drainRequests_accounted h.accounts).and
        SimCore.drainRequests_quiet).eq.bind
      rintro ⟨core, drain⟩ ⟨⟨haccounts, hvenues⟩, hdrained⟩
      have hsame : SimRunner.Accounted source { self with core } :=
        h.same haccounts hvenues.sameSource rfl rfl hlive
      cases drain with
      | abandon =>
        intro hwhole
        have hcut := hwhole .abandoned (List.mem_append_right _ (List.mem_singleton_self _))
        cases hcut
      | «continue» => exact turn_accounted hsame hlive (hstep hlive hseeding core hdrained)

omit [DateTimeRange] [Build] [RandomStream] [DecimalScale] in
theorem new_accounted (exchanges : List ExchangeIndex) (nodup : exchanges.Nodup)
    (venues : ExchangeIndex → SimVenue) (clock : DateTime) (feedbackLimit : ℕ) :
    (new (.new exchanges nodup venues clock feedbackLimit : SimCore MarketKind Other)).Accounted
      source := by
  have harmed : ∀ (rest : List ExchangeIndex) (armed : Wakeups × Schedule),
      Accounts ([] : List (Happening MarketKind Other)) armed.2 none →
      Accounts ([] : List (Happening MarketKind Other)) (rest.foldl
        (fun armed exchange => armed.1.arm armed.2 exchange (venues exchange).venue)
        armed).2 none := by
    intro rest
    induction rest with
    | nil => exact fun _ h => h
    | cons exchange rest ih => exact fun armed h => ih _ (h.arm _ _)
  exact ⟨harmed exchanges _ (.nil Schedule.sorted_empty (fun _ => rfl) rfl), rfl,
    (fun hdone => (by cases hdone)), fun hterminated => (by cases hterminated)⟩

theorem steps_accounted {core : SimCore MarketKind Other} (hcore : (new core).Accounted source)
    {count : ℕ} {r : SimRunner MarketKind Other} (hr : (new core).steps engine source count = .ok r)
    (hstep : ∀ earlier before_, earlier < count →
      (new core).steps engine source earlier = .ok before_ → before_.InStep source)
    (hwhole : Whole r.core.history) : r.Accounted source := by
  induction count generalizing r with
  | zero =>
    cases hr
    exact hcore
  | succ count ih =>
    obtain ⟨mid, hmid, hlast⟩ := Except.bind_eq_ok.1 hr
    have hgrown := (step_history.result hlast).1
    have hmidWhole : Whole mid.core.history :=
      fun happening hmem => hwhole happening (hgrown.subset hmem)
    have hmidAccounted := ih hmid
      (fun earlier before_ hlt => hstep earlier before_ (Nat.lt_succ_of_lt hlt)) hmidWhole
    exact (step_accounted hmidAccounted (hstep count mid (Nat.lt_succ_self _) hmid)).result hlast
      hwhole

end SimRunner

/-- Nothing is lost, repeated or reordered. -/
structure Lossless (source : Source (SourceEvent MarketKind Other))
    (runner : SimRunner MarketKind Other) : Prop where
  /-- The source has ended, and each of its events was shown once, in order. -/
  sourced : ∃ count, source.next count = none ∧
    runner.core.history.flatMap Happening.sourced = (source.take count).map Timed.value
  /-- What a venue returned was shown once, in the order the venue returned it. -/
  delivered : ∀ exchange, runner.core.history.flatMap (Happening.delivered exchange) =
    runner.core.history.flatMap (Happening.returned exchange)
  /-- The requests acted on are those drained, each under a number of its own. -/
  served : (runner.core.history.flatMap Happening.served).Perm
    (runner.core.history.flatMap Happening.requested)
  numbered : (runner.core.history.flatMap Happening.requested).Pairwise fun a b => a.2.1 < b.2.1
  /-- Each request acted on was answered once. -/
  answered : ∀ exchange, (runner.core.history.flatMap (Happening.delivered exchange)).filterMap
      Deliverable.answers? =
    ((runner.core.history.flatMap Happening.served).filter fun request =>
      request.1 = exchange).map fun request => request.2.1
  /-- The answer was shown after every account event returned while serving the request. -/
  answeredLast : ∀ exchange request input events response,
    .gave exchange (some request) input events response ∈ runner.core.history →
      ∃ answer before_ after_, response = some answer ∧ answer.answers? = some request ∧
        runner.core.history.flatMap (Happening.delivered exchange) =
          before_ ++ events.map .account ++ answer :: after_
  pending : runner.core.schedule.pending = []
  deferred : runner.core.deferred = none
  unheld : ∀ exchange ∈ runner.core.exchanges,
    (runner.core.venues exchange).venue.account.ordersOpen.Unheld

namespace SimRunner

variable {source : Source (SourceEvent MarketKind Other)}

theorem Accounted.lossless {r : SimRunner MarketKind Other} (h : r.Accounted source)
    (hterminated : r.terminated = true) : Lossless source r := by
  obtain ⟨hdone, hpending, hdeferred, hunheld⟩ := h.ended hterminated
  have howed : ∀ exchange, r.core.schedule.owed exchange = [] := by
    intro exchange
    unfold Schedule.owed
    rw [hpending]
    rfl
  have hdelivered : ∀ exchange, r.core.history.flatMap (Happening.delivered exchange) =
      r.core.history.flatMap (Happening.returned exchange) := by
    intro exchange
    rw [h.accounts.returned exchange, howed]
    exact (List.append_nil _).symm
  have hsourced := h.sourced
  rw [hdeferred, Option.map_none, Option.toList_none, List.append_nil] at hsourced
  refine ⟨⟨r.drawn, h.done hdone, hsourced⟩, hdelivered, ?_, h.accounts.numbered, ?_, ?_,
    hpending, hdeferred, hunheld⟩
  · have hrequested := h.accounts.requested
    unfold Schedule.waiting at hrequested
    rw [hpending] at hrequested
    simp only [Option.bind_none, Option.toList_none, List.filterMap_nil, List.append_nil]
      at hrequested
    exact hrequested.symm
  · intro exchange
    rw [hdelivered exchange]
    exact h.accounts.answers_eq exchange
  · intro exchange request input events response hmem
    obtain ⟨-, answer, rfl, hanswers⟩ := h.accounts.answered _ hmem
    obtain ⟨earlier, later, hhistory⟩ := List.append_of_mem hmem
    refine ⟨answer, earlier.flatMap (Happening.returned exchange),
      later.flatMap (Happening.returned exchange), rfl, hanswers, ?_⟩
    have hreturned : Happening.returned exchange (.gave exchange (some request) input events
        (some answer) : Happening MarketKind Other) = events.map .account ++ [answer] :=
      if_pos rfl
    rw [hdelivered exchange, hhistory, List.flatMap_append, List.flatMap_cons, hreturned]
    simp only [List.append_assoc, List.cons_append, List.nil_append]

variable [DateTimeRange] [Build] [RandomStream] [DecimalScale]

/-- A run whose steps all keep the venues in step, and which is not ended before its time, loses,
repeats and reorders nothing. -/
theorem lossless_of_inStep {exchanges : List ExchangeIndex} {nodup : exchanges.Nodup}
    {venues : ExchangeIndex → SimVenue} {clock : DateTime} {feedbackLimit count : ℕ}
    {engine : Engine MarketKind Other} {r : SimRunner MarketKind Other}
    (hr : (new (.new exchanges nodup venues clock feedbackLimit)).steps engine source count = .ok r)
    (hstep : ∀ earlier before_, earlier < count →
      (new (.new exchanges nodup venues clock feedbackLimit)).steps engine source earlier =
        .ok before_ → before_.InStep source)
    (hwhole : Whole r.core.history) (hterminated : r.terminated = true) : Lossless source r :=
  (steps_accounted (new_accounted exchanges nodup venues clock feedbackLimit) hr hstep
    hwhole).lossless hterminated

end SimRunner

/-! Two events, and a venue that is one tick away and answers after ten. -/

theorem oneVenue_nodup : ([0] : List ExchangeIndex).Nodup := List.nodup_singleton 0

def laggingVenue : SimVenue where
  venue := .assemble
    { mockedExchange := ⟨"venue"⟩
      initialState := ⟨⟨"venue"⟩, [], []⟩
      feeModel := .zero
      fillModel := .lastPrice
      spotFeeAsset := .quote
      slippage := .none
      marketOrderTiming := .onArrival
      staleMarket := .off
      spotMargin := none
      feeAsset := none }
    ((∅ : BTreeMap InstrumentNameExchange VenueInstrument).insert ⟨"pair"⟩
      ⟨⟨"venue"⟩, ⟨⟨"base"⟩, ⟨"quote"⟩⟩, .spot, none⟩) .marketDriven
    ⟨(∅ : BTreeMap AssetNameExchange AssetBalance).insert ⟨"quote"⟩
      ⟨⟨"quote"⟩, ⟨100, 100, none⟩, 0⟩, .default, ∅, ∅, ∅, [], false, 0⟩ ∅ 0 ∅
  indexer := ⟨⟨fun _ => some ⟨"venue"⟩, fun _ => some ⟨"pair"⟩, fun error => error⟩, fun _ => true⟩
  requestRx := []
  toVenue := 1
  fromVenue := 10

/-- A bid for one at one. -/
def bid (cid : String) (timeInForce : TimeInForce) : Sim.ExecutionRequest :=
  .open ⟨⟨0, 0, ⟨"strategy"⟩, ⟨cid⟩⟩,
    { side := .buy, price := some 1, quantity := 1, kind := .limit, timeInForce
      positionId := none, reduceOnly := .no, market := none, marginEffect := none }⟩

/-- A bid on the first event, and another on its answer. -/
def bidder (first : TimeInForce) (second : Option TimeInForce) : Engine Unit Unit := fun shown _ _ =>
  match shown with
  | [.seeding _ _, .source _] => [bid "first" first]
  | [_, _, _, .venue _ (.openResponse _ _)] => second.toList.map (bid "second")
  | _ => []

section

variable [DateTimeRange] [Build] [RandomStream] [DecimalScale]

/-- So many steps of a bidder's run. -/
def bids (engine : Engine Unit Unit) (count : ℕ) : Except SimFault (SimRunner Unit Unit) :=
  (SimRunner.new (.new [0] oneVenue_nodup (fun _ => laggingVenue) 0 100)).steps engine
    (ticks 100 (by decide)) count

end

/-- The first bid expires while its answer is on its way. The second, sent on that answer, is acted
on before the expiry, and the balance it leaves is shown before the one the expiry gave back. -/
theorem earlier_expiry_shown_later :
    let _range : DateTimeRange := ⟨fun _ => true⟩
    let _build : Build := ⟨false⟩
    let _random : RandomStream := ⟨fun _ _ => 0, fun _ _ => by decide⟩
    let _scale : DecimalScale := ⟨fun _ => 0⟩
    ∃ r, bids (bidder (.goodTillDate 8) (some (.goodUntilCancelled false))) 15 = .ok r ∧
      r.terminated = true ∧ SimRunner.Whole r.core.history ∧
      ¬ Lossless (ticks 100 (by decide)) r := by
  intro _range _build _random _scale
  have hrun : (match bids (bidder (.goodTillDate 8) (some (.goodUntilCancelled false))) 15 with
      | .ok r => r.terminated && (r.core.history.all fun happening => !happening.cutsShort) &&
          decide (r.core.history.flatMap (Happening.delivered 0) ≠
            r.core.history.flatMap (Happening.returned 0))
      | .error _ => false) = true := by
    decide +kernel
  split at hrun
  · rename_i r hr
    rw [Bool.and_eq_true, Bool.and_eq_true, List.all_eq_true, decide_eq_true_eq] at hrun
    obtain ⟨⟨hterminated, hwhole⟩, hdelivered⟩ := hrun
    refine ⟨r, hr, hterminated, ?_, fun h => hdelivered (h.delivered 0)⟩
    intro happening hmem
    simpa using hwhole happening hmem
  · cases hrun

theorem ticks_not_market (time : DateTime) (h : 0 ≤ time) (index : ℕ)
    (timed : Timed (SourceEvent Unit Unit)) (hnext : (ticks time h).next index = some timed)
    (market : MarketEvent InstrumentIndex Unit) : timed.value ≠ .market market := by
  intro hmarket
  match index with
  | 0 =>
    cases hnext
    cases hmarket
  | 1 =>
    cases hnext
    cases hmarket
  | index + 2 => cases hnext

/-- Whether what is owed once the requests are drained is due no later than what the action at the
queue's head returns. -/
def SimRunner.isPrompt [DateTimeRange] (runner : SimRunner Unit Unit) : Bool :=
  match runner.core.drainRequests with
  | .ok (core, .continue) => core.schedule.pending.head?.all fun entry =>
      core.schedule.pending.all fun later =>
        !(later.owes? entry.exchange).isSome ||
          later.time ≤ entry.time + (core.venues entry.exchange).fromVenue
  | _ => true

section

variable [DateTimeRange] [Build] [RandomStream] [DecimalScale]

theorem SimRunner.InStep.of_isPrompt {runner : SimRunner Unit Unit}
    {source : Source (SourceEvent Unit Unit)} (h : runner.isPrompt = true)
    (hsource : ∀ index timed, source.next index = some timed →
      ∀ market, timed.value ≠ .market market) : runner.InStep source := by
  intro _ _ core hdrained
  have hpops : SimRunner.PopsInStep { runner with core } := by
    unfold SimRunner.isPrompt at h
    rw [hdrained] at h
    dsimp only at h
    intro entry hentry _ _ later hlater howes
    rw [Option.mem_def.1 hentry, Option.all_some, List.all_eq_true] at h
    have hlater := h later hlater
    rw [howes, Bool.not_true, Bool.false_or, decide_eq_true_eq] at hlater
    exact hlater
  unfold SimRunner.TurnInStep
  split
  · trivial
  · split
    · exact hpops
    · split
      · exact fun _ => hpops
      · split
        · trivial
        · rename_i timed hnext
          split
          · exact hpops
          · exact fun market hmarket => absurd hmarket (hsource _ timed hnext market)

end

/-- The first bid alone is answered in order. -/
theorem lossless_of_inStep_bid :
    let _range : DateTimeRange := ⟨fun _ => true⟩
    let _build : Build := ⟨false⟩
    let _random : RandomStream := ⟨fun _ _ => 0, fun _ _ => by decide⟩
    let _scale : DecimalScale := ⟨fun _ => 0⟩
    ∃ r, bids (bidder (.goodTillDate 50) none) 15 = .ok r ∧ Lossless (ticks 100 (by decide)) r ∧
      r.core.history.flatMap Happening.served ≠ [] := by
  intro _range _build _random _scale
  have hrun : (match bids (bidder (.goodTillDate 50) none) 15 with
      | .ok r => r.terminated && (r.core.history.all fun happening => !happening.cutsShort) &&
          decide (r.core.history.flatMap Happening.served ≠ [])
      | .error _ => false) = true := by
    decide +kernel
  have hprompt : ((List.range 15).all fun earlier =>
      match bids (bidder (.goodTillDate 50) none) earlier with
      | .ok r => r.isPrompt
      | .error _ => true) = true := by
    decide +kernel
  split at hrun
  · rename_i r hr
    rw [Bool.and_eq_true, Bool.and_eq_true, List.all_eq_true, decide_eq_true_eq] at hrun
    obtain ⟨⟨hterminated, hwhole⟩, hserved⟩ := hrun
    refine ⟨r, hr, SimRunner.lossless_of_inStep hr ?_ ?_ hterminated, hserved⟩
    · intro earlier before_ hlt hbefore
      have hearlier := List.all_eq_true.1 hprompt earlier (List.mem_range.2 hlt)
      rw [show bids (bidder (.goodTillDate 50) none) earlier = .ok before_ from hbefore] at hearlier
      exact .of_isPrompt hearlier (ticks_not_market 100 (by decide))
    · intro happening hmem
      simpa using hwhole happening hmem
  · cases hrun

end Rustrade.Sim
