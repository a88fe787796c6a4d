import Rustrade.Sim.Lossless

/-!
# A simulation's time

A run pops its queue and draws its source in the order of time as long as what it queues is due no
earlier than what it has reached: the requests, stamped from a clock that follows the exchange
stamps inside events and can lag behind the queue (`Timely`).
-/

set_option autoImplicit false

namespace Rustrade.Sim

open Mock

variable {MarketKind Other : Type}

namespace Happening

/-- The instant of a queue entry popped or a source event drawn. -/
def taken : Happening MarketKind Other → List DateTime
  | .popped entry => [entry.time]
  | .drew event => [event.time]
  | _ => []

/-- Whether a venue was given something. -/
def isGave : Happening MarketKind Other → Bool
  | .gave _ _ _ _ _ => true
  | _ => false

end Happening

/-- A request for a venue. -/
def ExecutionRequest.isOrder : ExecutionRequest → Bool
  | .open _ | .cancel _ => true
  | .shutdown | .drain => false

/-- Everything popped or drawn was due by `time`. -/
def Reached (history : List (Happening MarketKind Other)) (time : DateTime) : Prop :=
  ∀ instant ∈ history.flatMap Happening.taken, instant ≤ time

/-- A request with that number was drained no less than its venue's leg before `time`, by the
instant of everything that was popped or drawn before it was drained. -/
def Prompted (latency : ExchangeIndex → ℤ) (history : List (Happening MarketKind Other))
    (request : ℕ) (time : DateTime) : Prop :=
  ∀ before_ after_ exchange action,
    history = before_ ++ .drained exchange request action :: after_ →
      ∀ instant ∈ before_.flatMap Happening.taken, instant + latency exchange ≤ time

section

variable {history more : List (Happening MarketKind Other)} {time later : DateTime}
  {latency : ExchangeIndex → ℤ} {request : ℕ} {happening : Happening MarketKind Other}

theorem Reached.mono (h : Reached history time) (hle : time ≤ later) : Reached history later :=
  fun instant hinstant => (h instant hinstant).trans hle

theorem Reached.append (h : Reached history time) (hmore : ∀ instant ∈ happening.taken,
    instant ≤ time) : Reached (history ++ [happening]) time := by
  intro instant hinstant
  rw [List.flatMap_append, List.flatMap_singleton] at hinstant
  rcases List.mem_append.1 hinstant with hinstant | hinstant
  · exact h instant hinstant
  · exact hmore instant hinstant

/-- A request that was not drained was not drained late. -/
theorem Prompted.of_not_drained (h : ∀ exchange action, .drained exchange request action ∉ history) :
    Prompted latency history request time := by
  intro before_ after_ exchange action hhistory
  refine absurd ?_ (h exchange action)
  rw [hhistory]
  exact List.mem_append_right _ List.mem_cons_self

theorem Prompted.append (h : Prompted latency history request time)
    (hother : ∀ exchange action, happening ≠ .drained exchange request action) :
    Prompted latency (history ++ [happening]) request time := by
  intro before_ after_ exchange action hhistory
  rcases List.eq_nil_or_concat after_ with rfl | ⟨rest, last, rfl⟩
  · have hlast := List.append_inj_right' hhistory rfl
    exact absurd (List.singleton_inj.1 hlast) (hother exchange action)
  · rw [List.concat_eq_append, ← List.cons_append, ← List.append_assoc] at hhistory
    exact h before_ rest exchange action (List.append_inj_left' hhistory rfl)

/-- A request drained now. -/
theorem Prompted.drained {exchange : ExchangeIndex} {action : Action}
    (hnew : ∀ exchange action, .drained exchange request action ∉ history)
    (h : ∀ instant ∈ history.flatMap Happening.taken, instant + latency exchange ≤ time) :
    Prompted latency (history ++ [.drained exchange request action]) request time := by
  intro before_ after_ exchange' action' hhistory
  rcases List.eq_nil_or_concat after_ with rfl | ⟨rest, last, rfl⟩
  · have hlast := List.append_inj_right' hhistory rfl
    cases List.singleton_inj.1 hlast
    rw [← List.append_inj_left' hhistory rfl]
    exact h
  · rw [List.concat_eq_append, ← List.cons_append, ← List.append_assoc] at hhistory
    have hfirst := List.append_inj_left' hhistory rfl
    refine absurd ?_ (hnew exchange' action')
    rw [hfirst]
    exact List.mem_append_right _ List.mem_cons_self

theorem Prompted.gave (h : Prompted latency history request time)
    (hmore : ∀ happening ∈ more, Happening.isGave happening = true) :
    Prompted latency (history ++ more) request time := by
  induction more generalizing history with
  | nil =>
    rw [List.append_nil]
    exact h
  | cons happening rest ih =>
    rw [List.append_cons]
    refine ih (h.append ?_) fun other hother => hmore other (List.mem_cons_of_mem _ hother)
    rintro exchange action rfl
    cases hmore _ List.mem_cons_self

end

variable [VenueMarketUpdate MarketKind]

namespace SimCore

variable {self core after_ : SimCore MarketKind Other} {touched : List ExchangeIndex}
  {exchange : ExchangeIndex} {entry : ScheduledEvent} {time : DateTime}

/-- A wake-up at its venue's own next deadline. -/
def Waking (core : SimCore MarketKind Other) (entry : ScheduledEvent) : Prop :=
  entry.exchange ∈ core.exchanges ∧ core.wakeups.stopped = false ∧
    ∃ deadline, (core.venues entry.exchange).venue.nextDeadline = some deadline ∧
      entry.time = max deadline core.wakeups.floor

/-- What a core is once some venues were given something: what is new in the queue is due no
earlier than what was reached, or is a wake-up of one of those venues. -/
structure Follows (before_ : SimCore MarketKind Other) (touched : List ExchangeIndex)
    (after_ : SimCore MarketKind Other) : Prop where
  history : ∃ more, after_.history = before_.history ++ more ∧
    ∀ happening ∈ more, Happening.isGave happening = true
  sorted : after_.schedule.Sorted
  seq : before_.schedule.seq ≤ after_.schedule.seq
  entries : ∀ entry ∈ after_.schedule.pending, entry ∈ before_.schedule.pending ∨
    (before_.schedule.seq ≤ entry.seq ∧ (Reached before_.history entry.time ∨
      (entry.exchange ∈ touched ∧ after_.Waking entry)))
  venues : ∀ exchange, exchange ∉ touched → after_.venues exchange = before_.venues exchange
  toVenue : ∀ exchange, (after_.venues exchange).toVenue = (before_.venues exchange).toVenue
  fromVenue : ∀ exchange, (after_.venues exchange).fromVenue = (before_.venues exchange).fromVenue
  stopped : after_.wakeups.stopped = before_.wakeups.stopped
  floor : after_.wakeups.floor = before_.wakeups.floor
  clock : after_.clock = before_.clock
  exchanges : after_.exchanges = before_.exchanges
  deferred : after_.deferred = before_.deferred

theorem setVenue_self (slot : SimVenue) : (core.setVenue exchange slot).venues exchange = slot :=
  Function.update_self _ _ _

theorem setVenue_of_ne {other : ExchangeIndex} (hne : other ≠ exchange) (slot : SimVenue) :
    (core.setVenue exchange slot).venues other = core.venues other := Function.update_of_ne hne _ _

namespace Follows

theorem refl (h : self.schedule.Sorted) : self.Follows [] self :=
  ⟨⟨[], (List.append_nil _).symm, fun _ h => absurd h List.not_mem_nil⟩, h, le_rfl,
    fun _ hentry => .inl hentry, fun _ _ => rfl, fun _ => rfl, fun _ => rfl, rfl, rfl, rfl, rfl, rfl⟩

/-- A venue was given something. -/
theorem gave (h : self.Follows touched core) (exchange : ExchangeIndex) (request : Option ℕ)
    (input : SimulatedVenue.Input) (events : List Mock.AccountEvent)
    (response : Option Deliverable) :
    self.Follows touched (core.record (.gave exchange request input events response)) := by
  obtain ⟨more, hhistory, hgave⟩ := h.history
  refine ⟨⟨more ++ [.gave exchange request input events response], ?_, ?_⟩, h.sorted, h.seq,
    h.entries, h.venues, h.toVenue, h.fromVenue, h.stopped, h.floor, h.clock, h.exchanges,
    h.deferred⟩
  · show core.history ++ [_] = _
    rw [hhistory, List.append_assoc]
  · intro happening hmem
    rcases List.mem_append.1 hmem with hmem | hmem
    · exact hgave happening hmem
    · rw [List.mem_singleton.1 hmem]
      rfl

/-- An event it returned is queued. -/
theorem push (h : self.Follows touched core) (hdue : Reached self.history time)
    (deliverable : Deliverable) : self.Follows touched { core with
      schedule := core.schedule.push time CLASS_ACCOUNT exchange (.deliver deliverable) } where
  history := h.history
  sorted := h.sorted.push fun _ _ => rfl
  seq := h.seq.trans (Nat.le_succ _)
  entries entry hentry := by
    rcases Schedule.mem_push.1 hentry with rfl | hold
    · exact .inr ⟨h.seq, .inl hdue⟩
    · exact h.entries entry hold
  venues := h.venues
  toVenue := h.toVenue
  fromVenue := h.fromVenue
  stopped := h.stopped
  floor := h.floor
  clock := h.clock
  exchanges := h.exchanges
  deferred := h.deferred

theorem scheduleEvents (h : self.Follows touched core) (exchange : ExchangeIndex)
    (hdue : Reached self.history time)
    (events : List Mock.AccountEvent) : self.Follows touched { core with
      schedule := Schedule.scheduleEvents exchange time events core.schedule } := by
  induction events generalizing core with
  | nil => exact h
  | cons event events ih => exact ih (h.push hdue (.account event))

/-- The venue is kept as it was left. -/
theorem setVenue (h : self.Follows touched core) (hnew : exchange ∉ touched)
    (venue : SimulatedVenue) : self.Follows (exchange :: touched)
      (core.setVenue exchange { core.venues exchange with venue }) where
  history := h.history
  sorted := h.sorted
  seq := h.seq
  entries entry hentry := by
    rcases h.entries entry hentry with hold | ⟨hseq, hdue | ⟨htouched, hwaking⟩⟩
    · exact .inl hold
    · exact .inr ⟨hseq, .inl hdue⟩
    · have hne : entry.exchange ≠ exchange := by
        rintro rfl
        exact hnew htouched
      refine .inr ⟨hseq, .inr ⟨List.mem_cons_of_mem _ htouched, ?_⟩⟩
      unfold Waking
      rw [setVenue_of_ne hne]
      exact hwaking
  venues other hother := by
    obtain ⟨hne, hother⟩ := not_or.1 (mt List.mem_cons.2 hother)
    exact (setVenue_of_ne hne _).trans (h.venues other hother)
  toVenue other := by
    rw [← h.toVenue other]
    by_cases heq : other = exchange
    · subst heq
      exact (congrArg SimVenue.toVenue (setVenue_self _)).trans rfl
    · exact congrArg SimVenue.toVenue (setVenue_of_ne heq _)
  fromVenue other := by
    rw [← h.fromVenue other]
    by_cases heq : other = exchange
    · subst heq
      exact (congrArg SimVenue.fromVenue (setVenue_self _)).trans rfl
    · exact congrArg SimVenue.fromVenue (setVenue_of_ne heq _)
  stopped := h.stopped
  floor := h.floor
  clock := h.clock
  exchanges := h.exchanges
  deferred := h.deferred

/-- And its next deadline is queued. -/
theorem arm (h : self.Follows touched core) (htouched : exchange ∈ touched)
    (hlisted : exchange ∈ core.exchanges) : self.Follows touched (core.arm exchange) := by
  unfold SimCore.arm Wakeups.arm
  split
  · exact h
  · rename_i hgoing
    split
    · exact h
    · rename_i deadline hdeadline
      dsimp only
      split
      · exact h
      · refine ⟨h.history, h.sorted.push (fun _ hpayload => (by cases hpayload)),
          h.seq.trans (Nat.le_succ _), ?_, h.venues, h.toVenue, h.fromVenue, h.stopped, h.floor,
          h.clock, h.exchanges, h.deferred⟩
        intro entry hentry
        rcases Schedule.mem_push.1 hentry with rfl | hold
        · exact .inr ⟨h.seq, .inr ⟨htouched, hlisted, Bool.eq_false_iff.2 hgoing, deadline,
            hdeadline, rfl⟩⟩
        · exact h.entries entry hold

/-- A wake-up queued for a venue is no longer. -/
theorem take (h : self.Follows touched core) :
    self.Follows touched { core with wakeups := (core.wakeups.take exchange time).1 } := by
  unfold Wakeups.take
  split
  · exact ⟨h.history, h.sorted, h.seq, h.entries, h.venues, h.toVenue, h.fromVenue, h.stopped,
      h.floor, h.clock, h.exchanges, h.deferred⟩
  · exact h

/-- Another venue may have been given something. -/
theorem grow (h : self.Follows touched core) (exchange : ExchangeIndex) :
    self.Follows (exchange :: touched) core where
  history := h.history
  sorted := h.sorted
  seq := h.seq
  entries entry hentry := by
    rcases h.entries entry hentry with hold | ⟨hseq, hdue | ⟨htouched, hwaking⟩⟩
    · exact .inl hold
    · exact .inr ⟨hseq, .inl hdue⟩
    · exact .inr ⟨hseq, .inr ⟨List.mem_cons_of_mem _ htouched, hwaking⟩⟩
  venues other hother := h.venues other (mt (List.mem_cons_of_mem _) hother)
  toVenue := h.toVenue
  fromVenue := h.fromVenue
  stopped := h.stopped
  floor := h.floor
  clock := h.clock
  exchanges := h.exchanges
  deferred := h.deferred

end Follows

/-! ## What the driver does -/

variable [DateTimeRange] [Build] [RandomStream] [DecimalScale] {slot : SimVenue} {request : ℕ}
  {action : Action} {due : DateTime}

omit [DateTimeRange] in
theorem advance_follows (h : self.Follows touched core) (hdue : Reached self.history due) :
    (core.advance exchange slot time due).Gives fun r => self.Follows touched r.1 ∧
      r.1.venues = core.venues ∧ r.1.exchanges = core.exchanges := by
  unfold advance
  apply orPanic_gives.bind
  rintro ⟨venue, events⟩ _
  exact ⟨(h.gave _ _ _ _ _).scheduleEvents _ hdue events, rfl, rfl⟩

omit [DateTimeRange] [Build] [RandomStream] [DecimalScale] in
theorem answer_follows (h : self.Follows [] core) (hlisted : exchange ∈ core.exchanges)
    (hdue : Reached self.history due) {input : SimulatedVenue.Input} {venue : SimulatedVenue}
    {events : List Mock.AccountEvent} {response : Deliverable} :
    self.Follows [exchange] (core.answer exchange (core.venues exchange) due request input venue
      events response) := by
  have howed := (h.gave exchange (some request) input events (some response)).scheduleEvents
    exchange hdue events
  exact ((howed.push hdue response).setVenue List.not_mem_nil venue).arm List.mem_cons_self hlisted

theorem serve_follows (h : self.Follows [] core) (hlisted : exchange ∈ core.exchanges)
    (hdue : Reached self.history (time + (core.venues exchange).fromVenue)) :
    (core.serve exchange (core.venues exchange) time request action).Gives
      fun r => self.Follows [exchange] r.1 := by
  unfold serve
  apply checkedOffset_gives.bind
  rintro _ rfl
  apply (advance_follows h hdue).bind
  rintro ⟨after_, venue⟩ ⟨hadvanced, hvenues, hexchanges⟩
  have hvenue : after_.venues exchange = core.venues exchange := congrFun hvenues exchange
  have hafter : exchange ∈ after_.exchanges := by
    rw [hexchanges]
    exact hlisted
  rw [← hvenue] at hdue ⊢
  match action with
  | .open open_ =>
    apply orPanic_gives.bind
    rintro ⟨venue, events, response⟩ _
    exact answer_follows hadvanced hafter hdue
  | .cancel cancel =>
    apply orPanic_gives.bind
    rintro ⟨venue, events, response⟩ _
    exact answer_follows hadvanced hafter hdue
  | .wake => exact (hadvanced.setVenue List.not_mem_nil venue).arm List.mem_cons_self hafter

theorem act_follows (h : self.schedule.Sorted) (hdue : exchange ∈ self.exchanges →
      Reached self.history (time + (self.venues exchange).fromVenue)) :
    (self.act exchange time request action).Gives
      fun r => ∃ touched, self.Follows touched r.1 := by
  unfold act slot?
  split
  · exact id
  · rename_i slot hslot
    split at hslot
    · rename_i hlisted
      cases hslot
      split
      · dsimp only
        split
        · exact (serve_follows (Follows.refl h).take hlisted (hdue hlisted)).mono fun r hr => ⟨_, hr⟩
        · exact ⟨[], Follows.refl h⟩
      · exact (serve_follows (Follows.refl h) hlisted (hdue hlisted)).mono fun r hr => ⟨_, hr⟩
    · cases hslot

theorem routeVenue_follows {event : MarketEvent InstrumentIndex MarketKind}
    {observation : MarketObservation} {ahead : Bool} (h : self.Follows touched core)
    (hnew : exchange ∉ touched) (hlisted : exchange ∈ core.exchanges)
    (hdue : core.Hears exchange event observation →
      Reached self.history (event.timeExchange + (core.venues exchange).fromVenue)) :
    (routeVenue event observation core ahead exchange).Gives
      fun r => self.Follows (exchange :: touched) r.1 := by
  unfold routeVenue
  dsimp only
  split
  · exact h.grow exchange
  · rename_i name hname
    apply orPanic_gives.bind
    rintro ⟨venue, fills⟩ happlied
    have harmed := ((h.gave exchange none (.applyMarket name observation event.timeExchange) fills
      none).setVenue hnew venue).arm List.mem_cons_self hlisted
    dsimp only
    split
    · exact harmed
    · rename_i hfills
      have hne : fills ≠ [] := fun hnil => hfills (List.isEmpty_iff.2 hnil)
      have hreached := hdue ⟨name, hname, SimulatedVenue.returns_of_applyMarket happlied hne⟩
      apply checkedOffset_gives.bind
      rintro _ rfl
      exact harmed.scheduleEvents exchange hreached fills

theorem routeMarket_follows {event : SourceEvent MarketKind Other} (h : self.schedule.Sorted)
    (hdue : ∀ market, event = .market market → ∀ exchange ∈ self.exchanges,
      self.Hears exchange market (self.observation market) →
        Reached self.history (market.timeExchange + (self.venues exchange).fromVenue)) :
    (self.routeMarket event).Gives fun r => ∃ touched, self.Follows touched r.1 := by
  unfold routeMarket
  split
  · rename_i market
    refine (Except.Ensures.foldlM_rest (fun (r : SimCore MarketKind Other × Bool) rest =>
      ∃ touched, self.Follows touched r.1 ∧ rest.Nodup ∧ ∀ exchange ∈ rest,
        exchange ∉ touched ∧ exchange ∈ self.exchanges) ?_ ?_).mono
      fun r ⟨touched, hfollows, _⟩ => ⟨touched, hfollows⟩
    · intro ⟨core, ahead⟩ exchange rest ⟨touched, hfollows, hnodup, hrest⟩
      obtain ⟨hnew, hlisted⟩ := hrest exchange List.mem_cons_self
      obtain ⟨hfirst, hnodup⟩ := List.nodup_cons.1 hnodup
      have hvenue := hfollows.venues exchange hnew
      refine (routeVenue_follows hfollows hnew (hfollows.exchanges ▸ hlisted) ?_).mono
        fun r hr => ⟨exchange :: touched, hr, hnodup, ?_⟩
      · unfold Hears
        rw [hvenue]
        exact hdue market rfl exchange hlisted
      · intro other hother
        obtain ⟨hotherNew, hotherListed⟩ := hrest other (List.mem_cons_of_mem _ hother)
        refine ⟨?_, hotherListed⟩
        rintro (_ | ⟨_, htouched⟩)
        · exact hfirst hother
        · exact hotherNew htouched
    · have hrefl := Follows.refl h
      exact ⟨[], ⟨hrefl.history, h, le_rfl, hrefl.entries, fun _ _ => rfl, fun _ => rfl,
        fun _ => rfl, rfl, rfl, rfl, rfl, rfl⟩, self.nodup,
        fun exchange hexchange => ⟨List.not_mem_nil, hexchange⟩⟩
  · exact ⟨[], Follows.refl h⟩

theorem routeSource_follows {event : SourceEvent MarketKind Other} (h : self.schedule.Sorted)
    (hdue : ∀ market, event = .market market → ∀ exchange ∈ self.exchanges,
      self.Hears exchange market (self.observation market) →
        Reached self.history (market.timeExchange + (self.venues exchange).fromVenue)) :
    (self.routeSource time event).Gives fun r => ∃ touched core, self.Follows touched core ∧
      (r = (core, some event) ∨
        r = ({ core with deferred := some ((time, sourceClass event), event) }, none)) := by
  unfold routeSource
  have hsorted : SimCore.schedule { self with sinceSource := 0 } |>.Sorted := h
  apply (routeMarket_follows hsorted hdue).bind
  rintro ⟨core, ahead⟩ ⟨touched, hreset⟩
  have hfollows : self.Follows touched core := ⟨hreset.history, hreset.sorted, hreset.seq,
    hreset.entries, hreset.venues, hreset.toVenue, hreset.fromVenue, hreset.stopped, hreset.floor,
    hreset.clock, hreset.exchanges, hreset.deferred⟩
  dsimp only
  split
  · exact ⟨touched, core, hfollows, .inr rfl⟩
  · exact ⟨touched, core, hfollows, .inl rfl⟩

/-- What a venue still holds is retired at the engine's clock, or its own if that is later. -/
def expiresAt (core : SimCore MarketKind Other) (exchange : ExchangeIndex) : DateTime :=
  max core.clock (core.venues exchange).venue.timeExchange

theorem expireVenue_follows {scheduled : Bool} (h : self.Follows touched core)
    (hnew : exchange ∉ touched)
    (hdue : (core.venues exchange).venue.Returns (.expireHeld (core.expiresAt exchange)) →
      Reached self.history (core.expiresAt exchange + (core.venues exchange).fromVenue)) :
    (expireVenue core scheduled exchange).Gives
      fun r => self.Follows (exchange :: touched) r.1 := by
  unfold expireVenue
  apply orPanic_gives.bind
  rintro ⟨venue, events⟩ hexpired
  have hset := (h.gave exchange none (.expireHeld (core.expiresAt exchange)) events none).setVenue
    hnew venue
  dsimp only
  split
  · exact hset
  · rename_i hevents
    have hne : events ≠ [] := fun hnil => hevents (List.isEmpty_iff.2 hnil)
    have hreached := hdue (SimulatedVenue.returns_of_expireHeld hexpired hne)
    apply checkedOffset_gives.bind
    rintro _ rfl
    exact hset.scheduleEvents exchange hreached events

theorem expireHeld_follows (h : self.schedule.Sorted)
    (hdue : ∀ exchange ∈ self.exchanges,
      (self.venues exchange).venue.Returns (.expireHeld (self.expiresAt exchange)) →
        Reached self.history (self.expiresAt exchange + (self.venues exchange).fromVenue)) :
    self.expireHeld.Gives fun r => ∃ touched, self.Follows touched r.1 := by
  refine (Except.Ensures.foldlM_rest (fun (r : SimCore MarketKind Other × Bool) rest =>
    ∃ touched, self.Follows touched r.1 ∧ rest.Nodup ∧ ∀ exchange ∈ rest,
      exchange ∉ touched ∧ exchange ∈ self.exchanges) ?_
    ⟨[], Follows.refl h, self.nodup, fun exchange hexchange =>
      ⟨List.not_mem_nil, hexchange⟩⟩).mono fun r ⟨touched, hfollows, _⟩ => ⟨touched, hfollows⟩
  rintro ⟨core, scheduled⟩ exchange rest ⟨touched, hfollows, hnodup, hrest⟩
  obtain ⟨hnew, hlisted⟩ := hrest exchange List.mem_cons_self
  obtain ⟨hfirst, hnodup⟩ := List.nodup_cons.1 hnodup
  refine (expireVenue_follows hfollows hnew ?_).mono
    fun r hr => ⟨exchange :: touched, hr, hnodup, ?_⟩
  · have hvenue := hfollows.venues exchange hnew
    unfold expiresAt
    rw [hvenue, hfollows.clock]
    exact hdue exchange hlisted
  · intro other hother
    obtain ⟨hotherNew, hotherListed⟩ := hrest other (List.mem_cons_of_mem _ hother)
    refine ⟨?_, hotherListed⟩
    rintro (_ | ⟨_, htouched⟩)
    · exact hfirst hother
    · exact hotherNew htouched

/-! ## Onward -/

/-- What was reached is in order of time, and no request was acted on before its time. What is
queued is due later, save a wake-up its venue has just asked for. -/
structure Onward (latency : ExchangeIndex → ℤ) (core : SimCore MarketKind Other) : Prop where
  sorted : core.schedule.Sorted
  taken : (core.history.flatMap Happening.taken).Pairwise (· ≤ ·)
  due : ∀ entry ∈ core.schedule.pending, Reached core.history entry.time ∨ core.Waking entry
  drained : ∀ exchange request action, .drained exchange request action ∈ core.history →
    request < core.schedule.seq
  prompted : ∀ entry ∈ core.schedule.pending, Prompted latency core.history entry.seq entry.time
  popped : ∀ entry, .popped entry ∈ core.history →
    entry.seq < core.schedule.seq ∧ Prompted latency core.history entry.seq entry.time
  toVenue : ∀ exchange, (core.venues exchange).toVenue = latency exchange
  legs : ∀ exchange ∈ core.exchanges,
    0 ≤ latency exchange ∧ 0 ≤ (core.venues exchange).fromVenue

/-- All that is queued is due later. -/
def OnTime (core : SimCore MarketKind Other) : Prop :=
  ∀ entry ∈ core.schedule.pending, Reached core.history entry.time

omit [DateTimeRange] [Build] [RandomStream] [DecimalScale]

variable {latency : ExchangeIndex → ℤ}

theorem Follows.taken (h : self.Follows touched after_) :
    after_.history.flatMap Happening.taken = self.history.flatMap Happening.taken := by
  obtain ⟨more, hhistory, hgave⟩ := h.history
  have hnil : more.flatMap Happening.taken = [] := by
    rw [List.flatMap_eq_nil_iff]
    intro happening hmem
    have hisGave := hgave happening hmem
    cases happening with
    | gave exchange request input events response => rfl
    | popped entry => cases hisGave
    | drew event => cases hisGave
    | showed event => cases hisGave
    | drained exchange request action => cases hisGave
    | refused entry => cases hisGave
    | abandoned => cases hisGave
  rw [hhistory, List.flatMap_append, hnil, List.append_nil]

theorem Follows.reached (h : self.Follows touched after_) :
    Reached after_.history time ↔ Reached self.history time := by
  unfold Reached
  rw [h.taken]

/-- What a venue was given is nothing popped or drained. -/
theorem Follows.mem (h : self.Follows touched after_) {happening : Happening MarketKind Other}
    (hmem : happening ∈ after_.history) (hgave : happening.isGave = false) :
    happening ∈ self.history := by
  obtain ⟨more, hhistory, hmore⟩ := h.history
  rw [hhistory] at hmem
  rcases List.mem_append.1 hmem with hmem | hmem
  · exact hmem
  · rw [hmore happening hmem] at hgave
    cases hgave

theorem Follows.prompted (h : self.Follows touched after_)
    (hprompted : Prompted latency self.history request time) :
    Prompted latency after_.history request time := by
  obtain ⟨more, hhistory, hmore⟩ := h.history
  rw [hhistory]
  exact Prompted.gave hprompted hmore

/-- What the venues are given leaves a run that was on time onward. -/
theorem Onward.follows (h : self.Onward latency) (htime : self.OnTime)
    (hfollows : self.Follows touched after_) : after_.Onward latency := by
  have hdrained : ∀ exchange request action, .drained exchange request action ∈ after_.history →
      request < self.schedule.seq :=
    fun exchange request action hmem => h.drained exchange request action (hfollows.mem hmem rfl)
  refine ⟨hfollows.sorted, ?_, ?_, ?_, ?_, ?_, ?_, ?_⟩
  · rw [hfollows.taken]
    exact h.taken
  · intro entry hentry
    rw [hfollows.reached]
    rcases hfollows.entries entry hentry with hold | ⟨-, hdue | ⟨-, hwaking⟩⟩
    · exact .inl (htime entry hold)
    · exact .inl hdue
    · exact .inr hwaking
  · exact fun exchange request action hmem =>
      (hdrained exchange request action hmem).trans_le hfollows.seq
  · intro entry hentry
    rcases hfollows.entries entry hentry with hold | ⟨hseq, -⟩
    · exact hfollows.prompted (h.prompted entry hold)
    · refine Prompted.of_not_drained fun exchange action hmem => ?_
      exact absurd (hdrained exchange entry.seq action hmem) (not_lt.2 hseq)
  · intro entry hentry
    obtain ⟨hseq, hprompted⟩ := h.popped entry (hfollows.mem hentry rfl)
    exact ⟨hseq.trans_le hfollows.seq, hfollows.prompted hprompted⟩
  · intro exchange
    rw [hfollows.toVenue]
    exact h.toVenue exchange
  · intro exchange
    rw [hfollows.fromVenue, hfollows.exchanges]
    exact h.legs exchange

/-- The queue's earliest entry, popped. -/
def popped (self : SimCore MarketKind Other) (entry : ScheduledEvent)
    (rest : List ScheduledEvent) : SimCore MarketKind Other :=
  { self.record (.popped entry) with schedule := { self.schedule with pending := rest } }

/-- What is queued is due no earlier than its earliest entry. -/
theorem due_of_head (h : self.schedule.Sorted) {rest : List ScheduledEvent}
    (hpending : self.schedule.pending = entry :: rest) :
    ∀ later ∈ self.schedule.pending, entry.time ≤ later.time := by
  intro later hlater
  have hsorted := h.pairwise
  rw [hpending] at hsorted hlater
  rcases List.mem_cons.1 hlater with rfl | hlater
  · exact le_rfl
  · rcases ScheduledEvent.before_iff.1 (List.rel_of_pairwise_cons hsorted hlater) with hlt | ⟨heq, -⟩
    · exact hlt.le
    · exact heq.le

theorem Onward.pop (h : self.Onward latency) (htime : self.OnTime) {rest : List ScheduledEvent}
    (hpending : self.schedule.pending = entry :: rest) :
    (self.popped entry rest).Onward latency ∧ (self.popped entry rest).OnTime ∧
      Reached (self.popped entry rest).history entry.time := by
  have hhead : entry ∈ self.schedule.pending := by
    rw [hpending]
    exact List.mem_cons_self
  have hrest : ∀ later ∈ rest, later ∈ self.schedule.pending := by
    intro later hlater
    rw [hpending]
    exact List.mem_cons_of_mem _ hlater
  have hreached : ∀ later ∈ self.schedule.pending,
      Reached (self.history ++ [.popped entry]) later.time := by
    intro later hlater
    refine (htime later hlater).append ?_
    intro instant hinstant
    rw [List.mem_singleton.1 hinstant]
    exact due_of_head h.sorted hpending later hlater
  have hprompted : ∀ {later : ScheduledEvent},
      Prompted latency self.history later.seq later.time →
      Prompted latency (self.history ++ [.popped entry]) later.seq later.time :=
    fun hlater => hlater.append fun _ _ heq => (by cases heq)
  have hsorted := h.sorted.pairwise
  rw [hpending] at hsorted
  refine ⟨⟨⟨hsorted.tail, fun later hlater => h.sorted.fresh later (hrest later hlater),
    fun later hlater => h.sorted.account later (hrest later hlater)⟩, ?_, ?_, ?_, ?_, ?_, h.toVenue, h.legs⟩,
    fun later hlater => hreached later (hrest later hlater), hreached entry hhead⟩
  · show (List.flatMap _ (self.history ++ [.popped entry])).Pairwise _
    rw [List.flatMap_append, List.flatMap_singleton, List.pairwise_append]
    refine ⟨h.taken, List.pairwise_singleton _ _, ?_⟩
    intro instant hinstant last hlast
    rw [List.mem_singleton.1 hlast]
    exact htime entry hhead instant hinstant
  · exact fun later hlater => .inl (hreached later (hrest later hlater))
  · intro exchange request action hmem
    rcases List.mem_append.1 hmem with hmem | hmem
    · exact h.drained exchange request action hmem
    · cases List.mem_singleton.1 hmem
  · exact fun later hlater => hprompted (h.prompted later (hrest later hlater))
  · intro later hmem
    rcases List.mem_append.1 hmem with hmem | hmem
    · obtain ⟨hseq, hbefore⟩ := h.popped later hmem
      exact ⟨hseq, hprompted hbefore⟩
    · cases List.mem_singleton.1 hmem
      exact ⟨h.sorted.fresh entry hhead, hprompted (h.prompted entry hhead)⟩

/-- Something recorded that takes nothing and drains nothing. -/
theorem Onward.aside (h : self.Onward latency) {happening : Happening MarketKind Other}
    (htaken : happening.taken = []) (hdrained : ∀ exchange request action,
      happening ≠ .drained exchange request action)
    (hpopped : ∀ entry, happening ≠ .popped entry) : (self.record happening).Onward latency := by
  have hreached : ∀ {time : DateTime}, Reached self.history time →
      Reached (self.history ++ [happening]) time := by
    intro time hbefore
    refine hbefore.append ?_
    rw [htaken]
    exact fun instant hinstant => absurd hinstant List.not_mem_nil
  refine ⟨h.sorted, ?_, ?_, ?_, ?_, ?_, h.toVenue, h.legs⟩
  · show (List.flatMap _ (self.history ++ [happening])).Pairwise _
    rw [Accounts.flatMap_same htaken]
    exact h.taken
  · exact fun entry hentry => (h.due entry hentry).imp hreached id
  · intro exchange request action hmem
    rcases List.mem_append.1 hmem with hmem | hmem
    · exact h.drained exchange request action hmem
    · exact absurd (List.mem_singleton.1 hmem).symm (hdrained exchange request action)
  · exact fun entry hentry => (h.prompted entry hentry).append fun exchange action =>
      hdrained exchange entry.seq action
  · intro entry hmem
    rcases List.mem_append.1 hmem with hmem | hmem
    · obtain ⟨hseq, hprompted⟩ := h.popped entry hmem
      exact ⟨hseq, hprompted.append fun exchange action => hdrained exchange entry.seq action⟩
    · exact absurd (List.mem_singleton.1 hmem).symm (hpopped entry)

theorem Onward.drew (h : self.Onward latency) {timed : Timed (SourceEvent MarketKind Other)}
    (hreached : Reached self.history timed.time)
    (hlater : ∀ entry ∈ self.schedule.pending, timed.time ≤ entry.time) :
    (self.record (.drew timed)).Onward latency ∧ (self.record (.drew timed)).OnTime ∧
      Reached (self.record (.drew timed)).history timed.time := by
  have hnow : Reached (self.history ++ [.drew timed]) timed.time := by
    refine hreached.append ?_
    intro instant hinstant
    rw [List.mem_singleton.1 hinstant]
  refine ⟨⟨h.sorted, ?_, ?_, ?_, ?_, ?_, h.toVenue, h.legs⟩, ?_, hnow⟩
  · show (List.flatMap _ (self.history ++ [.drew timed])).Pairwise _
    rw [List.flatMap_append, List.flatMap_singleton, List.pairwise_append]
    refine ⟨h.taken, List.pairwise_singleton _ _, ?_⟩
    intro instant hinstant last hlast
    rw [List.mem_singleton.1 hlast]
    exact hreached instant hinstant
  · exact fun entry hentry => .inl (hnow.mono (hlater entry hentry))
  · intro exchange request action hmem
    rcases List.mem_append.1 hmem with hmem | hmem
    · exact h.drained exchange request action hmem
    · cases List.mem_singleton.1 hmem
  · exact fun entry hentry => (h.prompted entry hentry).append fun _ _ heq => (by cases heq)
  · intro entry hmem
    rcases List.mem_append.1 hmem with hmem | hmem
    · obtain ⟨hseq, hprompted⟩ := h.popped entry hmem
      exact ⟨hseq, hprompted.append fun _ _ heq => (by cases heq)⟩
    · cases List.mem_singleton.1 hmem
  · exact fun entry hentry => hnow.mono (hlater entry hentry)

/-- A request drained once the clock has caught up. -/
theorem Onward.queueRequest (h : self.Onward latency) (action : Action) (htime : self.OnTime)
    (hlegs : 0 ≤ latency exchange) (hclock : Reached self.history self.clock) :
    (self.queueRequest exchange (self.clock + latency exchange) action).Onward latency ∧
      (self.queueRequest exchange (self.clock + latency exchange) action).OnTime := by
  have hreached : ∀ {time : DateTime}, Reached self.history time →
      Reached (self.history ++ [.drained exchange self.schedule.seq action]) time :=
    fun hbefore => hbefore.append fun _ hinstant => absurd hinstant List.not_mem_nil
  have hlater : self.clock ≤ self.clock + latency exchange := le_add_of_nonneg_right hlegs
  have hprompted : ∀ {number : ℕ} {time : DateTime}, number < self.schedule.seq →
      Prompted latency self.history number time →
      Prompted latency (self.history ++ [.drained exchange self.schedule.seq action]) number
        time := by
    intro number time hlt hbefore
    refine hbefore.append ?_
    rintro exchange' action' heq
    cases heq
    exact absurd hlt (lt_irrefl _)
  have hontime : (self.queueRequest exchange (self.clock + latency exchange) action).OnTime := by
    intro entry hentry
    rcases Schedule.mem_push.1 hentry with rfl | hold
    · exact hreached (hclock.mono hlater)
    · exact hreached (htime entry hold)
  refine ⟨⟨h.sorted.push (fun _ hpayload => (by cases hpayload)), ?_,
    fun entry hentry => .inl (hontime entry hentry), ?_, ?_, ?_, h.toVenue, h.legs⟩, hontime⟩
  · show (List.flatMap _ (self.history ++ [_])).Pairwise _
    rw [Accounts.flatMap_same rfl]
    exact h.taken
  · intro exchange' request action' hmem
    rcases List.mem_append.1 hmem with hmem | hmem
    · exact (h.drained exchange' request action' hmem).trans (Nat.lt_succ_self _)
    · cases List.mem_singleton.1 hmem
      exact Nat.lt_succ_self _
  · intro entry hentry
    rcases Schedule.mem_push.1 hentry with rfl | hold
    · refine Prompted.drained ?_ ?_
      · intro exchange' action' hmem
        exact absurd (h.drained exchange' _ action' hmem) (lt_irrefl _)
      · exact fun instant hinstant => by
          have hbefore := hclock instant hinstant
          grind
    · exact hprompted (h.sorted.fresh entry hold) (h.prompted entry hold)
  · intro entry hmem
    rcases List.mem_append.1 hmem with hmem | hmem
    · obtain ⟨hseq, hbefore⟩ := h.popped entry hmem
      exact ⟨hseq.trans (Nat.lt_succ_self _), hprompted hseq hbefore⟩
    · cases List.mem_singleton.1 hmem

theorem Onward.clearRequests (h : self.Onward latency) (htime : self.OnTime) :
    (self.setVenue exchange { self.venues exchange with requestRx := [] }).Onward latency := by
  refine ⟨h.sorted, h.taken, fun entry hentry => .inl (htime entry hentry), h.drained, h.prompted,
    h.popped, ?_, ?_⟩
  · intro other
    by_cases heq : other = exchange
    · subst heq
      rw [setVenue_self]
      exact h.toVenue other
    · rw [setVenue_of_ne heq]
      exact h.toVenue other
  · intro other hlisted
    by_cases heq : other = exchange
    · subst heq
      rw [setVenue_self]
      exact h.legs other hlisted
    · rw [setVenue_of_ne heq]
      exact h.legs other hlisted

/-- What draining its requests leaves of a core that was on time. -/
structure Drained (latency : ExchangeIndex → ℤ) (before_ after_ : SimCore MarketKind Other) :
    Prop where
  onward : after_.Onward latency
  onTime : after_.OnTime
  clock : after_.clock = before_.clock
  reached : ∀ time, Reached before_.history time → Reached after_.history time
  venue : ∀ exchange, (after_.venues exchange).venue = (before_.venues exchange).venue
  wakeups : after_.wakeups = before_.wakeups

theorem drainVenue_onward [DateTimeRange] {requests : List ExecutionRequest} {drain : RequestDrain}
    (h : self.Drained latency core) (hslot : slot.toVenue = latency exchange)
    (hlegs : 0 ≤ latency exchange) (hclock : ∀ request ∈ requests, request.isOrder = true →
      Reached self.history self.clock) :
    (drainVenue exchange slot core drain requests).Gives fun r => self.Drained latency r.1 ∧
      r.1.venues = core.venues := by
  induction requests generalizing core drain with
  | nil => exact ⟨h, rfl⟩
  | cons request requests ih =>
    have hrest : ∀ request ∈ requests, request.isOrder = true → Reached self.history self.clock :=
      fun other hother => hclock other (List.mem_cons_of_mem _ hother)
    have hqueued : ∀ action, request.isOrder = true →
        self.Drained latency (core.queueRequest exchange (core.clock + latency exchange) action) := by
      intro action horder
      have hnow : Reached core.history core.clock := by
        rw [h.clock]
        exact h.reached _ (hclock request List.mem_cons_self horder)
      obtain ⟨honward, htime⟩ := h.onward.queueRequest action h.onTime hlegs hnow
      refine ⟨honward, htime, h.clock, ?_, h.venue, h.wakeups⟩
      exact fun time hbefore => (h.reached time hbefore).append
        fun _ hinstant => absurd hinstant List.not_mem_nil
    apply checkedOffset_gives.bind
    rintro _ rfl
    match request with
    | .drain => exact ih h hrest
    | .shutdown => exact ih h hrest
    | .open request =>
      dsimp only
      rw [hslot]
      split
      · exact id
      · exact ih (hqueued _ rfl) hrest
    | .cancel request =>
      dsimp only
      rw [hslot]
      split
      · exact id
      · exact ih (hqueued _ rfl) hrest

theorem drainRequests_onward [DateTimeRange] (h : self.Onward latency) (htime : self.OnTime)
    (hclock : ∀ exchange ∈ self.exchanges, ∀ request ∈ (self.venues exchange).requestRx,
      request.isOrder = true → Reached self.history self.clock) :
    self.drainRequests.Gives fun r => self.Drained latency r.1 := by
  refine (Except.Ensures.foldlM_rest (fun (r : SimCore MarketKind Other × RequestDrain) rest =>
    self.Drained latency r.1 ∧ rest.Nodup ∧ ∀ exchange ∈ rest,
      exchange ∈ self.exchanges ∧ r.1.venues exchange = self.venues exchange) ?_
    ⟨⟨h, htime, rfl, fun _ h => h, fun _ => rfl, rfl⟩, self.nodup,
      fun exchange hexchange => ⟨hexchange, rfl⟩⟩).mono fun r hr => hr.1
  rintro ⟨core, drain⟩ exchange rest ⟨hdrained, hnodup, hrest⟩
  obtain ⟨hlisted, hvenue⟩ := hrest exchange List.mem_cons_self
  obtain ⟨hfirst, hnodup⟩ := List.nodup_cons.1 hnodup
  have hcleared : self.Drained latency
      (core.setVenue exchange { core.venues exchange with requestRx := [] }) := by
    refine ⟨hdrained.onward.clearRequests hdrained.onTime, hdrained.onTime, hdrained.clock,
      hdrained.reached, ?_, hdrained.wakeups⟩
    intro other
    rw [← hdrained.venue other]
    by_cases heq : other = exchange
    · subst heq
      exact (congrArg SimVenue.venue (setVenue_self _)).trans rfl
    · exact congrArg SimVenue.venue (setVenue_of_ne heq _)
  refine (drainVenue_onward hcleared (hdrained.onward.toVenue exchange)
    (h.legs exchange hlisted).1 ?_).mono
    fun r ⟨hdone, hvenues⟩ => ⟨hdone, hnodup, ?_⟩
  · rw [hvenue]
    exact hclock exchange hlisted
  · intro other hother
    obtain ⟨hotherListed, hotherVenue⟩ := hrest other (List.mem_cons_of_mem _ hother)
    refine ⟨hotherListed, ?_⟩
    rw [hvenues, ← hotherVenue]
    refine Function.update_of_ne ?_ _ _
    rintro rfl
    exact hfirst hother

/-- The engine is shown an event. -/
theorem Onward.shown (h : self.Onward latency) (engine : Engine MarketKind Other)
    (event : Shown MarketKind Other) : (self.showTo engine event).Onward latency := by
  have hrecorded : (self.record (.showed event)).Onward latency :=
    h.aside rfl (fun _ _ _ heq => (by cases heq)) fun _ heq => (by cases heq)
  exact ⟨hrecorded.sorted, hrecorded.taken, hrecorded.due, hrecorded.drained, hrecorded.prompted,
    hrecorded.popped, h.toVenue, h.legs⟩

theorem reached_shown {engine : Engine MarketKind Other} {event : Shown MarketKind Other}
    (h : Reached self.history time) : Reached (self.showTo engine event).history time :=
  h.append fun _ hinstant => absurd hinstant List.not_mem_nil

theorem Onward.abandon (h : self.Onward latency) : self.abandon.Onward latency :=
  ⟨⟨List.Pairwise.nil, fun _ hentry => absurd hentry List.not_mem_nil,
    fun _ hentry => absurd hentry List.not_mem_nil⟩, h.taken,
    fun _ hentry => absurd hentry List.not_mem_nil, h.drained,
    fun _ hentry => absurd hentry List.not_mem_nil, h.popped, h.toVenue, h.legs⟩

theorem time_of_leads {ordering : Ordering} (h : self.leads ordering = true)
    (hhead : entry ∈ self.schedule.pending.head?) : entry.time ≤ ordering.1 := by
  unfold leads at h
  rw [Option.mem_def.1 hhead, Option.any_some] at h
  unfold dueBy ScheduledEvent.ordering at h
  simp only [Bool.or_eq_true, Bool.and_eq_true, decide_eq_true_eq] at h
  rcases h with hlt | ⟨heq, -⟩
  · exact hlt.le
  · exact heq.le

theorem not_leads_of_empty {ordering : Ordering} (h : self.schedule.pending = []) :
    ¬ self.leads ordering = true := by
  unfold leads
  rw [h]
  exact Bool.false_ne_true

/-- Popping an entry moves the run on to its instant. -/
theorem pop_onward [DateTimeRange] [Build] [RandomStream] [DecimalScale] (h : self.Onward latency)
    (htime : self.OnTime) : self.pop.Gives fun r => match r.2 with
      | .empty => r.1 = self ∧ self.schedule.pending = []
      | .emitted _ | .acted | .woken => r.1.Onward latency ∧
          ∃ entry ∈ self.schedule.pending.head?, ∀ time, Reached self.history time →
            entry.time ≤ time → Reached r.1.history time := by
  unfold pop
  split
  · rename_i hempty
    exact ⟨rfl, hempty⟩
  · rename_i entry rest hpending
    obtain ⟨honward, hontime, hnow⟩ := h.pop htime hpending
    have hhead : entry ∈ self.schedule.pending.head? := by
      rw [hpending]
      rfl
    have hreached : ∀ time, Reached self.history time → entry.time ≤ time →
        Reached (self.popped entry rest).history time := by
      intro time hbefore hle
      refine hbefore.append ?_
      intro instant hinstant
      rw [List.mem_singleton.1 hinstant]
      exact hle
    dsimp only
    split
    · rename_i action _
      have hdue : entry.exchange ∈ (self.popped entry rest).exchanges →
          Reached (self.popped entry rest).history
            (entry.time + ((self.popped entry rest).venues entry.exchange).fromVenue) :=
        fun hlisted => hnow.mono (le_add_of_nonneg_right (h.legs entry.exchange hlisted).2)
      apply (act_follows honward.sorted hdue).bind
      rintro ⟨core, woken⟩ ⟨touched, hfollows⟩
      have hcore := honward.follows hontime hfollows
      have hlater : ∀ time, Reached self.history time → entry.time ≤ time →
          Reached core.history time :=
        fun time hbefore hle => hfollows.reached.2 (hreached time hbefore hle)
      dsimp only
      split
      · exact ⟨⟨hcore.sorted, hcore.taken, hcore.due, hcore.drained, hcore.prompted, hcore.popped,
          hcore.toVenue, hcore.legs⟩, entry, hhead, hlater⟩
      · exact ⟨hcore, entry, hhead, hlater⟩
    · split
      · exact id
      · split
        · exact ⟨⟨honward.sorted, honward.taken, honward.due, honward.drained, honward.prompted,
            honward.popped, honward.toVenue, honward.legs⟩, entry, hhead, hreached⟩
        · exact id

end SimCore

/-! ## Runs -/

namespace SimRunner

variable [DateTimeRange] [Build] [RandomStream] [DecimalScale]

section

variable (self : SimRunner MarketKind Other) (source : Source (SourceEvent MarketKind Other))

/-- What a venue returns for a market event is due no earlier than the event. -/
def HearsTimely (timed : Timed (SourceEvent MarketKind Other)) : Prop :=
  ∀ market, timed.value = .market market → ∀ exchange ∈ self.core.exchanges,
    self.core.Hears exchange market (self.core.observation market) →
      timed.time ≤ market.timeExchange + (self.core.venues exchange).fromVenue

/-- What a venue returns for what it still holds at the end is due no earlier than what was
reached. -/
def ExpiresTimely : Prop :=
  self.core.schedule.pending = [] → ∀ exchange ∈ self.core.exchanges,
    (self.core.venues exchange).venue.Returns (.expireHeld (self.core.expiresAt exchange)) →
      Reached self.core.history
        (self.core.expiresAt exchange + (self.core.venues exchange).fromVenue)

/-- Whichever of the two the turn of the loop does. -/
def TurnTimely : Prop :=
  match self.core.takeDeferred with
  | some _ => True
  | none =>
    if self.core.deferred.isSome then True
    else if self.sourceDone then self.drainSignalled = true → self.ExpiresTimely
    else match source.next self.drawn with
      | none => True
      | some timed =>
        if self.core.leads (timed.time, sourceClass timed.value) then True
        else self.HearsTimely timed

/-- Nothing the turn queues is due before what was reached: the engine's clock has caught up when
there are requests to drain, and no venue's next deadline is past. -/
structure TimelyTurn (runner : SimRunner MarketKind Other)
    (source : Source (SourceEvent MarketKind Other)) : Prop where
  requests : ∀ exchange ∈ runner.core.exchanges,
    ∀ request ∈ (runner.core.venues exchange).requestRx, request.isOrder = true →
      Reached runner.core.history runner.core.clock
  deadlines : runner.core.wakeups.stopped = false → ∀ exchange ∈ runner.core.exchanges,
    ∀ deadline, (runner.core.venues exchange).venue.nextDeadline = some deadline →
      Reached runner.core.history (max deadline runner.core.wakeups.floor)
  turn : ∀ core, runner.core.drainRequests = .ok (core, .continue) →
    TurnTimely { runner with core } source

def Timely : Prop :=
  self.terminated = false → self.core.seeding = [] → self.TimelyTurn source

end

/-- A run that has gone onward, to no later than the source's next event. -/
structure Onward (latency : ExchangeIndex → ℤ) (source : Source (SourceEvent MarketKind Other))
    (runner : SimRunner MarketKind Other) : Prop where
  core : runner.core.Onward latency
  next : ∀ timed, source.next runner.drawn = some timed →
    Reached runner.core.history timed.time
  deferred : ∀ ordering event, runner.core.deferred = some (ordering, event) →
    ∀ timed, source.next runner.drawn = some timed → ordering.1 ≤ timed.time
  done : runner.sourceDone = true → source.next runner.drawn = none

variable {self : SimRunner MarketKind Other} {engine : Engine MarketKind Other}
  {source : Source (SourceEvent MarketKind Other)} {latency : ExchangeIndex → ℤ}

theorem queueLeads_onward (h : self.Onward latency source) (htime : self.core.OnTime)
    (hlead : ∀ entry ∈ self.core.schedule.pending.head?, ∀ timed,
      source.next self.drawn = some timed → entry.time ≤ timed.time)
    (hlast : self.ExpiresTimely) :
    (self.queueLeads engine).Gives fun r => r.Onward latency source := by
  unfold queueLeads
  split
  · rename_i next _
    have hrefused : (self.core.record (.refused next)).Onward latency :=
      h.core.aside rfl (fun _ _ _ heq => (by cases heq)) fun _ heq => (by cases heq)
    refine ⟨hrefused.abandon, ?_, fun _ _ heq => (by cases heq), h.done⟩
    exact fun timed hnext => (h.next timed hnext).append
      fun _ hinstant => absurd hinstant List.not_mem_nil
  · apply ((SimCore.pop_onward h.core htime).and SimCore.pop_sameSource).bind
    rintro ⟨core, step⟩ ⟨hpopped, hsame⟩
    have hdeferred : ∀ ordering event, core.deferred = some (ordering, event) → ∀ timed,
        source.next self.drawn = some timed → ordering.1 ≤ timed.time := by
      intro ordering event hevent
      exact h.deferred ordering event (hsame.deferred ▸ hevent)
    have hdone : core.Onward latency ∧ (∃ entry ∈ self.core.schedule.pending.head?,
        ∀ time, Reached self.core.history time → entry.time ≤ time → Reached core.history time) →
        SimRunner.Onward latency source { self with core } := by
      rintro ⟨honward, entry, hhead, hreached⟩
      refine ⟨honward, ?_, hdeferred, h.done⟩
      exact fun timed hnext => hreached timed.time (h.next timed hnext)
        (hlead entry hhead timed hnext)
    match step with
    | .emitted event =>
      have hcore := hdone hpopped
      refine ⟨hcore.core.shown engine event, ?_, hdeferred, h.done⟩
      exact fun timed hnext => SimCore.reached_shown (hcore.next timed hnext)
    | .acted => exact hdone hpopped
    | .woken => exact hdone hpopped
    | .empty =>
      obtain ⟨rfl, hempty⟩ := hpopped
      apply (SimCore.expireHeld_follows h.core.sorted (hlast hempty)).bind
      rintro ⟨core, scheduled⟩ ⟨touched, hfollows⟩
      have hcore := h.core.follows htime hfollows
      have hnext : ∀ timed, source.next self.drawn = some timed →
          Reached core.history timed.time :=
        fun timed hnext => hfollows.reached.2 (h.next timed hnext)
      have hheld : ∀ ordering event, core.deferred = some (ordering, event) → ∀ timed,
          source.next self.drawn = some timed → ordering.1 ≤ timed.time :=
        fun ordering event hevent => h.deferred ordering event (hfollows.deferred ▸ hevent)
      dsimp only
      split <;> exact ⟨hcore, hnext, hheld, h.done⟩

theorem draw_onward (h : self.Onward latency source)
    {timed : Timed (SourceEvent MarketKind Other)} (hnext : source.next self.drawn = some timed)
    (hleads : self.core.leads (timed.time, sourceClass timed.value) = false)
    (hdeferred : self.core.deferred = none) (hdone : self.sourceDone = false)
    (hturn : self.HearsTimely timed) :
    (self.draw engine timed).Gives fun r => r.Onward latency source := by
  have hlater : ∀ entry ∈ self.core.schedule.pending, timed.time ≤ entry.time := by
    intro entry hentry
    obtain ⟨first, rest, hpending⟩ := List.exists_cons_of_ne_nil (List.ne_nil_of_mem hentry)
    refine le_trans ?_ (SimCore.due_of_head h.core.sorted hpending entry hentry)
    unfold SimCore.leads at hleads
    rw [hpending] at hleads
    by_contra hlt
    have hdue : dueBy first.ordering (timed.time, sourceClass timed.value) = true := by
      unfold dueBy ScheduledEvent.ordering
      rw [decide_eq_true (not_le.1 hlt), Bool.true_or]
    rw [List.head?_cons, Option.any_some, hdue] at hleads
    cases hleads
  obtain ⟨honward, hontime, hnow⟩ := h.core.drew (h.next timed hnext) hlater
  have hfollowing : ∀ following, source.next (self.drawn + 1) = some following →
      timed.time ≤ following.time := fun following => source.ascending hnext
  have hhears : ∀ market, timed.value = .market market → ∀ exchange ∈ self.core.exchanges,
      self.core.Hears exchange market (self.core.observation market) →
        Reached (self.core.record (.drew timed)).history
          (market.timeExchange + (self.core.venues exchange).fromVenue) :=
    fun market hmarket exchange hlisted hhears =>
      hnow.mono (hturn market hmarket exchange hlisted hhears)
  unfold draw
  apply (SimCore.routeSource_follows honward.sorted hhears).bind
  rintro _ ⟨touched, core, hfollows, rfl | rfl⟩
  · have hcore := honward.follows hontime hfollows
    refine ⟨hcore.shown engine _, ?_, ?_, fun hended => (by cases hended.symm.trans hdone)⟩
    · exact fun following hfollowing' => SimCore.reached_shown
        (hfollows.reached.2 (hnow.mono (hfollowing following hfollowing')))
    · intro ordering event hevent
      have hnone : core.deferred = none := hfollows.deferred.trans hdeferred
      have hsome : core.deferred = some (ordering, event) := hevent
      rw [hnone] at hsome
      cases hsome
  · have hcore := honward.follows hontime hfollows
    refine ⟨⟨hcore.sorted, hcore.taken, hcore.due, hcore.drained, hcore.prompted, hcore.popped,
      hcore.toVenue, hcore.legs⟩, ?_, ?_, fun hended => (by cases hended.symm.trans hdone)⟩
    · exact fun following hfollowing' =>
        hfollows.reached.2 (hnow.mono (hfollowing following hfollowing'))
    · rintro ordering event ⟨⟩
      exact hfollowing

theorem turn_onward (h : self.Onward latency source) (htime : self.core.OnTime)
    (hturn : self.TurnTimely source) :
    (self.turn engine source).Gives fun r => r.Onward latency source := by
  unfold turn
  unfold TurnTimely at hturn
  split
  · rename_i core event htaken
    have hcore : core = { self.core with deferred := none } := by
      unfold SimCore.takeDeferred at htaken
      split at htaken
      · cases htaken
      · split at htaken
        · cases htaken
        · cases htaken
          rfl
    subst hcore
    have htaken : SimCore.Onward latency { self.core with deferred := none } :=
      ⟨h.core.sorted, h.core.taken, h.core.due, h.core.drained, h.core.prompted, h.core.popped,
        h.core.toVenue, h.core.legs⟩
    exact ⟨htaken.shown engine _, fun timed hnext => SimCore.reached_shown (h.next timed hnext),
      fun _ _ heq => (by cases heq), h.done⟩
  · rename_i htaken
    rw [htaken] at hturn
    dsimp only at hturn
    split
    · rename_i hdeferred
      -- What holds the event back is due before it, and it before the source's next.
      obtain ⟨⟨ordering, event⟩, hevent⟩ := Option.isSome_iff_exists.1 hdeferred
      have hleads : self.core.leads ordering = true := by
        unfold SimCore.takeDeferred at htaken
        rw [hevent] at htaken
        dsimp only at htaken
        split at htaken
        · assumption
        · cases htaken
      refine queueLeads_onward h htime ?_ ?_
      · intro entry hentry timed hnext
        exact (SimCore.time_of_leads hleads hentry).trans
          (h.deferred ordering event hevent timed hnext)
      · intro hempty
        exact absurd hleads (SimCore.not_leads_of_empty hempty)
    · rename_i hdeferred
      rw [if_neg hdeferred] at hturn
      have hnone : self.core.deferred = none := Option.not_isSome_iff_eq_none.1 hdeferred
      split
      · rename_i hdone
        rw [if_pos hdone] at hturn
        split
        · rename_i hsignalled
          refine queueLeads_onward h htime ?_ (hturn hsignalled)
          intro entry _ timed hnext
          rw [h.done hdone] at hnext
          cases hnext
        · have hquiet : SimCore.Onward latency { self.core with sinceSource := 0 } :=
            ⟨h.core.sorted, h.core.taken, h.core.due, h.core.drained, h.core.prompted,
              h.core.popped, h.core.toVenue, h.core.legs⟩
          exact ⟨hquiet.shown engine _,
            fun timed hnext => SimCore.reached_shown (h.next timed hnext), h.deferred, h.done⟩
      · rename_i hdone
        rw [if_neg hdone] at hturn
        split
        · rename_i hended
          refine ⟨⟨h.core.sorted, h.core.taken, fun entry hentry => .inl (htime entry hentry),
            h.core.drained, h.core.prompted, h.core.popped, h.core.toVenue, h.core.legs⟩, h.next, h.deferred,
            fun _ => hended⟩
        · rename_i timed hnext
          rw [hnext] at hturn
          dsimp only at hturn
          split
          · rename_i hleads
            refine queueLeads_onward h htime ?_ ?_
            · intro entry hentry other hother
              rw [hnext] at hother
              cases hother
              exact SimCore.time_of_leads hleads hentry
            · intro hempty
              exact absurd hleads (SimCore.not_leads_of_empty hempty)
          · rename_i hleads
            rw [if_neg hleads] at hturn
            exact draw_onward h hnext (Bool.eq_false_iff.2 hleads) hnone
              (Bool.eq_false_iff.2 hdone) hturn

/-- A step leaves the run onward. -/
theorem step_onward (h : self.Onward latency source) (htimely : self.Timely source) :
    (self.step engine source).Gives fun r => r.Onward latency source := by
  unfold step
  split
  · exact h
  · rename_i hterminated
    split
    · rename_i exchange snapshot seeding hseeding
      have hquiet : SimCore.Onward latency { self.core with seeding } :=
        ⟨h.core.sorted, h.core.taken, h.core.due, h.core.drained, h.core.prompted, h.core.popped,
          h.core.toVenue, h.core.legs⟩
      exact ⟨hquiet.shown engine _,
        fun timed hnext => SimCore.reached_shown (h.next timed hnext), h.deferred, h.done⟩
    · rename_i hseeding
      have hturn := htimely (Bool.eq_false_iff.2 hterminated) hseeding
      have htime : self.core.OnTime := by
        intro entry hentry
        rcases h.core.due entry hentry with hdue | ⟨hlisted, hgoing, deadline, hdeadline, heq⟩
        · exact hdue
        · rw [heq]
          exact hturn.deadlines hgoing entry.exchange hlisted deadline hdeadline
      apply ((SimCore.drainRequests_onward h.core htime hturn.requests).and
        SimCore.drainRequests_quiet).eq.bind
      rintro ⟨core, drain⟩ ⟨⟨hdrained, hquiet⟩, hcore⟩
      have hsame : SimRunner.Onward latency source { self with core } := by
        refine ⟨hdrained.onward, ?_, ?_, h.done⟩
        · exact fun timed hnext => hdrained.reached timed.time (h.next timed hnext)
        · exact fun ordering event hevent => h.deferred ordering event (hquiet.2.1 ▸ hevent)
      cases drain with
      | abandon =>
        have hended : (core.record .abandoned).Onward latency :=
          hdrained.onward.aside rfl (fun _ _ _ heq => (by cases heq)) fun _ heq => (by cases heq)
        refine ⟨hended.abandon, ?_, fun _ _ heq => (by cases heq), h.done⟩
        exact fun timed hnext => (hdrained.reached timed.time (h.next timed hnext)).append
          fun _ hinstant => absurd hinstant List.not_mem_nil
      | «continue» => exact turn_onward hsame hdrained.onTime (hturn.turn core hcore)

omit [DateTimeRange] [Build] [RandomStream] [DecimalScale] in
theorem new_onward (exchanges : List ExchangeIndex) (nodup : exchanges.Nodup)
    (venues : ExchangeIndex → SimVenue) (clock : DateTime) (feedbackLimit : ℕ)
    (hlegs : ∀ exchange ∈ exchanges,
      0 ≤ (venues exchange).toVenue ∧ 0 ≤ (venues exchange).fromVenue) :
    (new (.new exchanges nodup venues clock feedbackLimit : SimCore MarketKind Other)).Onward
      (fun exchange => (venues exchange).toVenue) source := by
  have hnothing : ∀ time, Reached ([] : List (Happening MarketKind Other)) time :=
    fun _ _ hinstant => absurd hinstant List.not_mem_nil
  have hstart : (new (.new exchanges nodup venues clock feedbackLimit :
      SimCore MarketKind Other)).Accounted source :=
    new_accounted exchanges nodup venues clock feedbackLimit
  refine ⟨⟨hstart.accounts.sorted, List.Pairwise.nil, fun entry _ => .inl (hnothing _),
    fun _ _ _ hmem => absurd hmem List.not_mem_nil, ?_, fun _ hmem => absurd hmem List.not_mem_nil,
    fun _ => rfl, hlegs⟩, fun _ _ => hnothing _, fun _ _ heq => (by cases heq),
    fun hdone => (by cases hdone)⟩
  exact fun entry _ => .of_not_drained fun _ _ hmem => absurd hmem List.not_mem_nil

theorem steps_onward {core : SimCore MarketKind Other} (hcore : (new core).Onward latency source)
    {count : ℕ} {r : SimRunner MarketKind Other}
    (hr : (new core).steps engine source count = .ok r)
    (htimely : ∀ earlier before_, earlier < count →
      (new core).steps engine source earlier = .ok before_ → before_.Timely source) :
    r.Onward latency source := by
  induction count generalizing r with
  | zero =>
    cases hr
    exact hcore
  | succ count ih =>
    obtain ⟨mid, hmid, hlast⟩ := Except.bind_eq_ok.1 hr
    have hbefore := ih hmid fun earlier before_ hlt => htimely earlier before_ (Nat.lt_succ_of_lt hlt)
    exact (step_onward hbefore (htimely count mid (Nat.lt_succ_self _) hmid)).result hlast

/-- In a run whose steps are all timely what is popped and drawn is in order of time, and a request
is acted on no less than its venue's leg after everything popped or drawn before it was drained, the
event that provoked it among them. -/
theorem onward_of_timely {exchanges : List ExchangeIndex} {nodup : exchanges.Nodup}
    {venues : ExchangeIndex → SimVenue} {clock : DateTime} {feedbackLimit count : ℕ}
    {r : SimRunner MarketKind Other}
    (hlegs : ∀ exchange ∈ exchanges,
      0 ≤ (venues exchange).toVenue ∧ 0 ≤ (venues exchange).fromVenue)
    (hr : (new (.new exchanges nodup venues clock feedbackLimit)).steps engine source count = .ok r)
    (htimely : ∀ earlier before_, earlier < count →
      (new (.new exchanges nodup venues clock feedbackLimit)).steps engine source earlier =
        .ok before_ → before_.Timely source) :
    (r.core.history.flatMap Happening.taken).Pairwise (· ≤ ·) ∧
      ∀ entry, .popped entry ∈ r.core.history →
        Prompted (fun exchange => (venues exchange).toVenue) r.core.history entry.seq
          entry.time := by
  have honward := steps_onward (new_onward exchanges nodup venues clock feedbackLimit hlegs) hr
    htimely
  exact ⟨honward.core.taken, fun entry hmem => (honward.core.popped entry hmem).2⟩

end SimRunner

/-- The second bid is stamped from a clock at 1 when the run has reached 11, and is acted on at 2. -/
theorem bid_acted_on_in_the_past :
    let _range : DateTimeRange := ⟨fun _ => true⟩
    let _build : Build := ⟨false⟩
    let _random : RandomStream := ⟨fun _ _ => 0, fun _ _ => by decide⟩
    let _scale : DecimalScale := ⟨fun _ => 0⟩
    0 ≤ laggingVenue.toVenue ∧ 0 ≤ laggingVenue.fromVenue ∧
      ∃ r, bids (bidder (.goodTillDate 8) (some (.goodUntilCancelled false))) 15 = .ok r ∧
        ¬ (r.core.history.flatMap Happening.taken).Pairwise (· ≤ ·) := by
  intro _range _build _random _scale
  have hrun : (match bids (bidder (.goodTillDate 8) (some (.goodUntilCancelled false))) 15 with
      | .ok r => decide (¬ (r.core.history.flatMap Happening.taken).Pairwise (· ≤ ·))
      | .error _ => false) = true := by
    decide +kernel
  refine ⟨by decide, by decide, ?_⟩
  split at hrun
  · rename_i r hr
    exact ⟨r, hr, of_decide_eq_true hrun⟩
  · cases hrun

/-- Whether what the next step queues at the earliest is due by what was reached. -/
def SimRunner.isTimely [DateTimeRange] (runner : SimRunner Unit Unit) : Bool :=
  let reached (core : SimCore Unit Unit) (time : DateTime) : Bool :=
    (core.history.flatMap Happening.taken).all fun instant => instant ≤ time
  (runner.core.exchanges.all fun exchange =>
    ((runner.core.venues exchange).requestRx.all fun request =>
      !request.isOrder || reached runner.core runner.core.clock) &&
    (runner.core.venues exchange).venue.nextDeadline.all fun deadline =>
      reached runner.core (max deadline runner.core.wakeups.floor)) &&
  match runner.core.drainRequests with
  | .ok (core, _) => core.exchanges.all fun exchange =>
      reached core (core.expiresAt exchange + (core.venues exchange).fromVenue)
  | .error _ => true

theorem SimRunner.Timely.of_isTimely [DateTimeRange] [Build] [RandomStream] [DecimalScale]
    {runner : SimRunner Unit Unit} {source : Source (SourceEvent Unit Unit)}
    (h : runner.isTimely = true) (hsource : ∀ index timed, source.next index = some timed →
      ∀ market, timed.value ≠ .market market) : runner.Timely source := by
  have hreached : ∀ {core : SimCore Unit Unit} {time : DateTime},
      ((core.history.flatMap Happening.taken).all fun instant => decide (instant ≤ time)) = true →
        Reached core.history time :=
    fun hall instant hinstant => of_decide_eq_true (List.all_eq_true.1 hall instant hinstant)
  unfold SimRunner.isTimely at h
  rw [Bool.and_eq_true, List.all_eq_true] at h
  obtain ⟨hvenues, hdrained⟩ := h
  intro _ _
  refine ⟨?_, ?_, ?_⟩
  · intro exchange hlisted request hrequest horder
    have hvenue := hvenues exchange hlisted
    rw [Bool.and_eq_true, List.all_eq_true] at hvenue
    have hclock := hvenue.1 request hrequest
    rw [horder, Bool.not_true, Bool.false_or] at hclock
    exact hreached hclock
  · intro _ exchange hlisted deadline hdeadline
    have hvenue := hvenues exchange hlisted
    rw [Bool.and_eq_true, hdeadline, Option.all_some] at hvenue
    exact hreached hvenue.2
  · intro core hcore
    rw [hcore] at hdrained
    have hexpires : SimRunner.ExpiresTimely { runner with core } :=
      fun _ exchange hlisted _ => hreached (List.all_eq_true.1 hdrained exchange hlisted)
    unfold SimRunner.TurnTimely
    split
    · trivial
    · split
      · trivial
      · split
        · exact fun _ => hexpires
        · split
          · trivial
          · rename_i timed hnext
            split
            · trivial
            · exact fun market hmarket => absurd hmarket (hsource _ timed hnext market)

/-- The first bid alone is acted on in time. -/
theorem onward_of_timely_bid :
    let _range : DateTimeRange := ⟨fun _ => true⟩
    let _build : Build := ⟨false⟩
    let _random : RandomStream := ⟨fun _ _ => 0, fun _ _ => by decide⟩
    let _scale : DecimalScale := ⟨fun _ => 0⟩
    ∃ r, bids (bidder (.goodTillDate 50) none) 15 = .ok r ∧
      (r.core.history.flatMap Happening.taken).Pairwise (· ≤ ·) ∧
      r.core.history.flatMap Happening.served ≠ [] := by
  intro _range _build _random _scale
  have hrun : (match bids (bidder (.goodTillDate 50) none) 15 with
      | .ok r => decide (r.core.history.flatMap Happening.served ≠ [])
      | .error _ => false) = true := by
    decide +kernel
  have htimely : ((List.range 15).all fun earlier =>
      match bids (bidder (.goodTillDate 50) none) earlier with
      | .ok r => r.isTimely
      | .error _ => true) = true := by
    decide +kernel
  split at hrun
  · rename_i r hr
    refine ⟨r, hr, (SimRunner.onward_of_timely ?_ hr ?_).1, of_decide_eq_true hrun⟩
    · exact fun _ _ => ⟨by decide, by decide⟩
    · intro earlier before_ hlt hbefore
      have hearlier := List.all_eq_true.1 htimely earlier (List.mem_range.2 hlt)
      rw [show bids (bidder (.goodTillDate 50) none) earlier = .ok before_ from hbefore] at hearlier
      exact .of_isTimely hearlier (ticks_not_market 100 (by decide))
  · cases hrun

end Rustrade.Sim
