import Rustrade.Sim.Schedule

/-!
# The core of a simulation

The venues, the queue and the engine's clock, and what is done with them: draining the requests the
engine has issued, popping the queue, and routing a source event. The engine is any function of the
events it was shown and of its clock to the requests it sends each venue.

`history` is what happened, in order. Nothing depends on it.
-/

set_option autoImplicit false

namespace Rustrade

/-- The venue's stamp of a state it reported. -/
def OrderState.timeExchange : OrderState → Option DateTime
  | .active (.openInFlight _) => none
  | .active (.open state) => some state.timeExchange
  | .active (.cancelInFlight state) => state.order.map Open.timeExchange
  | .inactive (.cancelled state) => some state.timeExchange
  | .inactive (.fullyFilled state) => some state.timeExchange
  | .inactive (.expired state) => some state.timeExchange
  | .inactive (.openFailed _) => none

namespace Sim

open Mock

/-! ## The source -/

/-- A market event kind folded into what a venue sees of an instrument. -/
class VenueMarketUpdate (MarketKind : Type) where
  State : Type
  default : State
  apply : State → MarketEvent InstrumentIndex MarketKind → State
  snapshot : State → MarketSnapshot
  depth : State → MarketDepth
  bar : State → MarketEvent InstrumentIndex MarketKind → Option MarketBar
  fresh : State → MarketEvent InstrumentIndex MarketKind → Bool

/-- An event of the source. Of one that is no market data the driver reads its class, and the
engine's clock its stamp. -/
inductive SourceEvent (MarketKind Other : Type) where
  | market (event : MarketEvent InstrumentIndex MarketKind)
  | marketReconnecting (exchange : ExchangeId)
  | account (stamp : Option DateTime) (event : Other)
  | auxiliary (stamp : Option DateTime) (event : Other)

structure Timed (Event : Type) where
  value : Event
  time : DateTime

/-- What the engine is shown. -/
inductive Shown (MarketKind Other : Type) where
  | seeding (exchange : ExchangeIndex) (snapshot : AccountSnapshot)
  | source (event : SourceEvent MarketKind Other)
  | venue (exchange : ExchangeIndex) (deliverable : Deliverable)
  | shutdownAfterDrain

section

variable {MarketKind Other : Type}

def sourceClass : SourceEvent MarketKind Other → ℕ
  | .market _ | .marketReconnecting _ => CLASS_MARKET
  | .account _ _ => CLASS_ACCOUNT
  | .auxiliary _ _ => CLASS_AUX

def timeMostRecent (snapshot : AccountSnapshot) : Option DateTime :=
  ((snapshot.instruments.flatMap fun instrument =>
      instrument.orders.filterMap fun order => order.state.timeExchange) ++
    snapshot.balances.map AssetBalance.timeExchange).max?

def Deliverable.timeExchange : Deliverable → Option DateTime
  | .account ⟨_, .balanceSnapshot balance⟩ => some balance.timeExchange
  | .account ⟨_, .orderSnapshot order⟩ => order.state.timeExchange
  | .account ⟨_, .trade trade⟩ => some trade.timeExchange
  | .account ⟨_, .cashFlow flow⟩ => some flow.timeExchange
  | .account ⟨_, .marginDebt update⟩ => some update.timeExchange
  | .account ⟨_, .notice notice⟩ => some notice.timeExchange
  | .openResponse _ response => response.order.state.timeExchange
  | .cancelResponse _ response => match response.state with
    | .ok cancelled => some cancelled.timeExchange
    | .error _ => none

/-- The stamp the engine's clock is moved on to. -/
def Shown.timeExchange : Shown MarketKind Other → Option DateTime
  | .seeding _ snapshot => timeMostRecent snapshot
  | .source (.market event) => some event.timeExchange
  | .source (.marketReconnecting _) => none
  | .source (.account stamp _) | .source (.auxiliary stamp _) => stamp
  | .venue _ deliverable => deliverable.timeExchange
  | .shutdownAfterDrain => none

/-- The clock once it was shown an event: never back. -/
def HistoricalClock.process (clock : DateTime) (event : Shown MarketKind Other) : DateTime :=
  match event.timeExchange with
  | none => clock
  | some time => max clock time

end

/-! ## The venues -/

/-- A request of the engine, under its indices. -/
inductive ExecutionRequest where
  | shutdown
  | drain
  | open (request : OrderEvent ExchangeIndex InstrumentIndex PricedRequestOpen)
  | cancel (request : OrderRequestCancel ExchangeIndex InstrumentIndex)

structure SimIndexer extends AccountEventIndexer where
  /-- Whether every name a deliverable carries has an index. -/
  indexes : Deliverable → Bool

/-- A venue and what it takes to drive it. The requests are those sent and not yet drained. -/
structure SimVenue where
  venue : SimulatedVenue
  indexer : SimIndexer
  requestRx : List ExecutionRequest
  toVenue : ℤ
  fromVenue : ℤ

/-- What happened, with the instant it was due at. -/
inductive Happening (MarketKind Other : Type) where
  /-- An entry of the queue was popped. -/
  | popped (entry : ScheduledEvent)
  /-- A source event was drawn. -/
  | drew (event : Timed (SourceEvent MarketKind Other))
  | showed (event : Shown MarketKind Other)
  /-- A request was taken, as the entry of the queue with that number. -/
  | drained (exchange : ExchangeIndex) (request : ℕ) (action : Action)
  /-- A venue was given an input, for a request if that is what it is. -/
  | gave (exchange : ExchangeIndex) (request : Option ℕ) (input : SimulatedVenue.Input)
      (events : List Mock.AccountEvent) (response : Option Deliverable)
  /-- The feedback limit was reached, with that entry the queue's earliest. -/
  | refused (entry : ScheduledEvent)
  /-- The engine shut the run down. -/
  | abandoned

/-- The instant of the queue entry or source event it takes. -/
def Happening.instant? {MarketKind Other : Type} : Happening MarketKind Other → Option DateTime
  | .popped entry | .refused entry => some entry.time
  | .drew event => some event.time
  | .showed _ | .drained _ _ _ | .gave _ _ _ _ _ | .abandoned => none

/-- Whether it is between the driver and the venues, and takes nothing from the queue. -/
def Happening.isVenues {MarketKind Other : Type} : Happening MarketKind Other → Bool
  | .drained _ _ _ | .gave _ _ _ _ _ => true
  | _ => false

structure SimCore (MarketKind Other : Type) [VenueMarketUpdate MarketKind] where
  /-- The venues registered, in order. -/
  exchanges : List ExchangeIndex
  nodup : exchanges.Nodup
  venues : ExchangeIndex → SimVenue
  schedule : Schedule
  clock : DateTime
  seeding : List (ExchangeIndex × AccountSnapshot)
  feedbackLimit : ℕ
  sinceSource : ℕ
  market : InstrumentIndex → VenueMarketUpdate.State MarketKind
  wakeups : Wakeups
  deferred : Option (Ordering × SourceEvent MarketKind Other)
  history : List (Happening MarketKind Other)

/-- The requests the engine sends each venue on the latest event shown. -/
abbrev Engine (MarketKind Other : Type) :=
  List (Shown MarketKind Other) → DateTime → ExchangeIndex → List ExecutionRequest

inductive RequestDrain where
  | continue
  | abandon
  deriving DecidableEq

inductive Step (MarketKind Other : Type) where
  | emitted (event : Shown MarketKind Other)
  | acted
  | woken
  | empty

namespace SimCore

variable {MarketKind Other : Type} [VenueMarketUpdate MarketKind]

/-- Every venue's initial snapshot, its balances stamped with the session's start, and every
venue's first deadline. -/
def new (exchanges : List ExchangeIndex) (nodup : exchanges.Nodup)
    (venues : ExchangeIndex → SimVenue) (clock : DateTime) (feedbackLimit : ℕ) :
    SimCore MarketKind Other :=
  let seed (exchange : ExchangeIndex) : ExchangeIndex × AccountSnapshot :=
    let snapshot := (venues exchange).venue.accountSnapshot
    (exchange, { snapshot with
      balances := snapshot.balances.map fun balance => { balance with timeExchange := clock } })
  let armed := exchanges.foldl
    (fun (wakeups, schedule) exchange => wakeups.arm schedule exchange (venues exchange).venue)
    (Wakeups.new clock, Schedule.empty)
  { exchanges, nodup, venues
    schedule := armed.2
    clock
    seeding := exchanges.map seed
    feedbackLimit
    sinceSource := 0
    market := fun _ => VenueMarketUpdate.default
    wakeups := armed.1
    deferred := none
    history := [] }

variable (self : SimCore MarketKind Other)

def slot? (exchange : ExchangeIndex) : Option SimVenue :=
  if exchange ∈ self.exchanges then some (self.venues exchange) else none

def setVenue (exchange : ExchangeIndex) (slot : SimVenue) : SimCore MarketKind Other :=
  { self with venues := Function.update self.venues exchange slot }

def record (happening : Happening MarketKind Other) : SimCore MarketKind Other :=
  { self with history := self.history ++ [happening] }

/-- Re-read the venue's next deadline. -/
def arm (exchange : ExchangeIndex) : SimCore MarketKind Other :=
  let armed := self.wakeups.arm self.schedule exchange (self.venues exchange).venue
  { self with wakeups := armed.1, schedule := armed.2 }

/-! ## Requests -/

variable [DateTimeRange]

/-- A request at the instant its venue will act on it. -/
def queueRequest (exchange : ExchangeIndex) (arrives : DateTime) (action : Action) :
    SimCore MarketKind Other :=
  { self.record (.drained exchange self.schedule.seq action) with
    schedule := self.schedule.push arrives CLASS_ACTION exchange (.act action) }

/-- The requests of one venue, in the order they were sent. -/
def drainVenue (exchange : ExchangeIndex) (slot : SimVenue) :
    SimCore MarketKind Other → RequestDrain → List ExecutionRequest →
      Except SimFault (SimCore MarketKind Other × RequestDrain)
  | self, drain, [] => .ok (self, drain)
  | self, drain, request :: requests => do
    let arrives ← checkedOffset self.clock slot.toVenue
    match request with
    | .drain => drainVenue exchange slot self drain requests
    | .shutdown => drainVenue exchange slot self .abandon requests
    | .open request => match slot.indexer.orderRequest request with
      | none => .error .nonConfiguredKey
      | some request =>
        drainVenue exchange slot (self.queueRequest exchange arrives (.open request)) drain requests
    | .cancel request => match slot.indexer.orderRequest request with
      | none => .error .nonConfiguredKey
      | some request =>
        drainVenue exchange slot (self.queueRequest exchange arrives (.cancel request)) drain
          requests

def drainRequests : Except SimFault (SimCore MarketKind Other × RequestDrain) :=
  self.exchanges.foldlM
    (fun (self, drain) exchange =>
      let slot := self.venues exchange
      drainVenue exchange slot (self.setVenue exchange { slot with requestRx := [] }) drain
        slot.requestRx)
    (self, .continue)

/-! ## The queue -/

/-- Whether the queue's earliest entry comes due at or before the next source event. -/
def leads (ordering : Ordering) : Bool :=
  self.schedule.pending.head?.any fun next => dueBy next.ordering ordering

/-- The entry the feedback limit refuses to emit. -/
def checkFeedback : Option ScheduledEvent :=
  if self.sinceSource < self.feedbackLimit then none
  else self.schedule.pending.head?.filter fun next =>
    !next.payload.isAct && next.exchange ∈ self.exchanges

variable [Build] [RandomStream] [DecimalScale]

/-- Schedule what a venue did on its own clock's advance, and keep the venue. -/
def advance (exchange : ExchangeIndex) (slot : SimVenue) (time delivers : DateTime) :
    Except SimFault (SimCore MarketKind Other × SimulatedVenue) := do
  let (venue, events) ← orPanic (slot.venue.advanceTime time)
  return ({ self.record (.gave exchange none (.advanceTime time) events none) with
      schedule := self.schedule.scheduleEvents exchange delivers events }, venue)

/-- Schedule what a request owes, and keep the venue that answered it. -/
def answer (exchange : ExchangeIndex) (slot : SimVenue) (delivers : DateTime) (request : ℕ)
    (input : SimulatedVenue.Input) (venue : SimulatedVenue) (events : List Mock.AccountEvent)
    (response : Deliverable) : SimCore MarketKind Other :=
  let self := self.record (.gave exchange (some request) input events (some response))
  let self := { self with
    schedule := self.schedule.scheduleOutcome exchange delivers events response }
  (self.setVenue exchange { slot with venue }).arm exchange

/-- Move the venue's clock, and have it serve the action: whether the clock was all it moved. -/
def serve (exchange : ExchangeIndex) (slot : SimVenue) (time : DateTime) (request : ℕ)
    (action : Action) : Except SimFault (SimCore MarketKind Other × Bool) := do
  let delivers ← checkedOffset time slot.fromVenue
  let (self, venue) ← self.advance exchange slot time delivers
  match action with
  | .open open_ => do
    let (venue, events, response) ← orPanic (venue.openOrder open_)
    return (self.answer exchange slot delivers request (.openOrder open_) venue events
      (.openResponse request response), false)
  | .cancel cancel => do
    let (venue, events, response) ← orPanic (venue.cancelOrder cancel)
    return (self.answer exchange slot delivers request (.cancelOrder cancel) venue events
      (.cancelResponse request response), false)
  | .wake => return ((self.setVenue exchange { slot with venue }).arm exchange, true)

/-- Run one action against its venue. A wake-up overtaken by an earlier one does nothing. -/
def act (exchange : ExchangeIndex) (time : DateTime) (request : ℕ) (action : Action) :
    Except SimFault (SimCore MarketKind Other × Bool) :=
  match self.slot? exchange with
  | none => .error (.unregisteredVenue exchange)
  | some slot =>
    if action = .wake then
      let (wakeups, live) := self.wakeups.take exchange time
      if live then { self with wakeups }.serve exchange slot time request action
      else .ok (self, false)
    else self.serve exchange slot time request action

/-- Pop the earliest queue entry: emit it if the engine is owed it, run it if a venue is. -/
def pop : Except SimFault (SimCore MarketKind Other × Step MarketKind Other) :=
  match self.schedule.pending with
  | [] => .ok (self, .empty)
  | entry :: rest =>
    let self := { self.record (.popped entry) with
      schedule := { self.schedule with pending := rest } }
    match entry.payload with
    | .act action => do
      let (self, woken) ← self.act entry.exchange entry.time entry.seq action
      if woken then return ({ self with sinceSource := 0 }, .woken) else return (self, .acted)
    | .deliver deliverable => match self.slot? entry.exchange with
      | none => .error (.unregisteredVenue entry.exchange)
      | some slot =>
        if slot.indexer.indexes deliverable then
          .ok ({ self with sinceSource := self.sinceSource + 1 },
            .emitted (.venue entry.exchange deliverable))
        else .error .unindexable

/-! ## The market -/

/-- Hand an observation to one venue. -/
def routeVenue (event : MarketEvent InstrumentIndex MarketKind) (observation : MarketObservation)
    (self : SimCore MarketKind Other) (ahead : Bool) (exchange : ExchangeIndex) :
    Except SimFault (SimCore MarketKind Other × Bool) :=
  let slot := self.venues exchange
  match slot.indexer.findOwnInstrumentNameExchange event.instrument with
  | none => .ok (self, ahead)
  | some name => do
    let ahead := ahead || slot.venue.fillsAheadOf name observation
    let (venue, fills) ← orPanic (slot.venue.applyMarket name observation event.timeExchange)
    let self := (self.record
      (.gave exchange none (.applyMarket name observation event.timeExchange) fills none)).setVenue
        exchange { slot with venue }
    let self := self.arm exchange
    if fills.isEmpty then return (self, ahead)
    let delivers ← checkedOffset event.timeExchange slot.fromVenue
    return ({ self with schedule := self.schedule.scheduleEvents exchange delivers fills }, ahead)

/-- Fold a market event and hand it to every venue that lists the instrument: whether it released
a held market order, whose fill is shown first. -/
def routeMarket : SourceEvent MarketKind Other → Except SimFault (SimCore MarketKind Other × Bool)
  | .market event =>
    let state := self.market event.instrument
    let bar := VenueMarketUpdate.bar state event
    let fresh := VenueMarketUpdate.fresh state event
    let state := VenueMarketUpdate.apply state event
    let observation : MarketObservation :=
      ⟨VenueMarketUpdate.snapshot state, VenueMarketUpdate.depth state, bar, fresh⟩
    let self := { self with market := Function.update self.market event.instrument state }
    self.exchanges.foldlM
      (fun (self, ahead) exchange => routeVenue event observation self ahead exchange)
      (self, false)
  | _ => .ok (self, false)

/-- A source event about to be shown: the event, unless it is held back. -/
def routeSource (time : DateTime) (event : SourceEvent MarketKind Other) :
    Except SimFault (SimCore MarketKind Other × Option (SourceEvent MarketKind Other)) := do
  let (self, ahead) ← { self with sinceSource := 0 }.routeMarket event
  if ahead then return ({ self with deferred := some ((time, sourceClass event), event) }, none)
  else return (self, some event)

omit [DateTimeRange] [Build] [RandomStream] [DecimalScale] in
/-- The source event held back, once nothing in the queue is due before it. -/
def takeDeferred : Option (SimCore MarketKind Other × SourceEvent MarketKind Other) :=
  match self.deferred with
  | none => none
  | some (ordering, event) =>
    if self.leads ordering then none else some ({ self with deferred := none }, event)

/-- Retire what one venue still holds, and schedule what that owes. -/
def expireVenue (self : SimCore MarketKind Other) (scheduled : Bool) (exchange : ExchangeIndex) :
    Except SimFault (SimCore MarketKind Other × Bool) := do
  let slot := self.venues exchange
  let time := max self.clock slot.venue.timeExchange
  let (venue, events) ← orPanic (slot.venue.expireHeld time)
  let self := (self.record (.gave exchange none (.expireHeld time) events none)).setVenue exchange
    { slot with venue }
  if events.isEmpty then return (self, scheduled)
  let delivers ← checkedOffset time slot.fromVenue
  return ({ self with schedule := self.schedule.scheduleEvents exchange delivers events }, true)

/-- Retire every market order a venue still holds: whether anything was scheduled. -/
def expireHeld : Except SimFault (SimCore MarketKind Other × Bool) :=
  self.exchanges.foldlM (fun (self, scheduled) exchange => expireVenue self scheduled exchange)
    (self, false)

omit [DateTimeRange] [Build] [RandomStream] [DecimalScale] in
/-- Discard everything still scheduled. -/
def abandon : SimCore MarketKind Other :=
  { self with schedule := { self.schedule with pending := [] }, deferred := none }

/-! ## The engine -/

omit [DateTimeRange] [Build] [RandomStream] [DecimalScale] in
/-- The engine is shown an event: its clock moves on, and it sends what it sends. -/
def showTo (engine : Engine MarketKind Other) (event : Shown MarketKind Other) :
    SimCore MarketKind Other :=
  let self := self.record (.showed event)
  let clock := HistoricalClock.process self.clock event
  let shown := self.history.filterMap fun
    | .showed event => some event
    | _ => none
  { self with
    clock
    venues := fun exchange =>
      { self.venues exchange with
        requestRx := (self.venues exchange).requestRx ++ engine shown clock exchange } }

end SimCore

end Sim

end Rustrade
