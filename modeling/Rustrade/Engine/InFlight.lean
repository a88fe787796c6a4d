import Rustrade.EngineState
import Rustrade.Lib.BTreeMap

/-!
# The watch over requests in flight

`InFlightWatch` flags the orders whose request has gone unanswered past its exchange's deadline. It
keeps no state on an order: a scan flags those whose deadline fell since the last one, and it scans
only once the earliest instant at which one can have fallen is reached. Of an instrument it reads
its orders.
-/

set_option autoImplicit false

namespace Rustrade

/-- Nanoseconds. -/
abbrev Duration := ℕ

/-- Nanoseconds since the clock's origin. Of any two durations, and of an instant and a duration,
the sum is one. -/
abbrev EngineInstant := ℤ

/-- Each exchange's deadline, if it has one, by its index. -/
structure InFlightDeadlines where
  slots : List (Option Duration)
  nonzero : ∀ deadline, some deadline ∈ slots → 0 < deadline

namespace InFlightDeadlines

def get (self : InFlightDeadlines) (exchange : ExchangeIndex) : Option Duration :=
  self.slots[exchange]?.join

def shortest (self : InFlightDeadlines) : Option Duration := (self.slots.filterMap id).min?

variable {deadlines : InFlightDeadlines} {exchange : ExchangeIndex} {deadline : Duration}

theorem mem_of_get (h : deadlines.get exchange = some deadline) :
    some deadline ∈ deadlines.slots :=
  List.mem_of_getElem? (Option.join_eq_some_iff.1 h)

theorem shortest_le (h : deadlines.get exchange = some deadline) :
    ∃ shortest, deadlines.shortest = some shortest ∧ shortest ≤ deadline := by
  have hmem : deadline ∈ deadlines.slots.filterMap id := List.mem_filterMap.2 ⟨_, mem_of_get h, rfl⟩
  unfold InFlightDeadlines.shortest
  cases hmin : (deadlines.slots.filterMap id).min? with
  | none =>
    rw [List.min?_eq_none_iff.1 hmin] at hmem
    cases hmem
  | some shortest => exact ⟨shortest, rfl, (List.min?_eq_some_iff.1 hmin).2 deadline hmem⟩

end InFlightDeadlines

/-- Which request an order awaits an answer to. -/
inductive InFlightRequest where
  | open
  | cancel
  deriving DecidableEq, Repr

/-- The request an order awaits an answer to, and when it was sent. -/
def ActiveOrderState.awaits : ActiveOrderState → Option (InFlightRequest × DateTime)
  | .openInFlight state => some (.open, state.timeSent)
  | .cancelInFlight state => some (.cancel, state.timeSent)
  | .open _ => none

/-- An order whose request has been in flight past its exchange's deadline. -/
structure InFlightOverdue where
  key : OrderKey ExchangeIndex InstrumentIndex
  request : InFlightRequest
  timeSent : DateTime
  deadline : Duration
  elapsed : Duration
  deriving DecidableEq

abbrev TrackedOrder := Order ExchangeIndex InstrumentIndex ActiveOrderState

abbrev InstrumentOrders := Orders ExchangeIndex InstrumentIndex

structure InFlightWatch where
  deadlines : InFlightDeadlines
  /-- The instant each send was made at, by the time it stamped. -/
  sends : BTreeMap DateTime EngineInstant
  /-- When the last scan ran. -/
  lastScan : Option EngineInstant
  /-- The earliest instant a scan can find an order newly overdue. -/
  nextScan : Option EngineInstant

namespace InFlightWatch

/-- The earlier of an instant there may be and one there is. -/
def earlier (instant : Option EngineInstant) (other : EngineInstant) : EngineInstant :=
  (instant.map fun instant => min instant other).getD other

/-- The first check scans, if any exchange has a deadline. -/
def new (deadlines : InFlightDeadlines) : InFlightWatch where
  deadlines
  sends := ∅
  lastScan := none
  nextScan := deadlines.shortest.map fun _ => 0

def onSent (self : InFlightWatch) (timeSent : DateTime) (instantSent : EngineInstant) :
    InFlightWatch :=
  match self.deadlines.shortest with
  | none => self
  | some shortest =>
    { self with
      sends := self.sends.insert timeSent (earlier self.sends[timeSent]? instantSent)
      nextScan := some (earlier self.nextScan (instantSent + shortest)) }

/-! ## A scan -/

/-- What a scan has found: the sends some order in flight still holds, the next instant one can
fall due, and those that have. -/
structure Scan where
  held : BTreeMap DateTime EngineInstant
  nextScan : Option EngineInstant
  overdue : List InFlightOverdue

variable (self : InFlightWatch) (now : EngineInstant) (timeNow : DateTime)

/-- The instant of a send, taken to be the wall time since before now if it was not logged. -/
def sentAt (timeSent : DateTime) : EngineInstant :=
  (self.sends[timeSent]?).getD (now - (timeNow - timeSent).toNat)

/-- An order of a scan. -/
def scanOrder (scan : Scan) (order : TrackedOrder) : Scan :=
  match order.state.awaits, self.deadlines.get order.key.exchange with
  | some (request, timeSent), some deadline =>
    let sent := (scan.held[timeSent]?).getD (self.sentAt now timeNow timeSent)
    let scan := { scan with held := scan.held.insert timeSent sent }
    let due := sent + deadline
    if now < due then { scan with nextScan := some (earlier scan.nextScan due) }
    else if self.lastScan.all fun last => last < due then
      { scan with
        overdue := scan.overdue ++
          [⟨order.key, request, timeSent, deadline, (now - sent).toNat⟩] }
    else scan
  | _, _ => scan

/-- By the time sent, then the client order id. -/
def sortsBefore (a b : InFlightOverdue) : Bool :=
  a.timeSent < b.timeSent || (a.timeSent = b.timeSent && a.key.cid.val ≤ b.key.cid.val)

/-- The orders of an instrument, those flagged sorted after those of the instruments before it. -/
def scanInstrument (scan : Scan) (instrument : InstrumentOrders) : Scan :=
  let scanned := instrument.tracked.values.foldl (self.scanOrder now timeNow)
    { scan with overdue := [] }
  { scanned with overdue := scan.overdue ++ scanned.overdue.mergeSort sortsBefore }

/-- Flag the orders whose deadline has passed since the last scan. -/
def check (instruments : List InstrumentOrders) : List InFlightOverdue × InFlightWatch :=
  match self.nextScan with
  | none => ([], self)
  | some nextScan =>
    if now < nextScan then ([], self)
    else
      let scan := instruments.foldl (self.scanInstrument now timeNow) ⟨∅, none, []⟩
      (scan.overdue,
        { self with
          lastScan := some ((self.lastScan.map fun last => max last now).getD now)
          nextScan := scan.nextScan
          sends := scan.held })

end InFlightWatch

/-! ## The engine's part -/

/-- The orders of every instrument, and the watch over them. -/
structure Watched where
  instruments : List InstrumentOrders
  watch : InFlightWatch

inductive WatchedEvent where
  /-- Opens sent together. -/
  | sendOpens (requests : List (OrderRequestOpen ExchangeIndex InstrumentIndex))
      (timeSent : DateTime) (instant : EngineInstant)
  /-- Cancels sent together. -/
  | sendCancels (requests : List (OrderRequestCancel ExchangeIndex InstrumentIndex))
      (timeSent : DateTime) (instant : EngineInstant)
  /-- Whatever else becomes of the orders. -/
  | update (instruments : List InstrumentOrders)
  | check (now : EngineInstant) (timeNow : DateTime)

def recordInFlightOpens (instruments : List InstrumentOrders)
    (requests : List (OrderRequestOpen ExchangeIndex InstrumentIndex)) (timeSent : DateTime) :
    List InstrumentOrders :=
  requests.foldl (fun instruments request => instruments.modify request.key.instrument
    fun orders => orders.recordInFlightOpen request timeSent) instruments

def recordInFlightCancels (instruments : List InstrumentOrders)
    (requests : List (OrderRequestCancel ExchangeIndex InstrumentIndex)) (timeSent : DateTime) :
    List InstrumentOrders :=
  requests.foldl (fun instruments request => instruments.modify request.key.instrument
    fun orders => orders.recordInFlightCancel request timeSent) instruments

namespace Watched

def sendOpenRequests (self : Watched)
    (requests : List (OrderRequestOpen ExchangeIndex InstrumentIndex)) (timeSent : DateTime)
    (instant : EngineInstant) : Watched :=
  if requests.isEmpty then self
  else ⟨recordInFlightOpens self.instruments requests timeSent, self.watch.onSent timeSent instant⟩

def sendCancelRequests (self : Watched)
    (requests : List (OrderRequestCancel ExchangeIndex InstrumentIndex)) (timeSent : DateTime)
    (instant : EngineInstant) : Watched :=
  if requests.isEmpty then self
  else ⟨recordInFlightCancels self.instruments requests timeSent,
    self.watch.onSent timeSent instant⟩

def step (self : Watched) : WatchedEvent → Watched
  | .sendOpens requests timeSent instant => self.sendOpenRequests requests timeSent instant
  | .sendCancels requests timeSent instant => self.sendCancelRequests requests timeSent instant
  | .update instruments => { self with instruments }
  | .check now timeNow => { self with watch := (self.watch.check now timeNow self.instruments).2 }

def run (self : Watched) (events : List WatchedEvent) : Watched := events.foldl step self

end Watched

end Rustrade
