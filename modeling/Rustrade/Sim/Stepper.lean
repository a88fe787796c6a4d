import Rustrade.Sim.Core

/-!
# The simulation stepper

`SimStepper::step`: the driver is handed every event of one instant, and returns once everything due
by that instant is delivered. Its loop may be endless, where the venues and the engine keep answering
each other, so it is given the turns it may take.
-/

set_option autoImplicit false

namespace Rustrade.Sim

open Mock

/-- Why a call failed. The stepper takes no further steps. -/
inductive SimStepError where
  | notLater (time previous : DateTime)
  | offInstant (time found : DateTime)
  | misconfigured (fault : SimFault)
  | finished
  | feedbackLoop (exchange : ExchangeIndex) (time : DateTime)

/-- How far a call runs the queue once its own events are delivered. -/
inductive Until where
  | instant (time : DateTime)
  | drained

def misconfigured {α : Type} : Except SimFault α → Except SimStepError α
  | .ok a => .ok a
  | .error fault => .error (.misconfigured fault)

/-- The instant an event states it belongs to, for the events that state one. -/
def stamp {MarketKind Other : Type} : SourceEvent MarketKind Other → Option DateTime
  | .market event => some event.timeExchange
  | .auxiliary stamp _ => stamp
  | .marketReconnecting _ | .account _ _ => none

section

variable {MarketKind Other : Type} [VenueMarketUpdate MarketKind]

/-- Whether the queue's earliest entry comes due by `time`. -/
def SimCore.dueBy (self : SimCore MarketKind Other) (time : DateTime) : Bool :=
  self.schedule.pending.head?.any fun next => next.time ≤ time

end

structure SimStepper (MarketKind Other : Type) [VenueMarketUpdate MarketKind] where
  core : SimCore MarketKind Other
  sessionStart : DateTime
  /-- The instant of the most recent step. -/
  instant : Option DateTime

/-- Where a turn of the loop ends: with some of the batch left, or the loop. -/
inductive Turn (MarketKind Other : Type) [VenueMarketUpdate MarketKind] where
  | continued (core : SimCore MarketKind Other) (batch : List (SourceEvent MarketKind Other))
  | returned (core : SimCore MarketKind Other)

namespace SimStepper

variable {MarketKind Other : Type} [VenueMarketUpdate MarketKind]

def new (core : SimCore MarketKind Other) : SimStepper MarketKind Other :=
  ⟨core, core.clock, none⟩

variable (engine : Engine MarketKind Other) (core : SimCore MarketKind Other)
  (batch : List (SourceEvent MarketKind Other)) (until_ : Until)

/-- Whether the queue's earliest entry, if there is one, is popped next. -/
def queueLeads : Bool :=
  -- Not yet due, so what is due before it is in the queue.
  core.deferred.isSome ||
    match batch, until_ with
    | event :: _, .instant time => core.leads (time, sourceClass event)
    | [], .instant time => core.dueBy time
    | _, .drained => true

variable [DateTimeRange] [Build] [RandomStream] [DecimalScale]

def popNext : Except SimStepError (Turn MarketKind Other) :=
  match core.checkFeedback with
  | some next => .error (.feedbackLoop next.exchange next.time)
  | none => do
    let (core, step) ← misconfigured core.pop
    match step with
    | .emitted event => return .continued (core.showTo engine event) batch
    | .acted | .woken => return .continued core batch
    | .empty => match until_ with
      | .instant _ => return .returned core
      | .drained => do
        let (core, scheduled) ← misconfigured core.expireHeld
        if scheduled then return .continued core batch else return .returned core

/-- The batch's next event. -/
def routeNext (time : DateTime) (event : SourceEvent MarketKind Other) :
    Except SimStepError (Turn MarketKind Other) := do
  let (core, event) ← misconfigured ((core.record (.drew ⟨event, time⟩)).routeSource time event)
  match event with
  | some event => return .continued (core.showTo engine (.source event)) batch
  | none => return .continued core batch

/-- A turn of the loop once the requests are drained. -/
def turn : Except SimStepError (Turn MarketKind Other) :=
  match core.takeDeferred with
  | some (core, event) => .ok (.continued (core.showTo engine (.source event)) batch)
  | none =>
    if queueLeads core batch until_ then popNext engine core batch until_
    else match batch, until_ with
    | event :: batch, .instant time => routeNext engine core batch time event
    | _, _ => .ok (.returned core)

def loopTurn : Except SimStepError (Turn MarketKind Other) :=
  match core.seeding with
  | (exchange, snapshot) :: seeding =>
    .ok (.continued ({ core with seeding }.showTo engine (.seeding exchange snapshot)) batch)
  | [] => do
    let (core, drain) ← misconfigured core.drainRequests
    match drain with
    | .abandon => .error .finished
    | .continue => turn engine core batch until_

/-- Deliver the batch, then whatever else is due: where that leaves the core, if the turns do. -/
def run : ℕ → SimCore MarketKind Other → List (SourceEvent MarketKind Other) →
    Except SimStepError (Option (SimCore MarketKind Other))
  | 0, _, _ => .ok none
  | turns + 1, core, batch => do
    match ← loopTurn engine core batch until_ with
    | .continued core batch => run turns core batch
    | .returned core => return some core

variable (self : SimStepper MarketKind Other) (turns : ℕ)

/-- Advance to `time`, showing the engine the events, all at that instant. -/
def step (time : DateTime) (events : List (SourceEvent MarketKind Other)) :
    Except SimStepError (Option (SimStepper MarketKind Other)) :=
  let core := { self.core with sinceSource := 0 }
  let previous := self.instant.getD self.sessionStart
  if time < previous || self.instant = some time then .error (.notLater time previous)
  else match (events.filterMap stamp).find? fun found => found ≠ time with
  | some found => .error (.offInstant time found)
  | none => do
    let batch := events.mergeSort fun a b => sourceClass a ≤ sourceClass b
    match ← run engine (.instant time) turns core batch with
    | none => return none
    | some core =>
      -- An instant with no market data has nothing that would move the clock.
      return some { self with
        core := { core with clock := max core.clock time }
        instant := some time }

/-- A step at each instant in turn. -/
def steps : SimStepper MarketKind Other → List (DateTime × List (SourceEvent MarketKind Other)) →
    Except SimStepError (Option (SimStepper MarketKind Other))
  | self, [] => .ok (some self)
  | self, (time, events) :: rest => do
    match ← self.step engine turns time events with
    | none => return none
    | some self => steps self rest

end SimStepper

end Rustrade.Sim
