import Rustrade.ExecutionManager.Run
import Rustrade.Mock.Inputs
import Rustrade.Mock.Snapshot

/-!
# What a simulation has scheduled

One queue holds what the venues owe the engine and what the venues have yet to do, in the order of
the instant each comes due, its class within the instant, and the order it was scheduled in.

An account event is queued and shown in the venue's own names. The engine is shown the same event
under its indices, which an event with a name the indexer does not have cannot be given.
-/

set_option autoImplicit false

namespace Rustrade.Sim

open Mock

/-- How the driver is misconfigured, or what its venue panicked with. -/
inductive SimFault where
  | unregisteredVenue (exchange : ExchangeIndex)
  | nonConfiguredKey
  | unindexable
  | unrepresentable (time : DateTime) (offset : ℤ)
  | venue (fault : Fault)
  deriving DecidableEq

/-- The instants a `DateTime` can hold. -/
class DateTimeRange where
  holds : DateTime → Bool

/-- What a venue owes. A response carries the place in the queue of the request it answers. -/
inductive Deliverable where
  | account (event : Mock.AccountEvent)
  | openResponse (request : ℕ) (response : OpenResponse)
  | cancelResponse (request : ℕ) (response : SimulatedVenue.CancelResponse)
  deriving DecidableEq

/-- The request it answers. -/
def Deliverable.answers? : Deliverable → Option ℕ
  | .account _ => none
  | .openResponse request _ => some request
  | .cancelResponse request _ => some request

inductive Action where
  | open (request : OpenRequest)
  | cancel (request : SimulatedVenue.CancelRequest)
  | wake
  deriving DecidableEq

inductive Payload where
  | deliver (deliverable : Deliverable)
  | act (action : Action)
  deriving DecidableEq

def Payload.isAct : Payload → Bool
  | .act _ => true
  | .deliver _ => false

def CLASS_ACTION : ℕ := 0

def CLASS_AUX : ℕ := 1

def CLASS_ACCOUNT : ℕ := 2

def CLASS_MARKET : ℕ := 3

structure ScheduledEvent where
  time : DateTime
  class_ : ℕ
  seq : ℕ
  exchange : ExchangeIndex
  payload : Payload
  deriving DecidableEq

/-- When an entry is due: its instant and class. -/
abbrev Ordering := DateTime × ℕ

/-- Whether `a` is due no later than `b`. -/
def dueBy (a b : Ordering) : Bool := a.1 < b.1 || (a.1 = b.1 && a.2 ≤ b.2)

namespace ScheduledEvent

def ordering (self : ScheduledEvent) : Ordering := (self.time, self.class_)

/-- Whether the key of `self` is before that of `other`. -/
def before (self other : ScheduledEvent) : Bool :=
  self.time < other.time ||
    (self.time = other.time && (self.class_ < other.class_ ||
      (self.class_ = other.class_ && self.seq < other.seq)))

end ScheduledEvent

/-- The queue, its earliest entry first, and the number of the next entry. -/
structure Schedule where
  pending : List ScheduledEvent
  seq : ℕ

namespace Schedule

def empty : Schedule := ⟨[], 0⟩

def place (event : ScheduledEvent) : List ScheduledEvent → List ScheduledEvent
  | [] => [event]
  | next :: rest =>
    if event.before next then event :: next :: rest else next :: place event rest

def push (self : Schedule) (time : DateTime) (class_ : ℕ) (exchange : ExchangeIndex)
    (payload : Payload) : Schedule where
  pending := place ⟨time, class_, self.seq, exchange, payload⟩ self.pending
  seq := self.seq + 1

/-- The account events, in the order the venue gave them. -/
def scheduleEvents (exchange : ExchangeIndex) (time : DateTime) :
    List Mock.AccountEvent → Schedule → Schedule
  | [], schedule => schedule
  | event :: events, schedule =>
    scheduleEvents exchange time events
      (schedule.push time CLASS_ACCOUNT exchange (.deliver (.account event)))

/-- Everything one request owes: its account events, then its response. -/
def scheduleOutcome (self : Schedule) (exchange : ExchangeIndex) (time : DateTime)
    (events : List Mock.AccountEvent) (response : Deliverable) : Schedule :=
  (scheduleEvents exchange time events self).push time CLASS_ACCOUNT exchange (.deliver response)

end Schedule

def checkedOffset [DateTimeRange] (time : DateTime) (offset : ℤ) : Except SimFault DateTime :=
  if DateTimeRange.holds (time + offset) then .ok (time + offset)
  else .error (.unrepresentable time offset)

/-- A venue's panic ends the run. -/
def orPanic {α : Type} : Except Fault α → Except SimFault α
  | .ok a => .ok a
  | .error fault => .error (.venue fault)

/-! ## Wake-ups -/

/-- The wake-ups each venue has queued for its own next deadline. -/
structure Wakeups where
  queued : ExchangeIndex → Option DateTime
  floor : DateTime
  stopped : Bool

namespace Wakeups

def new (floor : DateTime) : Wakeups := ⟨fun _ => none, floor, false⟩

/-- Queue a wake-up at the venue's next deadline, unless one at or before it is queued. -/
def arm (self : Wakeups) (schedule : Schedule) (exchange : ExchangeIndex) (venue : SimulatedVenue) :
    Wakeups × Schedule :=
  if self.stopped then (self, schedule)
  else match venue.nextDeadline with
  | none => (self, schedule)
  | some deadline =>
    let deadline := max deadline self.floor
    if (self.queued exchange).any fun queued => queued ≤ deadline then (self, schedule)
    else
      ({ self with queued := Function.update self.queued exchange (some deadline) },
        schedule.push deadline CLASS_ACTION exchange (.act .wake))

/-- Whether a wake-up popped is the earliest one queued for its venue, which it then no longer
is. -/
def take (self : Wakeups) (exchange : ExchangeIndex) (time : DateTime) : Wakeups × Bool :=
  if self.queued exchange = some time then
    ({ self with queued := Function.update self.queued exchange none }, true)
  else (self, false)

def stop (self : Wakeups) : Wakeups := { self with queued := fun _ => none, stopped := true }

end Wakeups

end Rustrade.Sim
