import Rustrade.Mock.Basic

/-!
# The open orders of a simulated venue

Orders by id, and the four indices over them: the price-time queues, the deadlines, the orders
held on each instrument, and those held with a price, which are off the queues. A queue is sorted
by its positions, so it lists its orders best first.
-/

set_option autoImplicit false

namespace Rustrade.Mock

/-- The balance a venue is holding against one order. -/
structure Reservation where
  asset : AssetNameExchange
  amount : Decimal
  borrowed : Decimal
  excessBorrowed : Decimal
  effect : MarginEffect
  unreportedInterest : List CashFlow
  deriving DecidableEq

/-- The loan the order took and has not spent. -/
def Reservation.loan (self : Reservation) : Decimal := self.borrowed + self.excessBorrowed

/-- An open order and what the venue is holding against it: nothing for one that was seeded. -/
structure RestingOrder where
  order : OpenOrder
  reservation : Option Reservation
  deriving DecidableEq

/-- An order refused because another is open under its id. -/
structure AlreadyResting where
  refused : RestingOrder

/-! ## Keys of the indices -/

instance : LinearOrder Side :=
  LinearOrder.lift' (fun | .buy => (0 : Nat) | .sell => 1) fun a b => by cases a <;> cases b <;> simp

/-- An order's place in a queue: price, then arrival, then insertion. -/
structure QueuePosition where
  priceRank : Decimal
  timeExchange : DateTime
  seq : Nat
  deriving DecidableEq

namespace QueuePosition

instance : LinearOrder QueuePosition :=
  LinearOrder.lift' (fun p => toLex (p.priceRank, toLex (p.timeExchange, p.seq))) fun a b h => by
    cases a; cases b; cases h; rfl

/-- A buy ranks by its negated price, so the best of either side comes first. -/
def new (side : Side) (price : Decimal) (timeExchange : DateTime) (seq : Nat) : QueuePosition :=
  ⟨match side with
    | .buy => -price
    | .sell => price, timeExchange, seq⟩

end QueuePosition

/-- One side of one instrument's book. -/
structure QueueKey where
  instrument : InstrumentNameExchange
  side : Side
  deriving DecidableEq

instance : LinearOrder QueueKey :=
  LinearOrder.lift' (fun k => toLex (k.instrument, k.side)) fun a b h => by
    cases a; cases b; cases h; rfl

structure Deadline where
  expiry : DateTime
  cid : ClientOrderId
  deriving DecidableEq

instance : LinearOrder Deadline :=
  LinearOrder.lift' (fun d => toLex (d.expiry, d.cid)) fun a b h => by
    cases a; cases b; cases h; rfl

/-! ## The book -/

structure OpenOrders where
  byId : BTreeMap ClientOrderId RestingOrder
  queues : BTreeMap QueueKey (BTreeMap QueuePosition ClientOrderId)
  expiries : BTreeSet Deadline
  held : BTreeMap InstrumentNameExchange (List ClientOrderId)
  unqueued : BTreeSet ClientOrderId
  seq : Nat

/-- The instant an order retires at of its own accord. -/
def deadlineOf (order : OpenOrder) : Option DateTime :=
  match order.timeInForce with
  | .goodTillDate expiry => some expiry
  | _ => none

/-- Where an open order stands. -/
inductive OrderPlacement where
  | queued
  | held
  | unranked
  deriving DecidableEq, Repr

structure OpenOrderEntry where
  resting : RestingOrder
  placement : OrderPlacement
  deriving DecidableEq

namespace OpenOrders

def default : OpenOrders := ⟨∅, ∅, ∅, ∅, ∅, 0⟩

/-! ### Queries -/

def contains (self : OpenOrders) (cid : ClientOrderId) : Bool := self.byId.contains cid

def get (self : OpenOrders) (cid : ClientOrderId) : Option OpenOrder :=
  self.byId[cid]?.map RestingOrder.order

def iter (self : OpenOrders) : List OpenOrder := self.byId.toList.map fun e => e.2.order

def holds (self : OpenOrders) (instrument : InstrumentNameExchange) : Bool :=
  self.held.contains instrument

def heldOn (self : OpenOrders) (instrument : InstrumentNameExchange) : List ClientOrderId :=
  self.held[instrument]?.getD []

/-- Every held order, by instrument and then by arrival. -/
def heldAll (self : OpenOrders) : List ClientOrderId := self.held.toList.flatMap Prod.snd

/-- Every order whose deadline `now` has reached, earliest first. -/
def expiredAsOf (self : OpenOrders) (now : DateTime) : List ClientOrderId :=
  (self.expiries.toList.takeWhile fun deadline => deadline.expiry ≤ now).map Deadline.cid

def nextExpiry (self : OpenOrders) : Option DateTime :=
  self.expiries.toList.head?.map Deadline.expiry

/-- One side of an instrument's book, best price first and earliest first within a price. -/
def resting (self : OpenOrders) (instrument : InstrumentNameExchange) (side : Side) :
    List OpenOrder :=
  match self.queues[(⟨instrument, side⟩ : QueueKey)]? with
  | none => []
  | some queue => queue.toList.filterMap fun e => self.get e.2

/-! ### Entering the book -/

/-- Enter `order`, on its queue if it has a price and `queue` asks for that. -/
def index (self : OpenOrders) (order : OpenOrder) (reservation : Option Reservation)
    (queue : Bool) : Except AlreadyResting OpenOrders :=
  let cid := order.key.cid
  match self.byId[cid]? with
  | some _ => .error ⟨⟨order, reservation⟩⟩
  | none =>
      let expiries := match deadlineOf order with
        | some expiry => self.expiries.insert ⟨expiry, cid⟩
        | none => self.expiries
      let (queues, seq) := match order.price.filter fun _ => queue with
        | some price =>
            let key : QueueKey := ⟨order.key.instrument, order.side⟩
            let position :=
              QueuePosition.new order.side price order.state.timeExchange (self.seq + 1)
            (self.queues.insert key ((self.queues[key]?.getD ∅).insert position cid), self.seq + 1)
        | none => (self.queues, self.seq)
      .ok { self with
        byId := self.byId.insert cid ⟨order, reservation⟩
        queues
        expiries
        seq }

def insert (self : OpenOrders) (order : OpenOrder) (reservation : Option Reservation) :
    Except AlreadyResting OpenOrders :=
  self.index order reservation true

/-- Hold `order` behind every order already held on its instrument. -/
def hold (self : OpenOrders) (order : OpenOrder) (reservation : Option Reservation) :
    Except AlreadyResting OpenOrders := do
  let instrument := order.key.instrument
  let cid := order.key.cid
  let book ← self.index order reservation false
  return { book with
    unqueued := if order.price.isSome then book.unqueued.insert cid else book.unqueued
    held := book.held.insert instrument (book.heldOn instrument ++ [cid]) }

/-- The orders held on `instrument`, earliest first, and the book no longer holding them. -/
def takeHeld (self : OpenOrders) (instrument : InstrumentNameExchange) :
    List ClientOrderId × OpenOrders :=
  (self.heldOn instrument, { self with held := self.held.erase instrument })

/-! ### Leaving the book -/

/-- Take `order` out of the held index, if it is still there. -/
def unhold (self : OpenOrders) (order : OpenOrder) : OpenOrders :=
  match self.held[order.key.instrument]? with
  | none => self
  | some held =>
      let left := held.filter fun cid => cid ≠ order.key.cid
      { self with
        held :=
          if left.isEmpty then self.held.erase order.key.instrument
          else self.held.insert order.key.instrument left }

variable [Build]

/-- Take `order` out of its queue. Its position is found by value, from the first one its price
    and arrival allow. -/
def dequeue (self : OpenOrders) (order : OpenOrder) : Except Fault OpenOrders :=
  match order.price with
  | none => .ok self
  | some price =>
      let key : QueueKey := ⟨order.key.instrument, order.side⟩
      match self.queues[key]? with
      | none => .ok self
      | some queue => do
          let from' := QueuePosition.new order.side price order.state.timeExchange 0
          let position :=
            (queue.toList.find? fun e => from' ≤ e.1 && e.2 = order.key.cid).map Prod.fst
          debugAssert .dequeue position.isSome
          let left := match position with
            | some position => queue.erase position
            | none => queue
          return { self with
            queues := if left.isEmpty then self.queues.erase key else self.queues.insert key left }

/-- Take `order` out of the index it stands in: its queue, or the held index. -/
def unrank (self : OpenOrders) (order : OpenOrder) : Except Fault OpenOrders :=
  let cid := order.key.cid
  if self.unqueued.contains cid || order.price.isNone then
    .ok ({ self with unqueued := self.unqueued.erase cid }.unhold order)
  else self.dequeue order

/-- Take `order` out of every index that ranks it. -/
def unindex (self : OpenOrders) (order : OpenOrder) : Except Fault OpenOrders := do
  let cid := order.key.cid
  let unranked ← self.unrank order
  return match deadlineOf order with
    | some expiry => { unranked with expiries := unranked.expiries.erase ⟨expiry, cid⟩ }
    | none => unranked

/-- Remove the order open under `cid`, with whatever is held against it. -/
def remove (self : OpenOrders) (cid : ClientOrderId) :
    Except Fault (Option RestingOrder × OpenOrders) :=
  match self.byId[cid]? with
  | none => .ok (none, self)
  | some resting => do
      let book ← { self with byId := self.byId.erase cid }.unindex resting.order
      return (some resting, book)

/-! ### Listing and rebuilding -/

omit [Build]

/-- Every open order with where it stands: the queued in the order they were queued, the held as
    `heldAll` lists them, then the rest by id. -/
def entries (self : OpenOrders) : List OpenOrderEntry :=
  let queued := ((self.queues.toList.flatMap fun e => e.2.toList).mergeSort
    fun a b => a.1.seq ≤ b.1.seq).map fun e => (e.2, OrderPlacement.queued)
  let isHeld (cid : ClientOrderId) (resting : RestingOrder) : Bool :=
    (self.heldOn resting.order.key.instrument).contains cid
  let taken := self.unqueued.toList.filter fun cid =>
    self.byId[cid]?.any fun resting => !isHeld cid resting
  let held := (self.heldAll ++ taken).map fun cid => (cid, OrderPlacement.held)
  let unranked := (self.byId.toList.filter fun e =>
    e.2.order.price.isNone && !isHeld e.1 e.2).map fun e => (e.1, OrderPlacement.unranked)
  (queued ++ held ++ unranked).filterMap fun e =>
    self.byId[e.1]?.map fun resting => ⟨resting, e.2⟩

/-- Enter one listed order where it stood. -/
def enter (self : OpenOrders) (entry : OpenOrderEntry) : Except AlreadyResting OpenOrders :=
  let order := entry.resting.order
  let reservation := entry.resting.reservation
  match entry.placement with
  | .queued => self.insert order reservation
  | .held => self.hold order reservation
  | .unranked => self.index order reservation false

def fromEntries (entries : List OpenOrderEntry) : Except AlreadyResting OpenOrders :=
  entries.foldlM enter default

end OpenOrders

/-- An order whose state is `Open`. -/
def asOpen (order : VenueOrder OrderState) : Option OpenOrder :=
  match order.state with
  | .active (.open state) => some { order with state }
  | _ => none

end Rustrade.Mock
