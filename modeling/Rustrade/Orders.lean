import Rustrade.Execution.Order
import Rustrade.Lib.BoundedFifo
import Rustrade.Lib.IndexMap
import Rustrade.Lib.Transition

/-!
# The order manager

`Orders` tracks the active orders of an instrument by client order id, and remembers the ids of
the orders that most recently ended so that a late report cannot track one again. Every function
here is one of the source's, arm by arm: the order snapshot with its nine state pairs and its
untracked and terminal branches, the cancel response, the fill, the resync removal, the drain at
expiry and the two in-flight records.

A tracked order is retired under the id its own key carries, which is the id it is tracked under
in every state the functions reach.
-/

set_option autoImplicit false

namespace Rustrade

/-- How many ended orders' ids an `Orders` remembers. -/
abbrev maxRecentlyRetiredOrders : Nat := 64

/-- The ids of the orders an `Orders` most recently saw end, oldest forgotten first. -/
abbrev RecentlyRetired := BoundedFifo ClientOrderId maxRecentlyRetiredOrders

structure Orders (ExchangeKey InstrumentKey : Type) where
  tracked : IndexMap ClientOrderId (Order ExchangeKey InstrumentKey ActiveOrderState)
  retired : RecentlyRetired

namespace Orders

variable {ExchangeKey InstrumentKey : Type}

/-- `Orders::default()`: nothing tracked, nothing remembered. -/
def empty : Orders ExchangeKey InstrumentKey := ⟨.empty, .empty⟩

instance : Inhabited (Orders ExchangeKey InstrumentKey) := ⟨empty⟩

def get? (orders : Orders ExchangeKey InstrumentKey) (cid : ClientOrderId) :
    Option (Order ExchangeKey InstrumentKey ActiveOrderState) :=
  orders.tracked.get? cid

/-! ## The three ways an entry is written -/

/-- Stop tracking `order` and remember it. -/
def retire (orders : Orders ExchangeKey InstrumentKey) (cid : ClientOrderId)
    (order : Order ExchangeKey InstrumentKey ActiveOrderState) :
    Orders ExchangeKey InstrumentKey :=
  ⟨orders.tracked.remove cid, orders.retired.insert order.key.cid⟩

/-- Overwrite the state of a tracked order, and nothing else of it. -/
def setState (orders : Orders ExchangeKey InstrumentKey) (cid : ClientOrderId)
    (order : Order ExchangeKey InstrumentKey ActiveOrderState) (state : ActiveOrderState) :
    Orders ExchangeKey InstrumentKey :=
  { orders with tracked := orders.tracked.insert cid { order with state := state } }

/-- Track `order` as a new entry. -/
def track (orders : Orders ExchangeKey InstrumentKey) (cid : ClientOrderId)
    (order : Order ExchangeKey InstrumentKey ActiveOrderState) :
    Orders ExchangeKey InstrumentKey :=
  { orders with tracked := orders.tracked.insert cid order }

/-! ## Order snapshots -/

/-- The snapshot reports its order never placed, while the order is tracked as one the venue has
    reported working. -/
def isContradictedNeverPlaced (orders : Orders ExchangeKey InstrumentKey)
    (snapshot : Order ExchangeKey InstrumentKey OrderState) : Bool :=
  match snapshot.state with
  | .inactive (.openFailed (.notPlaced _)) =>
      match orders.get? snapshot.key.cid with
      | none => false
      | some order =>
          match order.state with
          | .openInFlight _ => false
          | .open _ => true
          | .cancelInFlight cancel => cancel.order.isSome
  | _ => false

/-- A failed open that changes nothing. -/
def isFailedOpenToIgnore (orders : Orders ExchangeKey InstrumentKey)
    (snapshot : Order ExchangeKey InstrumentKey OrderState) : Bool :=
  snapshot.state.isOutcomeUnknown || orders.isContradictedNeverPlaced snapshot

/-- Apply a snapshot of an order that is not tracked: `update` is the order with its active
    state, if it has one. -/
def updateUntracked (orders : Orders ExchangeKey InstrumentKey)
    (snapshot : Order ExchangeKey InstrumentKey OrderState)
    (update : Option (Order ExchangeKey InstrumentKey ActiveOrderState)) :
    Orders ExchangeKey InstrumentKey :=
  let cid := snapshot.key.cid
  match update with
  | none =>
      if orders.retired.contains cid then orders
      else { orders with retired := orders.retired.insert cid }
  | some update =>
      if !update.state.isOpenInFlight && orders.retired.contains cid then orders
      else
        match update.state with
        | .open open_ =>
            if open_.quantityRemaining update.quantity = 0 then
              { orders with retired := orders.retired.insert cid }
            else orders.track cid update
        | .openInFlight _ =>
            { orders with retired := orders.retired.forget cid }.track cid update
        | .cancelInFlight _ => orders.track cid update

/-- Apply an active snapshot `update` to the tracked order `current`, by the pair of states. -/
def updateTracked (orders : Orders ExchangeKey InstrumentKey) (cid : ClientOrderId)
    (current update : Order ExchangeKey InstrumentKey ActiveOrderState) :
    Orders ExchangeKey InstrumentKey :=
  match current.state, update.state with
  | .openInFlight _, .openInFlight _ => orders
  | .openInFlight _, .open open_ =>
      if open_.quantityRemaining update.quantity = 0 then orders.retire cid current
      else orders.setState cid current (.open open_)
  | .openInFlight _, .cancelInFlight cancel => orders.setState cid current (.cancelInFlight cancel)
  | .open _, .openInFlight _ => orders
  | .open held, .open open_ =>
      if held.id.contradicts open_.id then orders
      else if held.isSupersededBy open_ then
        if open_.quantityRemaining update.quantity = 0 then orders.retire cid current
        else orders.setState cid current (.open open_)
      else orders
  | .open held, .cancelInFlight cancel =>
      -- A carried order naming another venue order, or an older state, is dropped; the cancel
      -- is in flight either way.
      let latestOpen := (cancel.order.filter fun carried =>
        !held.id.contradicts carried.id && held.isSupersededBy carried).getD held
      orders.setState cid current (.cancelInFlight ⟨some latestOpen, cancel.timeSent⟩)
  | .cancelInFlight _, .openInFlight _ => orders
  | .cancelInFlight cancel, .open open_ =>
      if cancel.order.any fun held => held.id.contradicts open_.id then orders
      else if cancel.order.all fun held => held.isSupersededBy open_ then
        -- No look at what is left to fill: the order stays tracked with the cancel in flight.
        orders.setState cid current (.cancelInFlight ⟨some open_, cancel.timeSent⟩)
      else orders
  | .cancelInFlight _, .cancelInFlight _ => orders

def updateFromOrderSnapshot (orders : Orders ExchangeKey InstrumentKey)
    (snapshot : Order ExchangeKey InstrumentKey OrderState) : Orders ExchangeKey InstrumentKey :=
  if orders.isFailedOpenToIgnore snapshot then orders
  else
    match orders.get? snapshot.key.cid, snapshot.toActive with
    | none, update => orders.updateUntracked snapshot update
    | some current, none =>
        if snapshot.state.isDuplicateCidRefusal && !current.state.isOpenInFlight then orders
        else orders.retire snapshot.key.cid current
    | some current, some update => orders.updateTracked snapshot.key.cid current update

/-! ## Cancel responses, fills and resync removal -/

def updateFromCancelResponse (orders : Orders ExchangeKey InstrumentKey)
    (response : OrderResponseCancel ExchangeKey InstrumentKey) :
    Orders ExchangeKey InstrumentKey :=
  match orders.get? response.key.cid with
  | none => orders
  | some current =>
      match current.state, response.state with
      | _, .ok _ => orders.retire response.key.cid current
      | .openInFlight _, .error _ => orders
      | .open _, .error _ => orders
      | .cancelInFlight cancel, .error _ =>
          match cancel.order with
          | some open_ => orders.setState response.key.cid current (.open open_)
          -- Not remembered, so the snapshot still owed for the open is applied when it arrives.
          | none => { orders with tracked := orders.tracked.remove response.key.cid }

/-- Advance a tracked order to the cumulative fill one of its trades reports. Also answers
    whether that retired the order. -/
def updateFromFill (orders : Orders ExchangeKey InstrumentKey) (cid : ClientOrderId)
    (orderId : OrderId) (filledQuantity : Decimal) : Orders ExchangeKey InstrumentKey × Bool :=
  match orders.get? cid with
  | none => (orders, false)
  | some order =>
      match order.state with
      | .open open_ =>
          if open_.id.assigned? ≠ some orderId then (orders, false)
          else if filledQuantity ≤ open_.filledQuantity then (orders, false)
          else
            let advanced := { open_ with filledQuantity := filledQuantity }
            if advanced.quantityRemaining order.quantity ≤ 0 then
              ({ tracked := orders.tracked.remove cid, retired := orders.retired.insert cid }, true)
            else (orders.setState cid order (.open advanced), false)
      | _ => (orders, false)

/-- Stop tracking the order under `cid` if it is open as the venue order `id`. -/
def removeOpen (orders : Orders ExchangeKey InstrumentKey) (cid : ClientOrderId)
    (id : VenueOrderId) :
    Orders ExchangeKey InstrumentKey × Option (Order ExchangeKey InstrumentKey ActiveOrderState) :=
  match orders.get? cid with
  | none => (orders, none)
  | some order =>
      match order.state with
      | .open open_ =>
          if open_.id.isSameOrderAs id then
            ({ tracked := orders.tracked.remove cid, retired := orders.retired.insert cid },
              some order)
          else (orders, none)
      | _ => (orders, none)

/-- Drop every tracked order, remembering each in the order the map yields them. -/
def clear (orders : Orders ExchangeKey InstrumentKey) (hash : HashOrder) :
    Orders ExchangeKey InstrumentKey :=
  ⟨.empty, orders.retired.insertAll (hash.arrange orders.tracked.keys)⟩

/-! ## In-flight requests -/

def recordInFlightCancel (orders : Orders ExchangeKey InstrumentKey)
    (request : OrderRequestCancel ExchangeKey InstrumentKey) (timeSent : DateTime) :
    Orders ExchangeKey InstrumentKey :=
  match orders.get? request.key.cid with
  | none => orders
  | some order =>
      match order.state with
      | .cancelInFlight _ => orders
      | state =>
          orders.setState request.key.cid order (.cancelInFlight ⟨state.openMeta, timeSent⟩)

def recordInFlightOpen (orders : Orders ExchangeKey InstrumentKey)
    (request : OrderRequestOpen ExchangeKey InstrumentKey) (timeSent : DateTime) :
    Orders ExchangeKey InstrumentKey :=
  if orders.tracked.contains request.key.cid then orders
  else
    { orders with retired := orders.retired.forget request.key.cid }.track request.key.cid
      (Order.openInFlight request timeSent)

/-! ## Runs -/

/-- One call on an `Orders`. -/
inductive Op (ExchangeKey InstrumentKey : Type) where
  | recordInFlightOpen (request : OrderRequestOpen ExchangeKey InstrumentKey) (timeSent : DateTime)
  | recordInFlightCancel (request : OrderRequestCancel ExchangeKey InstrumentKey)
      (timeSent : DateTime)
  | updateFromOrderSnapshot (snapshot : Order ExchangeKey InstrumentKey OrderState)
  | updateFromCancelResponse (response : OrderResponseCancel ExchangeKey InstrumentKey)
  | updateFromFill (cid : ClientOrderId) (orderId : OrderId) (filledQuantity : Decimal)
  | removeOpen (cid : ClientOrderId) (id : VenueOrderId)
  | clear (hash : HashOrder)

def step (orders : Orders ExchangeKey InstrumentKey) :
    Op ExchangeKey InstrumentKey → Orders ExchangeKey InstrumentKey
  | .recordInFlightOpen request timeSent => orders.recordInFlightOpen request timeSent
  | .recordInFlightCancel request timeSent => orders.recordInFlightCancel request timeSent
  | .updateFromOrderSnapshot snapshot => orders.updateFromOrderSnapshot snapshot
  | .updateFromCancelResponse response => orders.updateFromCancelResponse response
  | .updateFromFill cid orderId filledQuantity =>
      (orders.updateFromFill cid orderId filledQuantity).1
  | .removeOpen cid id => (orders.removeOpen cid id).1
  | .clear hash => orders.clear hash

/-- The state after `ops`, from `orders`. -/
abbrev run (orders : Orders ExchangeKey InstrumentKey) (ops : List (Op ExchangeKey InstrumentKey)) :
    Orders ExchangeKey InstrumentKey := Transition.run step orders ops

theorem run_cons {orders : Orders ExchangeKey InstrumentKey} {op : Op ExchangeKey InstrumentKey}
    {ops : List (Op ExchangeKey InstrumentKey)} :
    orders.run (op :: ops) = (orders.step op).run ops := rfl

theorem run_append {orders : Orders ExchangeKey InstrumentKey}
    {ops ops' : List (Op ExchangeKey InstrumentKey)} :
    orders.run (ops ++ ops') = (orders.run ops).run ops' := Transition.run_append

theorem run_concat {orders : Orders ExchangeKey InstrumentKey}
    {ops : List (Op ExchangeKey InstrumentKey)} {op : Op ExchangeKey InstrumentKey} :
    orders.run (ops ++ [op]) = (orders.run ops).step op := Transition.run_concat

/-! ## Lookups after a write -/

section Lookup

variable {orders : Orders ExchangeKey InstrumentKey} {cid c : ClientOrderId}
  {order : Order ExchangeKey InstrumentKey ActiveOrderState} {state : ActiveOrderState}

@[simp] theorem get?_empty : (empty : Orders ExchangeKey InstrumentKey).get? c = none := rfl

theorem get?_retire :
    (orders.retire cid order).get? c = if c = cid then none else orders.get? c :=
  IndexMap.get?_remove

theorem get?_setState :
    (orders.setState cid order state).get? c =
      if c = cid then some { order with state := state } else orders.get? c :=
  IndexMap.get?_insert

theorem get?_track :
    (orders.track cid order).get? c = if c = cid then some order else orders.get? c :=
  IndexMap.get?_insert

@[simp] theorem retired_retire :
    (orders.retire cid order).retired = orders.retired.insert order.key.cid := rfl

@[simp] theorem retired_setState : (orders.setState cid order state).retired = orders.retired := rfl

@[simp] theorem retired_track : (orders.track cid order).retired = orders.retired := rfl

@[simp] theorem get?_clear {hash : HashOrder} : (orders.clear hash).get? c = none := rfl

end Lookup

/-! ## A sample order

The order the concrete runs of the later modules are about. -/

namespace Sample

def cid : ClientOrderId := ⟨"c-1"⟩

def key : OrderKey Unit Unit := ⟨(), (), ⟨"trend"⟩, cid⟩

/-- The order with quantity one, in a given state. -/
def order {State : Type} (state : State) : Order Unit Unit State :=
  { key := key, side := .buy, price := some 100, quantity := 1, kind := .limit
    timeInForce := .goodUntilCancelled false, state := state }

/-- A report that it works under `id`. -/
def reportsOpen (id : VenueOrderId) (timeExchange : DateTime) (filledQuantity : Decimal) :
    Op Unit Unit :=
  .updateFromOrderSnapshot (order (.active (.open ⟨id, timeExchange, filledQuantity⟩)))

/-- Its open request, recorded as sent. -/
def sends : Op Unit Unit :=
  .recordInFlightOpen
    ⟨key, ⟨.buy, some 100, 1, .limit, .goodUntilCancelled false, none, .no⟩⟩ 0

def sendsCancel (timeSent : DateTime) : Op Unit Unit :=
  .recordInFlightCancel ⟨key, ⟨none⟩⟩ timeSent

def refusesCancel : Op Unit Unit :=
  .updateFromCancelResponse ⟨key, .error (.rejected .orderAlreadyFullyFilled)⟩

/-- An order of quantity one is sent, acknowledged, cancelled, and reported filled while the
    cancel is in flight; the venue then refuses the cancel. -/
def refusedCancelRun : List (Op Unit Unit) :=
  [sends, reportsOpen (.assigned ⟨"v-1"⟩) 1 0, sendsCancel 2,
    reportsOpen (.assigned ⟨"v-1"⟩) 3 1, refusesCancel]

end Sample

end Orders

end Rustrade
