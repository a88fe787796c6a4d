import Rustrade.Decimal

/-!
# Orders, their states and the requests that make them

The order vocabulary of the execution crate: the three kinds of identifier, the states an order
can be in, the order itself, and the open and cancel requests with their answers. The keys that
name an exchange and an instrument stay parameters, as in the source; nothing here compares them.

An error is kept as the variant it is. No function of the state machine reads the text or the
measurements an error carries, so those are left out.
-/

set_option autoImplicit false

namespace Rustrade

-- How many ended orders each memory of them holds.
instance (priority := 2000) endedOrders_neZero : NeZero 64 := ⟨by decide⟩

/-! ## Identifiers -/

/-- The id an order is sent under, minted by this engine. -/
structure ClientOrderId where
  val : String
  deriving DecidableEq, Repr

/-- A venue's own identifier for one order. -/
structure OrderId where
  val : String
  deriving DecidableEq, Repr

structure StrategyId where
  val : String
  deriving DecidableEq, Repr

/-- The key of one position slot. -/
structure PositionId where
  val : String
  deriving DecidableEq, Repr

/-- The slot of every netting-mode position. -/
def PositionId.netting : PositionId := ⟨"netting"⟩

/-- How an order accepted by a venue can be addressed. -/
inductive VenueOrderId where
  | assigned (id : OrderId)
  | clientAssigned
  deriving DecidableEq, Repr

namespace VenueOrderId

/-- The venue's own identifier, if it assigned one. -/
def assigned? : VenueOrderId → Option OrderId
  | .assigned id => some id
  | .clientAssigned => none

/-- The two carry an identifier each and these agree. -/
def isSameOrderAs (self other : VenueOrderId) : Bool :=
  match self.assigned?, other.assigned? with
  | some lhs, some rhs => lhs = rhs
  | _, _ => false

/-- The two carry an identifier each and these differ. -/
def contradicts (self other : VenueOrderId) : Bool :=
  match self.assigned?, other.assigned? with
  | some lhs, some rhs => lhs ≠ rhs
  | _, _ => false

@[simp] theorem assigned?_assigned {id : OrderId} : (assigned id).assigned? = some id := rfl

@[simp] theorem assigned?_clientAssigned : clientAssigned.assigned? = none := rfl

theorem assigned?_eq_some {v : VenueOrderId} {id : OrderId} :
    v.assigned? = some id ↔ v = .assigned id := by
  cases v <;> simp

@[simp] theorem contradicts_assigned {a b : OrderId} :
    (assigned a).contradicts (assigned b) = decide (a ≠ b) := by
  simp [contradicts]

@[simp] theorem contradicts_clientAssigned_left {v : VenueOrderId} :
    clientAssigned.contradicts v = false := rfl

@[simp] theorem contradicts_clientAssigned_right {v : VenueOrderId} :
    v.contradicts clientAssigned = false := by
  cases v <;> rfl

end VenueOrderId

inductive Side where
  | buy
  | sell
  deriving DecidableEq, Repr

/-! ## Errors -/

inductive ConnectivityError where
  | exchangeOffline
  | timeout
  | socket
  deriving DecidableEq, Repr

inductive ApiError where
  | assetInvalid
  | instrumentInvalid
  | rateLimit
  | capacityExceeded
  | unauthenticated
  | balanceInsufficient
  | orderRejected
  | orderAlreadyCancelled
  | orderAlreadyFullyFilled
  | orderAlreadyExpired
  | duplicateClientOrderId
  | requestRejected
  | borrowRejected
  deriving DecidableEq, Repr

inductive NotPlacedReason where
  | notSent (error : ConnectivityError)
  | unknownToVenue
  deriving DecidableEq, Repr

inductive OrderError where
  | connectivity (error : ConnectivityError)
  | notPlaced (reason : NotPlacedReason)
  | rejected (error : ApiError)
  | unsupportedOrderType
  | invalidPrecision
  | outOfBounds
  | unsupportedMarginEffect
  deriving DecidableEq, Repr

/-- Only a connectivity failure leaves the order's fate open; every other error says it was not
    placed. -/
def OrderError.isOutcomeUnknown : OrderError → Bool
  | .connectivity _ => true
  | _ => false

/-! ## Order states -/

structure OpenInFlight where
  timeSent : DateTime
  deriving DecidableEq

/-- A working order, as the venue last reported it. `filledQuantity` is cumulative. -/
structure Open where
  id : VenueOrderId
  timeExchange : DateTime
  filledQuantity : Decimal
  deriving DecidableEq

namespace Open

def quantityRemaining (self : Open) (initialQuantity : Decimal) : Decimal :=
  initialQuantity - self.filledQuantity

/-- `update` may replace `self`: it reports no less filled, and is stamped no earlier or reports
    strictly more. -/
def isSupersededBy (self update : Open) : Bool :=
  if update.filledQuantity < self.filledQuantity then false
  else self.timeExchange ≤ update.timeExchange || self.filledQuantity < update.filledQuantity

theorem isSupersededBy_iff {self update : Open} :
    self.isSupersededBy update = true ↔
      self.filledQuantity ≤ update.filledQuantity ∧
        (self.timeExchange ≤ update.timeExchange ∨
          self.filledQuantity < update.filledQuantity) := by
  unfold isSupersededBy
  split
  · rename_i h; simp [not_le.2 h]
  · rename_i h; simp [not_lt.1 h]

end Open

/-- A cancel awaiting its answer, with the working order it would end, if the venue has reported
    one. -/
structure CancelInFlight where
  order : Option Open
  timeSent : DateTime
  deriving DecidableEq

inductive ActiveOrderState where
  | openInFlight (state : OpenInFlight)
  | open (state : Open)
  | cancelInFlight (state : CancelInFlight)
  deriving DecidableEq

namespace ActiveOrderState

def openMeta : ActiveOrderState → Option Open
  | .openInFlight _ => none
  | .open state => some state
  | .cancelInFlight cancel => cancel.order

def isOpenInFlight : ActiveOrderState → Bool
  | .openInFlight _ => true
  | _ => false

@[simp] theorem openMeta_openInFlight {s : OpenInFlight} : (openInFlight s).openMeta = none := rfl

@[simp] theorem openMeta_open {s : Open} : (ActiveOrderState.open s).openMeta = some s := rfl

@[simp] theorem openMeta_cancelInFlight {s : CancelInFlight} :
    (cancelInFlight s).openMeta = s.order := rfl

end ActiveOrderState

structure Cancelled where
  id : OrderId
  timeExchange : DateTime
  filledQuantity : Option Decimal
  deriving DecidableEq

structure Filled where
  id : OrderId
  timeExchange : DateTime
  filledQuantity : Decimal
  avgPrice : Option Decimal
  deriving DecidableEq

structure Expired where
  id : OrderId
  timeExchange : DateTime
  filledQuantity : Option Decimal
  deriving DecidableEq

inductive InactiveOrderState where
  | cancelled (state : Cancelled)
  | fullyFilled (state : Filled)
  | openFailed (error : OrderError)
  | expired (state : Expired)
  deriving DecidableEq

inductive OrderState where
  | active (state : ActiveOrderState)
  | inactive (state : InactiveOrderState)
  deriving DecidableEq

/-- The working order a report describes, if it describes one. -/
def OrderState.openMeta : OrderState → Option Open
  | .active state => state.openMeta
  | .inactive _ => none

/-- A failed open whose fate is not known. -/
def OrderState.isOutcomeUnknown : OrderState → Bool
  | .inactive (.openFailed error) => error.isOutcomeUnknown
  | _ => false

/-- A venue's refusal of an open request because its client order id is in use. -/
def OrderState.isDuplicateCidRefusal : OrderState → Bool
  | .inactive (.openFailed (.rejected .duplicateClientOrderId)) => true
  | _ => false

/-! ## Orders and requests -/

inductive TrailingOffsetType where
  | absolute
  | percentage
  | basisPoints
  deriving DecidableEq

inductive ConditionalFamily where
  | stop
  | stopLimit
  | takeProfit
  | takeProfitLimit
  deriving DecidableEq

inductive OrderKind where
  | market
  | limit
  | stop (triggerPrice : Decimal)
  | stopLimit (triggerPrice : Decimal)
  | takeProfit (triggerPrice : Decimal)
  | takeProfitLimit (triggerPrice : Decimal)
  | trailingStop (offset : Decimal) (offsetType : TrailingOffsetType)
      (activationPrice : Option Decimal)
  | trailingStopLimit (offset : Decimal) (offsetType : TrailingOffsetType)
      (stopPrice : Decimal) (limitOffset : Decimal)
  | trailingStopFixedLimit (offset : Decimal) (offsetType : TrailingOffsetType)
      (activationPrice : Option Decimal)
  | conditionalUnresolved (family : ConditionalFamily) (triggerPrice : Option Decimal)
  deriving DecidableEq

inductive TimeInForce where
  | goodUntilCancelled (postOnly : Bool)
  | goodUntilEndOfDay
  | fillOrKill
  | immediateOrCancel
  | goodTillDate (expiry : DateTime)
  | atOpen
  | atClose
  deriving DecidableEq

structure OrderKey (ExchangeKey InstrumentKey : Type) where
  exchange : ExchangeKey
  instrument : InstrumentKey
  strategy : StrategyId
  cid : ClientOrderId
  deriving DecidableEq

structure Order (ExchangeKey InstrumentKey State : Type) where
  key : OrderKey ExchangeKey InstrumentKey
  side : Side
  price : Option Decimal
  quantity : Decimal
  kind : OrderKind
  timeInForce : TimeInForce
  state : State
  deriving DecidableEq

/-- An order request or an answer to one, under the key of its order. -/
structure OrderEvent (ExchangeKey InstrumentKey State : Type) where
  key : OrderKey ExchangeKey InstrumentKey
  state : State
  deriving DecidableEq

/-- Whether a fill of the order may only reduce what is held, and what it may reduce. -/
inductive ReduceOnly where
  | no
  | position
  | positionAndFreeBase
  deriving DecidableEq, Repr

def ReduceOnly.isReduceOnly (self : ReduceOnly) : Bool := self ≠ .no

structure RequestOpen where
  side : Side
  price : Option Decimal
  quantity : Decimal
  kind : OrderKind
  timeInForce : TimeInForce
  positionId : Option PositionId
  reduceOnly : ReduceOnly
  deriving DecidableEq

structure RequestCancel where
  id : Option VenueOrderId
  deriving DecidableEq

abbrev OrderRequestOpen (ExchangeKey InstrumentKey : Type) :=
  OrderEvent ExchangeKey InstrumentKey RequestOpen

abbrev OrderRequestCancel (ExchangeKey InstrumentKey : Type) :=
  OrderEvent ExchangeKey InstrumentKey RequestCancel

abbrev OrderResponseCancel (ExchangeKey InstrumentKey : Type) :=
  OrderEvent ExchangeKey InstrumentKey (Except OrderError Cancelled)

namespace Order

variable {ExchangeKey InstrumentKey : Type}

/-- The order with its active state, if it has one. -/
def toActive (self : Order ExchangeKey InstrumentKey OrderState) :
    Option (Order ExchangeKey InstrumentKey ActiveOrderState) :=
  match self.state with
  | .active state => some { self with state := state }
  | .inactive _ => none

/-- The order an open request makes, before the venue has answered. -/
def openInFlight (request : OrderRequestOpen ExchangeKey InstrumentKey) (timeSent : DateTime) :
    Order ExchangeKey InstrumentKey ActiveOrderState :=
  { key := request.key
    side := request.state.side
    price := request.state.price
    quantity := request.state.quantity
    kind := request.state.kind
    timeInForce := request.state.timeInForce
    state := .openInFlight ⟨timeSent⟩ }

end Order

end Rustrade
