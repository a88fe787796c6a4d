import Mathlib.Data.Finset.Insert
import Rustrade.Execution.AccountEvent
import Rustrade.Execution.Fee
import Rustrade.Execution.ReduceOnly
import Rustrade.Orders
import Rustrade.Position.Adjust
import Rustrade.TearSheet

/-!
# The state of one instrument

`InstrumentState` holds an instrument's positions and orders, and in hedging mode the tables that
find the position a fill belongs to: from the venue order id to the client order id
(`exchangeIdToCid`), from there to the position the order was sent with (`positionIds`), and from
the venue order id of an order that has ended straight to its position (`retiredRouting`). A fill
whose order the venue has not yet named waits in `pendingFills`.

The instrument's own market data is whatever the engine was built with; `InstrumentDataState` is
what the engine asks of it.
-/

set_option autoImplicit false

namespace Rustrade

/-- What the engine asks of an instrument's own data. -/
class InstrumentDataState (Data : Type) (ExchangeKey AssetKey InstrumentKey : outParam Type) where
  MarketEventKind : Type
  processMarket : Data → MarketEvent InstrumentKey MarketEventKind → Data
  processAccount : Data → AccountEvent ExchangeKey AssetKey InstrumentKey → Data
  recordInFlightOpen : Data → OrderRequestOpen ExchangeKey InstrumentKey → DateTime → Data
  recordInFlightCancel : Data → OrderRequestCancel ExchangeKey InstrumentKey → DateTime → Data
  price : Data → Option Decimal

/-- How many ended orders' routing an instrument keeps. -/
abbrev maxRetiredRouting : Nat := 64

/-- Who settles an instrument's positions at expiry. -/
inductive ExpiryHandling where
  | engine
  | venue
  deriving DecidableEq, Repr

/-- A corporate action's id, assigned by whoever injects it. -/
structure CorporateActionId where
  val : String
  deriving DecidableEq, Repr

/-- A reduce-only fill that was cut, or applied not at all. -/
structure ReduceOnlyCapped (InstrumentKey : Type) where
  instrument : InstrumentKey
  tradeId : TradeId
  orderId : OrderId
  clientOrderId : Option ClientOrderId
  positionId : PositionId
  held : Decimal
  excess : Decimal
  excessValue : Decimal
  feesUnattributed : Decimal
  reduceOnly : ReduceOnly
  tradesFreeBase : Bool
  deriving DecidableEq

/-- Whether a fee charged in a third asset was valued in quote, and with what. -/
inductive FeeConversionOutcome (InstrumentKey : Type) where
  | converted (pricingInstrument : InstrumentKey) (price feesQuote : Decimal)
  | noPricingInstrument
  | noPrice (pricingInstrument : InstrumentKey)
  deriving DecidableEq

def FeeConversionOutcome.feesQuote {InstrumentKey : Type} :
    FeeConversionOutcome InstrumentKey → Option Decimal
  | .converted _ _ feesQuote => some feesQuote
  | .noPricingInstrument | .noPrice _ => none

structure FeeConversion (AssetKey InstrumentKey : Type) where
  instrument : InstrumentKey
  tradeId : TradeId
  asset : AssetKey
  fees : Decimal
  outcome : FeeConversionOutcome InstrumentKey
  deriving DecidableEq

/-- What applying the fills of one event did. -/
structure FillsApplied (AssetKey InstrumentKey : Type) where
  exited : Option (PositionExited AssetKey InstrumentKey)
  capped : List (ReduceOnlyCapped InstrumentKey)
  feeConversion : Option (FeeConversion AssetKey InstrumentKey)
  deriving DecidableEq

namespace FillsApplied

variable {AssetKey InstrumentKey : Type}

/-- `FillsApplied::default()`. -/
def none : FillsApplied AssetKey InstrumentKey := ⟨.none, [], .none⟩

/-- Add what the next of several fills replayed together did; the last exit is the one kept. -/
def extend (self next : FillsApplied AssetKey InstrumentKey) :
    FillsApplied AssetKey InstrumentKey :=
  { self with exited := next.exited.or self.exited, capped := self.capped ++ next.capped }

end FillsApplied

structure InstrumentState (Data ExchangeKey AssetKey InstrumentKey : Type) where
  instrument : Instrument ExchangeKey AssetKey
  tearSheet : TearSheetGenerator AssetKey InstrumentKey
  position : PositionManager AssetKey InstrumentKey
  orders : Orders ExchangeKey InstrumentKey
  data : Data
  feeModel : FeeModelConfig
  expiryHandling : ExpiryHandling
  expirationProcessed : Bool
  corporateActionsProcessed : Finset CorporateActionId
  positionIds : IndexMap ClientOrderId PositionId
  pendingFills : List (Trade AssetKey InstrumentKey)
  exchangeIdToCid : IndexMap OrderId ClientOrderId
  retiredRouting : BoundedMap OrderId PositionId maxRetiredRouting
  reduceOnly : ReduceOnlyBook
  ordersOpenAtResync : IndexMap ClientOrderId VenueOrderId

/-- The slot of a fill nothing routes: one keyed by its venue order id. -/
def PositionId.ofOrderId (orderId : OrderId) : PositionId := ⟨orderId.val⟩

namespace InstrumentState

variable {Data ExchangeKey AssetKey InstrumentKey : Type}

/-- The state an instrument starts a run in: no orders, and no routing. -/
def init (instrument : Instrument ExchangeKey AssetKey) (timeEngineStart : DateTime)
    (position : PositionManager AssetKey InstrumentKey) (data : Data) :
    InstrumentState Data ExchangeKey AssetKey InstrumentKey :=
  { instrument := instrument
    tearSheet := .init timeEngineStart
    position := position
    orders := .empty
    data := data
    feeModel := .zero
    expiryHandling := .engine
    expirationProcessed := false
    corporateActionsProcessed := ∅
    positionIds := .empty
    pendingFills := []
    exchangeIdToCid := .empty
    retiredRouting := .empty
    reduceOnly := .empty
    ordersOpenAtResync := .empty }

/-! ## Identity -/

section Identity

variable [DecidableEq AssetKey] [DecidableEq ExchangeKey]

/-- The instrument's underlying pair is `(base, quote)`, traded on `exchange`. -/
def isOnUnderlying (self : InstrumentState Data ExchangeKey AssetKey InstrumentKey)
    (base quote : AssetKey) (exchange : ExchangeKey) : Bool :=
  self.instrument.underlying.base = base && self.instrument.underlying.quote = quote &&
    self.instrument.exchange = exchange

/-- An option on that underlying, held or not. -/
def isOptionOnUnderlying (self : InstrumentState Data ExchangeKey AssetKey InstrumentKey)
    (base quote : AssetKey) (exchange : ExchangeKey) : Bool :=
  (match self.instrument.kind with
    | .option _ => true
    | _ => false) && self.isOnUnderlying base quote exchange

/-- A deliverable equity on that underlying. -/
def isSplitEligibleOnUnderlying
    (self : InstrumentState Data ExchangeKey AssetKey InstrumentKey)
    (base quote : AssetKey) (exchange : ExchangeKey) : Bool :=
  self.instrument.kind.isSplitEligible && self.isOnUnderlying base quote exchange

/-- An option on that underlying that holds a position. -/
def isAffectedOptionOnUnderlying
    (self : InstrumentState Data ExchangeKey AssetKey InstrumentKey)
    (base quote : AssetKey) (exchange : ExchangeKey) : Bool :=
  self.isOptionOnUnderlying base quote exchange && !self.position.positions.isEmpty

end Identity

/-! ## The routing tables -/

/-- Some tracked order still awaits the venue's first answer. -/
def hasOpenInFlight (self : InstrumentState Data ExchangeKey AssetKey InstrumentKey) : Bool :=
  self.orders.tracked.values.any fun order => order.state.isOpenInFlight

/-- The routing of every order that is no longer tracked and still resolves to a position. -/
def demoted (hash : HashOrder) (self : InstrumentState Data ExchangeKey AssetKey InstrumentKey) :
    List (OrderId × PositionId) :=
  (hash.arrange self.exchangeIdToCid.entries).filterMap fun e =>
    if self.orders.tracked.contains e.2 then none
    else (self.positionIds.get? e.2).map fun positionId => (e.1, positionId)

/-- Drop the live routing of every order that is no longer tracked, keeping in `retiredRouting`,
    in hedging mode, what still resolves. -/
def cleanupRoutingTables (hash : HashOrder)
    (self : InstrumentState Data ExchangeKey AssetKey InstrumentKey) :
    InstrumentState Data ExchangeKey AssetKey InstrumentKey :=
  { self with
    retiredRouting :=
      match self.position.mode with
      | .hedging =>
          (self.demoted hash).foldl (fun routing e => routing.insert e.1 e.2) self.retiredRouting
      | .netting => self.retiredRouting
    reduceOnly := self.reduceOnly.retireUntracked self.orders.tracked.contains
    positionIds := self.positionIds.retain fun cid _ => self.orders.tracked.contains cid
    exchangeIdToCid := self.exchangeIdToCid.retain fun _ cid => self.orders.tracked.contains cid }

section Cleanup

variable {hash : HashOrder} {self : InstrumentState Data ExchangeKey AssetKey InstrumentKey}

@[simp] theorem orders_cleanupRoutingTables :
    (self.cleanupRoutingTables hash).orders = self.orders := rfl

@[simp] theorem pendingFills_cleanupRoutingTables :
    (self.cleanupRoutingTables hash).pendingFills = self.pendingFills := rfl

@[simp] theorem position_cleanupRoutingTables :
    (self.cleanupRoutingTables hash).position = self.position := rfl

@[simp] theorem instrument_cleanupRoutingTables :
    (self.cleanupRoutingTables hash).instrument = self.instrument := rfl

@[simp] theorem hasOpenInFlight_cleanupRoutingTables :
    (self.cleanupRoutingTables hash).hasOpenInFlight = self.hasOpenInFlight := rfl

theorem get?_positionIds_cleanupRoutingTables {cid : ClientOrderId} :
    (self.cleanupRoutingTables hash).positionIds.get? cid =
      if self.orders.tracked.contains cid then self.positionIds.get? cid else none := by
  change (self.positionIds.retain _).get? cid = _
  rw [IndexMap.get?_retain]
  cases self.orders.tracked.contains cid <;> cases self.positionIds.get? cid <;> rfl

theorem get?_exchangeIdToCid_cleanupRoutingTables {orderId : OrderId} {cid : ClientOrderId} :
    (self.cleanupRoutingTables hash).exchangeIdToCid.get? orderId = some cid ↔
      self.exchangeIdToCid.get? orderId = some cid ∧ self.orders.tracked.contains cid = true := by
  change (self.exchangeIdToCid.retain _).get? orderId = _ ↔ _
  rw [IndexMap.get?_retain, Option.filter_eq_some_iff]

theorem retiredRouting_cleanupRoutingTables (h : self.position.mode = .hedging) :
    (self.cleanupRoutingTables hash).retiredRouting =
      (self.demoted hash).foldl (fun routing e => routing.insert e.1 e.2) self.retiredRouting := by
  change (match self.position.mode with
    | .hedging => _
    | .netting => _) = _
  rw [h]

theorem mem_demoted {orderId : OrderId} {positionId : PositionId} :
    (orderId, positionId) ∈ self.demoted hash ↔
      ∃ cid, self.exchangeIdToCid.get? orderId = some cid ∧ self.orders.get? cid = none ∧
        self.positionIds.get? cid = some positionId := by
  simp only [demoted, List.mem_filterMap, HashOrder.mem_arrange, Prod.exists,
    ← IndexMap.get?_eq_some_iff, Option.ite_none_left_eq_some, Option.map_eq_some_iff,
    Prod.mk.injEq]
  constructor
  · rintro ⟨id, cid, hindex, huntracked, positionId', hsent, rfl, rfl⟩
    exact ⟨cid, hindex, IndexMap.not_contains_iff.1 (by simpa using huntracked), hsent⟩
  · rintro ⟨cid, hindex, huntracked, hsent⟩
    exact ⟨orderId, cid, hindex, by simp [IndexMap.not_contains_iff.2 huntracked], positionId,
      hsent, rfl, rfl⟩

end Cleanup

/-- Drop all order routing, and the fills waiting on an ack. -/
def clearOrderRouting (self : InstrumentState Data ExchangeKey AssetKey InstrumentKey) :
    InstrumentState Data ExchangeKey AssetKey InstrumentKey :=
  { self with
    exchangeIdToCid := .empty
    retiredRouting := .empty
    positionIds := .empty
    pendingFills := []
    reduceOnly := self.reduceOnly.clear }

/-- The client order id of the tracked order the venue knows as `orderId`: through the reverse
    index, or else among the open orders. -/
def trackedOrderCid (hash : HashOrder)
    (self : InstrumentState Data ExchangeKey AssetKey InstrumentKey) (orderId : OrderId) :
    Option ClientOrderId :=
  (self.exchangeIdToCid.get? orderId).or
    ((hash.arrange self.orders.tracked.entries).findSome? fun e =>
      match e.2.state with
      | .open open_ => if open_.id.assigned? = some orderId then some e.1 else none
      | _ => none)

/-- The reduce-only order a fill is of, if it is one. -/
def reduceOnlyOrder (hash : HashOrder)
    (self : InstrumentState Data ExchangeKey AssetKey InstrumentKey)
    (trade : Trade AssetKey InstrumentKey) : Option BookedOrder :=
  if !self.reduceOnly.hasReduceOnly then none
  else
    let cid := trade.clientOrderId.or (self.trackedOrderCid hash trade.orderId)
    (self.reduceOnly.lookupIds cid trade.orderId).filter fun order =>
      order.reduceOnly.isReduceOnly

/-! ## Where a fill goes -/

/-- The position the reverse index finds for a fill. -/
def indexedPositionId (self : InstrumentState Data ExchangeKey AssetKey InstrumentKey)
    (orderId : OrderId) : Option PositionId :=
  (self.exchangeIdToCid.get? orderId).bind self.positionIds.get?

/-- The tracked order the venue knows as `orderId`, working or with its cancel in flight, and the
    position it was sent with, if any. -/
def matchedOrder (hash : HashOrder)
    (self : InstrumentState Data ExchangeKey AssetKey InstrumentKey) (orderId : OrderId) :
    Option (Option PositionId) :=
  (hash.arrange self.orders.tracked.entries).findSome? fun e =>
    match e.2.state with
    | .open open_ =>
        if open_.id.assigned? = some orderId then some (self.positionIds.get? e.1) else none
    | .cancelInFlight cancel =>
        if cancel.order.any fun open_ => open_.id.assigned? = some orderId then
          some (self.positionIds.get? e.1)
        else none
    | .openInFlight _ => none

/-- The two legs of a venue settlement. -/
inductive SettlementLeg where
  | contract
  | delivery
  deriving DecidableEq

/-- Which leg of a venue settlement a fill of an orderless origin is. -/
def settlementLeg (self : InstrumentState Data ExchangeKey AssetKey InstrumentKey) :
    TradeOrigin → Option SettlementLeg
  | .order | .external => none
  | .liquidation | .adl | .expiry => some .contract
  | .assignment | .exercise =>
      some (if self.instrument.kind.expiry.isSome then .contract else .delivery)

/-- Why a settlement fill reduces no one position. -/
inductive SettlementFillUnplaced where
  | namesTheSideItWouldGrow
  | positionsOnSide (count : Nat)
  deriving DecidableEq

/-- The one open position on the side opposite the fill's, and what it holds. -/
def settlementFillPosition (self : InstrumentState Data ExchangeKey AssetKey InstrumentKey)
    (trade : Trade AssetKey InstrumentKey) :
    Except SettlementFillUnplaced (PositionId × Decimal) :=
  let reduces : Side := match trade.side with
    | .buy => .sell
    | .sell => .buy
  if trade.positionSide.any fun named => named ≠ reduces then .error .namesTheSideItWouldGrow
  else
    match self.position.positions.entries.filter fun e => e.2.side = reduces with
    | [e] => .ok (e.1, e.2.quantityAbs)
    | onSide => .error (.positionsOnSide onSide.length)

/-- Where a fill goes. -/
inductive Destination where
  /-- Its order's position. -/
  | slot (positionId : PositionId)
  /-- A tracked order was found, but nothing says which position it was sent with. -/
  | fallback (positionId : PositionId)
  /-- No order was found. -/
  | unmatched (positionId : PositionId)
  /-- It settles a position, of which it may take `held`. -/
  | settles (positionId : PositionId) (held : Decimal)
  /-- It settles no one position. -/
  | unallocated
  /-- It waits for an order's ack. -/
  | queued
  deriving DecidableEq

/-- Where a fill goes that no order, tracked or ended, and no order awaiting its ack accounts
    for. -/
def unroutedDestination (self : InstrumentState Data ExchangeKey AssetKey InstrumentKey)
    (trade : Trade AssetKey InstrumentKey) : Destination :=
  match self.settlementLeg trade.origin with
  | none => .unmatched (.ofOrderId trade.orderId)
  | some leg =>
      match leg, self.settlementFillPosition trade with
      | _, .ok (positionId, held) => .settles positionId held
      -- Nothing to reduce, so the shares delivered open a position.
      | .delivery, .error (.positionsOnSide 0) | .delivery, .error .namesTheSideItWouldGrow =>
          .settles (.ofOrderId trade.orderId) |trade.quantity|
      | _, .error _ => .unallocated

def destination (hash : HashOrder)
    (self : InstrumentState Data ExchangeKey AssetKey InstrumentKey)
    (trade : Trade AssetKey InstrumentKey) : Destination :=
  match self.position.mode with
  | .netting => .slot .netting
  | .hedging =>
      match self.indexedPositionId trade.orderId with
      | some positionId => .slot positionId
      | none =>
          match self.matchedOrder hash trade.orderId with
          | some (some positionId) => .slot positionId
          | some none => .fallback (.ofOrderId trade.orderId)
          | none =>
              match self.retiredRouting.get? trade.orderId with
              | some positionId => .slot positionId
              | none =>
                  if trade.origin = .order && self.hasOpenInFlight then .queued
                  else self.unroutedDestination trade

end InstrumentState

end Rustrade
