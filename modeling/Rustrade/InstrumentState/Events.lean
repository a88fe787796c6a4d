import Rustrade.InstrumentState.Fill
import Rustrade.Lib.Transition

/-!
# The events of an instrument

What an account stream, a market feed and the engine's own requests do to an `InstrumentState`:
order snapshots with the fills they release, cancel responses, fills, account snapshots and the
resynchronisation before one, cash flows, market prints, and the two in-flight records.

An account snapshot is a run of order snapshots and then the retirement of the orders it leaves
out; the two halves are events of their own here, and `updateFromAccountSnapshot` is that run.
-/

set_option autoImplicit false

namespace Rustrade

namespace InstrumentState

variable {Data ExchangeKey AssetKey InstrumentKey : Type}

/-! ## Order snapshots -/

/-- Count a refused open, unless its fate is open or the venue has reported it working. -/
def noteOpenRejected (self : InstrumentState Data ExchangeKey AssetKey InstrumentKey)
    (order : Order ExchangeKey InstrumentKey OrderState) :
    InstrumentState Data ExchangeKey AssetKey InstrumentKey :=
  match order.state with
  | .inactive (.openFailed error) =>
      if !error.isOutcomeUnknown && !self.orders.isContradictedNeverPlaced order then
        { self with tearSheet := self.tearSheet.recordOpenRejected error }
      else self
  | _ => self

/-- The report ends the order's life at the venue. -/
def updateRetiresOrder {ExchangeKey InstrumentKey : Type}
    (order : Order ExchangeKey InstrumentKey OrderState) : Bool :=
  match order.state with
  | .inactive _ => !order.state.isOutcomeUnknown
  | .active (.open open_) => open_.quantityRemaining order.quantity = 0
  | .active _ => false

/-- The venue order id an open or filled report carries. -/
def reportedId {ExchangeKey InstrumentKey : Type}
    (order : Order ExchangeKey InstrumentKey OrderState) : Option OrderId :=
  match order.state with
  | .active (.open open_) => open_.id.assigned?
  | .inactive (.fullyFilled filled) => some filled.id
  | _ => none

/-- The venue order id a report settles: one that takes its order out of flight, or that ends an
    open one. -/
def ackExchangeId (self : InstrumentState Data ExchangeKey AssetKey InstrumentKey)
    (order : Order ExchangeKey InstrumentKey OrderState) : Option OrderId :=
  match self.orders.get? order.key.cid with
  | none => none
  | some current =>
      match current.state with
      | .openInFlight _ => reportedId order
      | .open _ => if updateRetiresOrder order then reportedId order else none
      | .cancelInFlight _ => none

/-- Index the venue order id of an order, and restore the position it was sent with if its
    retirement has just dropped it. -/
def settleRouting (self : InstrumentState Data ExchangeKey AssetKey InstrumentKey)
    (cid : ClientOrderId) (exchangeId : OrderId) (sentWith : Option PositionId) :
    InstrumentState Data ExchangeKey AssetKey InstrumentKey :=
  { self with
    exchangeIdToCid := self.exchangeIdToCid.insert exchangeId cid
    reduceOnly := self.reduceOnly.acknowledge cid exchangeId
    positionIds :=
      match sentWith with
      | some positionId => self.positionIds.insertIfAbsent cid positionId
      | none => self.positionIds }

section Checked

variable [DecimalRange] [DecidableEq AssetKey] [DecidableEq InstrumentKey]

/-- Apply fills one after another. -/
def replayTrades (hash : HashOrder) (reduceOnlyFills : List (TradeId × ReduceOnly)) :
    InstrumentState Data ExchangeKey AssetKey InstrumentKey →
      FillsApplied AssetKey InstrumentKey → List (Trade AssetKey InstrumentKey) →
      InstrumentState Data ExchangeKey AssetKey InstrumentKey ×
        FillsApplied AssetKey InstrumentKey
  | self, applied, [] => (self, applied)
  | self, applied, fill :: fills =>
      let replayed := self.replayTrade hash fill reduceOnlyFills
      replayTrades hash reduceOnlyFills replayed.1 (applied.extend replayed.2) fills

/-- Release the fills that were waiting for the venue order id `exchangeId`. -/
def releaseFills (hash : HashOrder)
    (self : InstrumentState Data ExchangeKey AssetKey InstrumentKey) (exchangeId : OrderId)
    (reduceOnlyFills : List (TradeId × ReduceOnly)) :
    InstrumentState Data ExchangeKey AssetKey InstrumentKey ×
      FillsApplied AssetKey InstrumentKey :=
  if self.pendingFills.isEmpty then (self, .none)
  else
    let deferred := self.pendingFills.filter fun fill => fill.orderId = exchangeId
    let kept := self.pendingFills.filter fun fill => fill.orderId ≠ exchangeId
    let released :=
      replayTrades hash reduceOnlyFills { self with pendingFills := kept } .none deferred
    (released.1.cleanupRoutingTables hash, released.2)

def replayOrderSnapshot (hash : HashOrder)
    (self : InstrumentState Data ExchangeKey AssetKey InstrumentKey)
    (order : Order ExchangeKey InstrumentKey OrderState)
    (reduceOnlyFills : List (TradeId × ReduceOnly)) :
    InstrumentState Data ExchangeKey AssetKey InstrumentKey ×
      FillsApplied AssetKey InstrumentKey :=
  let noted := self.noteOpenRejected order
  let updated := { noted with
    orders := noted.orders.updateFromOrderSnapshot order }.cleanupRoutingTables hash
  match self.ackExchangeId order with
  | none => (updated, .none)
  | some exchangeId =>
      (updated.settleRouting order.key.cid exchangeId
        (self.positionIds.get? order.key.cid)).releaseFills hash exchangeId reduceOnlyFills

def updateFromOrderSnapshot (hash : HashOrder)
    (self : InstrumentState Data ExchangeKey AssetKey InstrumentKey)
    (order : Order ExchangeKey InstrumentKey OrderState) :
    InstrumentState Data ExchangeKey AssetKey InstrumentKey ×
      FillsApplied AssetKey InstrumentKey :=
  self.replayOrderSnapshot hash order []

end Checked

/-! ## Cancel responses -/

/-- Drop the fills waiting on an ack once no order awaits one. -/
def drainPendingFills (self : InstrumentState Data ExchangeKey AssetKey InstrumentKey) :
    InstrumentState Data ExchangeKey AssetKey InstrumentKey :=
  if self.hasOpenInFlight then self else { self with pendingFills := [] }

def updateFromCancelResponse (hash : HashOrder)
    (self : InstrumentState Data ExchangeKey AssetKey InstrumentKey)
    (response : OrderResponseCancel ExchangeKey InstrumentKey) :
    InstrumentState Data ExchangeKey AssetKey InstrumentKey :=
  ({ self with
    orders := self.orders.updateFromCancelResponse response }.cleanupRoutingTables
      hash).drainPendingFills

/-! ## Account snapshots -/

/-- Record the orders that are open as the account stream begins to resynchronise. -/
def beginAccountResync (self : InstrumentState Data ExchangeKey AssetKey InstrumentKey) :
    InstrumentState Data ExchangeKey AssetKey InstrumentKey :=
  { self with
    ordersOpenAtResync :=
      (self.orders.tracked.retain fun _ order =>
        match order.state with
        | .open _ => true
        | _ => false).mapValues fun _ order =>
          ((order.state.openMeta.map Open.id).getD .clientAssigned) }

/-- Retire the orders open at the resync that a complete list leaves out. -/
def retireUnlisted (hash : HashOrder)
    (self : InstrumentState Data ExchangeKey AssetKey InstrumentKey) (listed : List ClientOrderId)
    (ordersComplete : Bool) : InstrumentState Data ExchangeKey AssetKey InstrumentKey :=
  let unlisted := (hash.arrange self.ordersOpenAtResync.entries).filter fun open_ =>
    open_.1 ∉ listed
  let updated : InstrumentState Data ExchangeKey AssetKey InstrumentKey := { self with
    ordersOpenAtResync := .empty
    orders :=
      if ordersComplete then
        unlisted.foldl (fun orders open_ => (orders.removeOpen open_.1 open_.2).1) self.orders
      else self.orders }
  updated.cleanupRoutingTables hash

section Checked

variable [DecimalRange] [DecidableEq AssetKey] [DecidableEq InstrumentKey]

def updateFromAccountSnapshot (hash : HashOrder)
    (self : InstrumentState Data ExchangeKey AssetKey InstrumentKey)
    (snapshot : InstrumentAccountSnapshot ExchangeKey InstrumentKey) :
    InstrumentState Data ExchangeKey AssetKey InstrumentKey :=
  (snapshot.orders.foldl (fun self order => (self.updateFromOrderSnapshot hash order).1)
    self).retireUnlisted hash (snapshot.orders.map fun order => order.key.cid)
      snapshot.ordersComplete

end Checked

/-! ## Cash flows -/

section Carry

variable [DecidableEq AssetKey]

/-- The positions a flow may belong to: those the order that took its loan entered, or all. -/
def carryCandidates (self : InstrumentState Data ExchangeKey AssetKey InstrumentKey)
    (flow : CashFlow AssetKey InstrumentKey) :
    List (PositionId × Position AssetKey InstrumentKey) :=
  match flow.loan with
  | some loan => self.position.positions.entries.filter fun e => loan.orderId ∈ e.2.ordersEnter
  | none => self.position.positions.entries

/-- Why a flow stamped before its position's entry, with no loan, is left out; `none` if it is
    not. -/
def beforeEntry (self : InstrumentState Data ExchangeKey AssetKey InstrumentKey)
    (flow : CashFlow AssetKey InstrumentKey) (position : Position AssetKey InstrumentKey) :
    Option CarryUpdate :=
  if flow.loan.isNone && flow.timeExchange < position.timeEnter then
    match onBorrowPeriod flow with
    | none => some .beforeEntry
    | some period =>
        if !period.contains position.timeEnter then some .beforeEntry
        else
          let sessionStart := self.tearSheet.timeEngineStart
          let knownFrom := (self.position.timeHistoryStart.map (max · sessionStart)).getD
            sessionStart
          if period.start < knownFrom then some .beforeHistory else none
  else none

def carrySlot (self : InstrumentState Data ExchangeKey AssetKey InstrumentKey)
    (asset : AssetKey) : CarrySlot AssetKey :=
  if asset = self.instrument.underlying.quote then .quote
  else if asset = self.instrument.underlying.base then .base
  else .other asset

def updateFromCashFlow [DecimalRange]
    (self : InstrumentState Data ExchangeKey AssetKey InstrumentKey)
    (flow : CashFlow AssetKey InstrumentKey) :
    InstrumentState Data ExchangeKey AssetKey InstrumentKey × CarryUpdate :=
  if self.position.positions.isEmpty then (self, .noOpenPosition)
  else
    match self.carryCandidates flow with
    | [] => (self, .loanOfOtherOrder)
    | [(positionId, position)] =>
        match self.beforeEntry flow position with
        | some reason => (self, reason)
        | none =>
            let carried := position.applyCarry (self.carrySlot flow.asset) flow.amount
              flow.timeExchange
            ({ self with
                position := { self.position with
                  positions := self.position.positions.modify positionId fun _ => carried.1 } },
              carried.2)
    | _ :: _ :: _ => (self, .severalOpen)

end Carry

/-! ## Market prints and requests sent -/

section Data

variable [InstrumentDataState Data ExchangeKey AssetKey InstrumentKey]

/-- The price the instrument's data gives. -/
def lastPrice (self : InstrumentState Data ExchangeKey AssetKey InstrumentKey) :
    Option Decimal := InstrumentDataState.price self.data

def updateFromMarket [DecimalRange]
    (self : InstrumentState Data ExchangeKey AssetKey InstrumentKey)
    (event : MarketEvent InstrumentKey (InstrumentDataState.MarketEventKind Data)) :
    InstrumentState Data ExchangeKey AssetKey InstrumentKey :=
  let self := { self with data := InstrumentDataState.processMarket self.data event }
  match self.lastPrice with
  | none => self
  | some price =>
      { self with
        position := { self.position with
          positions := self.position.positions.mapValues fun _ position =>
            { position with timeExchangeUpdate := event.timeExchange }.updatePnlUnrealised
              price } }

/-- Record an open request as sent: nothing if its client order id is tracked. -/
def recordInFlightOpen
    (self : InstrumentState Data ExchangeKey AssetKey InstrumentKey)
    (request : OrderRequestOpen ExchangeKey InstrumentKey) (timeSent : DateTime) :
    InstrumentState Data ExchangeKey AssetKey InstrumentKey :=
  if self.orders.tracked.contains request.key.cid then self
  else
    { self with
      orders := self.orders.recordInFlightOpen request timeSent
      data := InstrumentDataState.recordInFlightOpen self.data request timeSent
      tearSheet := self.tearSheet.recordOpenRequested
      positionIds :=
        match request.state.positionId with
        | some positionId => self.positionIds.insert request.key.cid positionId
        | none => self.positionIds
      reduceOnly := self.reduceOnly.register request.key.cid request.state.reduceOnly }

def recordInFlightCancel
    (self : InstrumentState Data ExchangeKey AssetKey InstrumentKey)
    (request : OrderRequestCancel ExchangeKey InstrumentKey) (timeSent : DateTime) :
    InstrumentState Data ExchangeKey AssetKey InstrumentKey :=
  { self with
    orders := self.orders.recordInFlightCancel request timeSent
    data := InstrumentDataState.recordInFlightCancel self.data request timeSent }

end Data

end InstrumentState

end Rustrade
