import Rustrade.Engine.Output

/-!
# Contract expiry

`processContractExpiry` cancels what an expiring instrument has working and closes what it holds,
each position by a fill of the engine's own at the settlement price, unless the venue settles it.
Without a price it closes nothing, and the event can be delivered again.
-/

set_option autoImplicit false

namespace Rustrade

/-- The request that cancels an order; none while its cancel is in flight. -/
def Order.toRequestCancel {ExchangeKey InstrumentKey : Type}
    (self : Order ExchangeKey InstrumentKey ActiveOrderState) :
    Option (OrderRequestCancel ExchangeKey InstrumentKey) :=
  match self.state with
  | .openInFlight _ => some ⟨self.key, ⟨none⟩⟩
  | .open open_ => some ⟨self.key, ⟨some open_.id⟩⟩
  | .cancelInFlight _ => none

/-- `StrategyId::ENGINE_EXPIRY`. -/
def StrategyId.engineExpiry : StrategyId := ⟨"__engine_expiry__"⟩

/-- How an instrument settles at its expiry. -/
inductive ExpirySettlement (AssetKey : Type) where
  /-- At intrinsic value, against the last price of the spot instrument it delivers. -/
  | optionIntrinsic (kind : OptionKind) (strike : Decimal) (base quote : AssetKey)
      (exchange : ExchangeIndex)
  | ownLastPrice
  deriving DecidableEq

namespace ExpirySettlement

variable {AssetKey : Type}

/-- The instrument's expiry and how it settles, if it expires. -/
def of (instrument : Instrument ExchangeIndex AssetKey) :
    Option (DateTime × ExpirySettlement AssetKey) :=
  match instrument.kind with
  | .option contract =>
      some (contract.expiry, .optionIntrinsic contract.kind contract.strike
        instrument.underlying.base instrument.underlying.quote instrument.exchange)
  | .future contract => some (contract.expiry, .ownLastPrice)
  | .spot | .perpetual _ | .cfd _ => none

def price (self : ExpirySettlement AssetKey) (reference : Decimal) : Decimal :=
  match self with
  | .optionIntrinsic .call strike _ _ _ => max (reference - strike) 0
  | .optionIntrinsic .put strike _ _ _ => max (strike - reference) 0
  | .ownLastPrice => reference

end ExpirySettlement

namespace InstrumentStates

variable {Data AssetKey : Type} [DecidableEq AssetKey]
  [InstrumentDataState Data ExchangeIndex AssetKey InstrumentIndex]

/-- The price the instrument at `key` settles against: of an option, that of the one spot
    instrument on its underlying. -/
def referencePrice (self : InstrumentStates Data AssetKey) (key : InstrumentIndex)
    (settlement : ExpirySettlement AssetKey) :
    Except ContractExpiryNotSettledReason (Option Decimal) :=
  match settlement with
  | .optionIntrinsic _ _ base quote exchange =>
      match self.filter fun state => state.instrument.kind = .spot &&
          state.isOnUnderlying base quote exchange with
      | [] => .ok none
      | [spot] => .ok spot.lastPrice
      | _ :: _ :: _ => .error .ambiguousUnderlying
  | .ownLastPrice => .ok (self[key]?.bind InstrumentState.lastPrice)

end InstrumentStates

namespace InstrumentState

variable {Data AssetKey : Type} {ExchangeKey InstrumentKey : Type}

/-- The instrument has expired: no order is left of it, and nothing routes a fill. -/
def markExpired (hash : HashOrder)
    (self : InstrumentState Data ExchangeKey AssetKey InstrumentKey) :
    InstrumentState Data ExchangeKey AssetKey InstrumentKey :=
  { self with
    expirationProcessed := true
    orders := self.orders.clear hash }.clearOrderRouting

/-- The engine's own fill that closes `position` at the settlement price. -/
def settlementTrade (self : InstrumentState Data ExchangeKey AssetKey InstrumentIndex)
    (key : InstrumentIndex) (tag : String) (time : DateTime) (price : Decimal)
    (position : Position AssetKey InstrumentIndex) : Trade AssetKey InstrumentIndex :=
  { id := ⟨tag⟩
    orderId := ⟨tag⟩
    instrument := key
    strategy := .engineExpiry
    timeExchange := time
    side := match position.side with
      | .buy => .sell
      | .sell => .buy
    price := price
    quantity := position.quantityAbs
    orderFilledQuantity := none
    fees := ⟨self.instrument.underlying.quote, 0, some 0⟩
    origin := .expiry
    positionSide := none
    clientOrderId := none }

/-- `expiry-settlement-{pos_id}-{timestamp}`. -/
def settlementTag (positionId : PositionId) (time : DateTime) : String :=
  "expiry-settlement-" ++ positionId.val ++ "-" ++ toString time

section Checked

variable [DecimalRange]

/-- Close one position at the settlement price. -/
def settlePosition (key : InstrumentIndex) (time : DateTime) (price : Decimal)
    (self : InstrumentState Data ExchangeKey AssetKey InstrumentIndex) (positionId : PositionId) :
    InstrumentState Data ExchangeKey AssetKey InstrumentIndex × List (EngineOutput AssetKey) :=
  match self.position.positions.get? positionId with
  | none => (self, [])
  | some position =>
      let trade := self.settlementTrade key (settlementTag positionId time) time price position
      let applied := self.position.updateFromTradeWithId trade positionId
        self.instrument.kind.contractSize
      let self := { self with position := applied.1 }
      match applied.2 with
      | .applied (some exit) =>
          ({ self with tearSheet := self.tearSheet.updateFromPosition exit },
            [.positionExit exit])
      | .applied none | .unapplied _ => (self, [])

/-- Close the positions at `positionIds`, in order. -/
def settlePositions (key : InstrumentIndex) (time : DateTime) (price : Decimal) :
    InstrumentState Data ExchangeKey AssetKey InstrumentIndex → List PositionId →
      InstrumentState Data ExchangeKey AssetKey InstrumentIndex × List (EngineOutput AssetKey)
  | self, [] => (self, [])
  | self, positionId :: positionIds =>
      let settled := settlePosition key time price self positionId
      let rest := settlePositions key time price settled.1 positionIds
      (rest.1, settled.2 ++ rest.2)

end Checked

end InstrumentState

namespace EngineState

variable {Data AssetKey : Type} [DecidableEq AssetKey] [DecimalRange]
  [InstrumentDataState Data ExchangeIndex AssetKey InstrumentIndex]

/-- Steps 4 to 6, once the orders' cancels are sent: the positions are closed, unless there are
    none or the venue closes them. -/
def settleExpiry (hash : HashOrder) (time : DateTime) (self : EngineState Data AssetKey)
    (key : InstrumentIndex) (settlement : ExpirySettlement AssetKey)
    (state : InstrumentState Data ExchangeIndex AssetKey InstrumentIndex) :
    EngineState Data AssetKey × List (EngineOutput AssetKey) :=
  if state.expiryHandling = .venue ∨ state.position.positions.isEmpty then
    (self.modify key fun state => state.markExpired hash, [])
  else
    match self.instruments.referencePrice key settlement with
    | .error reason => (self, [.contractExpiryNotSettled key reason])
    | .ok none => (self, [.contractExpiryNotSettled key .settlementPriceUnavailable])
    | .ok (some reference) =>
        let settled := InstrumentState.settlePositions key time (settlement.price reference) state
          state.position.positions.keys
        (self.modify key fun _ => settled.1.markExpired hash, settled.2)

/-- Settle the expiry of the instrument at `key`, or refuse it and close nothing. `sends` is
    which of the cancels reach the venue; they are sent at `timeSent`, before the clock advances
    to the expiry. -/
def processContractExpiry (hash : HashOrder) (timeSent time : DateTime)
    (sends : OrderRequestCancel ExchangeIndex InstrumentIndex → Bool)
    (self : EngineState Data AssetKey) (key : InstrumentIndex) :
    EngineState Data AssetKey × List (EngineOutput AssetKey) :=
  match self.instruments[key]? with
  | none => (self, [.contractExpiryNotSettled key .unknownInstrument])
  | some state =>
      match ExpirySettlement.of state.instrument with
      | none => (self, [.contractExpiryNotSettled key .instrumentNeverExpires])
      | some (_, settlement) =>
          if state.expirationProcessed then (self, [])
          else
            let requests := (hash.arrange state.orders.tracked.entries).filterMap fun e =>
              (e.2.toRequestCancel).filter sends
            let self := self.recordAllInFlight timeSent (requests.map SentRequest.cancel)
            match self.instruments[key]? with
            | none => (self, [])
            | some state => self.settleExpiry hash time key settlement state

end EngineState

end Rustrade
