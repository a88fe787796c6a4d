import Rustrade.InstrumentState.Events

/-!
# The state of the engine

Every instrument's state, in the order of the index the engine was built with, and the exchanges
it tracks. An event reaches the instrument it names; a lookup that names none panics in the source,
and the model leaves the instruments as they are.

Asset balances, the user's global data and the health of each connection are read by nothing that
moves an instrument, and are left out.
-/

set_option autoImplicit false

namespace Rustrade

/-- An instrument's place in the index the engine was built with. -/
abbrev InstrumentIndex := Nat

/-- An exchange's place in the same index. -/
abbrev ExchangeIndex := Nat

inductive TradingState where
  | enabled
  | disabled
  deriving DecidableEq, Repr

abbrev InstrumentStates (Data AssetKey : Type) :=
  List (InstrumentState Data ExchangeIndex AssetKey InstrumentIndex)

structure EngineState (Data AssetKey : Type) where
  trading : TradingState
  /-- The exchanges `ConnectivityStates` tracks, in the order of their index. -/
  connectivity : List ExchangeId
  instruments : InstrumentStates Data AssetKey

/-- How a fee charged in a third asset was valued: a zero fee is worth zero whatever the price. -/
inductive ValuedFee (AssetKey : Type) where
  | zero
  | reported (conversion : FeeConversion AssetKey InstrumentIndex)
  deriving DecidableEq

namespace ValuedFee

variable {AssetKey : Type}

def feesQuote : ValuedFee AssetKey → Option Decimal
  | .zero => some 0
  | .reported conversion => conversion.outcome.feesQuote

def intoConversion : ValuedFee AssetKey → Option (FeeConversion AssetKey InstrumentIndex)
  | .zero => none
  | .reported conversion => some conversion

end ValuedFee

/-- A request the engine has sent. -/
inductive SentRequest where
  | open (request : OrderRequestOpen ExchangeIndex InstrumentIndex)
  | cancel (request : OrderRequestCancel ExchangeIndex InstrumentIndex)

def SentRequest.key : SentRequest → OrderKey ExchangeIndex InstrumentIndex
  | .open request => request.key
  | .cancel request => request.key

/-! ## Third-asset fees -/

namespace InstrumentStates

variable {Data AssetKey : Type} [DecidableEq AssetKey]
  [InstrumentDataState Data ExchangeIndex AssetKey InstrumentIndex]

/-- The spot instrument that prices `asset` in `quote`, directly or by its reciprocal, and the
    price, if it is positive. Of several, the one of the lowest index. -/
def feeAssetPricing (self : InstrumentStates Data AssetKey) (asset quote : AssetKey) :
    Option (InstrumentIndex × Option Decimal) :=
  self.zipIdx.findSome? fun e =>
    let instrument := e.1.instrument
    if instrument.kind ≠ .spot then none
    else
      let pair := (instrument.underlying.base, instrument.underlying.quote)
      let price := e.1.lastPrice.filter fun price => 0 < price
      if pair = (asset, quote) then some (e.2, price)
      else if pair = (quote, asset) then some (e.2, price.map fun price => 1 / price)
      else none

/-- The value in quote of a fee charged in a third asset that has none yet. -/
def valueThirdAssetFee [DecimalRange] (self : InstrumentStates Data AssetKey)
    (trade : Trade AssetKey InstrumentIndex) : Option (ValuedFee AssetKey) :=
  match self[trade.instrument]? with
  | none => none
  | some state =>
      let fee := trade.fees
      let underlying := state.instrument.underlying
      if fee.feesQuote.isSome || fee.asset = underlying.base || fee.asset = underlying.quote then
        none
      else if fee.fees = 0 then some .zero
      else
        let outcome : FeeConversionOutcome InstrumentIndex :=
          match self.feeAssetPricing fee.asset underlying.quote with
          | none => .noPricingInstrument
          | some (pricingInstrument, price) =>
              match price.bind fun price =>
                  (Decimal.checkedMul fee.fees price).map fun feesQuote => (price, feesQuote) with
              | some (price, feesQuote) => .converted pricingInstrument price feesQuote
              | none => .noPrice pricingInstrument
        some (.reported ⟨trade.instrument, trade.id, fee.asset, fee.fees, outcome⟩)

end InstrumentStates

/-! ## Events -/

namespace InstrumentState

variable {Data ExchangeKey AssetKey InstrumentKey : Type}
  [InstrumentDataState Data ExchangeKey AssetKey InstrumentKey]

/-- `self.data.process(event)`. -/
def processAccount (self : InstrumentState Data ExchangeKey AssetKey InstrumentKey)
    (event : AccountEvent ExchangeKey AssetKey InstrumentKey) :
    InstrumentState Data ExchangeKey AssetKey InstrumentKey :=
  { self with data := InstrumentDataState.processAccount self.data event }

end InstrumentState

namespace EngineState

variable {Data AssetKey : Type}

/-- Change the state of the instrument at `key`. -/
def modify (self : EngineState Data AssetKey) (key : InstrumentIndex)
    (f : InstrumentState Data ExchangeIndex AssetKey InstrumentIndex →
      InstrumentState Data ExchangeIndex AssetKey InstrumentIndex) : EngineState Data AssetKey :=
  { self with instruments := self.instruments.modify key f }

@[simp] theorem getElem?_modify {self : EngineState Data AssetKey} {key i : InstrumentIndex}
    {f : InstrumentState Data ExchangeIndex AssetKey InstrumentIndex →
      InstrumentState Data ExchangeIndex AssetKey InstrumentIndex} :
    (self.modify key f).instruments[i]? =
      (self.instruments[i]?).map fun state => if key = i then f state else state := by
  simp only [modify, List.getElem?_modify]
  split <;> simp

/-- A fill with the value in quote of its fee, if the fee was valued. -/
def valuedTrade (trade : Trade AssetKey InstrumentIndex) (valued : Option (ValuedFee AssetKey)) :
    Trade AssetKey InstrumentIndex :=
  match valued with
  | some valued => { trade with fees := { trade.fees with feesQuote := valued.feesQuote } }
  | none => trade

section Data

variable [InstrumentDataState Data ExchangeIndex AssetKey InstrumentIndex]

/-- The account stream of `exchange` is down: every instrument on it records the orders it holds
    open. An exchange that is not tracked changes nothing. -/
def updateFromAccountReconnecting (self : EngineState Data AssetKey) (exchange : ExchangeId) :
    EngineState Data AssetKey :=
  match self.connectivity.idxOf? exchange with
  | none => self
  | some index =>
      { self with
        instruments := self.instruments.map fun state =>
          if state.instrument.exchange = index then state.beginAccountResync else state }

/-- A market print; one from an exchange that is not tracked is dropped. -/
def updateFromMarket [DecimalRange] (self : EngineState Data AssetKey)
    (event : MarketEvent InstrumentIndex (InstrumentDataState.MarketEventKind Data)) :
    EngineState Data AssetKey :=
  if event.exchange ∈ self.connectivity then
    self.modify event.instrument fun state => state.updateFromMarket event
  else self

variable [DecimalRange] [DecidableEq AssetKey]

/-- The state of one instrument after an account event, where the event is about it. -/
def replayAccount (hash : HashOrder) (self : EngineState Data AssetKey)
    (event : AccountEvent ExchangeIndex AssetKey InstrumentIndex)
    (reduceOnlyFills : List (TradeId × ReduceOnly)) :
    EngineState Data AssetKey × FillsApplied AssetKey InstrumentIndex :=
  match event.kind with
  | .snapshot instruments =>
      (instruments.foldl (fun self snapshot => self.modify snapshot.instrument fun state =>
        (state.updateFromAccountSnapshot hash snapshot).processAccount event) self, .none)
  | .orderSnapshot order =>
      match self.instruments[order.key.instrument]? with
      | none => (self, .none)
      | some state =>
          let replayed := state.replayOrderSnapshot hash order reduceOnlyFills
          (self.modify order.key.instrument fun _ => replayed.1.processAccount event, replayed.2)
  | .orderCancelled response =>
      (self.modify response.key.instrument fun state =>
        (state.updateFromCancelResponse hash response).processAccount event, .none)
  | .trade trade =>
      -- Valued before the fill is applied, so a fill queued for replay keeps the value it had.
      let valued := self.instruments.valueThirdAssetFee trade
      let conversion := valued.bind ValuedFee.intoConversion
      let trade := valuedTrade trade valued
      match self.instruments[trade.instrument]? with
      | none => (self, .none)
      | some state =>
          let state :=
            if conversion.any fun conversion => conversion.outcome.feesQuote.isNone then
              { state with tearSheet := state.tearSheet.recordFillFeeUnconverted }
            else state
          let replayed := (state.processAccount event).replayTrade hash trade reduceOnlyFills
          (self.modify trade.instrument fun _ => replayed.1,
            { replayed.2 with feeConversion := conversion })
  | .cashFlow flow =>
      match flow.instrument with
      | some instrument =>
          (self.modify instrument fun state =>
            (state.updateFromCashFlow flow).1.processAccount event, .none)
      | none => (self, .none)
  | .balanceSnapshot | .balanceStreamUpdate | .instrumentBalanceUpdate | .instrumentBalanceSnapshot
  | .streamTerminated | .venueCheckpoint | .fillRecoveryGaveUp | .tradeAmended | .reinitFailed
  | .notice | .marginDebt => (self, .none)

def updateFromAccount (hash : HashOrder) (self : EngineState Data AssetKey)
    (event : AccountEvent ExchangeIndex AssetKey InstrumentIndex) :
    EngineState Data AssetKey × FillsApplied AssetKey InstrumentIndex :=
  self.replayAccount hash event []

end Data

/-! ## Requests sent -/

section Data

variable [InstrumentDataState Data ExchangeIndex AssetKey InstrumentIndex]

def recordInFlight (self : EngineState Data AssetKey) (timeSent : DateTime)
    (request : SentRequest) : EngineState Data AssetKey :=
  self.modify request.key.instrument fun state =>
    match request with
    | .open request => state.recordInFlightOpen request timeSent
    | .cancel request => state.recordInFlightCancel request timeSent

/-- Record requests as sent, in order. -/
def recordAllInFlight (self : EngineState Data AssetKey) (timeSent : DateTime)
    (requests : List SentRequest) : EngineState Data AssetKey :=
  requests.foldl (fun self request => self.recordInFlight timeSent request) self

end Data

end EngineState

end Rustrade
