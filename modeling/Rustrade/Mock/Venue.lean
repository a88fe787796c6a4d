import Rustrade.Mock.Settlement

/-!
# The simulated venue

Its configuration and state, how it is built from an account snapshot, and what every input reads
of it: the terms of an instrument, its net position, the ids it mints, and the caches of the next
instant something is charged.
-/

set_option autoImplicit false

namespace Rustrade.Mock

/-! ## Configuration -/

structure MockExecutionConfig where
  mockedExchange : ExchangeId
  initialState : AccountSnapshot
  feeModel : FeeModelConfig
  fillModel : SimFillConfig
  spotFeeAsset : SpotFeeAsset
  slippage : SlippageConfig
  marketOrderTiming : MarketOrderTiming
  staleMarket : StaleMarketPolicy
  spotMargin : Option SpotMarginConfig
  feeAsset : Option FeeAssetConfig

/-- Whether the venue prices an order from the market its request carries or from its own. -/
inductive VenueRegime where
  | requestPriced
  | marketDriven
  deriving DecidableEq, Repr

/-! ## State -/

/-- The venue's own view of one instrument. -/
structure VenueInstrumentMarket where
  snapshot : MarketSnapshot
  depth : MarketDepth
  timeExchange : DateTime
  bar : Option MarketBar
  freshAt : Option DateTime
  deriving DecidableEq

def VenueInstrumentMarket.default : VenueInstrumentMarket :=
  ⟨.default, .unknown, 0, none, none⟩

structure LiquidationState where
  underWay : Bool
  marginCalled : Bool
  deriving DecidableEq

structure SimulatedVenue where
  exchange : ExchangeId
  feeModel : FeeModelConfig
  spotFeeAsset : SpotFeeAsset
  fillModel : FillModel
  slippage : Slippage
  instruments : BTreeMap InstrumentNameExchange VenueInstrument
  account : AccountState
  market : BTreeMap InstrumentNameExchange VenueInstrumentMarket
  borrowPrices : BTreeMap InstrumentNameExchange PriceWindow
  positions : BTreeMap InstrumentNameExchange NetPosition
  orderSequence : Nat
  orderIdStart : Nat
  tradeSequence : Nat
  timeExchangeLatest : DateTime
  regime : VenueRegime
  holdingCosts : List HoldingCostModel
  accruedThrough : Option DateTime
  nextCharge : Option DateTime
  cashFlowSequence : Nat
  shortability : Option ShortabilityProvider
  marketOrderTiming : MarketOrderTiming
  staleMarket : StaleMarketPolicy
  spotMargin : Option SpotMarginConfig
  feeAsset : Option FeeAssetConfig
  marginInterest : Option MarginInterestModel
  nextInterest : Option DateTime
  nextInterestLoans : Nat
  reportedDebt : BTreeMap AssetNameExchange MarginDetails
  liquidation : LiquidationState
  checkpointSequence : Nat

/-! ## Seeds -/

/-- `u64::from_str`: an optional plus sign and decimal digits. -/
def parseU64 (text : String) : Option Nat :=
  let digits := match text.toList with
    | '+' :: rest => rest
    | chars => chars
  if digits.isEmpty then none
  else
    let value := digits.foldlM
      (fun (n : Nat) (c : Char) => if c.isDigit then some (n * 10 + (c.toNat - 48)) else none) 0
    value.filter fun n => n < 2 ^ 64

/-- The first order id past every decimal one the account was seeded with. -/
def firstUnseededOrderId (account : AccountState) : Nat :=
  let opened := account.ordersOpen.iter.filterMap fun order => order.state.id.assigned?
  let cancelled := account.ordersCancelled.toList.map fun e => e.2.state.id
  ((opened ++ cancelled).filterMap fun id => parseU64 id.val).max?.elim 0 fun highest => highest + 1

/-- The positions a snapshot reports of cash-settled instruments. -/
def seededPositions (initialState : AccountSnapshot)
    (instruments : BTreeMap InstrumentNameExchange VenueInstrument) :
    Except Fault (BTreeMap InstrumentNameExchange NetPosition) :=
  let isCfd (name : InstrumentNameExchange) : Bool := match instruments[name]? with
    | some instrument => match instrument.kind with
      | .cfd _ => true
      | _ => false
    | none => false
  (initialState.instruments.filter fun snapshot => isCfd snapshot.instrument).foldlM
    (fun positions snapshot => match snapshot.position.open? with
      | none => .ok positions
      | some position => do
          let entry ← expect position.entryPrice
          return positions.insert snapshot.instrument ⟨position.quantity, entry⟩) ∅

namespace SimulatedVenue

/-! ## Construction -/

def assemble (config : MockExecutionConfig)
    (instruments : BTreeMap InstrumentNameExchange VenueInstrument) (regime : VenueRegime)
    (account : AccountState) (positions : BTreeMap InstrumentNameExchange NetPosition)
    (orderIdStart : Nat) (reportedDebt : BTreeMap AssetNameExchange MarginDetails) :
    SimulatedVenue :=
  { exchange := config.mockedExchange
    feeModel := config.feeModel
    spotFeeAsset := config.spotFeeAsset
    fillModel := config.fillModel.model
    slippage := .new config.slippage
    instruments
    account
    market := ∅
    borrowPrices := ∅
    positions
    orderSequence := 0
    orderIdStart
    tradeSequence := 0
    timeExchangeLatest := 0
    regime
    holdingCosts := []
    accruedThrough := none
    nextCharge := none
    cashFlowSequence := 0
    shortability := none
    marketOrderTiming := config.marketOrderTiming
    staleMarket := config.staleMarket
    spotMargin := config.spotMargin
    feeAsset := config.feeAsset
    marginInterest := none
    nextInterest := none
    nextInterestLoans := 0
    reportedDebt
    liquidation := ⟨false, false⟩
    checkpointSequence := 0 }

def withRegime (config : MockExecutionConfig)
    (instruments : BTreeMap InstrumentNameExchange VenueInstrument) (regime : VenueRegime) :
    Except Fault SimulatedVenue := do
  let positions ← seededPositions config.initialState instruments
  let seeded ← expect (AccountState.tryFrom config.initialState).toOption
  let account := if config.spotMargin.isSome then seeded.enableMargin else seeded
  return assemble config instruments regime account positions (firstUnseededOrderId account)
    (account.balances.filterMap fun _ balance => balance.balance.margin)

/-! ## Instruments -/

/-- Why the venue does not trade an instrument. -/
inductive InstrumentInvalid where
  | notManaged
  | unsupportedKind
  deriving DecidableEq, Repr

variable (self : SimulatedVenue)

def settlementOfSupportedKind (instrument : VenueInstrument) : Except InstrumentInvalid Bool :=
  match instrument.kind with
  | .spot => .ok false
  | .cfd _ => .ok true
  | .perpetual _ | .future _ | .option _ => .error .unsupportedKind

def instrumentTerms (instrument : InstrumentNameExchange) :
    Except InstrumentInvalid InstrumentTerms :=
  match self.instruments[instrument]? with
  | none => .error .notManaged
  | some data => do
      let cashSettled ← settlementOfSupportedKind data
      return ⟨data.underlying, data.kind.contractSize, cashSettled⟩

def netPosition (terms : InstrumentTerms) (instrument : InstrumentNameExchange) : NetPosition :=
  if terms.cashSettled then self.positions[instrument]?.getD .default else .default

def timeExchange : DateTime := self.timeExchangeLatest

/-! ## Ids -/

def nextOrderId : OrderId := ⟨toString (self.orderIdStart + self.orderSequence)⟩

def orderIdSequenceFetchAdd : OrderId × SimulatedVenue :=
  (⟨toString (self.orderIdStart + self.orderSequence)⟩,
    { self with orderSequence := self.orderSequence + 1 })

def tradeIdSequenceFetchAdd : TradeId × SimulatedVenue :=
  (⟨toString self.tradeSequence⟩, { self with tradeSequence := self.tradeSequence + 1 })

def cashFlowIdFetchAdd : CashFlowId × SimulatedVenue :=
  (⟨toString self.cashFlowSequence⟩, { self with cashFlowSequence := self.cashFlowSequence + 1 })

def buildAccountEvent (kind : AccountEventKind) : AccountEvent := ⟨self.exchange, kind⟩

/-! ## The next instant something is charged -/

/-- The next boundary of a holding cost model, which must be later than `after`. -/
def nextBoundary (model : HoldingCostModel) (instrument : InstrumentNameExchange)
    (after : DateTime) : Except Fault (Option DateTime) :=
  match model.nextBoundary instrument after with
  | none => .ok none
  | some boundary => do
      assert (after < boundary)
      return some boundary

/-- The next boundary of an interest model, which must be later than `after`. -/
def nextInterestBoundary (model : MarginInterestModel) (asset : AssetNameExchange)
    (after : DateTime) : Except Fault (Option DateTime) :=
  match model.nextBoundary asset after with
  | none => .ok none
  | some boundary => do
      assert (after < boundary)
      return some boundary

def refreshNextCharge : Except Fault SimulatedVenue :=
  match self.accruedThrough with
  | none => .ok { self with nextCharge := none }
  | some after => do
      let held := self.positions.toList.flatMap fun e =>
        self.holdingCosts.map fun model => (e.1, model)
      let boundaries ← held.mapM fun (instrument, model) => nextBoundary model instrument after
      return { self with nextCharge := (boundaries.filterMap id).min? }

def refreshNextInterest : Except Fault SimulatedVenue :=
  let venue := { self with nextInterestLoans := self.account.loansChanged }
  match self.marginInterest with
  | none => .ok venue
  | some model => match self.accruedThrough with
    | none => .ok { venue with nextInterest := none }
    | some after => do
        let boundaries ← self.account.loans.mapM fun (asset, _) =>
          nextInterestBoundary model asset after
        return { venue with nextInterest := (boundaries.filterMap id).min? }

def refreshNextInterestIfLoansChanged : Except Fault SimulatedVenue :=
  if self.account.loansChanged ≠ self.nextInterestLoans then self.refreshNextInterest
  else .ok self

/-- The next instant an order expires or something is charged. -/
def nextDeadline : Option DateTime :=
  (self.account.ordersOpen.nextExpiry.toList ++ self.nextCharge.toList ++
    self.nextInterest.toList).min?

/-! ## Settings given after construction -/

def withHoldingCosts (models : List HoldingCostModel) : Except Fault SimulatedVenue :=
  { self with holdingCosts := models }.refreshNextCharge

def withMarginInterest (model : MarginInterestModel) : Except Fault SimulatedVenue := do
  assert self.spotMargin.isSome
  { self with marginInterest := some model }.refreshNextInterest

def withFillModel (model : FillModel) : SimulatedVenue := { self with fillModel := model }

def withShortability (provider : ShortabilityProvider) : SimulatedVenue :=
  { self with shortability := some provider }

/-! ## Prices -/

/-- The middle of the book where it has two sides, else the last price. -/
def midOrLast (snapshot : MarketSnapshot) : Option Decimal :=
  match snapshot.bestBid, snapshot.bestAsk with
  | some bid, some ask => some ((bid + ask) / 2)
  | _, _ => snapshot.lastPrice

/-- The market reaches an order's limit. -/
def crosses (side : Side) (limit : Decimal) (market : MarketSnapshot) : Bool :=
  match side with
  | .buy => match market.bestAsk with
    | some bestAsk => bestAsk ≤ limit
    | none => market.lastPrice.any fun last => last ≤ limit
  | .sell => match market.bestBid with
    | some bestBid => limit ≤ bestBid
    | none => market.lastPrice.any fun last => limit ≤ last

def clampToLimit (side : Side) (price limit : Decimal) : Decimal :=
  match side with
  | .buy => min price limit
  | .sell => max price limit

def depthAvailable (instrument : InstrumentNameExchange) (side : Side) : Option Decimal :=
  self.market[instrument]?.bind fun market => market.depth.availableTo side

def consumeDepth [Build] (instrument : InstrumentNameExchange) (side : Side)
    (quantity : Decimal) : Except Fault SimulatedVenue :=
  match self.market[instrument]? with
  | none => .ok self
  | some market => do
      let depth ← market.depth.consume side quantity
      return { self with market := self.market.insert instrument { market with depth } }

end SimulatedVenue

end Rustrade.Mock
