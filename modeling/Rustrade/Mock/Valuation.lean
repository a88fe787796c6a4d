import Rustrade.Mock.Venue

/-!
# What a margin account is worth, and what it may be lent

An asset is priced through the spot instruments that pair it with the valuation asset, the first
by name that has a price. A borrow may be valued over a window of past prices, each asset at its
extreme against the account.
-/

set_option autoImplicit false

namespace Rustrade.Mock

/-! ## The instruments between two assets -/

/-- A spot instrument between two assets, seen from the first: `inverse` where it is the quote. -/
structure SpotPair where
  instrument : InstrumentNameExchange
  inverse : Bool
  deriving DecidableEq

/-- The spot instruments between two assets, by name. One of a single asset pairs nothing. -/
def SpotPairs.between (instruments : BTreeMap InstrumentNameExchange VenueInstrument)
    (asset other : AssetNameExchange) : List SpotPair :=
  instruments.toList.filterMap fun e =>
    let base := e.2.underlying.base
    let quote := e.2.underlying.quote
    if e.2.kind = .spot ∧ base ≠ quote then
      if base = asset ∧ quote = other then some ⟨e.1, false⟩
      else if quote = asset ∧ base = other then some ⟨e.1, true⟩
      else none
    else none

/-! ## Prices -/

/-- What a valuation is for, which decides the collateral ratios it weights by. -/
inductive MarginCheck where
  | borrow
  | liquidation
  deriving DecidableEq, Repr

def MarginCheck.collateralRatio (self : MarginCheck) (config : SpotMarginConfig)
    (asset : AssetNameExchange) : Decimal :=
  match self with
  | .borrow => config.borrowCollateralRatio asset
  | .liquidation => config.liquidationCollateralRatio asset

inductive Extreme where
  | lowest
  | highest
  deriving DecidableEq, Repr

/-- Which prices a valuation uses: the current ones, or the extremes since an instant. -/
inductive Prices where
  | current
  | window (since : DateTime) (borrowing : AssetNameExchange)
  deriving DecidableEq

/-- The extreme an asset is valued at: its highest where the account owes it or is borrowing it. -/
def Prices.extreme (self : Prices) (asset : AssetNameExchange) (owes : Bool) :
    Option (Extreme × DateTime) :=
  match self with
  | .current => none
  | .window since borrowing =>
      some (if owes || asset = borrowing then .highest else .lowest, since)

/-- `price`, moved to the asset's extreme in the window. The window holds the instrument's price,
    so an inverse pair reads its other end. -/
def windowedPrice (price : Decimal) (window : Option PriceWindow) (inverse : Bool)
    (extreme : Option (Extreme × DateTime)) : Decimal :=
  let lowest (since : DateTime) : Decimal :=
    ((window.bind fun window => window.low since).map fun low => min low price).getD price
  let highest (since : DateTime) : Decimal :=
    ((window.bind fun window => window.high since).map fun high => max high price).getD price
  match extreme, inverse with
  | none, _ => price
  | some (.lowest, since), false | some (.highest, since), true => lowest since
  | some (.highest, since), false | some (.lowest, since), true => highest since

/-- The market an arriving order is priced from, and the assets it exchanges. -/
abbrev Priced := Option (Underlying AssetNameExchange × MarketSnapshot)

/-- What a margin account's balances come to in the valuation asset. -/
structure Valued where
  equity : Decimal
  debt : Decimal
  deriving DecidableEq

def owed (balance : AssetBalance) : Decimal := (balance.balance.margin.map MarginDetails.owed).getD 0

def windowStart (stop : DateTime) (window : ℤ) : DateTime := stop - window

namespace SimulatedVenue

variable (self : SimulatedVenue)

def priceOf (asset valuation : AssetNameExchange) (priced : Priced) (prices : Prices)
    (owes : Bool) : Option Decimal :=
  if asset = valuation then some 1
  else
    let extreme := prices.extreme asset owes
    let snapshotOf (pair : SpotPair) : Option MarketSnapshot :=
      match self.market[pair.instrument]? with
      | some market => some market.snapshot
      | none => priced.bind fun (underlying, snapshot) =>
          let (base, quote) := if pair.inverse then (valuation, asset) else (asset, valuation)
          if underlying.base = base ∧ underlying.quote = quote then some snapshot else none
    (SpotPairs.between self.instruments asset valuation).findSome? fun pair =>
      ((snapshotOf pair).bind midOrLast).bind fun price =>
        if price ≤ 0 then none
        else
          let price := windowedPrice price self.borrowPrices[pair.instrument]? pair.inverse extreme
          some (if pair.inverse then 1 / price else price)

def priceIn (asset valuation : AssetNameExchange) (priced : Priced) : Option Decimal :=
  self.priceOf asset valuation priced .current false

/-- Add one balance to a valuation. Only what is held beyond what is owed is weighted; an asset that
    is owed and has no price leaves the account unvalued. -/
def valueBalance (config : SpotMarginConfig) (check : MarginCheck) (priced : Priced)
    (prices : Prices) (valued : Valued) (balance : AssetBalance) : Option Valued :=
  let owed := owed balance
  match self.priceOf balance.asset config.valuationAsset priced prices (0 < owed) with
  | none => if 0 < owed then none else some valued
  | some price =>
      let net := balance.balance.netAsset
      let ratio := if 0 < net then check.collateralRatio config balance.asset else 1
      some ⟨valued.equity + net * ratio * price, valued.debt + owed * price⟩

def valued (config : SpotMarginConfig) (check : MarginCheck) (priced : Priced)
    (prices : Prices) : Option Valued :=
  self.account.allBalances.foldlM (self.valueBalance config check priced prices) ⟨0, 0⟩

/-! ## Lending -/

def borrowWindowSince (config : SpotMarginConfig) : Option DateTime :=
  match self.accruedThrough, config.borrowPriceWindow with
  | some stop, some window => some (windowStart stop window)
  | _, _ => none

/-- How much of `asset` the leverage limit leaves to borrow, or `none` where a debt or the asset
    itself cannot be valued. -/
def leverageRoom (config : SpotMarginConfig) (asset : AssetNameExchange) (priced : Priced) :
    Option Decimal :=
  let room (prices : Prices) : Option Decimal := do
    let assetPrice ← self.priceOf asset config.valuationAsset priced prices true
    let valued ← self.valued config .borrow priced prices
    let headroom := (config.maxLeverage - 1) * valued.equity - valued.debt
    some (max headroom 0 / assetPrice)
  do
    let current ← room .current
    match self.borrowWindowSince config with
    | none => some current
    | some since => do
        let windowed ← room (.window since asset)
        some (min current windowed)

def borrowable (debit : Debit) (effect : MarginEffect) (terms : InstrumentTerms)
    (market : Option MarketSnapshot) : Decimal :=
  match self.spotMargin with
  | none => 0
  | some config =>
      if effect ≠ .borrow ∨ terms.cashSettled ∨ self.liquidation.underWay ∨
          debit.settled + debit.reserved ≤ self.account.free debit.asset then 0
      else
        let priced := market.map fun market => (terms.underlying, market)
        (self.leverageRoom config debit.asset priced).getD 0

/-- What an order does to the loans: what it asks for, or what the venue is set to. -/
def marginEffect (requested : Option MarginEffect) : MarginEffect :=
  match self.spotMargin with
  | some config => requested.getD config.marginEffect
  | none => .noSideEffect

/-- An effect asked for that the venue cannot honour here. -/
def refusedMarginEffect (requested : Option MarginEffect) (terms : InstrumentTerms) :
    Option MarginEffect :=
  let borrowsHere := self.spotMargin.isSome && !terms.cashSettled
  requested.filter fun effect => !borrowsHere && effect ≠ .noSideEffect

def repaysAtCancel : Bool := self.spotMargin.any SpotMarginConfig.autoRepayAtCancel

/-! ## Fees of a fill -/

def settlement (terms : InstrumentTerms) (position : NetPosition) (side : Side)
    (quantity price : Decimal) (liquidity : Liquidity) : Settlement :=
  let feesQuote := self.feeModel.computeFee price |quantity| terms.contractSize liquidity
  settlementWithFee self.spotFeeAsset terms position side quantity price feesQuote

/-- A spot fill's fee in the third asset, discounted, if the account holds enough of it. -/
def feeInFeeAsset (terms : InstrumentTerms) (fees : AssetFees AssetNameExchange) :
    Option (AssetFees AssetNameExchange) := do
  let config ← self.feeAsset
  let feesQuote ← fees.feesQuote
  if terms.cashSettled ∨ config.asset = terms.underlying.base ∨
      config.asset = terms.underlying.quote ∨ feesQuote ≤ 0 then none
  else
    let price ← self.priceIn config.asset terms.underlying.quote none
    let feesQuote := feesQuote * (1 - config.discount)
    let fee ← if price = 0 then none else some (feesQuote / price)
    if fee ≤ self.account.free config.asset then some ⟨config.asset, fee, some feesQuote⟩ else none

/-- What a fill is costed at: with its fee apart where the third asset pays it. -/
def fillSettlement (terms : InstrumentTerms) (position : NetPosition) (side : Side)
    (quantity price : Decimal) (liquidity : Liquidity) : Settlement :=
  let settlement := self.settlement terms position side quantity price liquidity
  match self.feeInFeeAsset terms settlement.fees with
  | some fees =>
      { settlementWithFee self.spotFeeAsset terms position side quantity price 0 with
        fees
        feeApart := true }
  | none => settlement

end SimulatedVenue

end Rustrade.Mock
