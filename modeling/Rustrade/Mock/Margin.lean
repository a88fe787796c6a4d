import Mathlib.Algebra.Order.Field.Rat
import Mathlib.Data.List.DropRight
import Rustrade.Mock.Basic

/-!
# Spot margin, carry and fee settings

What a configuration says of a spot margin account, as its constructors accept it; the models that
charge a loan or a position for being held; the provider that answers for a short sale; and the
asset fees are charged in.

The accepted configuration keeps a minimum of zero and a ratio of one, which its constructors
drop: a lookup answers them either way.
-/

set_option autoImplicit false

namespace Rustrade.Mock

/-! ## Liquidation -/

structure SpotMarginLiquidationRepr where
  level : Decimal
  feeRate : Decimal
  marginCallLevel : Option Decimal
  deriving DecidableEq

inductive SpotMarginConfigError where
  | leverageBelowOne (maxLeverage : Decimal)
  | negativeMinBorrow (asset : AssetNameExchange) (minBorrow : Decimal)
  | negativeMaxBorrow (asset : AssetNameExchange) (maxBorrow : Decimal)
  | collateralRatioOutOfRange (asset : AssetNameExchange) (ratio : Decimal)
  | liquidationRatioBelowBorrowRatio (asset : AssetNameExchange) (borrow liquidation : Decimal)
  | borrowPriceWindowInvalid (window : ℤ)
  | liquidationLevelBelowOne (level : Decimal)
  | liquidationFeeOutOfRange (feeRate : Decimal)
  | marginCallNotAboveLiquidation (marginCall level : Decimal)
  | liquidationWithinLeverage (level maxLeverage : Decimal)
  deriving DecidableEq

def SpotMarginLiquidationRepr.refusal (repr : SpotMarginLiquidationRepr) :
    Option SpotMarginConfigError :=
  if repr.level < 1 then some (.liquidationLevelBelowOne repr.level)
  else if repr.feeRate < 0 ∨ 1 ≤ repr.feeRate then some (.liquidationFeeOutOfRange repr.feeRate)
  else match repr.marginCallLevel with
    | some marginCall =>
        if marginCall ≤ repr.level then some (.marginCallNotAboveLiquidation marginCall repr.level)
        else none
    | none => none

/-- A liquidation its constructors accept. -/
structure SpotMarginLiquidation where
  repr : SpotMarginLiquidationRepr
  accepted : repr.refusal = none

namespace SpotMarginLiquidation

def level (self : SpotMarginLiquidation) : Decimal := self.repr.level

def feeRate (self : SpotMarginLiquidation) : Decimal := self.repr.feeRate

def marginCallLevel (self : SpotMarginLiquidation) : Option Decimal := self.repr.marginCallLevel

end SpotMarginLiquidation

/-! ## Spot margin -/

structure SpotMarginRepr where
  valuationAsset : AssetNameExchange
  maxLeverage : Decimal
  marginEffect : MarginEffect
  autoRepayAtCancel : Bool
  minBorrow : BTreeMap AssetNameExchange Decimal
  maxBorrow : BTreeMap AssetNameExchange Decimal
  borrowCollateralRatio : BTreeMap AssetNameExchange Decimal
  liquidationCollateralRatio : BTreeMap AssetNameExchange Decimal
  borrowPriceWindow : Option ℤ
  liquidation : Option SpotMarginLiquidation

/-- The ratio of an asset the map does not name is one. -/
def ratioOf (ratios : BTreeMap AssetNameExchange Decimal) (asset : AssetNameExchange) : Decimal :=
  ratios[asset]?.getD 1

def SpotMarginRepr.refusal (repr : SpotMarginRepr) : Option SpotMarginConfigError :=
  let ratios := repr.borrowCollateralRatio.toList ++ repr.liquidationCollateralRatio.toList
  if repr.maxLeverage < 1 then some (.leverageBelowOne repr.maxLeverage)
  else match repr.minBorrow.toList.find? fun e => e.2 < 0 with
  | some (asset, minBorrow) => some (.negativeMinBorrow asset minBorrow)
  | none => match repr.maxBorrow.toList.find? fun e => e.2 < 0 with
  | some (asset, maxBorrow) => some (.negativeMaxBorrow asset maxBorrow)
  | none => match ratios.find? fun e => ¬ (0 ≤ e.2 ∧ e.2 ≤ 1) with
  | some (asset, ratio) => some (.collateralRatioOutOfRange asset ratio)
  | none => match ratios.find? fun e => ratioOf repr.liquidationCollateralRatio e.1
      < ratioOf repr.borrowCollateralRatio e.1 with
  | some (asset, _) => some (.liquidationRatioBelowBorrowRatio asset
      (ratioOf repr.borrowCollateralRatio asset) (ratioOf repr.liquidationCollateralRatio asset))
  | none => match repr.borrowPriceWindow.filter fun window => window ≤ 0 with
  | some window => some (.borrowPriceWindowInvalid window)
  | none => match repr.liquidation.filter fun liquidation =>
      repr.maxLeverage ≤ liquidation.level * (repr.maxLeverage - 1) with
  | some liquidation => some (.liquidationWithinLeverage liquidation.level repr.maxLeverage)
  | none => none

/-- A spot margin configuration its constructors accept. -/
structure SpotMarginConfig where
  repr : SpotMarginRepr
  accepted : repr.refusal = none

namespace SpotMarginConfig

variable (self : SpotMarginConfig)

def valuationAsset : AssetNameExchange := self.repr.valuationAsset

def maxLeverage : Decimal := self.repr.maxLeverage

def marginEffect : MarginEffect := self.repr.marginEffect

def autoRepayAtCancel : Bool := self.repr.autoRepayAtCancel

def minBorrow (asset : AssetNameExchange) : Decimal := self.repr.minBorrow[asset]?.getD 0

def maxBorrow (asset : AssetNameExchange) : Option Decimal := self.repr.maxBorrow[asset]?

def borrowCollateralRatio (asset : AssetNameExchange) : Decimal :=
  ratioOf self.repr.borrowCollateralRatio asset

def liquidationCollateralRatio (asset : AssetNameExchange) : Decimal :=
  ratioOf self.repr.liquidationCollateralRatio asset

def borrowPriceWindow : Option ℤ := self.repr.borrowPriceWindow

def liquidation : Option SpotMarginLiquidation := self.repr.liquidation

end SpotMarginConfig

/-! ## Interest on a loan -/

/-- What a charge of interest is due for. -/
inductive InterestDue where
  | borrow (time : DateTime)
  | boundary (time : DateTime)
  deriving DecidableEq

def InterestDue.time : InterestDue → DateTime
  | .borrow time | .boundary time => time

structure InterestCharge where
  interest : Decimal
  rate : Option Decimal
  deriving DecidableEq

structure MarginInterestModel where
  /-- The first boundary after an instant at which a loan of the asset is charged. -/
  nextBoundary : AssetNameExchange → DateTime → Option DateTime
  charge : AssetNameExchange → Decimal → InterestDue → Option InterestCharge

/-! ## Holding a position -/

/-- A position as a holding cost model sees it at one boundary. -/
structure HeldPosition where
  instrument : InstrumentNameExchange
  quantity : Decimal
  contractSize : Decimal
  entryPrice : Decimal
  price : Decimal
  deriving DecidableEq

structure HoldingCharge where
  kind : CashFlowKind
  amount : Decimal
  deriving DecidableEq

structure HoldingCostModel where
  /-- The first boundary after an instant at which a position in the instrument is charged. -/
  nextBoundary : InstrumentNameExchange → DateTime → Option DateTime
  charge : HeldPosition → DateTime → Option HoldingCharge

/-! ## Short sales -/

structure Shortability where
  shortable : Option Bool
  available : Option Decimal
  delistingAt : Option DateTime
  deriving DecidableEq

structure ShortabilityProvider where
  shortability : InstrumentNameExchange → DateTime → Shortability
  shortSaleRestricted : InstrumentNameExchange → DateTime → Bool

/-! ## Fees -/

/-- Which asset a spot fill's fee is charged in. -/
inductive SpotFeeAsset where
  | quote
  | received
  deriving DecidableEq, Repr

/-- A third asset fees are charged in, at a discount. -/
structure FeeAssetConfig where
  asset : AssetNameExchange
  discount : Decimal
  discount_nonneg : 0 ≤ discount
  discount_le_one : discount ≤ 1

/-! ## The prices a loan is valued over -/

/-- The candidates for the lowest and the highest price of a window, oldest first. -/
structure PriceWindow where
  lows : List (DateTime × Decimal)
  highs : List (DateTime × Decimal)
  deriving DecidableEq

namespace PriceWindow

def default : PriceWindow := ⟨[], []⟩

/-- The first price recorded at or after `since`. -/
def firstSince (queue : List (DateTime × Decimal)) (since : DateTime) : Option Decimal :=
  (queue.dropWhile fun e => e.1 < since).head?.map Prod.snd

def low (self : PriceWindow) (since : DateTime) : Option Decimal := firstSince self.lows since

def high (self : PriceWindow) (since : DateTime) : Option Decimal := firstSince self.highs since

def record [Build] (self : PriceWindow) (time : DateTime) (low high : Decimal)
    (since : DateTime) : Except Fault PriceWindow := do
  debugAssert .record (low ≤ high)
  debugAssert .record (∀ last ∈ self.lows.getLast?, last.1 ≤ time)
  let lows := self.lows.rdropWhile (fun e => low ≤ e.2) ++ [(time, low)]
  let highs := self.highs.rdropWhile (fun e => e.2 ≤ high) ++ [(time, high)]
  return ⟨lows.dropWhile fun e => e.1 < since, highs.dropWhile fun e => e.1 < since⟩

end PriceWindow

end Rustrade.Mock
