import Rustrade.Execution.Order
import Mathlib.Data.Rat.Floor

/-!
# Instruments and corporate actions

What the engine reads of an instrument: its exchange and underlying assets, its kind with the
contract terms, and the quantity part of its specification. Names, the quote convention, the
data venue and the price and notional specifications are read by nothing here and are left out.
-/

set_option autoImplicit false

namespace Rustrade

/-! ## Rounding -/

namespace Decimal

/-- The integer part, towards zero. -/
def trunc (x : Decimal) : Decimal := if 0 ≤ x then (⌊x⌋ : ℚ) else (⌈x⌉ : ℚ)

/-- The remainder of `x / y`, with the sign of `x`. -/
def rem (x y : Decimal) : Decimal := x - y * trunc (x / y)

/-- `x` has no fractional part. -/
def isWhole (x : Decimal) : Bool := x = trunc x

end Decimal

def roundTowardZeroToStep (quantity step : Decimal) : Decimal :=
  if step ≤ 0 then quantity else quantity - Decimal.rem quantity step

/-! ## Contract terms -/

structure Underlying (AssetKey : Type) where
  base : AssetKey
  quote : AssetKey
  deriving DecidableEq

structure PerpetualContract (AssetKey : Type) where
  contractSize : Decimal
  settlementAsset : AssetKey
  deriving DecidableEq

structure FutureContract (AssetKey : Type) where
  contractSize : Decimal
  settlementAsset : AssetKey
  expiry : DateTime
  deriving DecidableEq

inductive OptionKind where
  | call
  | put
  deriving DecidableEq

inductive OptionExercise where
  | american
  | bermudan
  | european
  deriving DecidableEq

structure OptionContract (AssetKey : Type) where
  contractSize : Decimal
  settlementAsset : AssetKey
  kind : OptionKind
  exercise : OptionExercise
  expiry : DateTime
  strike : Decimal
  deriving DecidableEq

structure CfdContract (AssetKey : Type) where
  contractSize : Decimal
  settlementAsset : AssetKey
  deriving DecidableEq

inductive InstrumentKind (AssetKey : Type) where
  | spot
  | perpetual (contract : PerpetualContract AssetKey)
  | future (contract : FutureContract AssetKey)
  | option (contract : OptionContract AssetKey)
  | cfd (contract : CfdContract AssetKey)
  deriving DecidableEq

namespace InstrumentKind

variable {AssetKey : Type}

def contractSize : InstrumentKind AssetKey → Decimal
  | .spot => 1
  | .perpetual contract => contract.contractSize
  | .future contract => contract.contractSize
  | .option contract => contract.contractSize
  | .cfd contract => contract.contractSize

def expiry : InstrumentKind AssetKey → Option DateTime
  | .spot | .perpetual _ | .cfd _ => none
  | .future contract => some contract.expiry
  | .option contract => some contract.expiry

/-- Only the deliverable equity is the target of a split. -/
def isSplitEligible : InstrumentKind AssetKey → Bool
  | .spot => true
  | .perpetual _ | .future _ | .option _ | .cfd _ => false

end InstrumentKind

inductive OrderQuantityUnits (AssetKey : Type) where
  | asset (asset : AssetKey)
  | contract
  | quote
  deriving DecidableEq

structure InstrumentSpecQuantity (AssetKey : Type) where
  unit : OrderQuantityUnits AssetKey
  min : Decimal
  increment : Decimal
  deriving DecidableEq

structure InstrumentSpec (AssetKey : Type) where
  quantity : InstrumentSpecQuantity AssetKey
  deriving DecidableEq

structure Instrument (ExchangeKey AssetKey : Type) where
  exchange : ExchangeKey
  underlying : Underlying AssetKey
  kind : InstrumentKind AssetKey
  spec : Option (InstrumentSpec AssetKey)
  deriving DecidableEq

/-- The step a position in the instrument is counted in, if its order quantities count it. -/
def Instrument.quantityStep {ExchangeKey AssetKey : Type} [DecidableEq AssetKey]
    (self : Instrument ExchangeKey AssetKey) : Option Decimal :=
  match self.spec with
  | none => none
  | some spec =>
      let countsPositions : Bool :=
        match self.kind, spec.quantity.unit with
        | .spot, .asset asset => asset = self.underlying.base
        | .spot, .contract => false
        | _, .contract => true
        | kind, .asset asset => kind.contractSize = 1 && asset = self.underlying.base
        | _, .quote => false
      if countsPositions && 0 < spec.quantity.increment then some spec.quantity.increment
      else none

/-! ## Corporate actions -/

/-- A split ratio: strictly positive by construction. -/
structure SplitRatio where
  get : Decimal
  pos : 0 < get
  deriving DecidableEq

inductive SplitAdjustmentKind where
  | standard
  | nonStandard
  deriving DecidableEq

inductive CorporateActionKind where
  | stockSplit (ratio : SplitRatio)
  deriving DecidableEq

/-- A whole-number forward split is standard; every other split is not. -/
def CorporateActionKind.splitKind : CorporateActionKind → Option SplitAdjustmentKind
  | .stockSplit ratio =>
      some (if 1 < ratio.get && Decimal.isWhole ratio.get then .standard else .nonStandard)

end Rustrade
