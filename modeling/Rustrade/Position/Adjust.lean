import Rustrade.Execution.CashFlow
import Rustrade.Position

/-!
# What moves a position other than a fill

Carry, the cash a held position is paid or charged, and splits, which rescale its quantity and
basis. A split is in two halves: `prepareSplit` does all the arithmetic that can fail and writes
nothing, and `commitSplit` writes what it prepared and cannot fail.
-/

set_option autoImplicit false

namespace Rustrade

/-- The total a carry amount is added to. -/
inductive CarrySlot (AssetKey : Type) where
  | quote
  | base
  | other (asset : AssetKey)
  deriving DecidableEq

/-- What was done with a cash flow. -/
inductive CarryUpdate where
  | applied
  | overflowed
  | noOpenPosition
  | beforeEntry
  | beforeHistory
  | severalOpen
  | loanOfOtherOrder
  deriving DecidableEq, Repr

/-- A split's new figures for one position, and the fraction of a share it disposes of. -/
structure PreparedSplit where
  quantityAbs : Decimal
  priceEntryAverage : Decimal
  quantityAbsMax : Decimal
  remainder : Decimal
  deriving DecidableEq

structure SplitResult where
  remainder : Decimal
  pnlUnrealisedOverflowed : Bool
  deriving DecidableEq

namespace AssetCarry

variable {AssetKey : Type} [DecidableEq AssetKey]

/-- The carry held in one of the other assets. -/
def held (self : AssetCarry AssetKey) (asset : AssetKey) : Decimal :=
  ((self.other.find? fun e => e.1 = asset).map Prod.snd).getD 0

/-- Write the carry held in one of the other assets, the first time at the end. -/
def setOther (self : AssetCarry AssetKey) (asset : AssetKey) (sum : Decimal) :
    AssetCarry AssetKey :=
  { self with
    other :=
      match self.other.findIdx? fun e => e.1 = asset with
      | some i => self.other.set i (asset, sum)
      | none => self.other ++ [(asset, sum)] }

end AssetCarry

namespace Position

variable {AssetKey InstrumentKey : Type} [DecimalRange]

/-- Add to one of the carry totals, holding it if the sum does not fit. -/
def applyCarry [DecidableEq AssetKey] (self : Position AssetKey InstrumentKey)
    (slot : CarrySlot AssetKey) (amount : Decimal) (timeExchange : DateTime) :
    Position AssetKey InstrumentKey × CarryUpdate :=
  let held := match slot with
    | .quote => self.carry
    | .base => self.carryAssets.base
    | .other asset => self.carryAssets.held asset
  match Decimal.checkedAdd held amount with
  | none => (self, .overflowed)
  | some sum =>
      let added := match slot with
        | .quote => { self with carry := sum }
        | .base => { self with carryAssets := { self.carryAssets with base := sum } }
        | .other asset => { self with carryAssets := self.carryAssets.setOther asset sum }
      ({ added with timeExchangeUpdate := max self.timeExchangeUpdate timeExchange }, .applied)

/-- `none` is `SplitError::Overflow`. -/
def prepareSplit (self : Position AssetKey InstrumentKey) (ratio : SplitRatio)
    (policy : SplitRoundingPolicy) : Option PreparedSplit := do
  let scaledQuantity ← Decimal.checkedMul self.quantityAbs ratio.get
  let quantityAbs : Decimal := match policy with
    | .floor => (⌊scaledQuantity⌋ : ℚ)
    | .fractional => scaledQuantity
  let priceEntryAverage ← Decimal.checkedDiv self.priceEntryAverage ratio.get
  let quantityAbsMax ← Decimal.checkedMul self.quantityAbsMax ratio.get
  return ⟨quantityAbs, priceEntryAverage, quantityAbsMax, scaledQuantity - quantityAbs⟩

/-- Write a prepared split, and value the position at `lastPrice`: at zero if there is none or
    the value does not fit. -/
def commitSplit (self : Position AssetKey InstrumentKey) (prepared : PreparedSplit)
    (lastPrice : Option Decimal) : Position AssetKey InstrumentKey × SplitResult :=
  let rescaled := { self with
    priceEntryAverage := prepared.priceEntryAverage
    quantityAbs := prepared.quantityAbs
    quantityAbsMax := prepared.quantityAbsMax }
  match lastPrice with
  | some price =>
      let pnl := rescaled.checkedPnlUnrealised price
      ({ rescaled with pnlUnrealised := pnl.getD 0 }, ⟨prepared.remainder, pnl.isNone⟩)
  | none => ({ rescaled with pnlUnrealised := 0 }, ⟨prepared.remainder, false⟩)

end Position

end Rustrade
