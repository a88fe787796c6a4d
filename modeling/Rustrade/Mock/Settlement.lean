import Mathlib.Algebra.Order.Field.Rat
import Rustrade.Execution.Fee
import Rustrade.Mock.Account
import Rustrade.Mock.Margin
import Rustrade.Mock.Market

/-!
# What a fill costs

The net position a simulated venue keeps for each cash-settled instrument, and what one fill pays,
gives back and reports as its fee. A cash-settled fill posts margin for what it opens and is paid
back the margin and the profit of what it closes; a spot fill exchanges the two assets.
-/

set_option autoImplicit false

namespace Rustrade.Mock

/-! ## Positions -/

structure NetPosition where
  quantity : Decimal
  entry : Decimal
  deriving DecidableEq

namespace NetPosition

def default : NetPosition := ⟨0, 0⟩

def isLong (self : NetPosition) : Bool := 0 < self.quantity

/-- How much of the position a fill closes. -/
def closing (self : NetPosition) (side : Side) (quantity : Decimal) : Decimal :=
  let opposes : Bool := match side with
    | .buy => self.quantity < 0
    | .sell => self.isLong
  if opposes then min quantity |self.quantity| else 0

/-- The position a fill leaves: an increase averages its entry, a reduction keeps it, a flip enters
    at the fill's price. -/
def after (self : NetPosition) (side : Side) (quantity price : Decimal) : NetPosition :=
  let moved := signed side quantity
  let next := self.quantity + moved
  let entry :=
    if next = 0 then 0
    else if self.quantity = 0 ∨ decide (next < 0) ≠ decide (self.quantity < 0) then price
    else if decide (moved < 0) = decide (self.quantity < 0) then
      (self.entry * |self.quantity| + price * quantity) / |next|
    else self.entry
  ⟨next, entry⟩

end NetPosition

/-! ## Settlements -/

/-- What a fill of an instrument is costed from. -/
structure InstrumentTerms where
  underlying : Underlying AssetNameExchange
  contractSize : Decimal
  cashSettled : Bool
  deriving DecidableEq

/-- What a fill pays, gives back and charges. A fee taken apart is in neither. -/
structure Settlement where
  asset : AssetNameExchange
  amount : Decimal
  credit : Credit
  fees : AssetFees AssetNameExchange
  feeApart : Bool
  deriving DecidableEq

namespace Settlement

/-- What the fill requires: less what it pays back into the asset it pays with. -/
def requirement (self : Settlement) : Decimal :=
  match self.credit with
  | .paidBack credit => max (self.amount - credit) 0
  | .delivery _ => self.amount

def settled (self : Settlement) : Debit := ⟨self.asset, self.amount, 0⟩

def reserved (self : Settlement) : Debit := ⟨self.asset, 0, self.requirement⟩

/-- The debit of a fill that leaves a remainder resting. -/
def settledHolding [Build] (self remainder : Settlement) : Except Fault Debit := do
  debugAssert .settledHolding (self.asset = remainder.asset)
  return ⟨self.asset, self.amount, remainder.requirement⟩

/-- The debit of a fill, and of the remainder it leaves resting, if it leaves one. -/
def settledHoldingAny [Build] (self : Settlement) (remainder : Option Settlement) :
    Except Fault Debit :=
  match remainder with
  | some remainder => self.settledHolding remainder
  | none => .ok self.settled

end Settlement

def settlementWithFee (spotFeeAsset : SpotFeeAsset) (terms : InstrumentTerms)
    (position : NetPosition) (side : Side) (quantity price feesQuote : Decimal) : Settlement :=
  let quantity := |quantity|
  let fees : AssetFees AssetNameExchange := ⟨terms.underlying.quote, feesQuote, some feesQuote⟩
  if terms.cashSettled then
    let closing := position.closing side quantity
    let opening := quantity - closing
    let openMargin := price * opening * terms.contractSize
    let closeProceeds := closing * terms.contractSize *
      if position.isLong then price else position.entry + position.entry - price
    -- A short closed above twice its entry has lost more than its margin.
    let (credit, shortfall) :=
      if closeProceeds < 0 then (0, -closeProceeds) else (closeProceeds, 0)
    { asset := terms.underlying.quote
      amount := openMargin + feesQuote + shortfall
      credit := .paidBack credit
      fees
      feeApart := false }
  else
    let notional := price * quantity * terms.contractSize
    match side with
    | .buy =>
        if spotFeeAsset = .received ∧ 0 < price ∧ feesQuote ≠ 0 then
          let feeBase := feesQuote / price
          { asset := terms.underlying.quote
            amount := notional
            credit := .delivery ⟨terms.underlying.base, quantity - feeBase⟩
            fees := ⟨terms.underlying.base, feeBase, some feesQuote⟩
            feeApart := false }
        else
          { asset := terms.underlying.quote
            amount := notional + feesQuote
            credit := .delivery ⟨terms.underlying.base, quantity⟩
            fees
            feeApart := false }
    | .sell =>
        { asset := terms.underlying.base
          amount := quantity
          credit := .delivery ⟨terms.underlying.quote, notional - feesQuote⟩
          fees
          feeApart := false }

end Rustrade.Mock
