import Rustrade.Instrument

/-!
# Trades

A fill as the venue reports it, its fee, and how much of a holding it moves once a fee taken in
the base asset and the limit of a reduce-only order are accounted for.
-/

set_option autoImplicit false

namespace Rustrade

structure TradeId where
  val : String
  deriving DecidableEq, Repr

/-- A fee in its own asset, with its quote equivalent where one is known. -/
structure AssetFees (AssetKey : Type) where
  asset : AssetKey
  fees : Decimal
  feesQuote : Option Decimal
  deriving DecidableEq

/-- What caused a fill. -/
inductive TradeOrigin where
  | order
  | liquidation
  | adl
  | assignment
  | exercise
  | expiry
  | external
  deriving DecidableEq, Repr

/-- The venue closed the position without an order of the account. -/
def TradeOrigin.isForced : TradeOrigin → Bool
  | .liquidation | .adl | .assignment => true
  | _ => false

structure Trade (AssetKey InstrumentKey : Type) where
  id : TradeId
  orderId : OrderId
  instrument : InstrumentKey
  strategy : StrategyId
  timeExchange : DateTime
  side : Side
  price : Decimal
  quantity : Decimal
  orderFilledQuantity : Option Decimal
  fees : AssetFees AssetKey
  origin : TradeOrigin
  positionSide : Option Side
  clientOrderId : Option ClientOrderId
  deriving DecidableEq

/-! ## What a fill moves -/

/-- A quantity with the sign of its side. -/
def signed : Side → Decimal → Decimal
  | .buy, quantity => quantity
  | .sell, quantity => -quantity

theorem signed_of_ne {side side' : Side} (h : side ≠ side') (x : Decimal) :
    signed side' x = -signed side x := by
  cases side <;> cases side' <;> simp [signed] at h ⊢

@[simp] theorem signed_add {side : Side} {x y : Decimal} :
    signed side (x + y) = signed side x + signed side y := by
  cases side <;> simp [signed, add_comm]

@[simp] theorem signed_sub {side : Side} {x y : Decimal} :
    signed side (x - y) = signed side x - signed side y := by
  cases side <;> simp [signed, sub_eq_add_neg, add_comm]

@[simp] theorem signed_zero {side : Side} : signed side 0 = 0 := by cases side <;> simp [signed]

@[simp] theorem signed_eq_zero {side : Side} {x : Decimal} : signed side x = 0 ↔ x = 0 := by
  cases side <;> simp [signed]

/-- A signed quantity as a side and a size; `atZero` is the side of nothing. -/
def unsigned (moved : Decimal) (atZero : Side) : Side × Decimal :=
  (if 0 < moved then .buy else if moved < 0 then .sell else atZero, |moved|)

/-- What a reduce-only move may take from `held`, where that is less than `moved`. -/
def reducedBy (held moved : Decimal) : Option Decimal :=
  if (0 < held ∧ moved < 0) ∨ (held < 0 ∧ 0 < moved) ∨ (held = 0 ∧ moved = 0) then
    if |held| < |moved| then some (-held) else none
  else if moved = 0 then none
  else some 0

/-- What a fill moves a holding by, what the quantity step left over, and what a reduce-only
    order may not take. -/
structure HoldingMove where
  side : Side
  quantity : Decimal
  dust : Decimal
  excess : Decimal
  deriving DecidableEq

def Trade.holdingMove {ExchangeKey AssetKey InstrumentKey : Type} [DecidableEq AssetKey]
    (self : Trade AssetKey InstrumentKey) (instrument : Instrument ExchangeKey AssetKey)
    (held : Decimal) (reduceOnly : ReduceOnly) : Option HoldingMove :=
  let baseFee : Bool := instrument.kind = .spot && self.fees.asset = instrument.underlying.base &&
    self.fees.fees ≠ 0
  let netted := signed self.side |self.quantity| - if baseFee then self.fees.fees else 0
  let nettedSide := (unsigned netted self.side).1
  let whole : Option HoldingMove :=
    if !baseFee then none
    else
      let holds := held + netted
      let rounded := (instrument.quantityStep.map (roundTowardZeroToStep holds)).getD holds
      let moved := unsigned (rounded - held) nettedSide
      some ⟨moved.1, moved.2, holds - rounded, 0⟩
  if reduceOnly.isReduceOnly then
    match reducedBy held netted with
    | some moved =>
        let cut := unsigned moved nettedSide
        some ⟨cut.1, cut.2, 0, netted - moved⟩
    | none => whole
  else whole

end Rustrade
