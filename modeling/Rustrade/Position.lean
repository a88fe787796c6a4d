import Rustrade.Execution.Trade
import Rustrade.Lib.IndexMap

/-!
# Positions and the position manager

A position is built from fills and from nothing else: a fill opens one, adds to it, reduces it,
closes it exactly, or crosses zero and opens the next one on the other side. `PositionManager`
holds the open positions of one instrument by `PositionId`, one in netting mode and any number
in hedging mode, and the time its history starts.

The checked operations of the source keep the value they had when a result does not fit, and the
model takes the same branch.
-/

set_option autoImplicit false

namespace Rustrade

inductive OmsMode where
  | netting
  | hedging
  deriving DecidableEq, Repr

inductive SplitRoundingPolicy where
  | floor
  | fractional
  deriving DecidableEq, Repr

/-- Carry in assets other than the quote asset. -/
structure AssetCarry (AssetKey : Type) where
  base : Decimal
  other : List (AssetKey × Decimal)
  deriving DecidableEq

def AssetCarry.zero {AssetKey : Type} : AssetCarry AssetKey := ⟨0, []⟩

/-- An open position. `quantityAbs` is its size, `side` its direction. -/
structure Position (AssetKey InstrumentKey : Type) where
  instrument : InstrumentKey
  side : Side
  priceEntryAverage : Decimal
  quantityAbs : Decimal
  quantityAbsMax : Decimal
  pnlUnrealised : Decimal
  pnlRealised : Decimal
  carry : Decimal
  carryAssets : AssetCarry AssetKey
  feesEnter : AssetFees AssetKey
  feesExit : AssetFees AssetKey
  timeEnter : DateTime
  timeExchangeUpdate : DateTime
  trades : List TradeId
  ordersEnter : List OrderId
  contractSize : Decimal
  deriving DecidableEq

/-- The record of a position that closed. -/
structure PositionExited (AssetKey InstrumentKey : Type) where
  positionId : PositionId
  instrument : InstrumentKey
  side : Side
  priceEntryAverage : Decimal
  quantityAbsMax : Decimal
  pnlRealised : Decimal
  carry : Decimal
  carryAssets : AssetCarry AssetKey
  priceExit : Option Decimal
  feesEnter : AssetFees AssetKey
  feesExit : AssetFees AssetKey
  timeEnter : DateTime
  timeExit : DateTime
  trades : List TradeId
  deriving DecidableEq

/-! ## The arithmetic -/

/-- The part of a fee that PnL counts: its quote equivalent. -/
def feeInQuote {AssetKey : Type} (fees : AssetFees AssetKey) : Decimal := fees.feesQuote.getD 0

/-- Add a fee's quote equivalent to a running total of them; `none` only while no fee has had
    one. -/
def sumQuoteFees (total fee : Option Decimal) : Option Decimal :=
  match total, fee with
  | none, none => none
  | total, fee => some (total.getD 0 + fee.getD 0)

def calculatePriceEntryAverage (currentPriceEntryAverage currentQuantityAbs tradePrice
    tradeQuantityAbs : Decimal) : Decimal :=
  if currentQuantityAbs = 0 ∧ tradeQuantityAbs = 0 then 0
  else
    (currentPriceEntryAverage * currentQuantityAbs + tradePrice * tradeQuantityAbs) /
      (currentQuantityAbs + tradeQuantityAbs)

def approximateRemainingExitFees (quantityAbs quantityAbsMax feesEnter : Decimal) : Decimal :=
  if quantityAbsMax = 0 then 0 else quantityAbs / quantityAbsMax * feesEnter

section Checked

variable [DecimalRange]

def calculatePnlUnrealised (positionSide : Side) (priceEntryAverage quantityAbs quantityAbsMax
    feesEnter price contractSize : Decimal) : Option Decimal := do
  let approxExitFees := approximateRemainingExitFees quantityAbs quantityAbsMax feesEnter
  let valueQuoteCurrent ← (← Decimal.checkedMul quantityAbs price).checkedMul contractSize
  let valueQuoteEntry ←
    (← Decimal.checkedMul quantityAbs priceEntryAverage).checkedMul contractSize
  match positionSide with
  | .buy => (← Decimal.checkedSub valueQuoteCurrent valueQuoteEntry).checkedSub approxExitFees
  | .sell => (← Decimal.checkedSub valueQuoteEntry valueQuoteCurrent).checkedSub approxExitFees

def calculatePnlRealised (positionSide : Side) (priceEntryAverage closedQuantity closedPrice
    closedFee contractSize : Decimal) : Option Decimal := do
  let closeQuantity := |closedQuantity|
  let valueQuoteClosed ← (← Decimal.checkedMul closeQuantity closedPrice).checkedMul contractSize
  let valueQuoteEntry ←
    (← Decimal.checkedMul closeQuantity priceEntryAverage).checkedMul contractSize
  match positionSide with
  | .buy => (← Decimal.checkedSub valueQuoteClosed valueQuoteEntry).checkedSub closedFee
  | .sell => (← Decimal.checkedSub valueQuoteEntry valueQuoteClosed).checkedSub closedFee

end Checked

/-! ## One position and one fill -/

namespace Position

variable {AssetKey InstrumentKey : Type}

/-- The position a fill opens. -/
def fromTrade (trade : Trade AssetKey InstrumentKey) : Position AssetKey InstrumentKey :=
  { instrument := trade.instrument
    side := trade.side
    priceEntryAverage := trade.price
    quantityAbs := |trade.quantity|
    quantityAbsMax := |trade.quantity|
    pnlUnrealised := 0
    pnlRealised := -feeInQuote trade.fees
    carry := 0
    carryAssets := .zero
    feesEnter := trade.fees
    feesExit := ⟨trade.fees.asset, 0, some 0⟩
    timeEnter := trade.timeExchange
    timeExchangeUpdate := trade.timeExchange
    trades := [trade.id]
    ordersEnter := [trade.orderId]
    contractSize := 1 }

def intoExited (self : Position AssetKey InstrumentKey) (priceExit : Option Decimal) :
    PositionExited AssetKey InstrumentKey :=
  { positionId := .netting
    instrument := self.instrument
    side := self.side
    priceEntryAverage := self.priceEntryAverage
    quantityAbsMax := self.quantityAbsMax
    pnlRealised := self.pnlRealised
    carry := self.carry
    carryAssets := self.carryAssets
    priceExit := priceExit
    feesEnter := self.feesEnter
    feesExit := self.feesExit
    timeEnter := self.timeEnter
    timeExit := self.timeExchangeUpdate
    trades := self.trades }

/-- Charge a fee to a running total of fees. -/
def addFees (total fees : AssetFees AssetKey) : AssetFees AssetKey :=
  { total with
    fees := total.fees + fees.fees
    feesQuote := sumQuoteFees total.feesQuote fees.feesQuote }

section Checked

variable [DecimalRange]

def checkedPnlUnrealised (self : Position AssetKey InstrumentKey) (price : Decimal) :
    Option Decimal :=
  calculatePnlUnrealised self.side self.priceEntryAverage self.quantityAbs self.quantityAbsMax
    (feeInQuote self.feesEnter) price self.contractSize

/-- On a market price: the last good value is held if the new one does not fit. -/
def updatePnlUnrealised (self : Position AssetKey InstrumentKey) (price : Decimal) :
    Position AssetKey InstrumentKey :=
  { self with pnlUnrealised := (self.checkedPnlUnrealised price).getD self.pnlUnrealised }

/-- After a fill, which changed the basis: zero if the new value does not fit. -/
def updatePnlUnrealisedPostTrade (self : Position AssetKey InstrumentKey) (price : Decimal) :
    Position AssetKey InstrumentKey :=
  { self with pnlUnrealised := (self.checkedPnlUnrealised price).getD 0 }

/-- Book the PnL of a closed quantity, holding the last good total if either step does not
    fit. -/
def updatePnlRealised (self : Position AssetKey InstrumentKey)
    (closedQuantity closedPrice closedFee : Decimal) : Position AssetKey InstrumentKey :=
  let updated := (calculatePnlRealised self.side self.priceEntryAverage closedQuantity closedPrice
    closedFee self.contractSize).bind fun delta => Decimal.checkedAdd self.pnlRealised delta
  { self with pnlRealised := updated.getD self.pnlRealised }

/-- A fill on the position's own side. -/
def increase (self : Position AssetKey InstrumentKey) (trade : Trade AssetKey InstrumentKey) :
    Position AssetKey InstrumentKey :=
  let quantityAbs := self.quantityAbs + |trade.quantity|
  { self with
    ordersEnter := if trade.orderId ∈ self.ordersEnter then self.ordersEnter
      else self.ordersEnter ++ [trade.orderId]
    priceEntryAverage := calculatePriceEntryAverage self.priceEntryAverage self.quantityAbs
      trade.price |trade.quantity|
    quantityAbs := quantityAbs
    quantityAbsMax := if self.quantityAbsMax < quantityAbs then quantityAbs
      else self.quantityAbsMax
    pnlRealised := (Decimal.checkedSub self.pnlRealised (feeInQuote trade.fees)).getD
      self.pnlRealised
    feesEnter := addFees self.feesEnter trade.fees
    timeExchangeUpdate := trade.timeExchange }.updatePnlUnrealisedPostTrade trade.price

/-- A fill against the position that leaves some of it. -/
def reduce (self : Position AssetKey InstrumentKey) (trade : Trade AssetKey InstrumentKey) :
    Position AssetKey InstrumentKey :=
  let booked := self.updatePnlRealised trade.quantity trade.price (feeInQuote trade.fees)
  { booked with
    quantityAbs := self.quantityAbs - |trade.quantity|
    feesExit := addFees self.feesExit trade.fees
    timeExchangeUpdate := trade.timeExchange }.updatePnlUnrealisedPostTrade trade.price

/-- A fill against the position of exactly its size. -/
def close (self : Position AssetKey InstrumentKey) (trade : Trade AssetKey InstrumentKey) :
    PositionExited AssetKey InstrumentKey :=
  let reduced := { self with
    quantityAbs := self.quantityAbs - |trade.quantity|
    feesExit := addFees self.feesExit trade.fees
    timeExchangeUpdate := trade.timeExchange }
  ((reduced.updatePnlRealised trade.quantity trade.price
    (feeInQuote trade.fees)).updatePnlUnrealisedPostTrade trade.price).intoExited (some trade.price)

/-- The share of a fill's fees that falls on `part` of its quantity. -/
def feeShare (trade : Trade AssetKey InstrumentKey) (part : Decimal) : AssetFees AssetKey :=
  { trade.fees with
    fees := trade.fees.fees * (part / |trade.quantity|)
    feesQuote := trade.fees.feesQuote.map fun fee => fee * (part / |trade.quantity|) }

/-- The slice of a fill that opens the next position once the current one is closed. -/
def nextPositionTrade (self : Position AssetKey InstrumentKey)
    (trade : Trade AssetKey InstrumentKey) : Trade AssetKey InstrumentKey :=
  let nextPositionQuantity := |trade.quantity| - self.quantityAbs
  { trade with
    quantity := nextPositionQuantity
    orderFilledQuantity := none
    fees := feeShare trade nextPositionQuantity }

/-- A fill against the position of more than its size: the position it closes and the one it
    opens. -/
def flip (self : Position AssetKey InstrumentKey) (trade : Trade AssetKey InstrumentKey) :
    Position AssetKey InstrumentKey × PositionExited AssetKey InstrumentKey :=
  let feeExit := feeShare trade self.quantityAbs
  let charged := { self with
    feesExit := addFees self.feesExit feeExit
    timeExchangeUpdate := trade.timeExchange }
  let booked := charged.updatePnlRealised self.quantityAbs trade.price (feeInQuote feeExit)
  let closed := { booked with quantityAbs := 0 }.updatePnlUnrealisedPostTrade trade.price
  let next := { fromTrade (self.nextPositionTrade trade) with contractSize := closed.contractSize }
  (next, closed.intoExited (some trade.price))

/-- Move the position by a fill, in the branch its side and size choose. -/
def moveBy (self : Position AssetKey InstrumentKey) (trade : Trade AssetKey InstrumentKey) :
    Option (Position AssetKey InstrumentKey) × Option (PositionExited AssetKey InstrumentKey) :=
  if self.side = trade.side then (some (self.increase trade), none)
  else if |trade.quantity| < self.quantityAbs then (some (self.reduce trade), none)
  else if self.quantityAbs = |trade.quantity| then (none, some (self.close trade))
  else (some (self.flip trade).1, some (self.flip trade).2)

/-- Apply a fill: the position it leaves, if any, and the one it closed, if any. -/
def updateFromTrade [DecidableEq InstrumentKey] (self : Position AssetKey InstrumentKey)
    (trade : Trade AssetKey InstrumentKey) :
    Option (Position AssetKey InstrumentKey) × Option (PositionExited AssetKey InstrumentKey) :=
  if self.instrument ≠ trade.instrument then (some self, none)
  else { self with trades := self.trades ++ [trade.id] }.moveBy trade

end Checked

end Position

/-! ## The position manager -/

/-- What was done with a fill: it moved a position, perhaps closing it, or it moved nothing and
    its fees reached no PnL. -/
inductive TradeOutcome (AssetKey InstrumentKey : Type) where
  | applied (exited : Option (PositionExited AssetKey InstrumentKey))
  | unapplied (fees : AssetFees AssetKey)
  deriving DecidableEq

structure PositionManager (AssetKey InstrumentKey : Type) where
  mode : OmsMode
  positions : IndexMap PositionId (Position AssetKey InstrumentKey)
  timeHistoryStart : Option DateTime
  deriving DecidableEq

namespace PositionManager

variable {AssetKey InstrumentKey : Type}

def new (mode : OmsMode) : PositionManager AssetKey InstrumentKey := ⟨mode, .empty, none⟩

/-- Move the start of history to `time` when that is later. -/
def recordPositionEnd (self : PositionManager AssetKey InstrumentKey) (time : DateTime) :
    PositionManager AssetKey InstrumentKey :=
  { self with timeHistoryStart := some ((self.timeHistoryStart.map (max · time)).getD time) }

/-- Remove a position that ended other than by a fill. -/
def removeEnded (self : PositionManager AssetKey InstrumentKey) (positionId : PositionId)
    (time : DateTime) :
    PositionManager AssetKey InstrumentKey × Option (Position AssetKey InstrumentKey) :=
  match self.positions.get? positionId with
  | none => (self, none)
  | some removed =>
      ({ self with positions := self.positions.remove positionId }.recordPositionEnd time,
        some removed)

variable [DecimalRange] [DecidableEq InstrumentKey]

/-- Put the outcome of a fill back: the position it left goes to the end of the map. -/
def settle (self : PositionManager AssetKey InstrumentKey) (positionId : PositionId)
    (updated : Option (Position AssetKey InstrumentKey))
    (closed : Option (PositionExited AssetKey InstrumentKey)) :
    PositionManager AssetKey InstrumentKey × TradeOutcome AssetKey InstrumentKey :=
  let closed := closed.map fun exited => { exited with positionId := positionId }
  let self := { self with positions := self.positions.remove positionId }
  let self := match closed with
    | some exited => self.recordPositionEnd exited.timeExit
    | none => self
  let self := match updated with
    | some position => { self with positions := self.positions.insert positionId position }
    | none => self
  (self, .applied closed)

def updateFromTradeWithId (self : PositionManager AssetKey InstrumentKey)
    (trade : Trade AssetKey InstrumentKey) (positionId : PositionId) (contractSize : Decimal) :
    PositionManager AssetKey InstrumentKey × TradeOutcome AssetKey InstrumentKey :=
  match self.positions.get? positionId with
  | some position =>
      let moved := { position with contractSize := contractSize }.updateFromTrade trade
      self.settle positionId moved.1 moved.2
  | none =>
      if trade.quantity = 0 then (self, .unapplied trade.fees)
      else
        self.settle positionId
          (some { Position.fromTrade trade with contractSize := contractSize }) none

def updateFromTrade (self : PositionManager AssetKey InstrumentKey)
    (trade : Trade AssetKey InstrumentKey) (contractSize : Decimal) :
    PositionManager AssetKey InstrumentKey × TradeOutcome AssetKey InstrumentKey :=
  let positionId := match self.mode with
    | .netting => .netting
    | .hedging => ⟨trade.orderId.val⟩
  self.updateFromTradeWithId trade positionId contractSize

/-! ### What each call leaves alone -/

omit [DecimalRange] [DecidableEq InstrumentKey] in
@[simp] theorem mode_recordPositionEnd {self : PositionManager AssetKey InstrumentKey}
    {time : DateTime} : (self.recordPositionEnd time).mode = self.mode := rfl

omit [DecimalRange] [DecidableEq InstrumentKey] in
@[simp] theorem positions_recordPositionEnd {self : PositionManager AssetKey InstrumentKey}
    {time : DateTime} : (self.recordPositionEnd time).positions = self.positions := rfl

omit [DecimalRange] [DecidableEq InstrumentKey] in
theorem mode_settle {self : PositionManager AssetKey InstrumentKey} {positionId : PositionId}
    {updated : Option (Position AssetKey InstrumentKey)}
    {closed : Option (PositionExited AssetKey InstrumentKey)} :
    (self.settle positionId updated closed).1.mode = self.mode := by
  cases updated <;> cases closed <;> rfl

omit [DecimalRange] [DecidableEq InstrumentKey] in
theorem get?_settle_of_ne {self : PositionManager AssetKey InstrumentKey}
    {positionId other : PositionId} {updated : Option (Position AssetKey InstrumentKey)}
    {closed : Option (PositionExited AssetKey InstrumentKey)} (hne : other ≠ positionId) :
    (self.settle positionId updated closed).1.positions.get? other =
      self.positions.get? other := by
  cases updated <;> cases closed <;>
    simp [settle, IndexMap.get?_insert_of_ne hne, IndexMap.get?_remove_of_ne hne]

omit [DecimalRange] [DecidableEq InstrumentKey] in
theorem exited_settle {self : PositionManager AssetKey InstrumentKey} {positionId : PositionId}
    {updated : Option (Position AssetKey InstrumentKey)}
    {closed : Option (PositionExited AssetKey InstrumentKey)}
    {exited : PositionExited AssetKey InstrumentKey}
    (h : (self.settle positionId updated closed).2 = .applied (some exited)) :
    exited.positionId = positionId := by
  cases closed with
  | none => simp [settle] at h
  | some closed =>
    simp only [settle, Option.map_some, TradeOutcome.applied.injEq, Option.some.injEq] at h
    rw [← h]

theorem mode_updateFromTradeWithId {self : PositionManager AssetKey InstrumentKey}
    {trade : Trade AssetKey InstrumentKey} {positionId : PositionId} {contractSize : Decimal} :
    (self.updateFromTradeWithId trade positionId contractSize).1.mode = self.mode := by
  unfold updateFromTradeWithId
  split
  · exact mode_settle
  · split
    · rfl
    · exact mode_settle

/-- A fill booked at one slot leaves every other where it was. -/
theorem get?_updateFromTradeWithId_of_ne {self : PositionManager AssetKey InstrumentKey}
    {trade : Trade AssetKey InstrumentKey} {positionId other : PositionId}
    {contractSize : Decimal} (hne : other ≠ positionId) :
    (self.updateFromTradeWithId trade positionId contractSize).1.positions.get? other =
      self.positions.get? other := by
  unfold updateFromTradeWithId
  split
  · exact get?_settle_of_ne hne
  · split
    · rfl
    · exact get?_settle_of_ne hne

theorem exited_updateFromTradeWithId {self : PositionManager AssetKey InstrumentKey}
    {trade : Trade AssetKey InstrumentKey} {positionId : PositionId} {contractSize : Decimal}
    {exited : PositionExited AssetKey InstrumentKey}
    (h : (self.updateFromTradeWithId trade positionId contractSize).2 = .applied (some exited)) :
    exited.positionId = positionId := by
  unfold updateFromTradeWithId at h
  split at h
  · exact exited_settle h
  · split at h
    · exact absurd h (by simp)
    · exact exited_settle h

end PositionManager

end Rustrade
