import Rustrade.Books
import Rustrade.Mock.Basic

/-!
# The depth aggregator

`DepthAggregator` makes a book of the venue's depth messages, one level at a time, and answers a
snapshot of it for each. Levels are found by their price; the row a message names is not read.
-/

set_option autoImplicit false

namespace Rustrade.Ibkr

open Mock (Build)

/-- `f64`, as far as it is read here. -/
inductive F64 where
  | nan
  | infinite (negative : Bool)
  | finite (value : ℚ)
deriving DecidableEq, Repr

def F64.isFinite : F64 → Bool
  | .finite _ => true
  | _ => false

/-- `Decimal::try_from` of a finite `f64`: the decimal it is rounded to, if there is room for it. -/
class DecimalTryFrom where
  tryFrom : ℚ → Option Decimal

def decimalFromF64 [DecimalTryFrom] : F64 → Option Decimal
  | .finite value => DecimalTryFrom.tryFrom value
  | _ => none

def ibDepthOpDelete : ℤ := 2

structure MarketDepth where
  position : ℤ
  operation : ℤ
  side : ℤ
  price : F64
  size : F64
deriving DecidableEq, Repr

/-- A row with its market maker is passed over, so nothing of it is read. -/
inductive MarketDepths where
  | marketDepth (depth : MarketDepth)
  | marketDepthL2
  | reset
deriving DecidableEq, Repr

/-- What stops the worker: a sequence past its width, or a side that is not sorted, in a build that
    checks for them. -/
inductive Panic where
  | overflow
  | unsorted
deriving DecidableEq, Repr

structure DepthAggregator where
  bids : OrderBookSide .bids
  asks : OrderBookSide .asks
  sequence : UInt64
deriving DecidableEq, Repr

end Ibkr

/-- `OrderBook::from_sides`. -/
def OrderBook.fromSides [Mock.Build] (sequence : UInt64) (times : OrderBookTimes)
    (bids : OrderBookSide .bids) (asks : OrderBookSide .asks) : Except Ibkr.Panic OrderBook :=
  let descending := bids.levels.IsChain fun a b => b.price ≤ a.price
  let ascending := asks.levels.IsChain fun a b => a.price ≤ b.price
  if Mock.Build.debugAssertions && !(decide descending && decide ascending) then .error .unsorted
  else .ok { sequence, times, bids, asks }

namespace Ibkr

open Mock (Build)

/-- `sequence += 1`. -/
def nextSequence [Build] (sequence : UInt64) : Except Panic UInt64 :=
  if Build.debugAssertions && sequence = -1 then .error .overflow else .ok (sequence + 1)

namespace DepthAggregator

def new : DepthAggregator := ⟨⟨[]⟩, ⟨[]⟩, 0⟩

def updateBids (self : DepthAggregator) (price size : Decimal) : DepthAggregator :=
  { self with
    bids := self.bids.upsertSingle ⟨price, size⟩ fun existing => (compare existing.price price).swap }

def updateAsks (self : DepthAggregator) (price size : Decimal) : DepthAggregator :=
  { self with
    asks := self.asks.upsertSingle ⟨price, size⟩ fun existing => compare existing.price price }

def toOrderBook [Build] (self : DepthAggregator) (timeReceived : DateTime) :
    Except Panic OrderBook :=
  OrderBook.fromSides self.sequence ⟨none, none, timeReceived⟩ self.bids self.asks

/-- The sequence moved on, and the snapshot of it. -/
def emit [Build] (self : DepthAggregator) (timeReceived : DateTime) :
    Except Panic (DepthAggregator × OrderBookEvent) := do
  let sequence ← nextSequence self.sequence
  let self := { self with sequence }
  let book ← self.toOrderBook timeReceived
  return (self, .snapshot book)

def processDepth [Build] [DecimalTryFrom] (self : DepthAggregator) (depth : MarketDepth)
    (timeReceived : DateTime) : Except Panic (DepthAggregator × Option OrderBookEvent) :=
  match decimalFromF64 depth.price with
  | none => .ok (self, none)
  | some price =>
    -- The size of a delete is not read: a level of no amount is what removes one.
    match if depth.operation = ibDepthOpDelete then some 0 else decimalFromF64 depth.size with
    | none => .ok (self, none)
    | some size =>
      let emit (self : DepthAggregator) :=
        (self.emit timeReceived).map fun (self, event) => (self, some event)
      match depth.side with
      | 0 => emit (self.updateAsks price size)
      | 1 => emit (self.updateBids price size)
      | _ => .ok (self, none)

def onVenueReset [Build] (self : DepthAggregator) (timeReceived : DateTime) :
    Except Panic (DepthAggregator × OrderBookEvent) :=
  { self with bids := ⟨[]⟩, asks := ⟨[]⟩ }.emit timeReceived

def update [Build] [DecimalTryFrom] (self : DepthAggregator) (depth : MarketDepths)
    (timeReceived : DateTime) : Except Panic (DepthAggregator × Option OrderBookEvent) :=
  match depth with
  | .marketDepth depth => self.processDepth depth timeReceived
  | .marketDepthL2 => .ok (self, none)
  | .reset => (self.onVenueReset timeReceived).map fun (self, event) => (self, some event)

/-- Every message in turn, with what was emitted at each. -/
def run [Build] [DecimalTryFrom] (self : DepthAggregator) :
    List (MarketDepths × DateTime) → Except Panic (DepthAggregator × List (Option OrderBookEvent))
  | [] => .ok (self, [])
  | (depth, timeReceived) :: rest => do
    let (self, event) ← self.update depth timeReceived
    let (self, events) ← self.run rest
    return (self, event :: events)

end DepthAggregator

end Rustrade.Ibkr
