import Rustrade.InstrumentState

/-!
# Applying a fill

`replayTrade` takes a fill to the position `destination` names, in the steps of the source: cap a
settlement fill at the position it reduces, add the commission, net a base fee and cut a
reduce-only fill, move the position, prune the routing of a position that closed, and advance the
order the fill is of. A fill that waits for an ack, or that settles no one position, stops at the
first.
-/

set_option autoImplicit false

namespace Rustrade

/-- `trade` cut to `held`, keeping its sign, with its fees cut in proportion. -/
def cappedTo {AssetKey InstrumentKey : Type} (trade : Trade AssetKey InstrumentKey)
    (held : Decimal) : Trade AssetKey InstrumentKey :=
  let share := held / |trade.quantity|
  { trade with
    quantity := if trade.quantity < 0 then -held else held
    fees := { trade.fees with
      fees := trade.fees.fees * share
      feesQuote := trade.fees.feesQuote.map fun fees => fees * share } }

namespace InstrumentState

variable {Data ExchangeKey AssetKey InstrumentKey : Type}

def noteForcedFill (self : InstrumentState Data ExchangeKey AssetKey InstrumentKey) :
    InstrumentState Data ExchangeKey AssetKey InstrumentKey :=
  { self with tearSheet := self.tearSheet.recordFillForced }

/-- Charge the fees of a fill that applied to no position to the tear sheet. -/
def recordFeeUnattributed (self : InstrumentState Data ExchangeKey AssetKey InstrumentKey)
    (trade : Trade AssetKey InstrumentKey) (fees : AssetFees AssetKey) :
    InstrumentState Data ExchangeKey AssetKey InstrumentKey :=
  if feeInQuote fees = 0 then self
  else
    { self with
      tearSheet := self.tearSheet.recordFeeUnattributed (feeInQuote fees) trade.timeExchange }

/-- The fill with this state's own commission added, in quote. -/
def withComputedFee (self : InstrumentState Data ExchangeKey AssetKey InstrumentKey)
    (trade : Trade AssetKey InstrumentKey) : Trade AssetKey InstrumentKey :=
  -- Taker: a trade does not say which side of the book it was on.
  let computedFee := self.feeModel.computeFee trade.price trade.quantity
    self.instrument.kind.contractSize .taker
  if computedFee = 0 then trade
  else
    { trade with
      fees := { trade.fees with
        fees := trade.fees.fees + computedFee
        feesQuote := some (trade.fees.feesQuote.getD 0 + computedFee) } }

/-- What the position at `positionId` holds, signed. -/
def heldAt (self : InstrumentState Data ExchangeKey AssetKey InstrumentKey)
    (positionId : PositionId) : Decimal :=
  ((self.position.positions.get? positionId).map fun position =>
    signed position.side position.quantityAbs).getD 0

section Checked

variable [DecimalRange]

/-- Book a reduce-only fill cut by `excess`: keep on `netted` the share of its fees that its move
    is of the whole, charge the rest to the tear sheet, and count the cut, as free base traded or
    as a mistake. -/
def bookReduceOnlyCut (hash : HashOrder)
    (self : InstrumentState Data ExchangeKey AssetKey InstrumentKey)
    (trade netted : Trade AssetKey InstrumentKey) (positionId : PositionId)
    (held excess : Decimal) (reduceOnly : ReduceOnly) :
    InstrumentState Data ExchangeKey AssetKey InstrumentKey ×
      Trade AssetKey InstrumentKey × ReduceOnlyCapped InstrumentKey :=
  let whole := netted.quantity + |excess|
  let kept := fun fee : Decimal => fee * netted.quantity / whole
  let charged := feeInQuote netted.fees
  let netted := { netted with
    fees := { netted.fees with
      fees := kept netted.fees.fees
      feesQuote := netted.fees.feesQuote.map kept } }
  let feesUnattributed := charged - feeInQuote netted.fees
  let tearSheet :=
    if feesUnattributed = 0 then self.tearSheet
    else self.tearSheet.recordFeeUnattributed feesUnattributed trade.timeExchange
  let excessValue := |excess| * trade.price * self.instrument.kind.contractSize
  let clientOrderId :=
    ((self.reduceOnlyOrder hash trade).map BookedOrder.cid).or trade.clientOrderId
  -- Free base exists on spot alone, and a fill on the position's own side reduced nothing.
  let tradesFreeBase : Bool := reduceOnly = .positionAndFreeBase &&
    (match self.instrument.kind with
      | .spot => true
      | _ => false) &&
    (held = 0 || decide (held < 0) != decide (excess < 0))
  let tearSheet :=
    if tradesFreeBase then tearSheet.recordFillFreeBaseTraded excessValue
    else tearSheet.recordFillReduceOnlyCapped excessValue
  ({ self with tearSheet := tearSheet }, netted,
    { instrument := trade.instrument
      tradeId := trade.id
      orderId := trade.orderId
      clientOrderId := clientOrderId
      positionId := positionId
      held := held
      excess := excess
      excessValue := excessValue
      feesUnattributed := feesUnattributed
      reduceOnly := reduceOnly
      tradesFreeBase := tradesFreeBase })

/-- The fill moved as `Trade.holdingMove` says, with the cut if it was cut; `none` if it moves the
    position by its own side and quantity. Only the fee the venue reported is netted, which is
    why the fill is here twice. -/
def moveHolding [DecidableEq AssetKey] (hash : HashOrder)
    (self : InstrumentState Data ExchangeKey AssetKey InstrumentKey)
    (trade effective : Trade AssetKey InstrumentKey) (positionId : PositionId)
    (reduceOnly : ReduceOnly) :
    InstrumentState Data ExchangeKey AssetKey InstrumentKey ×
      Option (Trade AssetKey InstrumentKey × Option (ReduceOnlyCapped InstrumentKey)) :=
  let held := self.heldAt positionId
  match trade.holdingMove self.instrument held reduceOnly with
  | none => (self, none)
  | some moved =>
      let netted := { effective with side := moved.side, quantity := moved.quantity }
      if moved.excess ≠ 0 then
        let cut := self.bookReduceOnlyCut hash trade netted positionId held moved.excess reduceOnly
        (cut.1, some (cut.2.1, some cut.2.2))
      else if moved.dust = 0 then (self, some (netted, none))
      else
        ({ self with
            tearSheet := self.tearSheet.recordFillDust moved.dust (moved.dust * netted.price) },
          some (netted, none))

/-- Apply a fill to the position at `positionId`, and fold the position it closes, if any, into
    the tear sheet. -/
def applyToPosition [DecidableEq InstrumentKey]
    (self : InstrumentState Data ExchangeKey AssetKey InstrumentKey)
    (trade : Trade AssetKey InstrumentKey) (positionId : PositionId) (contractSize : Decimal) :
    InstrumentState Data ExchangeKey AssetKey InstrumentKey ×
      Option (PositionExited AssetKey InstrumentKey) :=
  let applied := self.position.updateFromTradeWithId trade positionId contractSize
  let self := { self with position := applied.1 }
  match applied.2 with
  | .applied none => (self, none)
  | .applied (some closed) =>
      ({ self with tearSheet := self.tearSheet.updateFromPosition closed }, some closed)
  | .unapplied fees => (self.recordFeeUnattributed trade fees, none)

/-- What the order of a fill was sent as: what the caller says of the fill, or else the book. -/
def reduceOnlyOf (hash : HashOrder)
    (self : InstrumentState Data ExchangeKey AssetKey InstrumentKey)
    (trade : Trade AssetKey InstrumentKey) (reduceOnlyFills : List (TradeId × ReduceOnly)) :
    ReduceOnly :=
  (((reduceOnlyFills.find? fun e => e.1 = trade.id).map Prod.snd).or
    ((self.reduceOnlyOrder hash trade).map BookedOrder.reduceOnly)).getD .no

/-- Step 2b: net the base fee and cut a reduce-only fill. A settlement fill that was capped closes
    the whole position it reduces already, and is left as it stands. -/
def moveFill [DecidableEq AssetKey] (hash : HashOrder)
    (self : InstrumentState Data ExchangeKey AssetKey InstrumentKey)
    (trade : Trade AssetKey InstrumentKey) (cappedSettlement : Bool) (positionId : PositionId)
    (reduceOnlyFills : List (TradeId × ReduceOnly)) :
    InstrumentState Data ExchangeKey AssetKey InstrumentKey ×
      Option (Trade AssetKey InstrumentKey × Option (ReduceOnlyCapped InstrumentKey)) :=
  if cappedSettlement then (self, none)
  else self.moveHolding hash trade (self.withComputedFee trade) positionId
    (self.reduceOnlyOf hash trade reduceOnlyFills)

/-- Steps 2 and 3: commission, base fee and reduce-only cut, and the move of the position. -/
def bookFill [DecidableEq AssetKey] [DecidableEq InstrumentKey] (hash : HashOrder)
    (self : InstrumentState Data ExchangeKey AssetKey InstrumentKey)
    (trade : Trade AssetKey InstrumentKey) (cappedSettlement : Bool) (positionId : PositionId)
    (reduceOnlyFills : List (TradeId × ReduceOnly)) :
    InstrumentState Data ExchangeKey AssetKey InstrumentKey ×
      FillsApplied AssetKey InstrumentKey :=
  let moved := self.moveFill hash trade cappedSettlement positionId reduceOnlyFills
  let effective := (moved.2.map Prod.fst).getD (self.withComputedFee trade)
  let capped := moved.2.bind Prod.snd
  let applied :=
    if capped.isSome && effective.quantity = 0 then (moved.1, none)
    else moved.1.applyToPosition effective positionId self.instrument.kind.contractSize
  (applied.1, ⟨applied.2, capped.toList, none⟩)

/-- Step 4: forget that the orders no longer tracked were sent with the position that closed. -/
def prunePositionIds (self : InstrumentState Data ExchangeKey AssetKey InstrumentKey)
    (positionId : PositionId) : InstrumentState Data ExchangeKey AssetKey InstrumentKey :=
  { self with
    positionIds := self.positionIds.retain fun cid mapped =>
      mapped ≠ positionId || self.orders.tracked.contains cid }

/-- Step 5: advance the order to the cumulative fill the trade reports. -/
def advanceOrder (hash : HashOrder)
    (self : InstrumentState Data ExchangeKey AssetKey InstrumentKey)
    (trade : Trade AssetKey InstrumentKey) :
    InstrumentState Data ExchangeKey AssetKey InstrumentKey :=
  match trade.orderFilledQuantity with
  | none => self
  | some reported =>
      match self.trackedOrderCid hash trade.orderId with
      | none => self
      | some cid =>
          let advanced := self.orders.updateFromFill cid trade.orderId reported
          let self := { self with orders := advanced.1 }
          if advanced.2 then self.cleanupRoutingTables hash else self

variable [DecidableEq AssetKey] [DecidableEq InstrumentKey]

/-- Steps 2 to 5, for a fill that goes to the position at `positionId`. -/
def applyFill (hash : HashOrder)
    (self : InstrumentState Data ExchangeKey AssetKey InstrumentKey)
    (trade : Trade AssetKey InstrumentKey) (cappedSettlement : Bool) (positionId : PositionId)
    (reduceOnlyFills : List (TradeId × ReduceOnly)) :
    InstrumentState Data ExchangeKey AssetKey InstrumentKey ×
      FillsApplied AssetKey InstrumentKey :=
  let booked := self.bookFill hash trade cappedSettlement positionId reduceOnlyFills
  let pruned :=
    if booked.2.exited.isSome then booked.1.prunePositionIds positionId else booked.1
  (pruned.advanceOrder hash trade, booked.2)

/-- Take a fill to its destination. -/
def deliver (hash : HashOrder)
    (self : InstrumentState Data ExchangeKey AssetKey InstrumentKey)
    (trade : Trade AssetKey InstrumentKey) (destination : Destination)
    (reduceOnlyFills : List (TradeId × ReduceOnly)) :
    InstrumentState Data ExchangeKey AssetKey InstrumentKey ×
      FillsApplied AssetKey InstrumentKey :=
  match destination with
  | .slot positionId => self.applyFill hash trade false positionId reduceOnlyFills
  | .fallback positionId =>
      { self with
        tearSheet := self.tearSheet.recordFillRoutedByFallback positionId
          ("no PositionId mapping for order " ++ trade.orderId.val) }.applyFill
        hash trade false positionId reduceOnlyFills
  | .unmatched positionId =>
      { self with
        tearSheet := self.tearSheet.recordFillUnmatched positionId
          ("no order matched " ++ trade.orderId.val) }.applyFill
        hash trade false positionId reduceOnlyFills
  | .settles positionId held =>
      if held < |trade.quantity| then
        { self with tearSheet := self.tearSheet.recordFillUnallocated }.applyFill
          hash (cappedTo trade held) true positionId reduceOnlyFills
      else self.applyFill hash trade false positionId reduceOnlyFills
  | .unallocated => ({ self with tearSheet := self.tearSheet.recordFillUnallocated }, .none)
  | .queued => ({ self with pendingFills := self.pendingFills ++ [trade] }, .none)

/-- Apply a fill, taking the fills named in `reduceOnlyFills` as sent as each says. -/
def replayTrade (hash : HashOrder)
    (self : InstrumentState Data ExchangeKey AssetKey InstrumentKey)
    (trade : Trade AssetKey InstrumentKey) (reduceOnlyFills : List (TradeId × ReduceOnly)) :
    InstrumentState Data ExchangeKey AssetKey InstrumentKey ×
      FillsApplied AssetKey InstrumentKey :=
  let self := if trade.origin.isForced then self.noteForcedFill else self
  self.deliver hash trade (self.destination hash trade) reduceOnlyFills

def updateFromTrade (hash : HashOrder)
    (self : InstrumentState Data ExchangeKey AssetKey InstrumentKey)
    (trade : Trade AssetKey InstrumentKey) :
    InstrumentState Data ExchangeKey AssetKey InstrumentKey ×
      FillsApplied AssetKey InstrumentKey :=
  self.replayTrade hash trade []

end Checked

end InstrumentState

end Rustrade
