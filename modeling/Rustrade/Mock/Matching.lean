import Rustrade.Lib.Gather
import Rustrade.Mock.Commitment

/-!
# Filling the orders a venue holds

What an observation does to the open orders of its instrument: a resting order the market crosses
fills at its limit, and an order that was held for a bar or for a fresh market is released, to
trade as if it arrived now and to rest what is left of it. Orders past their deadline are swept.
-/

set_option autoImplicit false

namespace Rustrade.Mock

/-- What releases a held order: the bar it waited for, or a fresh market. -/
inductive Release where
  | bar (candle : MarketBar) (price : NextBarPrice)
  | market (snapshot : MarketSnapshot)
  deriving DecidableEq

/-- The price a released market order trades from. A bar's is the only price its model is shown. -/
def Release.takerReference (self : Release) (fillModel : FillModel) (side : Side)
    (quantity : Decimal) : Option Decimal :=
  match self with
  | .bar candle price =>
      let reference := price.reference side candle
      some ((fillModel.fillPrice
        ⟨side, quantity, .fromLastPrice (some reference)⟩).getD reference)
  | .market snapshot => fillModel.fillPrice ⟨side, quantity, snapshot⟩

/-- The market a released limit order is decided against, and the price of the bar, if it is one. -/
def Release.decidedMarket (self : Release) (side : Side) : MarketSnapshot × Option Decimal :=
  match self with
  | .bar candle price =>
      let reference := price.reference side candle
      (.fromLastPrice (some reference), some reference)
  | .market snapshot => (snapshot, none)

namespace SimulatedVenue

variable [Build] (self : SimulatedVenue)

abbrev Events := Except Fault (SimulatedVenue × List AccountEvent)

def removeOrder (cid : ClientOrderId) : Except Fault (Option RestingOrder × SimulatedVenue) := do
  let (resting, account) ← self.account.removeOrder cid
  return (resting, { self with account })

/-! ## Resting orders -/

/-- Fill one order the market crosses, at its limit, for all that is left of it. -/
def crossResting (terms : InstrumentTerms) (instrument : InstrumentNameExchange)
    (timeExchange : DateTime) (crossing : ClientOrderId × Decimal) : Events := do
  let (cid, limit) := crossing
  let (resting, venue) ← self.removeOrder cid
  match resting with
  | none => return (venue, [])
  | some ⟨order, reservation⟩ =>
  let remaining := order.state.quantityRemaining order.quantity
  debugAssert .matchResting (0 < remaining)
  let settlement := venue.fillSettlement terms (venue.netPosition terms instrument) order.side
    remaining limit .maker
  let (venue, outcome) ← venue.settleResting order terms reservation settlement timeExchange
  match outcome with
  | .unaffordable released => return venue.cancelUnfilled order released timeExchange
  | .settled commitment =>
  let (venue, commitment) ← venue.takeFeeApart settlement commitment timeExchange
  let (venue, trade) ← venue.printFill terms order ⟨remaining, limit⟩ settlement.fees timeExchange
  -- No average is known of an order that reached the book part-filled.
  let state : Filled := ⟨trade.orderId, timeExchange, order.quantity,
    if order.state.filledQuantity = 0 then some limit else none⟩
  return ({ venue with account := venue.account.ackFilled { order with state } },
    venue.pushCommitted commitment (some trade) ++
      [venue.buildAccountEvent
        (.orderSnapshot { order with state := .inactive (.fullyFilled state) })])

omit [Build] in
/-- The resting orders a snapshot crosses, in the order they fill. -/
def crossing (instrument : InstrumentNameExchange) (snapshot : MarketSnapshot) :
    List (ClientOrderId × Decimal) :=
  [Side.buy, Side.sell].flatMap fun side =>
    ((self.account.ordersOpen.resting instrument side).takeWhile fun order =>
      order.price.any fun limit => crosses side limit snapshot).filterMap fun order =>
        order.price.map fun limit => (order.key.cid, limit)

def matchResting (instrument : InstrumentNameExchange) (snapshot : MarketSnapshot)
    (timeExchange : DateTime) : Events :=
  let crossing := self.crossing instrument snapshot
  if crossing.isEmpty then .ok (self, [])
  else match self.instrumentTerms instrument with
  | .error _ => .error .panic
  | .ok terms => Gather.run
      (fun venue crossing => venue.crossResting terms instrument timeExchange crossing) self crossing

/-! ## Held orders -/

/-- Fill a market order that was held, or cancel what the market cannot give it. -/
def fillHeld [RandomStream] (resting : RestingOrder) (release : Release) (terms : InstrumentTerms)
    (timeExchange : DateTime) : Events :=
  let order := resting.order
  let side := order.side
  let quantity := order.state.quantityRemaining order.quantity
  match release.takerReference self.fillModel side quantity with
  | none => self.cancelReleased resting timeExchange
  | some reference =>
  let filledQuantity := match self.depthAvailable order.key.instrument side with
    | some available => min quantity available
    | none => quantity
  if filledQuantity ≤ 0 ∨ (filledQuantity < quantity ∧ order.timeInForce = .fillOrKill) then
    self.cancelReleased resting timeExchange
  else do
  let (fillPrice, slippage) := self.slippage.apply side reference
  let settlement := self.fillSettlement terms (self.netPosition terms order.key.instrument) side
    filledQuantity fillPrice .taker
  let (venue, outcome) ← { self with slippage }.settleRestingAfresh order terms
    resting.reservation settlement timeExchange
  match outcome with
  | .unaffordable released =>
      -- The draw is handed back: the order never traded.
      return { venue with slippage := self.slippage }.cancelUnfilled order released timeExchange
  | .settled commitment =>
  let (venue, commitment) ← venue.takeFeeApart settlement commitment timeExchange
  let venue ← venue.consumeDepth order.key.instrument side filledQuantity
  let (venue, trade) ←
    venue.printFill terms order ⟨filledQuantity, fillPrice⟩ settlement.fees timeExchange
  let (account, terminal) : AccountState × VenueOrder OrderState :=
    if filledQuantity = quantity then
      let state : Filled := ⟨trade.orderId, timeExchange, order.quantity, some fillPrice⟩
      (venue.account.ackFilled { order with state },
        { order with state := .inactive (.fullyFilled state) })
    else
      let state : Cancelled := ⟨trade.orderId, timeExchange, some filledQuantity⟩
      (venue.account.ackCancelled { order with state },
        { order with state := .inactive (.cancelled state) })
  return ({ venue with account },
    venue.pushCommitted commitment (some trade) ++
      [venue.buildAccountEvent (.orderSnapshot terminal)])

/-- Put an order on the book. Another open under its id is a panic: an arrival is checked first. -/
def bookRested (order : OpenOrder) (reservation : Reservation) : Except Fault SimulatedVenue :=
  match self.account.book order (some reservation) with
  | .ok account => .ok { self with account }
  | .error _ => .error .panic

/-- What a released limit order trades and rests. -/
structure LimitRelease where
  quantity : Decimal
  fill : Option (Decimal × Settlement)
  held : Option Settlement

omit [Build] in
/-- Decide a released limit order against its market, and the slippage it drew to trade. -/
def limitRelease [RandomStream] (order : OpenOrder) (limit : Decimal) (release : Release)
    (terms : InstrumentTerms) : LimitRelease × Slippage :=
  let side := order.side
  let quantity := order.state.quantityRemaining order.quantity
  let (market, reference) := release.decidedMarket side
  let filledQuantity :=
    if crosses side limit market then
      match self.depthAvailable order.key.instrument side with
      | some available => min quantity available
      | none => quantity
    else 0
  let unfilled := quantity - filledQuantity
  let position := self.netPosition terms order.key.instrument
  let (fill, slippage) :=
    if 0 < filledQuantity then
      let price := ((self.fillModel.fillPrice ⟨side, quantity, market⟩).or reference).getD limit
      let (slipped, slippage) := self.slippage.apply side price
      let price := clampToLimit side slipped limit
      (some (price, self.fillSettlement terms position side filledQuantity price .taker), slippage)
    else (none, self.slippage)
  let held :=
    if 0 < unfilled then
      let position := match fill with
        | some (price, _) => position.after side filledQuantity price
        | none => position
      some (self.settlement terms position side unfilled limit .maker)
    else none
  (⟨filledQuantity, fill, held⟩, slippage)

/-- What a released limit order pays and holds. One with nothing to trade or rest is a panic. -/
def LimitRelease.debit (self : LimitRelease) : Except Fault (Debit × Option Credit) :=
  match self.fill, self.held with
  | some (_, fill), some held => do
      let debit ← fill.settledHolding held
      return (debit, some fill.credit)
  | some (_, fill), none => .ok (fill.settled, some fill.credit)
  | none, some held => .ok (held.reserved, none)
  | none, none => .error .panic

/-- Pay for what a released limit order trades, and print it. -/
def printRelease (terms : InstrumentTerms) (order : OpenOrder) (decided : LimitRelease)
    (commitment : Commitment) (timeExchange : DateTime) :
    Except Fault (SimulatedVenue × Commitment × Option VenueTrade) :=
  match decided.fill with
  | none => .ok (self, commitment, none)
  | some (price, settlement) => do
      let (venue, commitment) ← self.takeFeeApart settlement commitment timeExchange
      let venue ← venue.consumeDepth order.key.instrument order.side decided.quantity
      let (venue, trade) ← venue.printFill terms order ⟨decided.quantity, price⟩ settlement.fees
        timeExchange
      return (venue, commitment, some trade)

/-- Release a limit order that was held: cancel it if it may not take, else trade what its market
    gives and rest the rest of it at its limit. -/
def releaseHeldLimit [RandomStream] (resting : RestingOrder) (limit : Decimal) (release : Release)
    (terms : InstrumentTerms) (timeExchange : DateTime) : Events :=
  let order := resting.order
  let side := order.side
  if crosses side limit (release.decidedMarket side).1 ∧
      order.timeInForce = .goodUntilCancelled true then
    self.cancelReleased resting timeExchange
  else do
  let (decided, slippage) := self.limitRelease order limit release terms
  let (debit, credit) ← decided.debit
  let effect := self.placedEffect resting.reservation
  let (venue, outcome) ← { self with slippage }.commitAfresh order terms resting.reservation
    debit credit timeExchange
  match outcome with
  | .unaffordable released =>
      return { venue with slippage := self.slippage }.cancelUnfilled order released timeExchange
  | .committed commitment loan excessBorrowed =>
  let (venue, commitment, trade) ←
    venue.printRelease terms order decided commitment timeExchange
  let filledTotal := order.state.filledQuantity + (if trade.isSome then decided.quantity else 0)
  match decided.held with
  | some held =>
      let state : Open := ⟨order.state.id, timeExchange, filledTotal⟩
      -- A release that did not trade leaves its interest with the remainder.
      let (unreportedInterest, commitment) := match trade with
        | some _ => ([], commitment)
        | none => (commitment.heldInterest ++ commitment.interest.toList,
            { commitment with heldInterest := [], interest := none })
      let venue ← venue.bookRested { order with state }
        { asset := held.asset
          amount := held.requirement
          borrowed := min loan held.requirement
          excessBorrowed
          effect
          unreportedInterest }
      return (venue, venue.pushCommitted commitment trade ++
        [venue.buildAccountEvent (.orderSnapshot { order with state := .active (.open state) })])
  | none =>
      let trade' ← expect trade
      let state : Filled := ⟨trade'.orderId, timeExchange, order.quantity, some trade'.price⟩
      return ({ venue with account := venue.account.ackFilled { order with state } },
        venue.pushCommitted commitment trade ++
          [venue.buildAccountEvent
            (.orderSnapshot { order with state := .inactive (.fullyFilled state) })])

/-- Release one order the held index handed out. -/
def releaseOne [RandomStream] (release : Release) (terms : InstrumentTerms) (timeExchange : DateTime)
    (cid : ClientOrderId) : Events := do
  let (resting, venue) ← self.removeOrder cid
  match resting with
  | none => return (venue, [])
  | some resting =>
      debugAssert .releaseHeld
        ((resting.order.kind = .limit) = (resting.order.price.isSome = true))
      match resting.order.price with
      | some limit => venue.releaseHeldLimit resting limit release terms timeExchange
      | none => venue.fillHeld resting release terms timeExchange

/-- Release every order held on an instrument. -/
def release [RandomStream] (instrument : InstrumentNameExchange) (release : Release)
    (timeExchange : DateTime) : Events :=
  let (held, account) := self.account.takeHeld instrument
  let venue := { self with account }
  if held.isEmpty then .ok (venue, [])
  else match venue.instrumentTerms instrument with
  | .error _ => .error .panic
  | .ok terms => Gather.run
      (fun venue cid => venue.releaseOne release terms timeExchange cid) venue held

/-! ## Ends -/

/-- Cancel the order open under `cid`, giving back what it holds. -/
def cancelOpen (timeExchange : DateTime) (cid : ClientOrderId) : Events := do
  let (resting, venue) ← self.removeOrder cid
  match resting with
  | none => return (venue, [])
  | some resting => venue.cancelReleased resting timeExchange

/-- Retire the order open under `cid`, giving back what it holds. -/
def retireOpen (timeExchange : DateTime) (cid : ClientOrderId) : Events := do
  let (resting, venue) ← self.removeOrder cid
  match resting with
  | none => return (venue, [])
  | some resting => venue.retireExpired resting timeExchange

/-- Cancel the held orders of an instrument that asked to trade now or not at all. -/
def cancelHeldImmediate (instrument : InstrumentNameExchange) (timeExchange : DateTime) :
    Events :=
  let immediate := (self.account.ordersOpen.heldOn instrument).filter fun cid =>
    (self.account.ordersOpen.get cid).any fun order =>
      order.timeInForce = .immediateOrCancel || order.timeInForce = .fillOrKill
  Gather.run (fun venue cid => venue.cancelOpen timeExchange cid) self immediate

def sweepExpired (timeExchange : DateTime) : Events :=
  Gather.run (fun venue cid => venue.retireOpen timeExchange cid) self
    (self.account.ordersOpen.expiredAsOf timeExchange)

/-- Cancel every open order, by id. -/
def cancelEveryOrder (timeExchange : DateTime) : Events :=
  Gather.run (fun venue cid => venue.cancelOpen timeExchange cid) self
    ((self.account.ordersOpen.iter.map fun order => order.key.cid).mergeSort fun a b => a ≤ b)

/-- Retire every held order. -/
def retireHeld (timeExchange : DateTime) : Events :=
  Gather.run (fun venue cid => venue.retireOpen timeExchange cid) self
    self.account.ordersOpen.heldAll

end SimulatedVenue

end Rustrade.Mock
