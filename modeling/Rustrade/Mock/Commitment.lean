import Rustrade.Mock.Valuation

/-!
# Paying for a fill, and ending an order

How the venue moves its ledger: interest on a loan, the commitment of an arrival or of an order
costed afresh, the settlement of a resting order, the trade a fill prints, and what an order that
ends without filling gives back. Each restates every balance it moved, in the order a client must
apply them.
-/

set_option autoImplicit false

namespace Rustrade.Mock

/-- The order a loan is taken by. -/
structure Borrower where
  instrument : InstrumentNameExchange
  orderId : OrderId
  cid : ClientOrderId
  deriving DecidableEq

namespace Borrower

/-- A working order, if the venue assigned it an id. -/
def of (order : OpenOrder) : Option Borrower :=
  order.state.id.assigned?.map fun orderId => ⟨order.key.instrument, orderId, order.key.cid⟩

/-- `flow`, linked to the loan it was charged on. -/
def lent (self : Borrower) (flow : CashFlow) : CashFlow :=
  { flow with
    instrument := some self.instrument
    loan := some ⟨flow.timeExchange, self.orderId, self.cid⟩ }

end Borrower

/-- A commitment the ledger made, the interest its loan was charged, the interest an earlier hold
    of the order left to report, and the fee taken apart. -/
structure Commitment where
  committed : Committed
  interest : Option CashFlow
  heldInterest : List CashFlow
  fee : Option AssetBalance

def Commitment.from (committed : Committed) : Commitment := ⟨committed, none, [], none⟩

/-- A hold given back, and the interest left to report with the order's end. -/
structure Released where
  balance : AssetBalance
  interest : List CashFlow

/-- What becomes of a resting order's fill. -/
inductive RestingSettlement where
  | settled (commitment : Commitment)
  | unaffordable (released : Option Released)

/-- What becomes of an order costed afresh, with the loan it is left holding. -/
inductive Recommitted where
  | committed (commitment : Commitment) (loan excessBorrowed : Decimal)
  | unaffordable (released : Option Released)

/-- What traded, and at what price. -/
structure Fill where
  quantity : Decimal
  price : Decimal
  deriving DecidableEq

/-- The id an order is addressed by: the venue's, or the client's where the venue assigned none. -/
def orClientId (id : VenueOrderId) (cid : ClientOrderId) : OrderId :=
  id.assigned?.getD ⟨cid.val⟩

namespace SimulatedVenue

variable (self : SimulatedVenue)

/-! ## Events -/

def balanceEvent (balance : AssetBalance) : AccountEvent :=
  self.buildAccountEvent (.balanceSnapshot balance)

/-- Held interest is stamped when it is reported, not when it was charged. -/
def pushInterest (interest : List CashFlow) (timeExchange : DateTime) : List AccountEvent :=
  interest.map fun flow => self.buildAccountEvent (.cashFlow { flow with timeExchange })

/-- The balances a commitment restated, then the trade it paid for, then interest. -/
def pushCommitted (commitment : Commitment) (trade : Option VenueTrade) : List AccountEvent :=
  let paid := commitment.committed.paid
  let reportedAt := (trade.map fun trade => trade.timeExchange).getD paid.timeExchange
  [self.balanceEvent paid] ++ commitment.committed.received.toList.map self.balanceEvent ++
    commitment.fee.toList.map self.balanceEvent ++
    trade.toList.map (fun trade => self.buildAccountEvent (.trade trade)) ++
    self.pushInterest (commitment.heldInterest ++ commitment.interest.toList) reportedAt

/-! ## Interest -/

/-- Charge a loan the interest its model says is due, if any. -/
def chargeInterest (asset : AssetNameExchange) (principal : Decimal) (due : InterestDue) :
    Except Fault (SimulatedVenue × Option (AssetBalance × CashFlow)) :=
  match self.marginInterest.bind fun model => model.charge asset principal due with
  | none => .ok (self, none)
  | some charge => do
      assert (0 ≤ charge.interest)
      if charge.interest = 0 then return (self, none)
      let (account, balance) ← self.account.chargeInterest asset charge.interest due.time
      let (id, venue) := { self with account }.cashFlowIdFetchAdd
      let timing : InterestTiming := match due with
        | .borrow _ => .onBorrow
        | .boundary _ => .periodic
      return (venue, some (balance,
        { kind := .marginInterest charge.rate (some principal) (some timing)
          asset
          amount := -charge.interest
          instrument := none
          timeExchange := due.time
          id := some id
          period := none
          loan := none }))

/-! ## Commitments -/

variable [Build]

def releaseReservation (reservation : Reservation) (timeExchange : DateTime) :
    Except Fault (SimulatedVenue × Released) := do
  let (account, balance) ←
    self.account.releaseReservation reservation self.repaysAtCancel timeExchange
  return ({ self with account }, ⟨balance, reservation.unreportedInterest⟩)

/-- Release what an order that ends holds, if it holds anything. -/
def releaseHeld (reservation : Option Reservation) (timeExchange : DateTime) :
    Except Fault (SimulatedVenue × Option Released) :=
  match reservation with
  | none => .ok (self, none)
  | some reservation => do
      let (venue, released) ← self.releaseReservation reservation timeExchange
      return (venue, some released)

def commit (debit : Debit) (credit : Option Credit) (effect : MarginEffect)
    (terms : InstrumentTerms) (market : Option MarketSnapshot) (borrower : Option Borrower)
    (timeExchange : DateTime) :
    Except Fault (SimulatedVenue × Except BalanceInsufficient Commitment) := do
  let lending : Lending :=
    { borrowable := self.borrowable debit effect terms market
      minBorrow := (self.spotMargin.map fun config => config.minBorrow debit.asset).getD 0
      maxBorrow := self.spotMargin.bind fun config => config.maxBorrow debit.asset }
  let (account, outcome) ← self.account.commit debit credit effect lending timeExchange
  let venue := { self with account }
  match outcome with
  | .error insufficient => return (venue, .error insufficient)
  | .ok committed =>
      if 0 < committed.borrowed then
        let (charged, interest) ←
          venue.chargeInterest debit.asset committed.borrowed (.borrow timeExchange)
        match interest with
        | none => return (charged, .ok (.from committed))
        | some (balance, flow) =>
            let linked := match borrower with
              | some borrower => borrower.lent flow
              | none => flow
            return (charged, .ok { Commitment.from { committed with paid := balance } with
              interest := some linked })
      else return (venue, .ok (.from committed))

/-- What an order costed afresh does to the loans: what it was placed with, or, for one that was
    seeded, what the venue is set to. -/
def placedEffect (reservation : Option Reservation) : MarginEffect :=
  match reservation with
  | some reservation => reservation.effect
  | none => self.marginEffect none

/-- Release what an order holds, without repaying the loan it took. -/
def releaseAfresh (reservation : Option Reservation) (timeExchange : DateTime) :
    Except Fault (SimulatedVenue × Option (Reservation × AssetBalance)) :=
  match reservation with
  | none => .ok (self, none)
  | some reservation => do
      let (account, balance) ←
        self.account.release reservation.asset reservation.amount timeExchange
      return ({ self with account }, some (reservation, balance))

/-- Repay what of its loan an order no longer needs, where a venue repays at cancel: the account's
    own funds pay first. -/
def repayUnused (reservation : Reservation) (debit : Debit) (commitment : Commitment)
    (timeExchange : DateTime) : Except Fault (SimulatedVenue × Commitment × Decimal) := do
  let surplus := reservation.amount - (debit.settled + debit.reserved)
  let unused := min reservation.borrowed surplus
  if self.repaysAtCancel ∧ 0 < unused then
    debugAssert .commitAfresh (commitment.committed.paid.asset = reservation.asset)
    let (account, paid) ← self.account.repayLoan reservation.asset unused timeExchange
    return ({ self with account },
      { commitment with committed := { commitment.committed with paid } }, unused)
  else return (self, commitment, 0)

/-- Report an order costed afresh: the loan it held carries over, less what is repaid of it. -/
def keepAfresh (released : Option (Reservation × AssetBalance)) (debit : Debit)
    (commitment : Commitment) (timeExchange : DateTime) :
    Except Fault (SimulatedVenue × Recommitted) :=
  let lent := commitment.committed.shortfallBorrowed
  let excess := commitment.committed.excessBorrowed
  match released with
  | none => .ok (self, .committed { commitment with heldInterest := [] } lent excess)
  | some (reservation, _) => do
      let (venue, commitment, unused) ←
        self.repayUnused reservation debit commitment timeExchange
      return (venue,
        .committed { commitment with heldInterest := reservation.unreportedInterest }
          (lent + reservation.borrowed - unused) (excess + reservation.excessBorrowed))

/-- Give back what an order costed afresh held, which it cannot pay with. -/
def giveBackAfresh (released : Option (Reservation × AssetBalance)) (timeExchange : DateTime) :
    Except Fault (SimulatedVenue × Recommitted) :=
  match released with
  | none => .ok (self, .unaffordable none)
  | some (reservation, balance) =>
      if !self.repaysAtCancel || reservation.loan = 0 then
        .ok (self, .unaffordable (some ⟨balance, reservation.unreportedInterest⟩))
      else do
        let (account, balance) ←
          self.account.repayLoan reservation.asset reservation.loan timeExchange
        return ({ self with account },
          .unaffordable (some ⟨balance, reservation.unreportedInterest⟩))

/-- Release an order's hold and commit what it costs now, or give the hold back. -/
def commitAfresh (order : OpenOrder) (terms : InstrumentTerms)
    (reservation : Option Reservation) (debit : Debit) (credit : Option Credit)
    (timeExchange : DateTime) : Except Fault (SimulatedVenue × Recommitted) := do
  let effect := self.placedEffect reservation
  let (freed, released) ← self.releaseAfresh reservation timeExchange
  let (venue, outcome) ←
    freed.commit debit credit effect terms none (Borrower.of order) timeExchange
  match outcome with
  | .ok commitment => venue.keepAfresh released debit commitment timeExchange
  | .error _ => venue.giveBackAfresh released timeExchange

def settleRestingAfresh (order : OpenOrder) (terms : InstrumentTerms)
    (reservation : Option Reservation) (settlement : Settlement) (timeExchange : DateTime) :
    Except Fault (SimulatedVenue × RestingSettlement) := do
  let (venue, recommitted) ← self.commitAfresh order terms reservation settlement.settled
    (some settlement.credit) timeExchange
  match recommitted with
  | .committed commitment _ _ => return (venue, .settled commitment)
  | .unaffordable released => return (venue, .unaffordable released)

/-- Settle what a resting spot order reserved, and deliver what it fills for. -/
def settleReserved (reservation : Reservation) (settlement : Settlement) (delivery : Delivery)
    (timeExchange : DateTime) : Except Fault (SimulatedVenue × Commitment) := do
  debugAssert .settleResting
    (reservation.asset = settlement.asset ∧ reservation.amount = settlement.amount)
  let (settled, paid) ←
    self.account.settle reservation.asset reservation.amount timeExchange
  let (account, received) := settled.deliver delivery reservation.effect timeExchange
  return ({ self with account },
    { Commitment.from { paid, received := some received, borrowed := 0, excessBorrowed := 0 } with
      heldInterest := reservation.unreportedInterest })

/-- Pay for a fill of an order that was seeded, so reserved nothing. -/
def settleSeeded (order : OpenOrder) (terms : InstrumentTerms) (settlement : Settlement)
    (timeExchange : DateTime) : Except Fault (SimulatedVenue × Commitment) := do
  let (venue, outcome) ← self.commit settlement.settled (some settlement.credit)
    (self.placedEffect none) terms none (Borrower.of order) timeExchange
  match outcome with
  | .ok commitment => return (venue, commitment)
  | .error _ => throw .panic

/-- Pay for a resting order's fill. A cash-settled one, one whose fee is taken apart and one whose
    fee exceeds what it receives are costed afresh; any other settles what it reserved. -/
def settleResting (order : OpenOrder) (terms : InstrumentTerms)
    (reservation : Option Reservation) (settlement : Settlement) (timeExchange : DateTime) :
    Except Fault (SimulatedVenue × RestingSettlement) :=
  if settlement.feeApart then
    self.settleRestingAfresh order terms reservation settlement timeExchange
  else match settlement.credit with
  | .paidBack _ => self.settleRestingAfresh order terms reservation settlement timeExchange
  | .delivery delivery =>
      if delivery.amount < 0 then
        self.settleRestingAfresh order terms reservation settlement timeExchange
      else match reservation with
      | none => do
          let (venue, commitment) ← self.settleSeeded order terms settlement timeExchange
          return (venue, .settled commitment)
      | some reservation => do
          let (venue, commitment) ←
            self.settleReserved reservation settlement delivery timeExchange
          return (venue, .settled commitment)

omit [Build] in
/-- Charge a fee taken apart, unless it was discounted to nothing. -/
def takeFeeApart (settlement : Settlement) (commitment : Commitment) (timeExchange : DateTime) :
    Except Fault (SimulatedVenue × Commitment) := do
  if !settlement.feeApart || settlement.fees.fees = 0 then return (self, commitment)
  let (account, balance) ←
    self.account.charge settlement.fees.asset (-settlement.fees.fees) timeExchange
  return ({ self with account }, { commitment with fee := some balance })

/-! ## Fills -/

omit [Build] in
/-- Move the net position of a cash-settled instrument by a fill. -/
def recordFill (terms : InstrumentTerms) (instrument : InstrumentNameExchange) (side : Side)
    (fill : Fill) : Except Fault SimulatedVenue :=
  if !terms.cashSettled then .ok self
  else
    let (positions, openedOrClosed) := match self.positions[instrument]? with
      | some position =>
          let position := position.after side fill.quantity fill.price
          if position.quantity = 0 then (self.positions.erase instrument, true)
          else (self.positions.insert instrument position, false)
      | none =>
          let position := NetPosition.default.after side fill.quantity fill.price
          if position.quantity ≠ 0 then (self.positions.insert instrument position, true)
          else (self.positions, false)
    let venue := { self with positions }
    if openedOrClosed && !venue.holdingCosts.isEmpty then venue.refreshNextCharge else .ok venue

omit [Build] in
/-- Record a fill of a working order and print its trade. -/
def printFill (terms : InstrumentTerms) (order : OpenOrder) (fill : Fill)
    (fees : AssetFees AssetNameExchange) (timeExchange : DateTime) :
    Except Fault (SimulatedVenue × VenueTrade) := do
  let recorded ← self.recordFill terms order.key.instrument order.side fill
  let (id, venue) := recorded.tradeIdSequenceFetchAdd
  let trade : VenueTrade :=
    { id
      orderId := orClientId order.state.id order.key.cid
      instrument := order.key.instrument
      strategy := order.key.strategy
      timeExchange
      side := order.side
      price := fill.price
      quantity := fill.quantity
      orderFilledQuantity := some (order.state.filledQuantity + fill.quantity)
      fees
      origin := .order
      positionSide := none
      clientOrderId := some order.key.cid }
  return ({ venue with account := venue.account.ackTrade trade }, trade)

/-! ## Orders that end unfilled -/

omit [Build] in
/-- What giving a hold back reports. -/
def pushReleased (released : Option Released) (timeExchange : DateTime) : List AccountEvent :=
  match released with
  | none => []
  | some released =>
      self.balanceEvent released.balance :: self.pushInterest released.interest timeExchange

omit [Build] in
/-- Cancel an order that did not trade what it asked for. -/
def cancelUnfilled (order : OpenOrder) (released : Option Released) (timeExchange : DateTime) :
    SimulatedVenue × List AccountEvent :=
  let state : Cancelled :=
    ⟨orClientId order.state.id order.key.cid, timeExchange, some order.state.filledQuantity⟩
  ({ self with account := self.account.ackCancelled { order with state } },
    self.pushReleased released timeExchange ++
      [self.buildAccountEvent
        (.orderSnapshot { order with state := .inactive (.cancelled state) })])

/-- Retire an order at its deadline, or at the end of the data. -/
def retireExpired (resting : RestingOrder) (timeExchange : DateTime) :
    Except Fault (SimulatedVenue × List AccountEvent) := do
  let order := resting.order
  let (venue, released) ← self.releaseHeld resting.reservation timeExchange
  let state : Expired :=
    ⟨orClientId order.state.id order.key.cid, timeExchange, some order.state.filledQuantity⟩
  return ({ venue with account := venue.account.ackExpired { order with state } },
    venue.pushReleased released timeExchange ++
      [venue.buildAccountEvent (.orderSnapshot { order with state := .inactive (.expired state) })])

/-- Release what an order holds, and cancel it. -/
def cancelReleased (resting : RestingOrder) (timeExchange : DateTime) :
    Except Fault (SimulatedVenue × List AccountEvent) := do
  let (venue, released) ← self.releaseHeld resting.reservation timeExchange
  return venue.cancelUnfilled resting.order released timeExchange

end SimulatedVenue

end Rustrade.Mock
