import Rustrade.Mock.Accrual
import Rustrade.Mock.Liquidation

/-!
# What a simulated venue is given

Time, a market observation, an open or a cancel request, and the end of its data. Each input
returns the events it caused, in the order a client must apply them, and after each restatement
that changed a debt, the debt.
-/

set_option autoImplicit false

namespace Rustrade.Mock

namespace SimulatedVenue

variable (self : SimulatedVenue)

/-! ## Debts -/

def debtKind (before debt : MarginDetails) : MarginDebtKind :=
  if before.borrowed < debt.borrowed then .borrow
  else if debt.borrowed < before.borrowed ∨ debt.interest < before.interest then .repay
  else .interest

/-- The debt a restatement changes, with what the asset's is now known to be. -/
def reportDebt (reported : BTreeMap AssetNameExchange MarginDetails) (balance : AssetBalance) :
    Option AccountEvent × BTreeMap AssetNameExchange MarginDetails :=
  match balance.balance.margin with
  | none => (none, reported)
  | some debt =>
      let before := reported[balance.asset]?.getD .default
      let reported := reported.insert balance.asset debt
      if before = debt then (none, reported)
      else (some (self.buildAccountEvent (.marginDebt
        ⟨balance.asset, debt, debtKind before debt, balance.timeExchange⟩)), reported)

/-- The events with each changed debt after the restatement that changed it. -/
def reportDebts (reported : BTreeMap AssetNameExchange MarginDetails) :
    List AccountEvent → List AccountEvent × BTreeMap AssetNameExchange MarginDetails
  | [] => ([], reported)
  | event :: rest =>
      let (update, reported) := match event.kind with
        | .balanceSnapshot balance => self.reportDebt reported balance
        | _ => (none, reported)
      let (rest, reported) := reportDebts reported rest
      (event :: update.toList ++ rest, reported)

def reportDebtChanges (events : List AccountEvent) : SimulatedVenue × List AccountEvent :=
  if self.spotMargin.isNone then (self, events)
  else
    let (events, reportedDebt) := self.reportDebts self.reportedDebt events
    ({ self with reportedDebt }, events)

/-- What every input but time and the market ends with. -/
def finish (events : List AccountEvent) : Events := do
  let venue ← self.refreshNextInterestIfLoansChanged
  return venue.reportDebtChanges events

/-! ## The market -/

def observe (instrument : InstrumentNameExchange) (observation : MarketObservation)
    (timeExchange : DateTime) : SimulatedVenue :=
  let entry := self.market[instrument]?.getD .default
  let observed : VenueInstrumentMarket :=
    { snapshot := observation.snapshot
      depth := observation.depth
      timeExchange
      bar := observation.bar.or entry.bar
      freshAt := if observation.fresh then some timeExchange else entry.freshAt }
  { self with market := self.market.insert instrument observed }

/-- Add an observation's prices to the window a borrow is valued over. -/
def recordBorrowPrice [Build] (instrument : InstrumentNameExchange) (snapshot : MarketSnapshot)
    (bar : Option MarketBar) (timeExchange : DateTime) : Except Fault SimulatedVenue :=
  match self.spotMargin.bind SpotMarginConfig.borrowPriceWindow with
  | none => .ok self
  | some window =>
      if self.instruments[instrument]?.any fun traded => traded.kind = .spot then
        let prices := ((midOrLast snapshot).toList ++ (bar.map MarketBar.low).toList ++
          (bar.map MarketBar.high).toList).filter fun price => 0 < price
        match prices.min?, prices.max? with
        | some low, some high => do
            let kept := self.borrowPrices[instrument]?.getD .default
            let recorded ← kept.record timeExchange low high (windowStart timeExchange window)
            return { self with borrowPrices := self.borrowPrices.insert instrument recorded }
        | _, _ => .ok self
      else .ok self

/-- Whether an observation's bar releases the orders held for one. -/
def barReleases (observation : MarketObservation) : Bool :=
  observation.bar.isSome && (observation.fresh || !self.staleMarket.isWait)

def fillsAheadOf (instrument : InstrumentNameExchange) (observation : MarketObservation) : Bool :=
  let waitsForBar : Bool := match self.marketOrderTiming with
    | .nextBar _ => true
    | .onArrival => false
  waitsForBar && self.barReleases observation && self.account.ordersOpen.holds instrument

variable [Build] [RandomStream]

/-- Release and fill what an observation lets trade. Held orders go first on a bar, resting ones
    first on a fresh market. -/
def trade (instrument : InstrumentNameExchange) (observation : MarketObservation)
    (timeExchange : DateTime) : Events :=
  let crosses := observation.fresh || !self.staleMarket.isWait
  let cross (venue : SimulatedVenue) : Events :=
    if crosses then venue.matchResting instrument observation.snapshot timeExchange
    else .ok (venue, [])
  match self.marketOrderTiming with
  | .nextBar price =>
      let held : Events := match observation.bar with
        | none => .ok (self, [])
        | some bar =>
            if self.barReleases observation then
              self.release instrument (.bar bar price) timeExchange
            else self.cancelHeldImmediate instrument timeExchange
      Gather.andThen held cross
  | .onArrival => Gather.andThen (cross self) fun venue =>
      if observation.fresh && venue.staleMarket.isWait then
        venue.release instrument (.market observation.snapshot) timeExchange
      else .ok (venue, [])

variable [DecimalScale]

/-! ## Inputs -/

omit [Build] [RandomStream] [DecimalScale] in
/-- The venue once its clock reached an instant. Only the stamps of its balances move. -/
def reached (timeExchange : DateTime) : SimulatedVenue :=
  { self with
    timeExchangeLatest := timeExchange
    account := self.account.updateTimeExchange timeExchange }

def advanceTime (timeExchange : DateTime) : Events := do
  let timeExchange := self.notBeforeReached timeExchange
  let (venue, events) ← Gather.andThen (self.accrue timeExchange) fun venue =>
    Gather.andThen ((venue.reached timeExchange).sweepExpired timeExchange) fun venue =>
      venue.checkMargin timeExchange
  venue.finish events

def applyMarket (instrument : InstrumentNameExchange) (observation : MarketObservation)
    (timeExchange : DateTime) : Events := do
  let timeExchange := self.notBeforeReached timeExchange
  let (venue, events) ← Gather.andThen (self.accrue timeExchange) fun venue => do
    let venue ← (venue.observe instrument observation timeExchange).recordBorrowPrice instrument
      observation.snapshot observation.bar timeExchange
    Gather.andThen (venue.sweepExpired timeExchange) fun venue =>
      Gather.andThen (venue.trade instrument observation timeExchange) fun venue =>
        venue.checkMargin timeExchange
  venue.finish events

omit [DecimalScale] in
/-- What an arrival's notifications deliver: the interest of one that rested waits with it. -/
def pushArrival (notifications : Option OpenOrderNotifications) : List AccountEvent :=
  match notifications with
  | some (.filled commitment trade) => self.pushCommitted commitment (some trade)
  | some (.rested balance) => [self.balanceEvent balance]
  | none => []

omit [DecimalScale] in
def openOrder (request : OpenRequest) :
    Except Fault (SimulatedVenue × List AccountEvent × OpenResponse) := do
  let (venue, response, notifications) ←
    self.openOrderInner request (self.pricingMarket request)
  let (venue, events) ← venue.finish (venue.pushArrival notifications)
  return (venue, events, response)

omit [Build] [RandomStream] [DecimalScale] in
/-- Why a cancel request found no open order under its id. -/
def cancelMissingReason (cid : ClientOrderId) : OrderError :=
  if self.account.isFilled cid then .rejected .orderAlreadyFullyFilled
  else if self.account.isCancelled cid then .rejected .orderAlreadyCancelled
  else if self.account.isExpired cid then .rejected .orderAlreadyExpired
  else .rejected .orderRejected

abbrev CancelRequest := OrderRequestCancel ExchangeId InstrumentNameExchange

abbrev CancelResponse := OrderResponseCancel ExchangeId InstrumentNameExchange

omit [RandomStream] [DecimalScale] in
def cancelOrder (request : CancelRequest) :
    Except Fault (SimulatedVenue × List AccountEvent × CancelResponse) := do
  let timeExchange := self.timeExchange
  let (resting, venue) ← self.removeOrder request.key.cid
  match resting with
  | none =>
      return (venue, [], ⟨request.key, .error (venue.cancelMissingReason request.key.cid)⟩)
  | some ⟨order, reservation⟩ =>
      let (venue, released) ← venue.releaseHeld reservation timeExchange
      let (venue, events) ← venue.finish (venue.pushReleased released timeExchange)
      let state : Cancelled :=
        ⟨orClientId order.state.id order.key.cid, timeExchange, some order.state.filledQuantity⟩
      return ({ venue with account := venue.account.ackCancelled { order with state } }, events,
        ⟨request.key, .ok state⟩)

omit [RandomStream] [DecimalScale] in
def expireHeld (timeExchange : DateTime) : Events := do
  let (venue, events) ← self.retireHeld timeExchange
  venue.finish events

/-! ## Runs -/

/-- Everything a driver gives the venue. -/
inductive Input where
  | advanceTime (timeExchange : DateTime)
  | applyMarket (instrument : InstrumentNameExchange) (observation : MarketObservation)
      (timeExchange : DateTime)
  | openOrder (request : OpenRequest)
  | cancelOrder (request : CancelRequest)
  | expireHeld (timeExchange : DateTime)

inductive Response where
  | opened (response : OpenResponse)
  | cancelled (response : CancelResponse)

/-- What the venue answers an input with: the events it emits, and its response to a request. -/
structure Answer where
  events : List AccountEvent
  response : Option Response

def step (input : Input) : Except Fault (SimulatedVenue × Answer) :=
  match input with
  | .advanceTime timeExchange => do
      let (venue, events) ← self.advanceTime timeExchange
      return (venue, ⟨events, none⟩)
  | .applyMarket instrument observation timeExchange => do
      let (venue, events) ← self.applyMarket instrument observation timeExchange
      return (venue, ⟨events, none⟩)
  | .openOrder request => do
      let (venue, events, response) ← self.openOrder request
      return (venue, ⟨events, some (.opened response)⟩)
  | .cancelOrder request => do
      let (venue, events, response) ← self.cancelOrder request
      return (venue, ⟨events, some (.cancelled response)⟩)
  | .expireHeld timeExchange => do
      let (venue, events) ← self.expireHeld timeExchange
      return (venue, ⟨events, none⟩)

/-- The answers to a list of inputs, given one after another. -/
def answers (inputs : List Input) : Except Fault (SimulatedVenue × List Answer) :=
  Gather.run (fun venue input => do
    let (venue, answer) ← step venue input
    return (venue, [answer])) self inputs

end SimulatedVenue

end Rustrade.Mock
