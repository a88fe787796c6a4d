import Rustrade.Mock.Matching

/-!
# An order arriving

What the venue makes of an open request: refused, cancelled or expired at once, filled as a taker,
rested at its limit, or held for a bar or a fresh market. A request is checked before anything
touches the ledger, and an order is paid for whole or refused whole.
-/

set_option autoImplicit false

namespace Rustrade.Mock

/-! ## Requests and responses -/

/-- An open request as the venue reads it: with the sender's market and the effect it asks for. -/
structure PricedRequestOpen extends RequestOpen where
  market : Option MarketSnapshot
  marginEffect : Option MarginEffect
  deriving DecidableEq

abbrev OpenRequest := OrderEvent ExchangeId InstrumentNameExchange PricedRequestOpen

/-- The order a request asks for, in a state. -/
def OpenRequest.arrived {State : Type} (request : OpenRequest) (state : State) : VenueOrder State :=
  { key := request.key
    side := request.state.side
    price := request.state.price
    quantity := request.state.quantity
    kind := request.state.kind
    timeInForce := request.state.timeInForce
    state }

/-- Why a request is refused, with the figures its message gives. -/
inductive OpenRefusal where
  | kindUnsupported (kind : OrderKind) (regime : VenueRegime)
  | timeInForceUnsupported (timeInForce : TimeInForce) (kind : OrderKind)
  | quantityNotPositive (quantity : Decimal)
  | instrumentInvalid (reason : SimulatedVenue.InstrumentInvalid)
  | unsupportedMarginEffect (effect : MarginEffect)
  | duplicateClientOrderId
  | delisted (delistingAt : DateTime)
  | notShortable
  | inventoryUnavailable (shortAfter available left : Decimal)
  | shortSaleRestricted
  | limitWithoutPrice
  | staleWithoutFeed
  | staleMarket (freshAt : Option DateTime) (timeInForce : TimeInForce)
  | nextBarWithoutBars
  | unpriced (marketSupplied : Bool)
  | balanceInsufficient (insufficient : BalanceInsufficient)
  | borrowLimitExceeded (insufficient : BalanceInsufficient) (available : Option Decimal)
  deriving DecidableEq

def OpenRefusal.error : OpenRefusal → OrderError
  | .instrumentInvalid _ => .rejected .instrumentInvalid
  | .unsupportedMarginEffect _ => .unsupportedMarginEffect
  | .duplicateClientOrderId => .rejected .duplicateClientOrderId
  | .delisted _ | .notShortable | .inventoryUnavailable .. | .shortSaleRestricted
  | .borrowLimitExceeded .. => .rejected .borrowRejected
  | .balanceInsufficient _ => .rejected .balanceInsufficient
  | .kindUnsupported .. | .timeInForceUnsupported .. | .quantityNotPositive _ | .limitWithoutPrice
  | .staleWithoutFeed | .staleMarket .. | .nextBarWithoutBars | .unpriced _ =>
      .rejected .orderRejected

structure OpenResponse where
  order : VenueOrder OrderState
  refusal : Option OpenRefusal
  deriving DecidableEq

def OpenResponse.accepted (order : VenueOrder OrderState) : OpenResponse := ⟨order, none⟩

def OpenResponse.refused (request : OpenRequest) (refusal : OpenRefusal) : OpenResponse :=
  ⟨request.arrived (.inactive (.openFailed refusal.error)), some refusal⟩

/-- What an arrival moved, for the driver to deliver. -/
inductive OpenOrderNotifications where
  | filled (commitment : Commitment) (trade : VenueTrade)
  | rested (balance : AssetBalance)

/-! ## What a request is decided to do -/

/-- Whether the venue takes this kind of order. -/
def validateOrderKindSupported (regime : VenueRegime) (kind : OrderKind) : Option OpenRefusal :=
  match kind, regime with
  | .market, _ | .limit, .marketDriven => none
  | kind, regime => some (.kindUnsupported kind regime)

/-- Whether the venue honours this time in force on this kind of order. -/
def validateTimeInForceSupported (kind : OrderKind) (timeInForce : TimeInForce) :
    Option OpenRefusal :=
  match kind, timeInForce with
  | _, .atOpen | _, .atClose | .market, .goodUntilCancelled true | .limit, .goodUntilEndOfDay =>
      some (.timeInForceUnsupported timeInForce kind)
  | _, _ => none

inductive Disposition where
  | fillAndRest
  | fillAndCancel
  | fillOrNothing
  | rest
  | cancelUnfilled
  | expire
  deriving DecidableEq, Repr

def disposition (kind : OrderKind) (timeInForce : TimeInForce) (marketable : Bool)
    (now : DateTime) : Disposition :=
  match timeInForce, marketable with
  | .goodUntilCancelled true, true => .cancelUnfilled
  | .goodTillDate expiry, marketable =>
      if expiry ≤ now then .expire
      else if marketable then (if kind = .limit then .fillAndRest else .fillAndCancel)
      else .rest
  | .fillOrKill, true => .fillOrNothing
  | .goodUntilCancelled false, true => if kind = .limit then .fillAndRest else .fillAndCancel
  | _, true => .fillAndCancel
  | .immediateOrCancel, false | .fillOrKill, false => .cancelUnfilled
  | _, false => .rest

/-- What becomes of the part of an order the book cannot fill. -/
inductive Remainder where
  | rest (limit : Decimal)
  | cancel
  | kill
  deriving DecidableEq

inductive MarketAge where
  | noFeed
  | unpriced
  | fresh
  | stale (freshAt : Option DateTime)
  deriving DecidableEq

/-- Only a limit order's price is a limit. -/
def OpenRequest.limit (request : OpenRequest) : Option Decimal :=
  if request.state.kind = .limit then request.state.price else none

def OpenRequest.borrower (request : OpenRequest) (orderId : OrderId) : Borrower :=
  ⟨request.key.instrument, orderId, request.key.cid⟩

namespace SimulatedVenue

variable (self : SimulatedVenue)

abbrev Arrival := Except Fault (SimulatedVenue × OpenResponse × Option OpenOrderNotifications)

def refuse (request : OpenRequest) (refusal : OpenRefusal) : Arrival :=
  .ok (self, .refused request refusal, none)

def marketAge (instrument : InstrumentNameExchange) (maxAge : ℤ) (now : DateTime) : MarketAge :=
  if self.regime = .requestPriced then .noFeed
  else match self.market[instrument]?.filter fun market => !market.snapshot.isEmpty with
  | none => .unpriced
  | some market => match market.freshAt with
    | none => .stale none
    | some freshAt => if maxAge < now - freshAt then .stale (some freshAt) else .fresh

/-- The market an order is priced from: the request's, or the venue's own. -/
def pricingMarket (request : OpenRequest) : Option MarketSnapshot :=
  match self.regime with
  | .requestPriced => request.state.market
  | .marketDriven => self.market[request.key.instrument]?.map fun market => market.snapshot

/-- The refusal an insufficient balance is reported as: of the cap, where the cap decided. -/
def insufficientError (insufficient : BalanceInsufficient) (side : Side) : OpenRefusal :=
  match insufficient.maxBorrow with
  | none => .balanceInsufficient insufficient
  | some _ =>
      let available := match side, insufficient.borrowable with
        | .sell, some left =>
            let least :=
              (self.spotMargin.map fun config => config.minBorrow insufficient.asset).getD 0
            some (if left < least then 0 else left)
        | _, _ => none
      .borrowLimitExceeded insufficient available

/-- What the open sells of an instrument still have to fill. -/
def restingSells (instrument : InstrumentNameExchange) : Decimal :=
  ((self.account.ordersOpen.iter.filter fun order =>
    order.key.instrument = instrument && order.side = .sell).map fun order =>
      order.state.quantityRemaining order.quantity).sum

/-- Whether the short part of a cash-settled sell may be opened. -/
def checkShortability (request : OpenRequest) (terms : InstrumentTerms)
    (market : Option MarketSnapshot) : Option OpenRefusal :=
  match self.shortability with
  | none => none
  | some provider =>
      if !terms.cashSettled || request.state.side ≠ .sell then none
      else
        let instrument := request.key.instrument
        let committed := (self.netPosition terms instrument).quantity - self.restingSells instrument
        let shortBefore := max (-committed) 0
        let shortAfter := max (request.state.quantity - committed) 0
        if shortAfter ≤ shortBefore then none
        else
          let now := self.timeExchange
          let shortability := provider.shortability instrument now
          let marketable : Bool := market.any fun market =>
            if request.state.kind = .limit then
              request.state.price.any fun limit => crosses .sell limit market
            else (self.fillModel.fillPrice ⟨.sell, request.state.quantity, market⟩).isSome
          match shortability.delistingAt.filter fun delistingAt => delistingAt ≤ now with
          | some delistingAt => some (.delisted delistingAt)
          | none =>
          if shortability.shortable = some false then some .notShortable
          else match shortability.available.filter fun available => available < shortAfter with
          | some available =>
              some (.inventoryUnavailable shortAfter available (max (available - shortBefore) 0))
          | none =>
          if provider.shortSaleRestricted instrument now && marketable then
            some .shortSaleRestricted
          else none

/-! ## Arrivals that trade nothing -/

def cancelOnArrival (request : OpenRequest) (now : DateTime) : Arrival :=
  let (id, venue) := self.orderIdSequenceFetchAdd
  let state : Cancelled := ⟨id, now, some 0⟩
  .ok ({ venue with account := venue.account.ackCancelled (request.arrived state) },
    .accepted (request.arrived (.inactive (.cancelled state))), none)

def expireOnArrival (request : OpenRequest) (now : DateTime) : Arrival :=
  let (id, venue) := self.orderIdSequenceFetchAdd
  let state : Expired := ⟨id, now, some 0⟩
  .ok ({ venue with account := venue.account.ackExpired (request.arrived state) },
    .accepted (request.arrived (.inactive (.expired state))), none)

variable [Build]

/-- Rest an order at its limit, holding what the fill of its remainder will cost. -/
def restOrder (request : OpenRequest) (limit : Decimal) (terms : InstrumentTerms)
    (filledQuantity : Decimal) : Arrival := do
  let timeExchange := self.timeExchange
  let settlement := self.settlement terms (self.netPosition terms request.key.instrument)
    request.state.side (request.state.quantity - filledQuantity) limit .maker
  let market := self.market[request.key.instrument]?.map fun market => market.snapshot
  let effect := self.marginEffect request.state.marginEffect
  let (venue, outcome) ← self.commit settlement.reserved none effect terms market
    (some (request.borrower self.nextOrderId)) timeExchange
  match outcome with
  | .error insufficient =>
      venue.refuse request (venue.insufficientError insufficient request.state.side)
  | .ok commitment =>
      let (id, venue) := venue.orderIdSequenceFetchAdd
      let state : Open := ⟨.assigned id, timeExchange, filledQuantity⟩
      let venue ← venue.bookRested (request.arrived state)
        { asset := settlement.asset
          amount := settlement.requirement
          borrowed := commitment.committed.shortfallBorrowed
          excessBorrowed := commitment.committed.excessBorrowed
          effect
          unreportedInterest := commitment.interest.toList }
      return (venue, .accepted (request.arrived (.active (.open state))),
        some (.rested commitment.committed.paid))

omit [Build] in
/-- The price a held order is costed at, and as which side of the book: what it would trade at now,
    or its limit. -/
def holdEstimate (request : OpenRequest) (market : Option MarketSnapshot) :
    Option Decimal × Liquidity :=
  let side := request.state.side
  let takerEstimate := market.bind fun market =>
    self.fillModel.fillPrice ⟨side, request.state.quantity, market⟩
  match request.limit with
  | some limit =>
      if request.state.timeInForce ≠ .goodUntilCancelled true ∧
          (market.any fun market => crosses side limit market) then
        (some (clampToLimit side (takerEstimate.getD limit) limit), .taker)
      else (some limit, .maker)
  | none => (takerEstimate, .taker)

/-- Hold an order for its instrument's next bar or fresh observation. -/
def holdOnArrival (request : OpenRequest) (market : Option MarketSnapshot)
    (terms : InstrumentTerms) : Arrival :=
  let waitsForBar : Bool := match self.marketOrderTiming with
    | .nextBar _ => true
    | .onArrival => false
  let barless := (self.market[request.key.instrument]?.bind fun market => market.bar).isNone
  if waitsForBar && barless then self.refuse request .nextBarWithoutBars
  else
  let side := request.state.side
  let (estimate, liquidity) := self.holdEstimate request market
  match estimate with
  | none => self.refuse request (.unpriced true)
  | some estimate => do
  let timeExchange := self.timeExchange
  let settlement := self.settlement terms (self.netPosition terms request.key.instrument) side
    request.state.quantity estimate liquidity
  let effect := self.marginEffect request.state.marginEffect
  let (venue, outcome) ← self.commit settlement.reserved none effect terms market
    (some (request.borrower self.nextOrderId)) timeExchange
  match outcome with
  | .error insufficient => venue.refuse request (venue.insufficientError insufficient side)
  | .ok commitment =>
      let (id, venue) := venue.orderIdSequenceFetchAdd
      let order : OpenOrder :=
        { request.arrived (⟨.assigned id, timeExchange, 0⟩ : Open) with price := request.limit }
      match venue.account.hold order (some
        { asset := settlement.asset
          amount := settlement.requirement
          borrowed := commitment.committed.shortfallBorrowed
          excessBorrowed := commitment.committed.excessBorrowed
          effect
          unreportedInterest := commitment.interest.toList }) with
      | .error _ => throw .panic
      | .ok account =>
          return ({ venue with account },
            .accepted { order with state := .active (.open order.state) },
            some (.rested commitment.committed.paid))

/-! ## Arrivals that trade -/

/-- Record what a filled arrival became: its remainder rests, it filled outright, or what is left of
    it is cancelled. -/
def retireFilled (request : OpenRequest) (orderId : OrderId) (fill : Fill)
    (held : Option Settlement) (committed : Committed) (timeExchange : DateTime) :
    Except Fault (SimulatedVenue × OrderState) :=
  match held with
  | some held => do
      let state : Open := ⟨.assigned orderId, timeExchange, fill.quantity⟩
      let venue ← self.bookRested (request.arrived state)
        { asset := held.asset
          amount := held.requirement
          borrowed := min committed.shortfallBorrowed held.requirement
          excessBorrowed := committed.excessBorrowed
          effect := self.marginEffect request.state.marginEffect
          unreportedInterest := [] }
      return (venue, .active (.open state))
  | none =>
      if fill.quantity = request.state.quantity then
        let state : Filled := ⟨orderId, timeExchange, request.state.quantity, some fill.price⟩
        .ok ({ self with account := self.account.ackFilled (request.arrived state) },
          .inactive (.fullyFilled state))
      else
        let state : Cancelled := ⟨orderId, timeExchange, some fill.quantity⟩
        .ok ({ self with account := self.account.ackCancelled (request.arrived state) },
          .inactive (.cancelled state))

/-- Take `fill` off the book and print its trade, once it is paid for. -/
def printArrival (request : OpenRequest) (terms : InstrumentTerms) (fill : Fill)
    (fees : AssetFees AssetNameExchange) (timeExchange : DateTime) :
    Except Fault (SimulatedVenue × VenueTrade) := do
  let side := request.state.side
  let venue ← self.consumeDepth request.key.instrument side fill.quantity
  let recorded ← venue.recordFill terms request.key.instrument side fill
  let (orderId, venue) := recorded.orderIdSequenceFetchAdd
  let (id, venue) := venue.tradeIdSequenceFetchAdd
  let trade : VenueTrade :=
    { id
      orderId
      instrument := request.key.instrument
      strategy := request.key.strategy
      timeExchange
      side
      price := fill.price
      quantity := fill.quantity
      orderFilledQuantity := some fill.quantity
      fees
      origin := .order
      positionSide := none
      clientOrderId := some request.key.cid }
  return ({ venue with account := venue.account.ackTrade trade }, trade)

/-- Fill an order as a taker, up to the size on offer, and rest, cancel or refuse the rest. -/
def fillOnArrival [RandomStream] (request : OpenRequest) (market : Option MarketSnapshot)
    (terms : InstrumentTerms) (remainder : Remainder) : Arrival :=
  let marketSupplied := market.isSome
  let market := market.getD .default
  let side := request.state.side
  match (self.fillModel.fillPrice ⟨side, request.state.quantity, market⟩).or request.limit with
  | none => self.refuse request (.unpriced marketSupplied)
  | some reference =>
  let timeExchange := self.timeExchange
  let filledQuantity := match self.depthAvailable request.key.instrument side with
    | some available => min request.state.quantity available
    | none => request.state.quantity
  let unfilled := request.state.quantity - filledQuantity
  if filledQuantity ≤ 0 ∨ (0 < unfilled ∧ remainder = .kill) then
    match remainder with
    | .rest limit => self.restOrder request limit terms 0
    | .cancel | .kill => self.cancelOnArrival request timeExchange
  else do
  let (slipped, slippage) := self.slippage.apply side reference
  let fillPrice := match request.limit with
    | some limit => clampToLimit side slipped limit
    | none => slipped
  let position := self.netPosition terms request.key.instrument
  let fill := self.fillSettlement terms position side filledQuantity fillPrice .taker
  let held : Option Settlement := match remainder with
    | .rest limit =>
        if 0 < unfilled then
          some (self.settlement terms (position.after side filledQuantity fillPrice) side unfilled
            limit .maker)
        else none
    | .cancel | .kill => none
  let debit ← fill.settledHoldingAny held
  let effect := self.marginEffect request.state.marginEffect
  let (venue, outcome) ← { self with slippage }.commit debit (some fill.credit) effect terms
    (some market) (some (request.borrower self.nextOrderId)) timeExchange
  match outcome with
  | .error insufficient =>
      -- Refused, so it never traded, and hands its draw back.
      let venue := { venue with slippage := self.slippage }
      venue.refuse request (venue.insufficientError insufficient side)
  | .ok commitment =>
  let (venue, commitment) ← venue.takeFeeApart fill commitment timeExchange
  let (venue, trade) ←
    venue.printArrival request terms ⟨filledQuantity, fillPrice⟩ fill.fees timeExchange
  let (venue, state) ← venue.retireFilled request trade.orderId ⟨filledQuantity, fillPrice⟩ held
    commitment.committed timeExchange
  return (venue, .accepted (request.arrived state), some (.filled commitment trade))

/-! ## An open request -/

/-- Decide an accepted order by its market and its time in force. -/
def decideArrival [RandomStream] (request : OpenRequest) (market : Option MarketSnapshot)
    (terms : InstrumentTerms) (now : DateTime) : Arrival :=
  let waitsForBar : Bool := match self.marketOrderTiming with
    | .nextBar _ => true
    | .onArrival => false
  match request.limit with
  | none =>
      match disposition request.state.kind request.state.timeInForce true now with
      | .fillAndCancel =>
          if waitsForBar then self.holdOnArrival request market terms
          else self.fillOnArrival request market terms .cancel
      | .fillOrNothing =>
          if waitsForBar then self.holdOnArrival request market terms
          else self.fillOnArrival request market terms .kill
      | .expire => self.expireOnArrival request now
      | .fillAndRest | .cancelUnfilled | .rest => self.cancelOnArrival request now
  | some limit =>
      let marketable := market.any fun market => crosses request.state.side limit market
      match disposition request.state.kind request.state.timeInForce marketable now with
      | .fillAndRest => self.fillOnArrival request market terms (.rest limit)
      | .fillAndCancel => self.fillOnArrival request market terms .cancel
      | .fillOrNothing => self.fillOnArrival request market terms .kill
      | .rest => self.restOrder request limit terms 0
      | .cancelUnfilled => self.cancelOnArrival request now
      | .expire => self.expireOnArrival request now

/-- Apply the stale market policy to an accepted order, and decide it if its market is fresh. -/
def gateArrival [RandomStream] (request : OpenRequest) (market : Option MarketSnapshot)
    (terms : InstrumentTerms) : Arrival :=
  let now := self.timeExchange
  let expired : Bool := match request.state.timeInForce with
    | .goodTillDate expiry => expiry ≤ now
    | _ => false
  match self.staleMarket, expired with
  | .wait maxAge, false =>
      match self.marketAge request.key.instrument maxAge now with
      | .noFeed => self.refuse request .staleWithoutFeed
      | .stale freshAt =>
          if request.state.timeInForce = .immediateOrCancel ∨
              request.state.timeInForce = .fillOrKill then
            self.refuse request (.staleMarket freshAt request.state.timeInForce)
          else self.holdOnArrival request market terms
      | .fresh | .unpriced => self.decideArrival request market terms now
  | _, _ => self.decideArrival request market terms now

def openOrderInner [RandomStream] (request : OpenRequest) (market : Option MarketSnapshot) :
    Arrival :=
  match validateOrderKindSupported self.regime request.state.kind with
  | some refusal => self.refuse request refusal
  | none =>
  match validateTimeInForceSupported request.state.kind request.state.timeInForce with
  | some refusal => self.refuse request refusal
  | none =>
  if request.state.quantity ≤ 0 then
    self.refuse request (.quantityNotPositive request.state.quantity)
  else match self.instrumentTerms request.key.instrument with
  | .error reason => self.refuse request (.instrumentInvalid reason)
  | .ok terms =>
  match self.refusedMarginEffect request.state.marginEffect terms with
  | some effect => self.refuse request (.unsupportedMarginEffect effect)
  | none =>
  if self.account.ordersOpen.contains request.key.cid then
    self.refuse request .duplicateClientOrderId
  else match self.checkShortability request terms market with
  | some refusal => self.refuse request refusal
  | none =>
  if request.state.kind = .limit ∧ request.state.price = none then
    self.refuse request .limitWithoutPrice
  else self.gateArrival request market terms

end SimulatedVenue

end Rustrade.Mock
