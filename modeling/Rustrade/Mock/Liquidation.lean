import Rustrade.Mock.Arrival

/-!
# Liquidating a margin account

A margin account whose level falls to the configured one is liquidated: every order is cancelled,
what is free of an owed asset repays it, and what else is held is sold for the valuation asset, which
buys back what is still owed. A liquidation that cannot repay every debt continues on the inputs
that follow.
-/

set_option autoImplicit false

namespace Rustrade

def StrategyId.unknown : StrategyId := ⟨"unknown"⟩

namespace Mock

/-- How many digits a quantity carries after its point. The type of the source keeps them with the
    value; the number itself does not tell. -/
class DecimalScale where
  scale : Decimal → Nat

/-- One in the last digit of `quantity`. -/
def lastDigit [DecimalScale] (quantity : Decimal) : Decimal := 1 / 10 ^ DecimalScale.scale quantity

/-- A trade a liquidation can make: what it pays and delivers for each unit at its price. -/
structure Leg where
  instrument : InstrumentNameExchange
  terms : InstrumentTerms
  side : Side
  pay : AssetNameExchange
  price : Decimal
  paidPerUnit : Decimal
  deliveredPerUnit : Decimal
  deriving DecidableEq

def delivered : Credit → Decimal
  | .delivery delivery => delivery.amount
  | .paidBack _ => 0

namespace SimulatedVenue

variable (self : SimulatedVenue)

/-! ## Debts -/

/-- The assets owed, by name. -/
def owedAssets : List AssetNameExchange :=
  (self.account.balances.toList.filter fun e => 0 < owed e.2).map Prod.fst

def owedOf (asset : AssetNameExchange) : Decimal := (self.account.balances[asset]?.map owed).getD 0

/-- Every debt in the valuation asset, or nothing where one cannot be valued. -/
def debtIn : Decimal :=
  ((self.spotMargin.bind fun config => self.valued config .liquidation none .current).map
    Valued.debt).getD 0

def notice (kind : NoticeKind) (marginLevel : Option Decimal) (timeExchange : DateTime) :
    AccountEvent :=
  self.buildAccountEvent (.notice ⟨kind, timeExchange, marginLevel⟩)

/-! ## Choosing a trade -/

/-- What a taker of the leg's instrument would trade, from the market the venue last observed. -/
def legReference (side : Side) (want : Decimal) (snapshot : MarketSnapshot) :
    Except Fault (Option Decimal) :=
  match side, midOrLast snapshot with
  | .sell, some mid =>
      if mid = 0 then .error .panic
      else .ok (self.fillModel.fillPrice ⟨side, want / mid, snapshot⟩)
  | side, _ => .ok (self.fillModel.fillPrice ⟨side, want, snapshot⟩)

/-- The trade that turns `pay` into `receive`, over the first instrument between them that has a
    market. The slippage it draws is spent even where the trade cannot be made. -/
def leg [RandomStream] (pay receive : AssetNameExchange) (want : Decimal) :
    Except Fault (SimulatedVenue × Option Leg) := do
  let pair := (SpotPairs.between self.instruments pay receive).find? fun pair =>
    self.market.contains pair.instrument
  match pair with
  | none => return (self, none)
  | some pair =>
  let side : Side := if pair.inverse then .buy else .sell
  match self.market[pair.instrument]?, self.instrumentTerms pair.instrument with
  | some market, .ok terms =>
      match ← self.legReference side want market.snapshot with
      | none => return (self, none)
      | some reference =>
      let (price, slippage) := self.slippage.apply side reference
      let venue := { self with slippage }
      if price ≤ 0 then return (venue, none)
      let one := venue.fillSettlement terms .default side 1 price .taker
      match one.credit with
      | .paidBack _ => return (venue, none)
      | .delivery delivery =>
          if delivery.amount ≤ 0 ∨ one.amount ≤ 0 then return (venue, none)
          else return (venue, some ⟨pair.instrument, terms, side, pay, price, one.amount,
            delivery.amount⟩)
  | _, _ => return (self, none)

/-- The largest quantity found in `tries` steps that delivers no less than wanted and costs no more
    than the budget, with what it settles. -/
def affordable [DecimalScale] (leg : Leg) (want budget : Decimal) :
    Nat → (cap quantity : Decimal) → Option (Decimal × Settlement) → Option (Decimal × Settlement)
  | 0, _, _, found => found
  | tries + 1, cap, quantity, found =>
      if quantity ≤ 0 then found
      else
        let priced := self.fillSettlement leg.terms .default leg.side quantity leg.price .taker
        let step := lastDigit quantity
        if budget < priced.amount then
          affordable leg want budget tries (quantity - step) (quantity - step) found
        else if delivered priced.credit < want ∧ quantity + step ≤ cap then
          affordable leg want budget tries cap (quantity + step) (some (quantity, priced))
        else some (quantity, priced)

/-- What a leg trades: as much of what is wanted as is free to pay and on offer. -/
def legFill [DecimalScale] (leg : Leg) (want : Decimal) : Option (Decimal × Settlement) :=
  let budget := self.account.free leg.pay
  let affords := budget / leg.paidPerUnit
  let cap := (self.depthAvailable leg.instrument leg.side).elim affords fun available =>
    min affords available
  self.affordable leg want budget 4 cap (min (want / leg.deliveredPerUnit) cap) none

variable [Build] [RandomStream] [DecimalScale]

/-! ## Trading -/

omit [RandomStream] [DecimalScale] in
/-- Print the trade of a leg that is paid for. -/
def printLeg (leg : Leg) (quantity : Decimal) (fees : AssetFees AssetNameExchange)
    (timeExchange : DateTime) : Except Fault (SimulatedVenue × VenueTrade) := do
  let venue ← self.consumeDepth leg.instrument leg.side quantity
  let (orderId, venue) := venue.orderIdSequenceFetchAdd
  let (id, venue) := venue.tradeIdSequenceFetchAdd
  let trade : VenueTrade :=
    { id
      orderId
      instrument := leg.instrument
      strategy := .unknown
      timeExchange
      side := leg.side
      price := leg.price
      quantity
      orderFilledQuantity := some quantity
      fees
      origin := .liquidation
      positionSide := none
      clientOrderId := none }
  return ({ venue with account := venue.account.ackTrade trade }, trade)

omit [RandomStream] in
/-- Trade a leg, and how much of what was wanted it delivered. -/
def fillLeg (leg : Leg) (want : Decimal) (timeExchange : DateTime) :
    Except Fault ((SimulatedVenue × Decimal) × List AccountEvent) :=
  match self.legFill leg want with
  | none => .ok ((self, 0), [])
  | some (quantity, settlement) => do
      let (venue, outcome) ← self.commit settlement.settled (some settlement.credit) .repay
        leg.terms none none timeExchange
      match outcome with
      | .error _ => return ((venue, 0), [])
      | .ok commitment =>
          let (venue, commitment) ← venue.takeFeeApart settlement commitment timeExchange
          let (venue, trade) ← venue.printLeg leg quantity settlement.fees timeExchange
          return ((venue, delivered settlement.credit), venue.pushCommitted commitment (some trade))

omit self in
/-- Sell one asset towards what is still needed. -/
def raiseFrom (valuation : AssetNameExchange) (timeExchange : DateTime)
    (raising : SimulatedVenue × Decimal) (asset : AssetNameExchange) :
    Except Fault ((SimulatedVenue × Decimal) × List AccountEvent) := do
  let (venue, need) := raising
  if need ≤ 0 then return ((venue, need), [])
  let (venue, leg) ← venue.leg asset valuation need
  match leg with
  | none => return ((venue, need), [])
  | some leg =>
      let ((venue, delivered), events) ← venue.fillLeg leg need timeExchange
      return ((venue, need - delivered), events)

/-- Sell what is held, by name, until `need` of the valuation asset is raised. -/
def raise (valuation : AssetNameExchange) (need : Decimal) (timeExchange : DateTime) :
    Events := do
  let held := (self.account.balances.toList.filter fun e =>
    e.1 ≠ valuation && 0 < e.2.balance.free).map Prod.fst
  let ((venue, _), events) ← Gather.run (raiseFrom valuation timeExchange) (self, need) held
  return (venue, events)

/-- Buy back what is owed of an asset, raising what that costs first. -/
def buyBack (valuation : AssetNameExchange) (timeExchange : DateTime)
    (asset : AssetNameExchange) : Events := do
  let owed := self.owedOf asset
  if asset = valuation ∨ owed ≤ 0 then return (self, [])
  let (venue, leg) ← self.leg valuation asset owed
  match leg with
  | none => return (venue, [])
  | some leg =>
      let cost := owed / leg.deliveredPerUnit * leg.paidPerUnit
      Gather.andThen
        (venue.raise valuation (cost - venue.account.free valuation) timeExchange)
        fun venue => do
          let ((venue, _), events) ← venue.fillLeg leg owed timeExchange
          return (venue, events)

/-! ## A liquidation -/

omit [Build] [RandomStream] [DecimalScale] in
/-- Repay what is owed of one asset out of what is free of it. -/
def repayOwed (timeExchange : DateTime) (asset : AssetNameExchange) : Events :=
  if 0 < self.account.free asset then do
    let (account, balance) ←
      self.account.repayLoan asset (self.owedOf asset) timeExchange
    return ({ self with account }, [self.balanceEvent balance])
  else .ok (self, [])

/-- Charge the fee on what a liquidation repaid, whether the account can cover it or not. -/
def chargeLiquidationFee (valuation : AssetNameExchange) (rate repaid : Decimal)
    (timeExchange : DateTime) : Events :=
  let fee := rate * repaid
  if fee ≤ 0 then .ok (self, [])
  else Gather.andThen (self.raise valuation (fee - self.account.free valuation) timeExchange)
    fun venue =>
      let (account, balance) := venue.account.deliver ⟨valuation, -fee⟩ .noSideEffect timeExchange
      let (id, venue) := { venue with account }.cashFlowIdFetchAdd
      .ok (venue,
        [venue.balanceEvent balance,
          venue.buildAccountEvent (.cashFlow
            { kind := .liquidationFee (some rate) (some repaid)
              asset := valuation
              amount := -fee
              instrument := none
              timeExchange
              id := some id
              period := none
              loan := none })])

omit [Build] [RandomStream] [DecimalScale] in
/-- Begin a liquidation, unless one is under way. -/
def beginLiquidation (level : Decimal) (timeExchange : DateTime) :
    SimulatedVenue × List AccountEvent :=
  if self.liquidation.underWay then (self, [])
  else ({ self with liquidation := ⟨true, false⟩ },
    [self.notice .liquidation (some level) timeExchange])

omit [Build] [RandomStream] [DecimalScale] in
/-- A liquidation that repaid every debt is over. -/
def endLiquidation : SimulatedVenue :=
  if self.owedAssets.isEmpty then
    { self with liquidation := { self.liquidation with underWay := false } }
  else self

/-- Repay every debt the account can, and charge the fee on what that repaid. -/
def repayDebts (liquidation : SpotMarginLiquidation) (valuation : AssetNameExchange)
    (timeExchange : DateTime) : Events :=
  let debtBefore := self.debtIn
  Gather.andThen
    (Gather.run (fun venue asset => venue.repayOwed timeExchange asset) self self.owedAssets)
    fun venue => Gather.andThen
      (venue.raise valuation (venue.owedOf valuation) timeExchange)
      fun venue => Gather.andThen
        (Gather.run (fun venue asset => venue.buyBack valuation timeExchange asset) venue
          venue.owedAssets)
        fun venue =>
          let repaid := max (debtBefore - venue.debtIn) 0
          venue.chargeLiquidationFee valuation liquidation.feeRate repaid timeExchange

def liquidate (liquidation : SpotMarginLiquidation) (valuation : AssetNameExchange)
    (level : Decimal) (timeExchange : DateTime) : Events :=
  Gather.andThen (.ok (self.beginLiquidation level timeExchange)) fun venue =>
    Gather.andThen (venue.cancelEveryOrder timeExchange) fun venue =>
      Gather.andThen (venue.repayDebts liquidation valuation timeExchange) fun venue =>
        .ok (venue.endLiquidation, [])

/-! ## Checking the margin level -/

omit [Build] [RandomStream] [DecimalScale] in
/-- Report a margin call that begins or ends. -/
def noteMarginCall (called : Bool) (level : Option Decimal) (timeExchange : DateTime) :
    SimulatedVenue × List AccountEvent :=
  if called = self.liquidation.marginCalled then (self, [])
  else ({ self with liquidation := { self.liquidation with marginCalled := called } },
    [self.notice (if called then .marginCall else .marginRestored) level timeExchange])

/-- Liquidate the account at its liquidation level, and report it where a margin call is due. -/
def checkMargin (timeExchange : DateTime) : Events :=
  match self.spotMargin, self.spotMargin.bind SpotMarginConfig.liquidation with
  | some config, some liquidation =>
      if self.owedAssets.isEmpty then
        .ok ({ self with liquidation := { self.liquidation with underWay := false } }
          |>.noteMarginCall false none timeExchange)
      else match self.valued config .liquidation none .current with
      | none => .ok (self, [])
      | some ⟨equity, debt⟩ =>
          if debt ≤ 0 then .ok (self, [])
          else
            let level := (equity + debt) / debt
            if self.liquidation.underWay ∨ level ≤ liquidation.level then
              self.liquidate liquidation config.valuationAsset level timeExchange
            else match liquidation.marginCallLevel with
            | none => .ok (self, [])
            | some marginCall =>
                .ok (self.noteMarginCall (decide (level ≤ marginCall)) (some level) timeExchange)
  | _, _ => .ok (self, [])

end SimulatedVenue

end Mock

end Rustrade
