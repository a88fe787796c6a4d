import Rustrade.Mock.Capacity

/-!
# What an arriving order costs

What an order is debited, and credited at once, where it gets so far as being paid for: at its
limit where it rests, at its estimate where it is held, at what it fills at where it trades. An
arrival commits its cost, and is refused for want of balance exactly where that is not paid for.
-/

set_option autoImplicit false

namespace Rustrade.Mock

/-- What an order is paid for: what it is debited, and what it is credited at once. -/
structure Cost where
  debit : Debit
  credit : Option Credit
  deriving DecidableEq

/-- What the debit requires of its asset. -/
def Cost.required (self : Cost) : Decimal := self.debit.settled + self.debit.reserved

/-- A refusal for want of balance, which a cap on what may be owed also is. -/
def OpenRefusal.wantsBalance : OpenRefusal → Bool
  | .balanceInsufficient _ | .borrowLimitExceeded .. => true
  | _ => false

def OpenResponse.wantsBalance (self : OpenResponse) : Bool :=
  self.refusal.any OpenRefusal.wantsBalance

namespace SimulatedVenue

/-! ## What a settlement says -/

section

variable {v : SimulatedVenue} {terms : InstrumentTerms} {position : NetPosition} {side : Side}
  {quantity price : Decimal}

theorem settlementWithFee_asset {spotFeeAsset : SpotFeeAsset} {feesQuote : Decimal} :
    (settlementWithFee spotFeeAsset terms position side quantity price feesQuote).asset =
      terms.pays side := by
  unfold settlementWithFee InstrumentTerms.pays
  cases terms.cashSettled <;> cases side <;> simp only [if_true, if_false, Bool.false_eq_true]
  split <;> rfl

/-- A fill of the venue as its settlement costs it, whether its fee is taken apart or not. -/
theorem fillSettlement_cases (v : SimulatedVenue) (terms : InstrumentTerms)
    (position : NetPosition) (side : Side) (quantity price : Decimal) (liquidity : Liquidity) :
    v.fillSettlement terms position side quantity price liquidity =
        v.settlement terms position side quantity price liquidity ∨
      (v.feeAsset.isSome = true ∧ ∃ fees, v.fillSettlement terms position side quantity price liquidity =
        { settlementWithFee v.spotFeeAsset terms position side quantity price 0 with
          fees
          feeApart := true }) := by
  unfold fillSettlement
  dsimp only
  split
  · rename_i fees hfees
    refine .inr ⟨?_, fees, rfl⟩
    unfold feeInFeeAsset at hfees
    cases hasset : v.feeAsset <;> simp_all
  · exact .inl rfl

theorem fillSettlement_asset {liquidity : Liquidity} :
    (v.fillSettlement terms position side quantity price liquidity).asset = terms.pays side := by
  obtain h | ⟨_, fees, h⟩ := fillSettlement_cases v terms position side quantity price liquidity
  · rw [h]
    exact settlementWithFee_asset
  · rw [h]
    exact settlementWithFee_asset

end

/-! ## Costs -/

section

variable (self : SimulatedVenue)

/-- An order that rests holds what its fill at its limit will cost. -/
def restingCost (request : OpenRequest) (limit : Decimal) (terms : InstrumentTerms) : Cost :=
  ⟨(self.settlement terms (self.netPosition terms request.key.instrument) request.state.side
    request.state.quantity limit .maker).reserved, none⟩

/-- An order that is held for a bar or a market holds what its estimate costs. -/
def holdingCost (request : OpenRequest) (market : Option MarketSnapshot)
    (terms : InstrumentTerms) : Option Cost :=
  let waitsForBar : Bool := match self.marketOrderTiming with
    | .nextBar _ => true
    | .onArrival => false
  let barless := (self.market[request.key.instrument]?.bind fun market => market.bar).isNone
  if waitsForBar && barless then none
  else match self.holdEstimate request market with
  | (none, _) => none
  | (some estimate, liquidity) =>
      some ⟨(self.settlement terms (self.netPosition terms request.key.instrument)
        request.state.side request.state.quantity estimate liquidity).reserved, none⟩

/-- An order that trades pays for its fill, and holds what the remainder it rests will cost. -/
def fillingCost [RandomStream] (request : OpenRequest) (market : Option MarketSnapshot)
    (terms : InstrumentTerms) (remainder : Remainder) : Option Cost :=
  let market := market.getD .default
  let side := request.state.side
  match (self.fillModel.fillPrice ⟨side, request.state.quantity, market⟩).or request.limit with
  | none => none
  | some reference =>
  let filledQuantity := match self.depthAvailable request.key.instrument side with
    | some available => min request.state.quantity available
    | none => request.state.quantity
  let unfilled := request.state.quantity - filledQuantity
  if filledQuantity ≤ 0 ∨ (0 < unfilled ∧ remainder = .kill) then
    match remainder with
    | .rest limit => some (self.restingCost request limit terms)
    | .cancel | .kill => none
  else
  let slipped := (self.slippage.apply side reference).1
  let fillPrice := match request.limit with
    | some limit => clampToLimit side slipped limit
    | none => slipped
  let position := self.netPosition terms request.key.instrument
  let fill := self.fillSettlement terms position side filledQuantity fillPrice .taker
  let held : Option Settlement := match remainder with
    | .rest limit =>
        if 0 < unfilled then
          some (self.settlement terms (position.after side filledQuantity fillPrice) side unfilled
            limit .maker)
        else none
    | .cancel | .kill => none
  some ⟨⟨fill.asset, fill.amount, held.elim 0 Settlement.requirement⟩, some fill.credit⟩

def decidedCost [RandomStream] (request : OpenRequest) (market : Option MarketSnapshot)
    (terms : InstrumentTerms) (now : DateTime) : Option Cost :=
  let waitsForBar : Bool := match self.marketOrderTiming with
    | .nextBar _ => true
    | .onArrival => false
  match request.limit with
  | none =>
      match disposition request.state.kind request.state.timeInForce true now with
      | .fillAndCancel =>
          if waitsForBar then self.holdingCost request market terms
          else self.fillingCost request market terms .cancel
      | .fillOrNothing =>
          if waitsForBar then self.holdingCost request market terms
          else self.fillingCost request market terms .kill
      | .expire | .fillAndRest | .cancelUnfilled | .rest => none
  | some limit =>
      let marketable := market.any fun market => crosses request.state.side limit market
      match disposition request.state.kind request.state.timeInForce marketable now with
      | .fillAndRest => self.fillingCost request market terms (.rest limit)
      | .fillAndCancel => self.fillingCost request market terms .cancel
      | .fillOrNothing => self.fillingCost request market terms .kill
      | .rest => some (self.restingCost request limit terms)
      | .cancelUnfilled | .expire => none

def gatedCost [RandomStream] (request : OpenRequest) (market : Option MarketSnapshot)
    (terms : InstrumentTerms) : Option Cost :=
  let now := self.timeExchange
  let expired : Bool := match request.state.timeInForce with
    | .goodTillDate expiry => expiry ≤ now
    | _ => false
  match self.staleMarket, expired with
  | .wait maxAge, false =>
      match self.marketAge request.key.instrument maxAge now with
      | .noFeed => none
      | .stale _ =>
          if request.state.timeInForce = .immediateOrCancel ∨
              request.state.timeInForce = .fillOrKill then none
          else self.holdingCost request market terms
      | .fresh | .unpriced => self.decidedCost request market terms now
  | _, _ => self.decidedCost request market terms now

/-- What an order arriving next costs, unless it is refused before, or ends without trading. -/
def cost [RandomStream] (request : OpenRequest) : Option Cost :=
  let market := self.pricingMarket request
  match validateOrderKindSupported self.regime request.state.kind with
  | some _ => none
  | none =>
  match validateTimeInForceSupported request.state.kind request.state.timeInForce with
  | some _ => none
  | none =>
  if request.state.quantity ≤ 0 then none
  else match self.instrumentTerms request.key.instrument with
  | .error _ => none
  | .ok terms =>
  match self.refusedMarginEffect request.state.marginEffect terms with
  | some _ => none
  | none =>
  if self.account.ordersOpen.contains request.key.cid then none
  else match self.checkShortability request terms market with
  | some _ => none
  | none =>
  if request.state.kind = .limit ∧ request.state.price = none then none
  else self.gatedCost request market terms

end

/-! ## What becomes of a cost -/

variable {v : SimulatedVenue}

section

variable [Build] {request : OpenRequest} {terms : InstrumentTerms}
  {market : Option MarketSnapshot} {priced : Option MarketSnapshot → Prop}

/-- What is known of every market an arrival may be priced from: the venue's own of its instrument,
    the one it is given, and the one that stands for none. -/
structure PricedFrom (v : SimulatedVenue) (request : OpenRequest) (market : Option MarketSnapshot)
    (priced : Option MarketSnapshot → Prop) : Prop where
  own : priced (v.market[request.key.instrument]?.map fun market => market.snapshot)
  given : priced market
  shown : priced (some (market.getD .default))

/-- An order of a cost arrived: the cost is committed, priced from a market that is `priced`, and
    the order is refused for want of balance exactly where that is not paid for. Paid for, the loans
    are those the commitment leaves. -/
structure Arrives (v : SimulatedVenue) (request : OpenRequest) (terms : InstrumentTerms)
    (priced : Option MarketSnapshot → Prop) (cost : Cost) (r : SimulatedVenue × OpenResponse) :
    Prop where
  asset : cost.debit.asset = terms.pays request.state.side
  paidBack : terms.cashSettled = false → AccountState.paidBack cost.credit = 0
  delivers : terms.cashSettled = true → AccountState.deliveryOf cost.credit = none
  committed : ∃ slippage market borrower after outcome, priced market ∧
    ({ v with slippage } : SimulatedVenue).commit cost.debit cost.credit
      (v.marginEffect request.state.marginEffect) terms market borrower v.timeExchange =
        .ok (after, outcome) ∧
    match outcome with
    | .error _ => r.2.wantsBalance = true
    | .ok _ => r.2.wantsBalance = false ∧ after.account.SameLoans r.1.account

/-- What becomes of an order whose cost may be none: one that costs nothing wants no balance. -/
def Fares (v : SimulatedVenue) (request : OpenRequest) (terms : InstrumentTerms)
    (priced : Option MarketSnapshot → Prop) (cost : Option Cost)
    (r : SimulatedVenue × OpenResponse) : Prop :=
  match cost with
  | none => r.2.wantsBalance = false
  | some cost => v.Arrives request terms priced cost r

omit [Build] in
theorem wantsBalance_insufficientError {insufficient : BalanceInsufficient} {side : Side} :
    (v.insufficientError insufficient side).wantsBalance = true := by
  unfold insufficientError
  cases insufficient.maxBorrow <;> rfl

theorem refuse_fares {refusal : OpenRefusal} (h : refusal.wantsBalance = false) :
    (v.refuse request refusal).Gives fun r => v.Fares request terms priced none (r.1, r.2.1) := h

theorem restOrder_fares {limit : Decimal} (hpriced : v.PricedFrom request market priced) :
    (v.restOrder request limit terms 0).Gives fun r =>
      v.Arrives request terms priced (v.restingCost request limit terms) (r.1, r.2.1) := by
  have hasset : (v.restingCost request limit terms).debit.asset = terms.pays request.state.side :=
    settlementWithFee_asset
  have hcommits := Except.Ensures.eq (x := v.commit (v.restingCost request limit terms).debit none
    (v.marginEffect request.state.marginEffect) terms
    (v.market[request.key.instrument]?.map fun market => market.snapshot)
    (some (request.borrower v.nextOrderId)) v.timeExchange) Except.gives_true
  unfold restOrder
  dsimp only
  rw [sub_zero]
  apply hcommits.bind
  rintro ⟨committed, insufficient | commitment⟩ ⟨-, hcommit⟩
  · exact ⟨hasset, fun _ => rfl, fun _ => rfl, _, _, _, _, _, hpriced.own, hcommit,
      wantsBalance_insufficientError⟩
  · apply bookRested_still.bind
    intro booked hbooked
    exact ⟨hasset, fun _ => rfl, fun _ => rfl, _, _, _, _, _, hpriced.own, hcommit, rfl,
      .of_balances hbooked.balances⟩

theorem holdOnArrival_fares (hpriced : v.PricedFrom request market priced) :
    (v.holdOnArrival request market terms).Gives fun r =>
      v.Fares request terms priced (v.holdingCost request market terms) (r.1, r.2.1) := by
  unfold holdOnArrival holdingCost
  extract_lets -merge waitsForBar barless side timeExchange effect waits bars
  have hwaits : waits = waitsForBar := rfl
  have hbars : bars = barless := rfl
  rw [hwaits, hbars]
  split
  · exact refuse_fares rfl
  rcases v.holdEstimate request market with ⟨_ | estimate, liquidity⟩
  · exact refuse_fares rfl
  dsimp only
  have hasset : (v.settlement terms (v.netPosition terms request.key.instrument)
      request.state.side request.state.quantity estimate liquidity).reserved.asset =
        terms.pays request.state.side := settlementWithFee_asset
  have hcommits := Except.Ensures.eq (x := v.commit
    (v.settlement terms (v.netPosition terms request.key.instrument)
      request.state.side request.state.quantity estimate liquidity).reserved none
    (v.marginEffect request.state.marginEffect) terms market
    (some (request.borrower v.nextOrderId)) v.timeExchange) Except.gives_true
  apply hcommits.bind
  rintro ⟨committed, insufficient | commitment⟩ ⟨-, hcommit⟩
  · exact ⟨hasset, fun _ => rfl, fun _ => rfl, _, _, _, _, _, hpriced.given, hcommit, wantsBalance_insufficientError⟩
  · dsimp only
    unfold AccountState.hold
    cases OpenOrders.hold _ _ _ with
    | error resting => exact id
    | ok ordersOpen =>
      exact ⟨hasset, fun _ => rfl, fun _ => rfl, _, _, _, _, _, hpriced.given, hcommit, rfl, .of_balances rfl⟩

theorem settledHoldingAny_gives {settlement : Settlement} {remainder : Option Settlement} :
    (settlement.settledHoldingAny remainder).Gives fun debit => debit =
      ⟨settlement.asset, settlement.amount, remainder.elim 0 Settlement.requirement⟩ := by
  cases remainder with
  | none => exact rfl
  | some remainder =>
    apply AccountState.debugAssert_gives.bind
    exact fun _ _ => rfl

omit [Build] in
/-- A spot fill pays nothing back. -/
theorem fillSettlement_paidBack (hspot : terms.cashSettled = false) {position : NetPosition}
    {side : Side} {quantity price : Decimal} {liquidity : Liquidity} :
    AccountState.paidBack
      (some (v.fillSettlement terms position side quantity price liquidity).credit) = 0 := by
  have hfee (feesQuote : Decimal) : AccountState.paidBack (some (settlementWithFee v.spotFeeAsset
      terms position side quantity price feesQuote).credit) = 0 := by
    unfold settlementWithFee
    simp only [hspot, Bool.false_eq_true, if_false]
    cases side with
    | buy =>
      dsimp only
      split <;> rfl
    | sell => rfl
  obtain h | ⟨_, fees, h⟩ := fillSettlement_cases v terms position side quantity price liquidity
  · rw [h]
    exact hfee _
  · rw [h]
    exact hfee 0

omit [Build] in
/-- A cash-settled fill delivers nothing. -/
theorem fillSettlement_delivers (hcash : terms.cashSettled = true) {position : NetPosition}
    {side : Side} {quantity price : Decimal} {liquidity : Liquidity} :
    AccountState.deliveryOf
      (some (v.fillSettlement terms position side quantity price liquidity).credit) = none := by
  have hfee (feesQuote : Decimal) : AccountState.deliveryOf (some (settlementWithFee v.spotFeeAsset
      terms position side quantity price feesQuote).credit) = none := by
    unfold settlementWithFee
    simp only [hcash, if_true]
    rfl
  obtain h | ⟨_, fees, h⟩ := fillSettlement_cases v terms position side quantity price liquidity
  · rw [h]
    exact hfee _
  · rw [h]
    exact hfee 0

omit [Build] in
theorem takeFeeApart_sameLoans {settlement : Settlement} {commitment : Commitment}
    {timeExchange : DateTime} :
    (v.takeFeeApart settlement commitment timeExchange).Gives fun r =>
      v.account.SameLoans r.1.account := by
  unfold takeFeeApart
  split
  · exact AccountState.SameLoans.refl
  · apply AccountState.charge_sameLoans.bind
    exact fun r hr => hr

variable [RandomStream]

theorem fillOnArrival_fares {remainder : Remainder}
    (hpriced : v.PricedFrom request market priced) :
    (v.fillOnArrival request market terms remainder).Gives fun r =>
      v.Fares request terms priced (v.fillingCost request market terms remainder) (r.1, r.2.1) := by
  unfold fillOnArrival fillingCost
  extract_lets -merge marketSupplied seen side timeExchange filledQuantity unfilled position effect
    market' side' filled left place
  have hmarket : market' = seen := rfl
  have hside : side' = side := rfl
  have hfilled : filled = filledQuantity := rfl
  have hleft : left = unfilled := rfl
  have hplace : place = position := rfl
  rw [hmarket, hside, hfilled, hleft, hplace]
  cases (v.fillModel.fillPrice ⟨side, request.state.quantity, seen⟩).or request.limit with
  | none => exact refuse_fares rfl
  | some reference =>
  dsimp -zeta only
  split
  · cases remainder with
    | rest limit => exact restOrder_fares hpriced
    | cancel => exact rfl
    | kill => exact rfl
  extract_lets -merge fillPrice fill held slipped price bought rested
  have hbought : bought = fill := rfl
  have hrested : rested = held := rfl
  rw [hbought, hrested]
  have hasset : fill.asset = terms.pays side := fillSettlement_asset
  have hpaid (hspot : terms.cashSettled = false) :
      AccountState.paidBack (some fill.credit) = 0 := fillSettlement_paidBack hspot
  have hdelivers (hcash : terms.cashSettled = true) :
      AccountState.deliveryOf (some fill.credit) = none := fillSettlement_delivers hcash
  apply settledHoldingAny_gives.bind
  rintro _ rfl
  have hcommits := Except.Ensures.eq (x := ({ v with
      slippage := (v.slippage.apply side reference).2 } : SimulatedVenue).commit
    ⟨fill.asset, fill.amount, held.elim 0 Settlement.requirement⟩ (some fill.credit) effect terms
    (some seen) (some (request.borrower v.nextOrderId)) timeExchange) Except.gives_true
  apply hcommits.bind
  rintro ⟨committed, insufficient | commitment⟩ ⟨-, hcommit⟩
  · exact ⟨hasset, hpaid, hdelivers, _, _, _, _, _, hpriced.shown, hcommit, wantsBalance_insufficientError⟩
  · apply takeFeeApart_sameLoans.bind
    intro ⟨charged, commitment⟩ hcharged
    apply printArrival_still.bind
    intro ⟨printed, trade⟩ hprinted
    apply retireFilled_still.bind
    intro ⟨retired, state⟩ hretired
    have hloans : committed.account.SameLoans retired.account :=
      (hcharged.trans (.of_balances hprinted.balances)).trans (.of_balances hretired.balances)
    exact ⟨hasset, hpaid, hdelivers, _, _, _, _, _, hpriced.shown, hcommit, rfl, hloans⟩

theorem decideArrival_fares {now : DateTime}
    (hpriced : v.PricedFrom request market priced) :
    (v.decideArrival request market terms now).Gives fun r =>
      v.Fares request terms priced (v.decidedCost request market terms now) (r.1, r.2.1) := by
  have hcancelled : (v.cancelOnArrival request now).Gives fun r =>
      v.Fares request terms priced none (r.1, r.2.1) := rfl
  have hexpired : (v.expireOnArrival request now).Gives fun r =>
      v.Fares request terms priced none (r.1, r.2.1) := rfl
  have hfilled (remainder : Remainder) : (v.fillOnArrival request market terms remainder).Gives
      fun r => v.Fares request terms priced (v.fillingCost request market terms remainder) (r.1, r.2.1) :=
    fillOnArrival_fares hpriced
  have hheld : (v.holdOnArrival request market terms).Gives fun r =>
      v.Fares request terms priced (v.holdingCost request market terms) (r.1, r.2.1) :=
    holdOnArrival_fares hpriced
  unfold decideArrival decidedCost
  extract_lets -merge waitsForBar waits
  have hwaits : waits = waitsForBar := rfl
  rw [hwaits]
  cases request.limit with
  | none =>
    dsimp only
    cases disposition request.state.kind request.state.timeInForce true now with
    | fillAndCancel =>
      dsimp only
      split
      · exact hheld
      · exact hfilled _
    | fillOrNothing =>
      dsimp only
      split
      · exact hheld
      · exact hfilled _
    | expire => exact hexpired
    | fillAndRest => exact hcancelled
    | cancelUnfilled => exact hcancelled
    | rest => exact hcancelled
  | some limit =>
    dsimp only
    cases disposition request.state.kind request.state.timeInForce _ now with
    | fillAndRest => exact hfilled _
    | fillAndCancel => exact hfilled _
    | fillOrNothing => exact hfilled _
    | rest => exact restOrder_fares hpriced
    | cancelUnfilled => exact hcancelled
    | expire => exact hexpired

theorem gateArrival_fares (hpriced : v.PricedFrom request market priced) :
    (v.gateArrival request market terms).Gives fun r =>
      v.Fares request terms priced (v.gatedCost request market terms) (r.1, r.2.1) := by
  have hdecided : (v.decideArrival request market terms v.timeExchange).Gives fun r =>
      v.Fares request terms priced (v.decidedCost request market terms v.timeExchange) (r.1, r.2.1) :=
    decideArrival_fares hpriced
  unfold gateArrival gatedCost
  extract_lets -merge now expired today passed
  have htoday : today = now := rfl
  have hpassed : passed = expired := rfl
  rw [htoday, hpassed]
  clear_value expired
  cases v.staleMarket with
  | off => exact hdecided
  | wait maxAge =>
    cases expired with
    | true => exact hdecided
    | false =>
      dsimp only
      cases v.marketAge request.key.instrument maxAge now with
      | noFeed => exact refuse_fares rfl
      | unpriced => exact hdecided
      | fresh => exact hdecided
      | stale freshAt =>
        dsimp only
        split
        · exact refuse_fares rfl
        · exact holdOnArrival_fares hpriced

omit [Build] [RandomStream] in
theorem wantsBalance_kind {refusal : OpenRefusal}
    (h : validateOrderKindSupported v.regime request.state.kind = some refusal) :
    refusal.wantsBalance = false := by
  unfold validateOrderKindSupported at h
  split at h <;> cases h
  rfl

omit [Build] [RandomStream] in
theorem wantsBalance_timeInForce {kind : OrderKind} {timeInForce : TimeInForce}
    {refusal : OpenRefusal} (h : validateTimeInForceSupported kind timeInForce = some refusal) :
    refusal.wantsBalance = false := by
  unfold validateTimeInForceSupported at h
  split at h <;> cases h <;> rfl

omit [Build] [RandomStream] in
theorem wantsBalance_shortability {refusal : OpenRefusal}
    (h : v.checkShortability request terms market = some refusal) :
    refusal.wantsBalance = false := by
  unfold checkShortability at h
  dsimp only at h
  repeat' split at h
  all_goals cases h
  all_goals rfl

omit [Build] [RandomStream] in
/-- A venue driven by its own markets prices every arrival from them. -/
theorem pricedFrom_own (hregime : v.regime = .marketDriven)
    (hterms : v.instrumentTerms request.key.instrument = .ok terms) :
    v.PricedFrom request (v.pricingMarket request)
      (v.OwnMarket request.key.instrument terms) := by
  have hmarket : v.pricingMarket request =
      v.market[request.key.instrument]?.map fun market => market.snapshot := by
    unfold pricingMarket
    rw [hregime]
  have hown : v.OwnMarket request.key.instrument terms
      (v.market[request.key.instrument]?.map fun market => market.snapshot) := ownMarket_own hterms
  rw [hmarket]
  exact ⟨hown, hown, hown.getD hterms⟩

/-- What becomes of an order arriving next: one that costs nothing is not refused for want of
    balance, and any other arrives at its cost. -/
theorem openOrderInner_fares {priced : InstrumentTerms → Option MarketSnapshot → Prop}
    (hpriced : ∀ terms, v.instrumentTerms request.key.instrument = .ok terms →
      v.PricedFrom request (v.pricingMarket request) (priced terms)) :
    (v.openOrderInner request (v.pricingMarket request)).Gives fun r =>
      match v.cost request with
      | none => r.2.1.wantsBalance = false
      | some cost => ∃ terms, v.instrumentTerms request.key.instrument = .ok terms ∧
          v.Arrives request terms (priced terms) cost (r.1, r.2.1) := by
  unfold openOrderInner cost
  dsimp only
  cases hkind : validateOrderKindSupported v.regime request.state.kind with
  | some refusal => exact wantsBalance_kind hkind
  | none =>
  cases htime : validateTimeInForceSupported request.state.kind request.state.timeInForce with
  | some refusal => exact wantsBalance_timeInForce htime
  | none =>
  dsimp only
  split
  · exact rfl
  cases hterms : v.instrumentTerms request.key.instrument with
  | error reason => exact rfl
  | ok terms =>
  dsimp only
  cases v.refusedMarginEffect request.state.marginEffect terms with
  | some effect => exact rfl
  | none =>
  dsimp only
  split
  · exact rfl
  cases hshort : v.checkShortability request terms (v.pricingMarket request) with
  | some refusal => exact wantsBalance_shortability hshort
  | none =>
  dsimp only
  split
  · exact rfl
  apply (gateArrival_fares (hpriced terms hterms)).mono
  intro r hfares
  cases hcost : v.gatedCost request (v.pricingMarket request) terms with
  | none =>
    rw [hcost] at hfares
    exact hfares
  | some cost =>
    rw [hcost] at hfares
    exact ⟨terms, rfl, hfares⟩

omit [Build] [RandomStream] in
theorem finish_sameLoans {events : List AccountEvent} :
    (v.finish events).Gives fun r => v.account.SameLoans r.1.account := by
  apply refreshNextInterestIfLoansChanged_still.bind
  intro refreshed hrefreshed
  have hsame : v.account.SameLoans refreshed.account := .of_balances hrefreshed.balances
  show v.account.SameLoans (refreshed.reportDebtChanges events).1.account
  unfold reportDebtChanges
  split
  · exact hsame
  · exact hsame

omit [RandomStream] in
/-- What follows an arrival takes no loan. -/
theorem Arrives.sameLoans {cost : Cost} {u w : SimulatedVenue} {response : OpenResponse}
    (h : v.Arrives request terms priced cost (u, response)) (hsame : u.account.SameLoans w.account) :
    v.Arrives request terms priced cost (w, response) := by
  refine ⟨h.asset, h.paidBack, h.delivers, ?_⟩
  obtain ⟨slippage, market, borrower, after, outcome, hown, hcommit, houtcome⟩ := h.committed
  refine ⟨slippage, market, borrower, after, outcome, hown, hcommit, ?_⟩
  cases outcome with
  | error insufficient => exact houtcome
  | ok commitment => exact ⟨houtcome.1, houtcome.2.trans hsame⟩

theorem openOrder_fares {priced : InstrumentTerms → Option MarketSnapshot → Prop}
    (hpriced : ∀ terms, v.instrumentTerms request.key.instrument = .ok terms →
      v.PricedFrom request (v.pricingMarket request) (priced terms)) :
    (v.openOrder request).Gives fun r =>
      match v.cost request with
      | none => r.2.2.wantsBalance = false
      | some cost => ∃ terms, v.instrumentTerms request.key.instrument = .ok terms ∧
          v.Arrives request terms (priced terms) cost (r.1, r.2.2) := by
  apply (openOrderInner_fares hpriced).bind
  intro ⟨venue, response, notifications⟩ hopened
  apply finish_sameLoans.bind
  intro ⟨finished, events⟩ hfinished
  dsimp only at hopened ⊢
  cases hcost : v.cost request with
  | none =>
    rw [hcost] at hopened
    exact hopened
  | some cost =>
    rw [hcost] at hopened
    obtain ⟨terms, hterms, harrives⟩ := hopened
    exact ⟨terms, hterms, harrives.sameLoans hfinished⟩

end

end SimulatedVenue

end Rustrade.Mock
