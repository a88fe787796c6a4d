import Rustrade.Mock.LentAsAnswered

/-!
# Orders that only reduce a position

An order that only closes some of a cash-settled position is paid back more than it costs, so it
holds nothing and needs nothing of the free balance. It is refused all the same where the account's
free balance was charged below zero and its own close does not bring it back.
-/

set_option autoImplicit false

namespace Rustrade.Mock

/-! ## What a close costs -/

/-- A trade of a side takes from the position. -/
def NetPosition.opposes (self : NetPosition) (side : Side) : Bool :=
  match side with
  | .buy => self.quantity < 0
  | .sell => self.isLong

/-- What closing a quantity at a price pays back, margin and profit. -/
def NetPosition.closePays (self : NetPosition) (terms : InstrumentTerms)
    (quantity price : Decimal) : Decimal :=
  |quantity| * terms.contractSize *
    if self.isLong then price else self.entry + self.entry - price

section

variable {spotFeeAsset : SpotFeeAsset} {terms : InstrumentTerms} {position : NetPosition}
  {side : Side} {quantity price feesQuote : Decimal}

end

namespace AccountState

variable {account : AccountState} {debit : Debit} {credit : Option Credit} {effect : MarginEffect}
  {lending : Lending} {timeExchange : DateTime}

theorem lend_nothing {available : Decimal} {lends : Bool} (h : lending.borrowable ≤ 0) :
    match account.lend debit available lends lending with
    | .error _ => available < debit.settled + debit.reserved
    | .ok (borrowed, _) => borrowed = 0 ∧ debit.settled + debit.reserved ≤ available := by
  unfold lend
  extract_lets required capped lendable shortfall loan
  by_cases hcovered : shortfall ≤ 0
  · rw [if_pos hcovered]
    exact ⟨rfl, sub_nonpos.1 hcovered⟩
  · have hshort : 0 < shortfall := not_le.1 hcovered
    -- A cap leaves no less than nothing, so it decides nothing here.
    have hlendable : lendable ≤ 0 := by
      show capped.getD lending.borrowable ≤ 0
      cases hcapped : capped with
      | none => exact h
      | some room =>
        obtain ⟨-, hless⟩ := Option.filter_eq_some_iff.1 hcapped
        exact (of_decide_eq_true hless).le.trans h
    have hloan : ¬ loan ≤ lendable := not_le.2 (hlendable.trans_lt (lt_max_of_lt_left hshort))
    rw [if_neg hcovered, if_neg (by simp [hloan])]
    exact sub_pos.1 hshort

/-- Where nothing may be lent and nothing is delivered, a commitment is made where the free balance
    and what is paid back cover it, and only there. -/
theorem commit_of_free [Build] (h : lending.borrowable ≤ 0) (hdelivers : deliveryOf credit = none) :
    (account.commit debit credit effect lending timeExchange).Gives fun r =>
      match r.2 with
      | .error _ => account.free debit.asset + paidBack credit < debit.settled + debit.reserved
      | .ok _ => debit.settled + debit.reserved ≤ account.free debit.asset + paidBack credit := by
  have hparts : (creditParts credit).Ensures (Broken False) fun parts =>
      parts = (paidBack credit, deliveryOf credit) := creditParts_ensures
  have hfree : (account.freeToPay debit.asset).Ensures (Broken False) fun free =>
      free = account.free debit.asset := freeToPay_ensures
  unfold commit
  apply hparts.gives.bind
  rintro _ rfl
  apply hfree.gives.bind
  rintro _ rfl
  have hlent : match account.lend debit (account.free debit.asset + paidBack credit)
      (account.margin && decide (effect = .borrow)) lending with
    | .error _ => account.free debit.asset + paidBack credit < debit.settled + debit.reserved
    | .ok (borrowed, _) => borrowed = 0 ∧
        debit.settled + debit.reserved ≤ account.free debit.asset + paidBack credit :=
    lend_nothing h
  dsimp only
  cases hlend : account.lend debit (account.free debit.asset + paidBack credit)
      (account.margin && decide (effect = .borrow)) lending with
  | error insufficient =>
    rw [hlend] at hlent
    exact hlent
  | ok lent =>
  obtain ⟨borrowed, excessBorrowed⟩ := lent
  rw [hlend] at hlent
  obtain ⟨hnone, hcovered⟩ := hlent
  rw [hdelivers]
  apply fundAny_shifts.bind
  intro funded hfunded
  apply reserve_shifts.bind
  rintro ⟨reserved, _ | balance⟩ houtcome
  · -- What is funded covers what is required, so the reserve is never refused.
    obtain ⟨-, hrefused⟩ := houtcome
    rw [hfunded.free, hnone, zero_add] at hrefused
    exact absurd hcovered (not_le.2 hrefused)
  apply settle_calm.bind
  intro ⟨settled, paid⟩ _
  exact hcovered

end AccountState

namespace SimulatedVenue

variable {v : SimulatedVenue}

section

variable [Build] {request : OpenRequest} {terms : InstrumentTerms} {market : Option MarketSnapshot}
  {debit : Debit} {credit : Option Credit} {effect : MarginEffect} {borrower : Option Borrower}
  {timeExchange : DateTime}

/-- A cash-settled commitment is lent nothing. -/
theorem commit_cashSettled (hcash : terms.cashSettled = true)
    (hdelivers : AccountState.deliveryOf credit = none) :
    (v.commit debit credit effect terms market borrower timeExchange).Gives fun r =>
      match r.2 with
      | .error _ => v.account.free debit.asset + AccountState.paidBack credit <
          debit.settled + debit.reserved
      | .ok _ => debit.settled + debit.reserved ≤
          v.account.free debit.asset + AccountState.paidBack credit := by
  have hborrowable : v.borrowable debit effect terms market ≤ 0 := by
    unfold borrowable
    cases v.spotMargin with
    | none => exact le_rfl
    | some config => simp [hcash]
  unfold commit
  apply (AccountState.commit_of_free hborrowable hdelivers).bind
  rintro ⟨account, insufficient | committed⟩ houtcome
  · exact houtcome
  · dsimp only
    split
    · apply Except.gives_true.bind
      rintro ⟨charged, _ | ⟨balance, flow⟩⟩ _
      · exact houtcome
      · exact houtcome
    · exact houtcome

variable [RandomStream]

/-- An order that only reduces a cash-settled position, of a fee that is within what closing at its
    price pays back: what it fills for pays for itself, and what of it rests or is held holds
    nothing. -/
structure OnlyReduces (v : SimulatedVenue) (request : OpenRequest) (cost : Cost) : Prop where
  reduces : ∃ terms, v.instrumentTerms request.key.instrument = .ok terms ∧
    terms.cashSettled = true ∧
    (v.netPosition terms request.key.instrument).opposes request.state.side = true ∧
    request.state.quantity ≤ |(v.netPosition terms request.key.instrument).quantity|
  costs : v.cost request = some cost
  settled : cost.debit.settled ≤ AccountState.paidBack cost.credit
  reserved : cost.debit.reserved = 0

end

/-! ## A close after a charge -/

/-- A venue that holds 100 for its client, and lends nothing. -/
def cfdVenue : MockExecutionConfig :=
  { leveragedVenue with
    initialState := ⟨⟨"mock"⟩, [⟨⟨"USDT"⟩, ⟨100, 100, none⟩, 0⟩], []⟩
    spotMargin := none }

/-- The one contract it trades. -/
def cfdOnly : BTreeMap InstrumentNameExchange VenueInstrument :=
  (∅ : BTreeMap InstrumentNameExchange VenueInstrument).insert ⟨"C"⟩
    ⟨⟨"mock"⟩, ⟨⟨"BTC"⟩, ⟨"USDT"⟩⟩, .cfd ⟨1, ⟨"USDT"⟩⟩, none⟩

/-- Five is charged on a position at the instant ten. -/
def chargedAtTen : HoldingCostModel where
  nextBoundary _ after := if after < 10 then some 10 else none
  charge _ _ := some ⟨.financing none none, -5⟩

def cfdRequest (cid : String) (side : Side) (price : Option Decimal) (kind : OrderKind) :
    OpenRequest where
  key := ⟨⟨"mock"⟩, ⟨"C"⟩, ⟨"strategy"⟩, ⟨cid⟩⟩
  state :=
    { side
      price
      quantity := 1
      kind
      timeInForce := if kind = .limit then .goodUntilCancelled false else .immediateOrCancel
      positionId := none
      reduceOnly := .no
      market := none
      marginEffect := none }

/-- A sell of the one contract held, resting at 150. -/
def sellToClose : OpenRequest := cfdRequest "close" .sell (some 150) .limit

/-- One contract is bought at 100 with all of the balance. -/
def buysAll : List Input :=
  [lastPriced "C" 100, .openOrder (cfdRequest "open" .buy none .market)]

def closeCost : Cost := ⟨⟨⟨"USDT"⟩, 0, 0⟩, none⟩

/-- What is evaluated of a venue the close arrives at. -/
def closes [Build] [RandomStream] (free : Decimal) (taken : Bool) (venue : SimulatedVenue) : Bool :=
  let opened : Bool :=
    match venue.openOrder sellToClose with
    | .ok (_, _, response) => response.wantsBalance = !taken
    | .error _ => false
  decide (venue.cost sellToClose = some closeCost) &&
    decide ((venue.instrumentTerms ⟨"C"⟩).toOption = some ⟨⟨⟨"BTC"⟩, ⟨"USDT"⟩⟩, 1, true⟩) &&
    decide (venue.netPosition ⟨⟨⟨"BTC"⟩, ⟨"USDT"⟩⟩, 1, true⟩ ⟨"C"⟩ = ⟨1, 100⟩) &&
    decide (venue.account.free ⟨"USDT"⟩ = free) && opened

theorem onlyReduces_of_closes [Build] [RandomStream] {free : Decimal} {taken : Bool}
    (h : closes free taken v = true) : v.OnlyReduces sellToClose closeCost ∧
      v.account.free ⟨"USDT"⟩ = free ∧ ∃ after events response,
        v.openOrder sellToClose = .ok (after, events, response) ∧
          response.wantsBalance = !taken := by
  unfold closes at h
  simp only [Bool.and_eq_true, decide_eq_true_eq] at h
  obtain ⟨⟨⟨⟨hcost, hterms⟩, hposition⟩, hfree⟩, hopened⟩ := h
  have hfound : v.instrumentTerms ⟨"C"⟩ = .ok ⟨⟨⟨"BTC"⟩, ⟨"USDT"⟩⟩, 1, true⟩ := by
    cases hfound : v.instrumentTerms ⟨"C"⟩ with
    | error reason => rw [hfound] at hterms; cases hterms
    | ok terms =>
      rw [hfound] at hterms
      rw [Option.some.inj hterms]
  refine ⟨⟨⟨_, hfound, rfl, ?_, ?_⟩, hcost, le_rfl, rfl⟩, hfree, ?_⟩
  · show (v.netPosition _ ⟨"C"⟩).opposes .sell = true
    rw [hposition]
    decide +kernel
  · show (1 : Decimal) ≤ |(v.netPosition _ ⟨"C"⟩).quantity|
    rw [hposition]
    simp
  · split at hopened
    · rename_i after events response hopen
      exact ⟨after, events, response, hopen, of_decide_eq_true hopened⟩
    · cases hopened

/-- A venue with holding costs, once inputs drove it. -/
def chargedBy [Build] [RandomStream] [DecimalScale] (models : List HoldingCostModel)
    (inputs : List Input) (check : SimulatedVenue → Bool) : Bool :=
  match withRegime cfdVenue cfdOnly .marketDriven with
  | .ok venue => match venue.withHoldingCosts models with
    | .ok venue => match venue.answers inputs with
      | .ok (after, _) => check after
      | .error _ => false
    | .error _ => false
  | .error _ => false

theorem reachable_of_chargedBy [Build] [RandomStream] [DecimalScale]
    {models : List HoldingCostModel} {inputs : List Input} {check : SimulatedVenue → Bool}
    (h : chargedBy models inputs check = true) :
    ∃ after, after.Reachable cfdVenue cfdOnly ∧ check after = true := by
  unfold chargedBy at h
  split at h
  · rename_i venue hbuilt
    split at h
    · rename_i charged hcharged
      split at h
      · rename_i after answers hrun
        exact ⟨after, Reachable.answers (.withHoldingCosts (.built hbuilt) hcharged) hrun, h⟩
      · cases h
    · cases h
  · cases h

end SimulatedVenue

end Rustrade.Mock
