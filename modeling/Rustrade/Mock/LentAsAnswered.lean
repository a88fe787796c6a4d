import Rustrade.Mock.Cost

/-!
# Lent as answered

An order arriving next that borrows is refused for want of balance exactly where its loan is not
within what the venue answers that it would lend, and is lent exactly that loan, but for an order
whose own market stands in for one the venue does not hold.
-/

set_option autoImplicit false

namespace Rustrade.Mock

namespace SimulatedVenue

variable {v : SimulatedVenue}

section

variable [Build] [RandomStream] {request : OpenRequest} {terms : InstrumentTerms}
  {market : Option MarketSnapshot}

/-! ## The answer and the order -/

omit [Build] [RandomStream] in
theorem chargeInterest_sameLoans {asset : AssetNameExchange} {principal : Decimal}
    {due : InterestDue} : (v.chargeInterest asset principal due).Gives fun r =>
      v.account.SameLoans r.1.account := by
  unfold chargeInterest
  split
  · exact AccountState.SameLoans.refl
  · apply Except.gives_true.bind
    intro _ _
    split
    · exact AccountState.SameLoans.refl
    · apply AccountState.chargeInterest_sameLoans.bind
      exact fun r hr => hr

omit [RandomStream] in
/-- A commitment of an order that borrows adds what it lends to the loan of what it pays with. -/
theorem commit_borrowed {debit : Debit} {credit : Option Credit} {borrower : Option Borrower}
    {timeExchange : DateTime} :
    (v.commit debit credit .borrow terms market borrower timeExchange).Gives fun r =>
      match r.2 with
      | .error _ => True
      | .ok commitment => r.1.account.borrowed debit.asset =
          v.account.borrowed debit.asset + commitment.committed.borrowed := by
  unfold commit
  apply AccountState.commit_borrowed.bind
  rintro ⟨account, insufficient | committed⟩ hborrowed
  · trivial
  have hlent : account.borrowed debit.asset =
      v.account.borrowed debit.asset + committed.borrowed := by
    have := hborrowed debit.asset
    rwa [if_pos rfl] at this
  dsimp only
  split
  · apply chargeInterest_sameLoans.bind
    rintro ⟨charged, _ | ⟨balance, flow⟩⟩ hcharged
    · exact (hcharged debit.asset).trans hlent
    · exact (hcharged debit.asset).trans hlent
  · exact hlent

/-- What an order that lacks some of what it pays with takes as a loan. -/
def loanOf (self : SimulatedVenue) (margin : SpotMarginConfig) (cost : Cost) : Decimal :=
  max (cost.required - self.account.free cost.debit.asset) (margin.minBorrow cost.debit.asset)

/-- An order that borrows lacks some of what it pays with, and takes nothing away; the venue
    answers that it would lend `k` for it. -/
structure AsksToBorrow [RandomStream] (v : SimulatedVenue) (request : OpenRequest) (cost : Cost)
    (k : Decimal) : Prop where
  answered : ∃ capacity, v.borrowCapacity request.key.instrument request.state.side = .ok capacity ∧
    capacity.borrowableNow = some k
  borrows : v.marginEffect request.state.marginEffect = .borrow
  costs : v.cost request = some cost
  delivers : ∀ delivery, AccountState.deliveryOf cost.credit = some delivery → 0 ≤ delivery.amount
  short : 0 < cost.required - v.account.free cost.debit.asset

omit [Build] [RandomStream] in
/-- The order is refused for want of balance exactly where its loan is not within the answer, and is
    lent exactly that. -/
structure LentAsAnswered (v : SimulatedVenue) (margin : SpotMarginConfig) (cost : Cost)
    (k : Decimal) (after : SimulatedVenue) (response : OpenResponse) : Prop where
  refused : response.wantsBalance = false ↔ v.loanOf margin cost ≤ k
  lent : response.wantsBalance = false → after.account.borrowed cost.debit.asset =
    v.account.borrowed cost.debit.asset + v.loanOf margin cost

omit [RandomStream] in
theorem Arrives.lentAsAnswered {margin : SpotMarginConfig} {cost : Cost} {k : Decimal}
    {capacity : BorrowCapacity} {after : SimulatedVenue} {response : OpenResponse}
    (h : v.Arrives request terms (v.OwnMarket request.key.instrument terms) cost (after, response))
    (hmargin : v.spotMargin = some margin)
    (hlends : v.account.margin = true)
    (hterms : v.instrumentTerms request.key.instrument = .ok terms)
    (hstands : ¬ v.StandsIn request.key.instrument terms)
    (hcapacity : v.borrowCapacity request.key.instrument request.state.side = .ok capacity)
    (hk : capacity.borrowableNow = some k)
    (hborrows : v.marginEffect request.state.marginEffect = .borrow)
    (hdelivers : ∀ delivery, AccountState.deliveryOf cost.credit = some delivery →
      0 ≤ delivery.amount)
    (hshort : 0 < cost.required - v.account.free cost.debit.asset) :
    v.LentAsAnswered margin cost k after response := by
  obtain ⟨hspot, -, -⟩ := borrowCapacity_eq hmargin hterms hcapacity
  obtain ⟨slippage, market, borrower, committed, outcome, hown, hcommit, houtcome⟩ := h.committed
  rw [hborrows] at hcommit
  -- A draw of the slippage moves neither the markets nor the account.
  set drawn : SimulatedVenue := { v with slippage } with hdrawn
  have hown' : drawn.OwnMarket request.key.instrument terms market := by
    intro snapshot hsnapshot
    obtain ⟨hterms, hseen⟩ := hown snapshot hsnapshot
    exact ⟨hterms, hseen⟩
  have hfits := (commit_of_capacity (v := drawn) (k := k) hmargin hlends hterms hown' hstands
    hcapacity hk h.asset (h.paidBack hspot) hdelivers hshort).result hcommit
  have hborrowed := (commit_borrowed (v := drawn)).result hcommit
  cases outcome with
  | error insufficient =>
    refine ⟨iff_of_false ?_ hfits, ?_⟩
    · rw [houtcome]
      exact Bool.true_eq_false.mp
    · rw [houtcome]
      intro habsurd
      cases habsurd
  | ok commitment =>
    obtain ⟨hpaid, hloans⟩ := houtcome
    obtain ⟨hfit, hloan⟩ := hfits
    refine ⟨iff_of_true hpaid hfit, fun _ => ?_⟩
    rw [hloans, hborrowed, hloan]
    rfl

variable {config : MockExecutionConfig}
  {instruments : BTreeMap InstrumentNameExchange VenueInstrument}

end

/-! ## An answer short of the loan -/

/-- A request for the buy of two at 150. -/
def requestToBuy : OpenRequest where
  key := ⟨⟨"mock"⟩, ⟨"C"⟩, ⟨"strategy"⟩, ⟨"cid"⟩⟩
  state :=
    { side := .buy
      price := some 150
      quantity := 2
      kind := .limit
      timeInForce := .goodUntilCancelled false
      positionId := none
      reduceOnly := .no
      market := none
      marginEffect := some .borrow }

/-- What resting the buy costs. -/
def costToBuy : Cost := ⟨⟨⟨"USDT"⟩, 0, 300⟩, none⟩

/-- What is evaluated of a venue the buy arrives at: its answer, and that it takes the order. -/
def answersBuy [Build] [RandomStream] (k : Decimal) (venue : SimulatedVenue) : Bool :=
  let opened : Bool :=
    match venue.openOrder requestToBuy with
    | .ok (_, _, response) => !response.wantsBalance
    | .error _ => false
  decide (venue.cost requestToBuy = some costToBuy) &&
    decide ((venue.borrowCapacity ⟨"C"⟩ .buy).toOption.bind BorrowCapacity.borrowableNow = some k) &&
    decide (venue.marginEffect (some .borrow) = .borrow) &&
    decide (venue.account.free ⟨"USDT"⟩ = 0) && opened

theorem asks_of_answersBuy [Build] [RandomStream] {k : Decimal} (h : answersBuy k v = true) :
    v.AsksToBorrow requestToBuy costToBuy k ∧ v.account.free ⟨"USDT"⟩ = 0 ∧ ∃ after events response,
      v.openOrder requestToBuy = .ok (after, events, response) ∧ response.wantsBalance = false := by
  unfold answersBuy at h
  simp only [Bool.and_eq_true, decide_eq_true_eq] at h
  obtain ⟨⟨⟨⟨hcost, hanswered⟩, hborrows⟩, hfree⟩, hopened⟩ := h
  refine ⟨⟨?_, hborrows, hcost, nofun, ?_⟩, hfree, ?_⟩
  · obtain ⟨capacity, hcapacity, hk⟩ := Option.bind_eq_some_iff.1 hanswered
    refine ⟨capacity, ?_, hk⟩
    cases hfound : v.borrowCapacity ⟨"C"⟩ .buy with
    | error refusal => rw [hfound] at hcapacity; cases hcapacity
    | ok found =>
      rw [hfound] at hcapacity
      rw [← Option.some.inj hcapacity]
      exact hfound
  · show (0 : Decimal) < 0 + 300 - v.account.free ⟨"USDT"⟩
    rw [hfree]
    norm_num
  · split at hopened
    · rename_i after events response hopen
      exact ⟨after, events, response, hopen, by simpa using hopened⟩
    · cases hopened

end SimulatedVenue

end Rustrade.Mock
