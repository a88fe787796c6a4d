import Rustrade.Mock.Lent
import Rustrade.Mock.OwnMarket
import Rustrade.Mock.Path

/-!
# The loans a venue makes

Every move of a venue within an input either raises no principal, or is a commitment of the ledger
that lends. What pays for a fill, gives back a hold or repays a debt is followed move by move, so
that the loans an input makes can be counted.
-/

set_option autoImplicit false

namespace Rustrade.Mock

/-- The principal owed of a balance. -/
def Balance.principal (self : Balance) : Decimal :=
  max ((self.margin.map MarginDetails.borrowed).getD 0) 0

namespace AccountState

variable {account mid after : AccountState} {asset : AssetNameExchange} {amount : Decimal}
  {timeExchange : DateTime}

/-! ## Moves that lend nothing -/

/-- The principal owed of an asset. -/
def principal (account : AccountState) (asset : AssetNameExchange) : Decimal :=
  (account.balances[asset]?.map fun balance => balance.balance.principal).getD 0

/-- `after` is `before` with its balances moved and nothing lent. -/
structure Calm (before after : AccountState) : Prop where
  margin : after.margin = before.margin
  keyed : before.Keyed → after.Keyed
  principal : ∀ asset, after.principal asset ≤ before.principal asset

namespace Calm

theorem refl : account.Calm account := ⟨rfl, id, fun _ => le_rfl⟩

theorem trans (h : account.Calm mid) (hnext : mid.Calm after) : account.Calm after where
  margin := hnext.margin.trans h.margin
  keyed hkeyed := hnext.keyed (h.keyed hkeyed)
  principal asset := (hnext.principal asset).trans (h.principal asset)

/-- Only the balances are lent to. -/
theorem of_balances (hmargin : after.margin = account.margin)
    (h : after.balances = account.balances) : account.Calm after where
  margin := hmargin
  keyed hkeyed := by
    intro asset balance hbalance
    rw [h] at hbalance
    exact hkeyed asset balance hbalance
  principal asset := by
    unfold AccountState.principal
    rw [h]

/-- A balance restated under its asset, with no more principal. -/
theorem setBalance {restated : AssetBalance} {loansChanged : Nat}
    (hasset : account.Keyed → restated.asset = asset)
    (hprincipal : restated.balance.principal ≤ account.principal asset) :
    account.Calm { account.setBalance asset restated with loansChanged } where
  margin := rfl
  keyed hkeyed := hkeyed.setBalance (hasset hkeyed)
  principal other := by
    show ((account.balances.insert asset restated)[other]?.map _).getD 0 ≤ _
    rw [BTreeMap.get?_insert]
    split
    · rename_i hsame
      rw [← hsame]
      exact hprincipal
    · exact le_rfl

end Calm

theorem principal_of_some {balance : AssetBalance} (h : account.balances[asset]? = some balance) :
    account.principal asset = balance.balance.principal := by
  simp [principal, h]

/-- A balance the account has, restated with no more principal. -/
theorem Calm.restated {balance : AssetBalance} {change : Balance} {stamp : DateTime}
    (h : account.balances[asset]? = some balance)
    (hprincipal : change.principal ≤ balance.balance.principal) :
    account.Calm (account.setBalance asset
      { balance with balance := change, timeExchange := stamp }) := by
  have hset : ∀ loansChanged, account.Calm { account.setBalance asset
      { balance with balance := change, timeExchange := stamp } with loansChanged } := by
    intro loansChanged
    apply Calm.setBalance
    · exact fun hkeyed => hkeyed asset balance h
    · rw [principal_of_some h]
      exact hprincipal
  exact hset account.loansChanged

theorem principal_balanceOrOpen :
    (account.balanceOrOpen asset timeExchange).balance.principal = account.principal asset := by
  unfold principal balanceOrOpen
  cases account.balances[asset]? with
  | some balance => rfl
  | none =>
    cases hmargin : account.margin <;>
      simp [Balance.principal, MarginDetails.default, Balance.new]

theorem restate_calm {change : Balance → Balance}
    (h : ∀ balance, (change balance).principal = balance.principal) :
    (account.restate asset timeExchange change).Gives fun r => account.Calm r.1 := by
  apply balanceExpect_gives.bind
  intro balance hbalance
  apply Calm.restated hbalance
  exact (h balance.balance).le

theorem chargeInterest_calm :
    (account.chargeInterest asset amount timeExchange).Gives fun r => account.Calm r.1 := by
  apply restate_calm
  intro balance
  unfold Balance.principal
  cases balance.margin <;> rfl

theorem charge_calm :
    (account.charge asset amount timeExchange).Gives fun r => account.Calm r.1 :=
  restate_calm fun _ => rfl

theorem reserve_calm :
    (account.reserve asset amount timeExchange).Gives fun r => account.Calm r.1 := by
  apply balanceExpect_gives.bind
  intro balance _
  split
  · exact Calm.refl
  · have hrestated : (account.restate asset timeExchange fun balance =>
        { balance with free := balance.free - amount }).Gives fun r => account.Calm r.1 :=
      restate_calm fun _ => rfl
    apply hrestated.bind
    exact fun r hr => hr

theorem fund_calm : (account.fund asset amount).Gives account.Calm := by
  apply balanceExpect_gives.bind
  intro balance hbalance
  exact Calm.restated hbalance le_rfl

/-- A repayment raises no principal. -/
theorem repay_principal (balance : Balance) (available : Decimal) :
    (repay balance available).1.principal ≤ balance.principal := by
  unfold repay
  cases hmargin : balance.margin with
  | none => exact le_rfl
  | some margin =>
    simp only [Balance.principal, hmargin, Option.map_some, Option.getD_some]
    have hgiven : 0 ≤ max available 0 - min margin.interest (max available 0) :=
      sub_nonneg.2 (min_le_right _ _)
    apply max_le _ (le_max_right _ _)
    rcases min_choice margin.borrowed (max available 0 - min margin.interest (max available 0))
      with h | h
    · rw [h, sub_self]
      exact le_max_right _ _
    · rw [h]
      exact (sub_le_self _ hgiven).trans (le_max_left _ _)

theorem deliver_calm (delivery : Delivery) (effect : MarginEffect) :
    account.Calm (account.deliver delivery effect timeExchange).1 := by
  have hopened : (account.balanceOrOpen delivery.asset timeExchange).balance.principal =
      account.principal delivery.asset := principal_balanceOrOpen
  have hrestated (restated : Balance)
      (h : restated.principal ≤ (account.balanceOrOpen delivery.asset timeExchange).balance.principal)
      (loansChanged : Nat) : account.Calm { account.setBalance delivery.asset
        { account.balanceOrOpen delivery.asset timeExchange with balance := restated, timeExchange }
        with loansChanged } := by
    apply Calm.setBalance
    · exact fun hkeyed => hkeyed.balanceOrOpen
    · rw [← hopened]
      exact h
  have hrepaid (credited : Balance)
      (h : credited.margin = (account.balanceOrOpen delivery.asset timeExchange).balance.margin) :
      (repay credited delivery.amount).1.principal ≤
        (account.balanceOrOpen delivery.asset timeExchange).balance.principal := by
    apply (repay_principal credited delivery.amount).trans
    unfold Balance.principal
    rw [h]
  unfold deliver
  by_cases hrepays : (account.margin && decide (effect = .repay)) = true
  · simp only [hrepays, if_true]
    apply hrestated
    apply hrepaid
    rfl
  · simp only [hrepays, if_false, Bool.false_eq_true]
    apply hrestated
    exact le_rfl

theorem repayLoan_calm :
    (account.repayLoan asset amount timeExchange).Gives fun r => account.Calm r.1 := by
  apply balanceExpect_gives.bind
  intro balance hbalance
  apply Calm.setBalance
  · exact fun hkeyed => hkeyed asset balance hbalance
  · rw [principal_of_some hbalance]
    exact repay_principal _ _

theorem deliverAny_calm (delivery : Option Delivery) (effect : MarginEffect) :
    account.Calm (account.deliverAny delivery effect timeExchange).1 := by
  cases delivery with
  | none => exact Calm.refl
  | some delivery => exact deliver_calm delivery effect

theorem fundAny_calm : (account.fundAny asset amount).Gives account.Calm := by
  unfold fundAny
  split
  · exact Calm.refl
  · exact fund_calm

/-- The stamps of the balances are not what they owe. -/
theorem updateTimeExchange_calm : account.Calm (account.updateTimeExchange timeExchange) where
  margin := rfl
  keyed hkeyed := by
    intro asset balance hbalance
    obtain ⟨found, hfound, rfl⟩ : ∃ found, account.balances[asset]? = some found ∧
        { found with timeExchange } = balance := by
      simpa [updateTimeExchange, Std.ExtTreeMap.getElem?_map] using hbalance
    exact hkeyed asset found hfound
  principal asset := by
    unfold principal updateTimeExchange
    simp only [Std.ExtTreeMap.getElem?_map]
    cases account.balances[asset]? <;> exact le_rfl

variable [Build]

theorem settle_calm : (account.settle asset amount timeExchange).Gives fun r => account.Calm r.1 := by
  apply balanceExpect_gives.bind
  intro balance _
  apply debugAssert_gives.bind
  intro _ _
  exact restate_calm fun _ => rfl

theorem release_calm :
    (account.release asset amount timeExchange).Gives fun r => account.Calm r.1 := by
  apply balanceExpect_gives.bind
  intro balance _
  apply debugAssert_gives.bind
  intro _ _
  exact restate_calm fun _ => rfl

theorem removeOrder_calm {cid : ClientOrderId} :
    (account.removeOrder cid).Gives fun r => account.Calm r.2 := by
  unfold removeOrder
  cases account.ordersOpen.remove cid with
  | error fault => exact id
  | ok removed => exact Calm.of_balances rfl rfl

/-- Every move of the ledger but a loan is calm. -/
theorem calm_path : Path Calm where
  trans := Calm.trans
  same h _ := Calm.of_balances (congrArg Standing.margin h) (congrArg Standing.balances h)
  book h := by
    obtain ⟨ordersOpen, _, hbooked⟩ := Except.bind_eq_ok.1 h
    cases hbooked
    exact Calm.of_balances rfl rfl
  hold h := by
    obtain ⟨ordersOpen, _, hheld⟩ := Except.bind_eq_ok.1 h
    cases hheld
    exact Calm.of_balances rfl rfl
  removeOrder := removeOrder_calm
  restamp := updateTimeExchange_calm
  charge := charge_calm
  chargeInterest := chargeInterest_calm
  settle := settle_calm
  release := release_calm
  repayLoan := repayLoan_calm
  deliver := deliver_calm _ _

/-! ## The loan of a commitment -/

variable {debit : Debit} {credit : Option Credit} {effect : MarginEffect} {lending : Lending}

omit [Build] in
/-- A loan is positive, within what may be borrowed, and only for an order that borrows. -/
theorem lend_positive {available borrowed excess : Decimal}
    (h : account.lend debit available (account.margin && effect = .borrow) lending =
      .ok (borrowed, excess)) (hloan : borrowed ≠ 0) :
    0 < borrowed ∧ borrowed ≤ lending.borrowable ∧ effect = .borrow := by
  obtain ⟨hlends, -, -, hmost, -⟩ := lend_within h hloan
  simp only [Bool.and_eq_true, decide_eq_true_eq] at hlends
  refine ⟨?_, hmost, hlends.2⟩
  unfold lend at h
  extract_lets required capped lendable shortfall loan at h
  by_cases hcovered : shortfall ≤ 0
  · rw [if_pos hcovered] at h
    cases h
    exact absurd rfl hloan
  rw [if_neg hcovered] at h
  split at h
  · have hborrowed : loan = borrowed := congrArg Prod.fst (Except.ok.inj h)
    rw [← hborrowed]
    exact (not_le.1 hcovered).trans_le (le_max_left _ _)
  · cases h

/-- A commitment lends what it says, once, before anything else is moved; one that is refused moves
    nothing. -/
theorem commit_lends : (account.commit debit credit effect lending timeExchange).Gives fun r =>
    match r.2 with
    | .error _ => r.1 = account
    | .ok committed => committed.borrowed = 0 ∧ account.Calm r.1 ∨
        0 < committed.borrowed ∧ committed.borrowed ≤ lending.borrowable ∧ effect = .borrow ∧
          (account.borrow debit.asset committed.borrowed timeExchange).Calm r.1 := by
  have hrefused : (account.commit debit credit effect lending timeExchange).Gives _ := commit_gives
  have hmoves : (account.commit debit credit effect lending timeExchange).Gives fun r =>
      match r.2 with
      | .error _ => True
      | .ok committed => (committed.borrowed = 0 ∨ 0 < committed.borrowed ∧
            committed.borrowed ≤ lending.borrowable ∧ effect = .borrow) ∧
          (if committed.borrowed = 0 then account
            else account.borrow debit.asset committed.borrowed timeExchange).Calm r.1 := by
    unfold commit
    apply Except.gives_true.bind
    intro ⟨funding, delivery⟩ _
    apply Except.gives_true.bind
    intro free _
    cases hlend : account.lend debit (free + funding) (account.margin && effect = .borrow)
        lending with
    | error insufficient => trivial
    | ok lent =>
    obtain ⟨borrowed, excessBorrowed⟩ := lent
    cases delivery.bind account.uncovered with
    | some insufficient => trivial
    | none =>
    apply fundAny_calm.bind
    intro funded hfunded
    apply reserve_calm.bind
    rintro ⟨reserved, _ | balance⟩ hreserved
    · trivial
    apply settle_calm.bind
    intro ⟨settled, paid⟩ hsettled
    refine ⟨?_, ?_⟩
    · by_cases hloan : borrowed = 0
      · exact .inl hloan
      · exact .inr (lend_positive hlend hloan)
    · exact ((hfunded.trans hreserved).trans hsettled).trans (deliverAny_calm delivery effect)
  apply (hrefused.and hmoves).mono
  rintro ⟨after, insufficient | committed⟩ ⟨hgives, hmoved⟩
  · exact hgives
  · obtain ⟨hloan, hcalm⟩ := hmoved
    rcases hloan with hnone | ⟨hpos, hmost, hborrow⟩
    · rw [if_pos hnone] at hcalm
      exact .inl ⟨hnone, hcalm⟩
    · rw [if_neg hpos.ne'] at hcalm
      exact .inr ⟨hpos, hmost, hborrow, hcalm⟩

end AccountState

namespace SimulatedVenue

variable {v u w : SimulatedVenue} {timeExchange : DateTime}

/-! ## Loans -/

/-- A loan, the order it is made to, and the venue that makes it. -/
structure Loan where
  venue : SimulatedVenue
  instrument : InstrumentNameExchange
  terms : InstrumentTerms
  market : Option MarketSnapshot
  debit : Debit
  amount : Decimal
  timeExchange : DateTime

/-- The venue once a loan is made: nothing is charged on it, and nothing of it is spent. -/
def Loan.lent (self : Loan) : SimulatedVenue :=
  self.venue.lentTo self.debit.asset self.amount self.timeExchange

variable [Build]

/-- A commitment of the venue makes the loan, to an order that is priced from no market or from the
    venue's own. -/
structure Loan.Made (loan : Loan) : Prop where
  positive : 0 < loan.amount
  within : loan.amount ≤
    loan.venue.borrowable loan.debit .borrow loan.terms loan.market
  own : ∀ snapshot, loan.market = some snapshot →
    loan.venue.Own loan.instrument loan.terms snapshot
  committed : ∃ credit borrower after commitment,
    loan.venue.commit loan.debit credit .borrow loan.terms loan.market borrower
      loan.timeExchange = .ok (after, .ok commitment) ∧
    commitment.committed.borrowed = loan.amount

omit [Build] in
/-- `w` is `v` with nothing lent. -/
structure Quiet (v w : SimulatedVenue) : Prop where
  setup : w.setup = v.setup
  account : v.account.Calm w.account

/-- The venue moves from `v` to `w` making `loans` on its way, and raising no principal but theirs. -/
inductive Lends (v : SimulatedVenue) : List Loan → SimulatedVenue → Prop where
  | refl : Lends v [] v
  | quiet {loans : List Loan} {u w : SimulatedVenue} (h : Lends v loans u) (hquiet : u.Quiet w) :
      Lends v loans w
  | loan {loans : List Loan} {loan : Loan} (h : Lends v loans loan.venue) (hmade : loan.Made) :
      Lends v (loans ++ [loan]) loan.lent

theorem Lends.trans {first second : List Loan} (h : v.Lends first u) (hnext : u.Lends second w) :
    v.Lends (first ++ second) w := by
  induction hnext with
  | refl =>
    rw [List.append_nil]
    exact h
  | quiet _ hquiet ih => exact ih.quiet hquiet
  | loan _ hmade ih =>
    rw [← List.append_assoc]
    exact ih.loan hmade

/-- The venue moves from `v` to `w` by moves whose loans can be counted. -/
def Leads (v w : SimulatedVenue) : Prop := ∃ loans, v.Lends loans w

namespace Leads

theorem refl : v.Leads v := ⟨[], .refl⟩

theorem trans (h : v.Leads u) (hnext : u.Leads w) : v.Leads w := by
  obtain ⟨first, hfirst⟩ := h
  obtain ⟨second, hsecond⟩ := hnext
  exact ⟨_, hfirst.trans hsecond⟩

theorem calm (h : v.Leads u) (hsetup : w.setup = u.setup) (hcalm : u.account.Calm w.account) :
    v.Leads w := by
  obtain ⟨loans, hloans⟩ := h
  exact ⟨loans, hloans.quiet ⟨hsetup, hcalm⟩⟩

/-- What moves no balance lends nothing. -/
theorem still (h : v.Leads u) (hsetup : w.setup = u.setup)
    (hmargin : w.account.margin = u.account.margin)
    (hbalances : w.account.balances = u.account.balances) : v.Leads w :=
  h.calm hsetup (.of_balances hmargin hbalances)

end Leads

/-! ## Interest and holds -/

theorem chargeInterest_leads {asset : AssetNameExchange} {principal : Decimal}
    {due : InterestDue} :
    (v.chargeInterest asset principal due).Gives fun r => v.Leads r.1 := by
  unfold chargeInterest
  split
  · exact Leads.refl
  · apply Except.gives_true.bind
    intro _ _
    split
    · exact Leads.refl
    · apply AccountState.chargeInterest_calm.bind
      intro ⟨account, balance⟩ hcalm
      exact Leads.refl.calm rfl hcalm

/-! ## Commitments -/

variable {debit : Debit} {credit : Option Credit} {effect : MarginEffect} {terms : InstrumentTerms}
  {market : Option MarketSnapshot} {borrower : Option Borrower}

/-- A commitment lends at most what its order may borrow, before it charges or spends anything. -/
theorem commit_leads (instrument : InstrumentNameExchange)
    (hown : ∀ snapshot, market = some snapshot → v.Own instrument terms snapshot) :
    (v.commit debit credit effect terms market borrower timeExchange).Gives fun r =>
      v.Leads r.1 := by
  have hcommitted := Except.Ensures.eq (x := v.commit debit credit effect terms market borrower
    timeExchange) Except.gives_true
  have hlent : (v.commit debit credit effect terms market borrower timeExchange).Gives fun r =>
      v.Leads r.1 ∨ ∃ commitment, r.2 = .ok commitment ∧ 0 < commitment.committed.borrowed ∧
        commitment.committed.borrowed ≤ v.borrowable debit effect terms market ∧
        effect = .borrow ∧
        (v.lentTo debit.asset commitment.committed.borrowed timeExchange).Leads r.1 := by
    unfold commit
    apply AccountState.commit_lends.bind
    rintro ⟨account, insufficient | committed⟩ houtcome
    · have hsame : account = v.account := houtcome
      exact .inl (Leads.refl.still rfl (congrArg AccountState.margin hsame)
        (congrArg AccountState.balances hsame))
    dsimp only at houtcome
    -- Nothing is lent before the account is, and interest is charged after.
    have hmoved : ∀ x, ({ v with account } : SimulatedVenue).Leads x →
        v.Leads x ∨ 0 < committed.borrowed ∧
          committed.borrowed ≤ v.borrowable debit effect terms market ∧ effect = .borrow ∧
          (v.lentTo debit.asset committed.borrowed timeExchange).Leads x := by
      intro x hx
      rcases houtcome with ⟨-, hcalm⟩ | ⟨hpos, hmost, hborrow, hcalm⟩
      · have hmid : v.Leads { v with account } := Leads.refl.calm rfl hcalm
        exact .inl (hmid.trans hx)
      · have hmid : (v.lentTo debit.asset committed.borrowed timeExchange).Leads
            { v with account } := Leads.refl.calm rfl hcalm
        exact .inr ⟨hpos, hmost, hborrow, hmid.trans hx⟩
    dsimp only
    split
    · apply chargeInterest_leads.bind
      rintro ⟨charged, _ | ⟨balance, flow⟩⟩ hcharged
      · exact (hmoved _ hcharged).imp id fun hlent => ⟨_, rfl, hlent⟩
      · exact (hmoved _ hcharged).imp id fun hlent => ⟨_, rfl, hlent⟩
    · exact (hmoved _ Leads.refl).imp id fun hlent => ⟨_, rfl, hlent⟩
  apply (hlent.and hcommitted).mono
  rintro ⟨after, outcome⟩ ⟨hleads, -, hcommit⟩
  rcases hleads with hleads | ⟨commitment, rfl, hpos, hmost, hborrow, hleads⟩
  · exact hleads
  subst hborrow
  let loan : Loan :=
    ⟨v, instrument, terms, market, debit, commitment.committed.borrowed, timeExchange⟩
  have hmade : loan.Made := ⟨hpos, hmost, hown, credit, borrower, after, commitment, hcommit, rfl⟩
  have hlends : v.Lends ([] ++ [loan]) loan.lent := Lends.refl.loan hmade
  exact Leads.trans ⟨_, hlends⟩ hleads

omit [Build] in
/-- An order priced from no market is priced from no other's. -/
theorem own_none {instrument : InstrumentNameExchange} (snapshot : MarketSnapshot)
    (h : none = some snapshot) : v.Own instrument terms snapshot := nomatch h

variable {order : OpenOrder}

/-! ## Fills and ends -/

omit [Build] in
/-- What moves neither the setup nor a balance. -/
structure Still (v w : SimulatedVenue) : Prop where
  setup : w.setup = v.setup
  margin : w.account.margin = v.account.margin
  balances : w.account.balances = v.account.balances

omit [Build] in
theorem refreshNextCharge_still : v.refreshNextCharge.Gives v.Still := by
  unfold refreshNextCharge
  split
  · exact ⟨rfl, rfl, rfl⟩
  · apply Except.gives_true.bind
    intro _ _
    exact ⟨rfl, rfl, rfl⟩

omit [Build] in
theorem refreshNextInterest_still : v.refreshNextInterest.Gives v.Still := by
  unfold refreshNextInterest
  dsimp only
  split
  · exact ⟨rfl, rfl, rfl⟩
  · split
    · exact ⟨rfl, rfl, rfl⟩
    · apply Except.gives_true.bind
      intro _ _
      exact ⟨rfl, rfl, rfl⟩

omit [Build] in
theorem refreshNextInterestIfLoansChanged_still :
    v.refreshNextInterestIfLoansChanged.Gives v.Still := by
  unfold refreshNextInterestIfLoansChanged
  split
  · exact refreshNextInterest_still
  · exact ⟨rfl, rfl, rfl⟩

theorem consumeDepth_still {instrument : InstrumentNameExchange} {side : Side}
    {quantity : Decimal} : (v.consumeDepth instrument side quantity).Gives v.Still := by
  unfold consumeDepth
  split
  · exact ⟨rfl, rfl, rfl⟩
  · apply Except.gives_true.bind
    intro _ _
    exact ⟨rfl, rfl, rfl⟩

omit [Build] in
theorem recordFill_still {instrument : InstrumentNameExchange} {side : Side} {fill : Fill} :
    (v.recordFill terms instrument side fill).Gives v.Still := by
  have hmoved (positions : BTreeMap InstrumentNameExchange NetPosition) (openedOrClosed : Bool) :
      (if openedOrClosed && !v.holdingCosts.isEmpty then
        ({ v with positions } : SimulatedVenue).refreshNextCharge
      else .ok { v with positions }).Gives v.Still := by
    split
    · apply refreshNextCharge_still.mono
      exact fun _ hr => ⟨hr.setup, hr.margin, hr.balances⟩
    · exact ⟨rfl, rfl, rfl⟩
  unfold recordFill
  split
  · exact ⟨rfl, rfl, rfl⟩
  · exact hmoved _ _

end SimulatedVenue

end Rustrade.Mock
