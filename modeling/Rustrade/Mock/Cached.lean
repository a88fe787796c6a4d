import Rustrade.Lib.Boundary
import Rustrade.Mock.Capacity
import Rustrade.Mock.Snapshot

/-!
# The next instant something is charged

The venue keeps the first boundary after the instant it charged through, of the positions it holds
and of the loans it owes, and looks for what is due only where one of them has come. A position
opened or closed refreshes the one, and a loan opened or cleared counts, so that the other is
refreshed where an input ends. Both stay exact, and so does the deadline a driver is told.
-/

set_option autoImplicit false

namespace Rustrade.Mock

namespace AccountState

variable {account mid after : AccountState} {asset : AssetNameExchange} {amount : Decimal}
  {timeExchange : DateTime}

/-! ## The loans counted -/

/-- No loan is of less than nothing. -/
def Lawful (account : AccountState) : Prop := ∀ asset, 0 ≤ account.borrowed asset

/-- `after` is `before` with its balances moved: where no loan was opened or cleared, the same
    assets are owed, and each loan that was is counted. -/
structure Counts (before after : AccountState) : Prop where
  lawful : before.Lawful → after.Lawful
  grows : before.loansChanged ≤ after.loansChanged
  same : before.Lawful → after.loansChanged = before.loansChanged →
    ∀ asset, 0 < after.borrowed asset ↔ 0 < before.borrowed asset

namespace Counts

theorem trans (h : account.Counts mid) (hnext : mid.Counts after) : account.Counts after where
  lawful hlawful := hnext.lawful (h.lawful hlawful)
  grows := h.grows.trans hnext.grows
  same hlawful hcount asset := by
    have hfirst : mid.loansChanged = account.loansChanged :=
      le_antisymm (hnext.grows.trans hcount.le) h.grows
    have hsecond : after.loansChanged = mid.loansChanged := hcount.trans hfirst.symm
    exact (hnext.same (h.lawful hlawful) hsecond asset).trans (h.same hlawful hfirst asset)

theorem of_sameLoans (h : account.SameLoans after)
    (hcount : after.loansChanged = account.loansChanged) : account.Counts after where
  lawful hlawful asset := by
    rw [h asset]
    exact hlawful asset
  grows := hcount.ge
  same _ _ asset := by rw [h asset]

/-- The rule of every move of one balance: the loan that it opens or clears is counted. -/
theorem setBalance {restated : AssetBalance} {counted : Bool}
    (hlawful : 0 ≤ account.borrowed asset → 0 ≤ restated.balance.borrowed)
    (hsame : 0 ≤ account.borrowed asset → counted = false →
      (0 < restated.balance.borrowed ↔ 0 < account.borrowed asset)) :
    account.Counts { account.setBalance asset restated with
      loansChanged := account.loansChanged + counted.toNat } where
  lawful hall other := by
    show 0 ≤ (account.setBalance asset restated).borrowed other
    rw [borrowed_setBalance]
    split
    · exact hlawful (hall asset)
    · exact hall other
  grows := Nat.le_add_right _ _
  same hall hcount other := by
    have hcounted : counted = false := by
      cases counted with
      | false => rfl
      | true => exact absurd hcount (Nat.succ_ne_self _)
    show 0 < (account.setBalance asset restated).borrowed other ↔ _
    rw [borrowed_setBalance]
    split
    · rename_i heq
      rw [← heq]
      exact hsame (hall asset) hcounted
    · exact Iff.rfl

end Counts

theorem restate_counts {change : Balance → Balance}
    (h : ∀ balance, (change balance).borrowed = balance.borrowed) :
    (account.restate asset timeExchange change).Gives fun r => account.Counts r.1 := by
  apply balanceExpect_gives.bind
  intro balance hbalance
  have hsame : account.SameLoans (account.setBalance asset
      { balance with balance := change balance.balance, timeExchange }) := by
    apply sameLoans_setBalance
    rw [borrowed_of_some hbalance]
    exact h balance.balance
  exact Counts.of_sameLoans hsame rfl

/-- A repayment leaves no loan of less than nothing, and says whether it cleared one. -/
theorem repay_counts (balance : Balance) (available : Decimal) :
    (0 ≤ balance.borrowed → 0 ≤ (repay balance available).1.borrowed) ∧
      (0 ≤ balance.borrowed → (repay balance available).2 = false →
        (0 < (repay balance available).1.borrowed ↔ 0 < balance.borrowed)) := by
  unfold repay
  cases hmargin : balance.margin with
  | none =>
    have hnothing : balance.borrowed = 0 := by simp [Balance.borrowed, hmargin]
    simp [hnothing]
  | some margin =>
    have hborrowed : balance.borrowed = margin.borrowed := by simp [Balance.borrowed, hmargin]
    rw [hborrowed]
    simp only [Balance.borrowed, Option.map_some, Option.getD_some]
    generalize hprincipal : min margin.borrowed
      (max available 0 - min margin.interest (max available 0)) = principal
    have hpaid : principal ≤ margin.borrowed := by
      rw [← hprincipal]
      exact min_le_left _ _
    refine ⟨fun _ => sub_nonneg.2 hpaid, fun hlawful hcleared => ?_⟩
    have hkept : ¬ (0 < principal ∧ margin.borrowed - principal = 0) := by
      simpa only [Bool.and_eq_false_iff, decide_eq_false_iff_not, not_and_or] using hcleared
    have hrepaid : 0 ≤ principal := by
      rw [← hprincipal]
      exact le_min hlawful (sub_nonneg.2 (min_le_right _ _))
    constructor
    · intro hleft
      linarith
    · intro howed
      rcases hrepaid.lt_or_eq with hsome | hnone
      · exact lt_of_le_of_ne (sub_nonneg.2 hpaid) fun hzero => hkept ⟨hsome, hzero.symm⟩
      · rw [← hnone, sub_zero]
        exact howed

theorem repayLoan_counts :
    (account.repayLoan asset amount timeExchange).Gives fun r => account.Counts r.1 := by
  apply balanceExpect_gives.bind
  intro balance hbalance
  obtain ⟨hlawful, hsame⟩ := repay_counts balance.balance (min amount balance.balance.free)
  apply Counts.setBalance
  · rw [borrowed_of_some hbalance]
    exact hlawful
  · rw [borrowed_of_some hbalance]
    exact hsame

theorem deliver_counts (delivery : Delivery) (effect : MarginEffect) :
    account.Counts (account.deliver delivery effect timeExchange).1 := by
  have hfound : (account.balanceOrOpen delivery.asset timeExchange).balance.borrowed =
      account.borrowed delivery.asset := borrowed_balanceOrOpen
  have hrestated (restated : Balance) (counted : Bool)
      (hlawful : 0 ≤ account.borrowed delivery.asset → 0 ≤ restated.borrowed)
      (hsame : 0 ≤ account.borrowed delivery.asset → counted = false →
        (0 < restated.borrowed ↔ 0 < account.borrowed delivery.asset)) :
      account.Counts { account.setBalance delivery.asset
        { account.balanceOrOpen delivery.asset timeExchange with balance := restated, timeExchange }
        with loansChanged := account.loansChanged + counted.toNat } :=
    Counts.setBalance hlawful hsame
  have hrepaid (credited : Balance)
      (h : credited.margin = (account.balanceOrOpen delivery.asset timeExchange).balance.margin) :
      (0 ≤ account.borrowed delivery.asset → 0 ≤ (repay credited delivery.amount).1.borrowed) ∧
        (0 ≤ account.borrowed delivery.asset → (repay credited delivery.amount).2 = false →
          (0 < (repay credited delivery.amount).1.borrowed ↔
            0 < account.borrowed delivery.asset)) := by
    have hsame : credited.borrowed = account.borrowed delivery.asset := by
      rw [← hfound]
      unfold Balance.borrowed
      rw [h]
    rw [← hsame]
    exact repay_counts credited delivery.amount
  unfold deliver
  by_cases hrepays : (account.margin && decide (effect = .repay)) = true
  · simp only [hrepays, if_true]
    apply hrestated
    · apply (hrepaid _ ?_).1
      rfl
    · apply (hrepaid _ ?_).2
      rfl
  · simp only [hrepays, if_false, Bool.false_eq_true]
    apply hrestated
    · rw [← hfound]
      exact id
    · rw [← hfound]
      exact fun _ _ => Iff.rfl

/-- A loan is opened where none was owed. -/
theorem borrow_counts (hamount : 0 ≤ amount) :
    account.Counts (account.borrow asset amount timeExchange) := by
  have hfound : ((account.balanceOrOpen asset timeExchange).balance.margin.getD .default).borrowed =
      account.borrowed asset := by
    rw [← @borrowed_balanceOrOpen _ _ timeExchange]
    unfold Balance.borrowed
    cases (account.balanceOrOpen asset timeExchange).balance.margin <;> rfl
  unfold borrow
  apply Counts.setBalance
  · intro hlawful
    simp only [Balance.borrowed, Option.map_some, Option.getD_some, hfound]
    exact add_nonneg hlawful hamount
  · intro hlawful hopened
    simp only [Balance.borrowed, Option.map_some, Option.getD_some, hfound]
    have howed : account.borrowed asset ≠ 0 := by
      rw [← hfound]
      simpa using hopened
    have hpos : 0 < account.borrowed asset := lt_of_le_of_ne hlawful howed.symm
    exact ⟨fun _ => hpos, fun _ => add_pos_of_pos_of_nonneg hpos hamount⟩

/-! ## A commitment -/

theorem reserve_counts :
    (account.reserve asset amount timeExchange).Gives fun r => account.Counts r.1 := by
  apply balanceExpect_gives.bind
  intro balance _
  split
  · exact Counts.of_sameLoans .refl rfl
  · have hrestated : (account.restate asset timeExchange fun balance =>
        { balance with free := balance.free - amount }).Gives fun r => account.Counts r.1 :=
      restate_counts fun _ => rfl
    apply hrestated.bind
    exact fun _ hr => hr

theorem fundAny_counts : (account.fundAny asset amount).Gives account.Counts := by
  unfold fundAny
  split
  · exact Counts.of_sameLoans .refl rfl
  · apply balanceExpect_gives.bind
    intro balance hbalance
    have hsame : account.SameLoans (account.setBalance asset { balance with
        balance := { balance.balance with
          total := balance.balance.total + amount, free := balance.balance.free + amount } }) :=
      sameLoans_setBalance (borrowed_of_some hbalance).symm
    exact Counts.of_sameLoans hsame rfl

theorem deliverAny_counts (delivery : Option Delivery) (effect : MarginEffect) :
    account.Counts (account.deliverAny delivery effect timeExchange).1 := by
  cases delivery with
  | none => exact Counts.of_sameLoans .refl rfl
  | some delivery => exact deliver_counts delivery effect

variable [Build]

theorem settle_counts :
    (account.settle asset amount timeExchange).Gives fun r => account.Counts r.1 := by
  apply balanceExpect_gives.bind
  intro _ _
  apply debugAssert_gives.bind
  intro _ _
  exact restate_counts fun _ => rfl

theorem release_counts :
    (account.release asset amount timeExchange).Gives fun r => account.Counts r.1 := by
  apply balanceExpect_gives.bind
  intro _ _
  apply debugAssert_gives.bind
  intro _ _
  exact restate_counts fun _ => rfl

omit [Build] in
/-- What is lent is the shortfall or more. -/
theorem lend_nonneg {debit : Debit} {available : Decimal} {lends : Bool} {lending : Lending}
    {borrowed excessBorrowed : Decimal}
    (h : account.lend debit available lends lending = .ok (borrowed, excessBorrowed)) :
    0 ≤ borrowed := by
  unfold lend at h
  dsimp only at h
  split at h
  · cases h
    exact le_rfl
  · rename_i hshort
    split at h
    · cases h
      exact (lt_of_not_ge hshort).le.trans (le_max_left _ _)
    · cases h

theorem commit_counts {debit : Debit} {credit : Option Credit} {effect : MarginEffect}
    {lending : Lending} :
    (account.commit debit credit effect lending timeExchange).Gives fun r =>
      account.Counts r.1 := by
  have hsame : account.Counts account := Counts.of_sameLoans .refl rfl
  unfold commit
  apply Except.gives_true.bind
  intro ⟨funding, delivery⟩ _
  apply Except.gives_true.bind
  intro free _
  dsimp only
  split
  · exact hsame
  rename_i borrowed excessBorrowed hlend
  split
  · exact hsame
  have hlent : account.Counts (if borrowed = 0 then account
      else account.borrow debit.asset borrowed timeExchange) := by
    split
    · exact hsame
    · exact borrow_counts (lend_nonneg hlend)
  apply fundAny_counts.bind
  intro funded hfunded
  apply reserve_counts.bind
  rintro ⟨reserved, _ | balance⟩ hreserved
  · exact (hlent.trans hfunded).trans hreserved
  · apply settle_counts.bind
    intro ⟨settled, paid⟩ hsettled
    exact (((hlent.trans hfunded).trans hreserved).trans hsettled).trans
      (deliverAny_counts delivery effect)

omit [Build]

/-- The stamps of the balances are not what they owe. -/
theorem updateTimeExchange_counts :
    account.Counts (account.updateTimeExchange timeExchange) := by
  have hsame : account.SameLoans (account.updateTimeExchange timeExchange) := by
    intro asset
    unfold borrowed updateTimeExchange
    simp only [Std.ExtTreeMap.getElem?_map]
    cases account.balances[asset]? <;> rfl
  exact Counts.of_sameLoans hsame rfl

theorem chargeInterest_counts {interest : Decimal} :
    (account.chargeInterest asset interest timeExchange).Gives fun r => account.Counts r.1 := by
  apply restate_counts
  intro balance
  unfold Balance.borrowed
  cases balance.margin <;> rfl

/-- Every move of the ledger counts the loans it opens and clears. -/
theorem counts_path [Build] : Path Counts where
  trans := Counts.trans
  same h _ := Counts.of_sameLoans (.of_balances (congrArg Standing.balances h))
    (congrArg Standing.loansChanged h)
  book h := by
    obtain ⟨ordersOpen, _, hbooked⟩ := Except.bind_eq_ok.1 h
    cases hbooked
    exact .of_sameLoans .refl rfl
  hold h := by
    obtain ⟨ordersOpen, _, hheld⟩ := Except.bind_eq_ok.1 h
    cases hheld
    exact .of_sameLoans .refl rfl
  removeOrder {account cid} := by
    unfold AccountState.removeOrder
    apply Except.gives_true.bind
    exact fun _ _ => Counts.of_sameLoans .refl rfl
  restamp := updateTimeExchange_counts
  charge := restate_counts fun _ => rfl
  chargeInterest := chargeInterest_counts
  settle := settle_counts
  release := release_counts
  repayLoan := repayLoan_counts
  deliver := deliver_counts _ _

end AccountState

/-! ## The boundaries after an instant -/

/-- Boundary models that say when they next charge: the first boundary strictly after an instant. -/
def HoldingCostModel.Lawful (model : HoldingCostModel) : Prop :=
  ∀ instrument, Boundary.Lawful (model.nextBoundary instrument)

def MarginInterestModel.Lawful (model : MarginInterestModel) : Prop :=
  ∀ asset, Boundary.Lawful (model.nextBoundary asset)

namespace SimulatedVenue

variable {v w u : SimulatedVenue} {timeExchange now : DateTime}

/-- The holding costs each position held is charged. -/
def heldCosts (v : SimulatedVenue) : List (InstrumentNameExchange × HoldingCostModel) :=
  v.positions.toList.flatMap fun e => v.holdingCosts.map fun model => (e.1, model)

/-- The first boundary after an instant at which a position held is charged. -/
def chargeAfter (v : SimulatedVenue) (after : DateTime) : Option DateTime :=
  Boundary.earliest (fun (held : InstrumentNameExchange × HoldingCostModel) =>
    held.2.nextBoundary held.1) v.heldCosts after

/-- The first boundary after an instant at which a loan owed is charged. -/
def interestAfter (v : SimulatedVenue) (after : DateTime) : Option DateTime :=
  v.marginInterest.bind fun model =>
    Boundary.earliest (fun (loan : AssetNameExchange × Decimal) => model.nextBoundary loan.1)
      v.account.loans after

/-- The models a venue charges by are lawful. -/
structure Lawful (v : SimulatedVenue) : Prop where
  holdingCosts : ∀ model ∈ v.holdingCosts, model.Lawful
  marginInterest : ∀ model ∈ v.marginInterest, model.Lawful

/-- What the caches are computed from. -/
structure Charged (v : SimulatedVenue) : Prop where
  lawful : v.Lawful
  loans : v.account.Lawful
  idle : v.marginInterest = none → v.nextInterest = none

/-- The caches are exact: that of the interest unless a loan was opened or cleared since. -/
structure Cached (v : SimulatedVenue) : Prop extends v.Charged where
  charge : v.nextCharge = v.accruedThrough.bind v.chargeAfter
  behind : v.nextInterestLoans ≤ v.account.loansChanged
  interest : v.account.loansChanged = v.nextInterestLoans →
    v.nextInterest = v.accruedThrough.bind v.interestAfter

/-- No loan was opened or cleared since the interest was refreshed. -/
def Fresh (v : SimulatedVenue) : Prop := v.account.loansChanged = v.nextInterestLoans

/-! ## What the caches depend on -/

/-- The account lists the loan of each asset owed. -/
theorem mem_loans {account : AccountState} {asset : AssetNameExchange} {principal : Decimal} :
    (asset, principal) ∈ account.loans ↔
      0 < account.borrowed asset ∧ principal = account.borrowed asset := by
  unfold AccountState.loans AccountState.borrowed
  rw [List.mem_filterMap]
  constructor
  · rintro ⟨⟨found, balance⟩, hmem, hsome⟩
    have hbalance := BTreeMap.mem_toList.1 hmem
    obtain ⟨margin, hmargin, howed⟩ := Option.bind_eq_some_iff.1 hsome
    split at howed
    · rename_i hpos
      cases howed
      dsimp only at hmargin
      simp only [hbalance, Option.map_some, Option.getD_some, Balance.borrowed, hmargin]
      exact ⟨hpos, trivial⟩
    · cases howed
  · rintro ⟨howed, rfl⟩
    cases hbalance : account.balances[asset]? with
    | none => simp [hbalance] at howed
    | some balance =>
      rw [hbalance] at howed
      refine ⟨(asset, balance), BTreeMap.mem_toList.2 hbalance, ?_⟩
      simp only [Option.map_some, Option.getD_some, Balance.borrowed] at howed ⊢
      cases hmargin : balance.balance.margin with
      | none => simp [hmargin] at howed
      | some margin =>
        rw [hmargin] at howed
        simpa using howed

/-- The loans are listed by asset. -/
theorem loans_pairwise {account : AccountState} :
    account.loans.Pairwise fun a b => a.1 < b.1 := by
  have hname : ∀ (e : AssetNameExchange × AssetBalance) (found : AssetNameExchange × Decimal),
      (e.2.balance.margin.bind fun margin =>
        if 0 < margin.borrowed then some (e.1, margin.borrowed) else none) = some found →
        found.1 = e.1 := by
    intro e found hfound
    obtain ⟨margin, -, howed⟩ := Option.bind_eq_some_iff.1 hfound
    split at howed
    · cases howed
      rfl
    · cases howed
  unfold AccountState.loans
  rw [List.pairwise_filterMap]
  apply BTreeMap.keys_pairwise.imp
  intro a b hlt loan hloan loan' hloan'
  rw [hname a loan hloan, hname b loan' hloan']
  exact hlt

theorem exists_loan_iff {account : AccountState} {asset : AssetNameExchange} :
    (∃ loan ∈ account.loans, loan.1 = asset) ↔ 0 < account.borrowed asset := by
  constructor
  · rintro ⟨loan, hloan, rfl⟩
    exact (mem_loans.1 hloan).1
  · exact fun howed => ⟨(asset, account.borrowed asset), mem_loans.2 ⟨howed, rfl⟩, rfl⟩

/-- The interest falls at the same instant while the same assets are owed. -/
theorem interestAfter_congr (hmodel : w.marginInterest = v.marginInterest)
    (howed : ∀ asset, 0 < w.account.borrowed asset ↔ 0 < v.account.borrowed asset) :
    w.interestAfter = v.interestAfter := by
  funext after
  unfold interestAfter
  rw [hmodel]
  cases v.marginInterest with
  | none => rfl
  | some model =>
    apply Boundary.earliest_congr
    intro t
    have hsame : ∀ account : AccountState, (∃ loan ∈ account.loans,
        model.nextBoundary loan.1 after = some t) ↔
        ∃ asset, 0 < account.borrowed asset ∧ model.nextBoundary asset after = some t := by
      intro account
      constructor
      · rintro ⟨loan, hloan, hfalls⟩
        exact ⟨loan.1, exists_loan_iff.1 ⟨loan, hloan, rfl⟩, hfalls⟩
      · rintro ⟨asset, howed, hfalls⟩
        obtain ⟨loan, hloan, rfl⟩ := exists_loan_iff.2 howed
        exact ⟨loan, hloan, hfalls⟩
    rw [hsame, hsame]
    simp only [howed]

theorem mem_heldCosts {instrument : InstrumentNameExchange} {model : HoldingCostModel} :
    (instrument, model) ∈ v.heldCosts ↔
      v.positions[instrument]?.isSome = true ∧ model ∈ v.holdingCosts := by
  unfold heldCosts
  rw [List.mem_flatMap]
  constructor
  · rintro ⟨⟨found, position⟩, hmem, hcost⟩
    obtain ⟨_, hmodel, heq⟩ := List.mem_map.1 hcost
    cases heq
    rw [BTreeMap.mem_toList.1 hmem]
    exact ⟨rfl, hmodel⟩
  · rintro ⟨hheld, hmodel⟩
    obtain ⟨position, hposition⟩ := Option.isSome_iff_exists.1 hheld
    exact ⟨(instrument, position), BTreeMap.mem_toList.2 hposition,
      List.mem_map.2 ⟨model, hmodel, rfl⟩⟩

/-- A position is charged at the same instant while the same instruments are held. -/
theorem chargeAfter_congr (hcosts : w.holdingCosts = v.holdingCosts)
    (hheld : ∀ instrument : InstrumentNameExchange,
      w.positions[instrument]?.isSome = v.positions[instrument]?.isSome) :
    w.chargeAfter = v.chargeAfter := by
  funext after
  apply Boundary.earliest_congr
  intro t
  simp only [Prod.exists, mem_heldCosts, hcosts, hheld]

/-! ## Refreshing -/

theorem nextBoundary_gives {model : HoldingCostModel} {instrument : InstrumentNameExchange}
    {after : DateTime} : (nextBoundary model instrument after).Gives fun next =>
      next = model.nextBoundary instrument after := by
  unfold nextBoundary
  cases model.nextBoundary instrument after with
  | none => rfl
  | some boundary =>
    apply Except.gives_true.bind
    exact fun _ _ => rfl

theorem nextInterestBoundary_gives {model : MarginInterestModel} {asset : AssetNameExchange}
    {after : DateTime} : (nextInterestBoundary model asset after).Gives fun next =>
      next = model.nextBoundary asset after := by
  unfold nextInterestBoundary
  cases model.nextBoundary asset after with
  | none => rfl
  | some boundary =>
    apply Except.gives_true.bind
    exact fun _ _ => rfl

theorem refreshNextCharge_gives : v.refreshNextCharge.Gives fun w =>
    w = { v with nextCharge := v.accruedThrough.bind v.chargeAfter } := by
  unfold refreshNextCharge
  cases haccrued : v.accruedThrough with
  | none => rfl
  | some after =>
    have hall : (v.heldCosts.mapM fun held => nextBoundary held.2 held.1 after).Gives
        fun next => next = v.heldCosts.map fun held => held.2.nextBoundary held.1 after :=
      Except.Ensures.mapM fun _ => nextBoundary_gives
    apply hall.bind
    rintro _ rfl
    show _ = _
    rw [List.filterMap_map]
    rfl

/-- What the interest is refreshed to. A venue that charges none never knew any. -/
theorem refreshNextInterest_gives (hidle : v.marginInterest = none → v.nextInterest = none) :
    v.refreshNextInterest.Gives fun w => w = { v with
      nextInterestLoans := v.account.loansChanged
      nextInterest := v.accruedThrough.bind v.interestAfter } := by
  unfold refreshNextInterest interestAfter
  dsimp only
  cases hmodel : v.marginInterest with
  | none =>
    have hnone : (v.accruedThrough.bind fun after => (none : Option MarginInterestModel).bind
        fun model => Boundary.earliest (fun (loan : AssetNameExchange × Decimal) =>
          model.nextBoundary loan.1) v.account.loans after) = none := by
      cases v.accruedThrough <;> rfl
    rw [hnone, ← hidle hmodel]
    rfl
  | some model =>
    cases haccrued : v.accruedThrough with
    | none => rfl
    | some after =>
      have hall : (v.account.loans.mapM fun loan => nextInterestBoundary model loan.1 after).Gives
          fun next => next = v.account.loans.map fun loan => model.nextBoundary loan.1 after :=
        Except.Ensures.mapM fun _ => nextInterestBoundary_gives
      apply hall.bind
      rintro _ rfl
      show _ = _
      rw [List.filterMap_map]
      rfl

theorem Lawful.congr (h : v.Lawful) (hsetup : w.setup = v.setup) : w.Lawful where
  holdingCosts := by
    rw [show w.holdingCosts = v.holdingCosts from congrArg Setup.holdingCosts hsetup]
    exact h.holdingCosts
  marginInterest := by
    rw [show w.marginInterest = v.marginInterest from congrArg Setup.marginInterest hsetup]
    exact h.marginInterest

theorem interestAfter_of_none (h : v.marginInterest = none) :
    v.accruedThrough.bind v.interestAfter = none := by
  have hnone : v.interestAfter = fun _ => none := by
    funext after
    unfold interestAfter
    rw [h]
    rfl
  rw [hnone]
  cases v.accruedThrough <;> rfl

theorem refreshNextCharge_charged (h : v.Charged) : v.refreshNextCharge.Gives fun w =>
    w.Charged ∧ w.nextCharge = w.accruedThrough.bind w.chargeAfter := by
  apply refreshNextCharge_gives.mono
  rintro _ rfl
  exact ⟨⟨h.lawful.congr rfl, h.loans, h.idle⟩, rfl⟩

theorem refreshNextInterest_cached (h : v.Charged)
    (hcharge : v.nextCharge = v.accruedThrough.bind v.chargeAfter) :
    v.refreshNextInterest.Gives fun w =>
      w.Cached ∧ w.Fresh ∧ w.accruedThrough = v.accruedThrough := by
  apply (refreshNextInterest_gives h.idle).mono
  rintro _ rfl
  exact ⟨⟨⟨h.lawful.congr rfl, h.loans, fun hmodel => interestAfter_of_none hmodel⟩, hcharge,
    le_rfl, fun _ => rfl⟩, rfl, rfl⟩

theorem refreshNextInterestIfLoansChanged_cached (h : v.Cached) :
    v.refreshNextInterestIfLoansChanged.Gives fun w =>
      w.Cached ∧ w.Fresh ∧ w.accruedThrough = v.accruedThrough := by
  unfold refreshNextInterestIfLoansChanged
  split
  · exact refreshNextInterest_cached h.toCharged h.charge
  · rename_i hsame
    exact ⟨h, not_not.1 hsame, rfl⟩

/-! ## What every input keeps -/

theorem Charged.ledger (h : v.Charged) (hcharging : w.charging = v.charging)
    (hcounts : v.account.Counts w.account) : w.Charged where
  lawful := h.lawful.congr (congrArg Charging.setup hcharging)
  loans := hcounts.lawful h.loans
  idle hmodel := by
    have hmodels : w.marginInterest = v.marginInterest :=
      congrArg (fun charging => charging.setup.marginInterest) hcharging
    have hnext : w.nextInterest = v.nextInterest := congrArg Charging.nextInterest hcharging
    rw [hnext]
    exact h.idle (hmodels ▸ hmodel)

/-- A move of the ledger leaves the caches as they were, and what they depend on but for the loans
    it counts. -/
theorem Cached.ledger (h : v.Cached) (hcharging : w.charging = v.charging)
    (hcounts : v.account.Counts w.account) : w.Cached where
  toCharged := h.toCharged.ledger hcharging hcounts
  charge := by
    have hnext : w.nextCharge = v.nextCharge := congrArg Charging.nextCharge hcharging
    have haccrued : w.accruedThrough = v.accruedThrough :=
      congrArg Charging.accruedThrough hcharging
    have hcosts : w.holdingCosts = v.holdingCosts :=
      congrArg (fun charging => charging.setup.holdingCosts) hcharging
    have hpositions : w.positions = v.positions := congrArg Charging.positions hcharging
    rw [hnext, haccrued, h.charge, chargeAfter_congr hcosts]
    intro instrument
    rw [hpositions]
  behind := by
    have hloans : w.nextInterestLoans = v.nextInterestLoans :=
      congrArg Charging.nextInterestLoans hcharging
    rw [hloans]
    exact h.behind.trans hcounts.grows
  interest hsame := by
    have hloans : w.nextInterestLoans = v.nextInterestLoans :=
      congrArg Charging.nextInterestLoans hcharging
    have hnext : w.nextInterest = v.nextInterest := congrArg Charging.nextInterest hcharging
    have haccrued : w.accruedThrough = v.accruedThrough :=
      congrArg Charging.accruedThrough hcharging
    have hmodel : w.marginInterest = v.marginInterest :=
      congrArg (fun charging => charging.setup.marginInterest) hcharging
    -- The count is behind neither, so nothing was opened or cleared.
    rw [hloans] at hsame
    have hcount : w.account.loansChanged = v.account.loansChanged :=
      le_antisymm (hsame.trans_le h.behind) hcounts.grows
    rw [hnext, haccrued, h.interest (hcount.symm.trans hsame),
      interestAfter_congr hmodel (hcounts.same h.loans hcount)]

/-- What charging what is due leaves as it was: what is charged, and the orders. -/
structure Accrues (v w : SimulatedVenue) : Prop where
  charging : w.charging = v.charging
  loans : v.account.SameLoans w.account
  counted : w.account.loansChanged = v.account.loansChanged
  orders : w.account.orders = v.account.orders
  reportedDebt : w.reportedDebt = v.reportedDebt

theorem Accrues.refl : v.Accrues v := ⟨rfl, .refl, rfl, rfl, rfl⟩

theorem Accrues.trans (h : v.Accrues u) (hnext : u.Accrues w) : v.Accrues w where
  charging := hnext.charging.trans h.charging
  loans := h.loans.trans hnext.loans
  counted := hnext.counted.trans h.counted
  orders := hnext.orders.trans h.orders
  reportedDebt := hnext.reportedDebt.trans h.reportedDebt

theorem Accrues.ordersOpen (h : v.Accrues w) : w.account.ordersOpen = v.account.ordersOpen :=
  congrArg AccountState.Orders.ordersOpen h.orders

theorem Accrues.counts (h : v.Accrues w) : v.account.Counts w.account :=
  .of_sameLoans h.loans h.counted

/-- A balance restated with the principal it had. -/
theorem restate_accrues {asset : AssetNameExchange} {change : Balance → Balance}
    (h : ∀ balance, (change balance).borrowed = balance.borrowed) :
    (v.account.restate asset timeExchange change).Gives fun r =>
      v.Accrues { v with account := r.1, cashFlowSequence := v.cashFlowSequence + 1 } := by
  apply AccountState.balanceExpect_gives.bind
  intro balance hbalance
  refine ⟨rfl, AccountState.sameLoans_setBalance ?_, rfl, rfl, rfl⟩
  rw [AccountState.borrowed_of_some hbalance]
  exact h balance.balance

theorem chargeInterest_accrues {asset : AssetNameExchange} {principal : Decimal}
    {due : InterestDue} : (v.chargeInterest asset principal due).Gives fun r => v.Accrues r.1 := by
  unfold chargeInterest
  split
  · exact .refl
  · rename_i charge _
    apply Except.gives_true.bind
    intro _ _
    split
    · exact .refl
    · have hcharged : (v.account.chargeInterest asset charge.interest due.time).Gives fun r =>
          v.Accrues { v with account := r.1, cashFlowSequence := v.cashFlowSequence + 1 } := by
        apply restate_accrues
        intro balance
        unfold Balance.borrowed
        cases balance.margin <;> rfl
      apply hcharged.bind
      exact fun _ hr => hr

theorem commit_cached [Build] {debit : Debit} {credit : Option Credit} {effect : MarginEffect}
    {terms : InstrumentTerms} {market : Option MarketSnapshot} {borrower : Option Borrower} :
    (v.commit debit credit effect terms market borrower timeExchange).Gives fun r =>
      v.Cached → r.1.Cached := by
  apply AccountState.commit_counts.bind
  rintro ⟨account, _ | committed⟩ hcounts
  · exact fun h => h.ledger rfl hcounts
  · have hmoved : v.Cached → ({ v with account } : SimulatedVenue).Cached :=
      fun h => h.ledger rfl hcounts
    dsimp only
    split
    · apply chargeInterest_accrues.bind
      rintro ⟨charged, _ | charge⟩ hcharged
      · exact fun h => (hmoved h).ledger hcharged.charging hcharged.counts
      · exact fun h => (hmoved h).ledger hcharged.charging hcharged.counts
    · exact hmoved

/-- A position opened or closed refreshes its cache. One that only grew or shrank is charged when it
    was. -/
theorem recordFill_cached {terms : InstrumentTerms} {instrument : InstrumentNameExchange}
    {side : Side} {fill : Fill} :
    (v.recordFill terms instrument side fill).Gives fun w => v.Cached → w.Cached := by
  have hmoved (positions : BTreeMap InstrumentNameExchange NetPosition) (openedOrClosed : Bool)
      (hheld : openedOrClosed = false → ∀ instrument : InstrumentNameExchange,
        positions[instrument]?.isSome = v.positions[instrument]?.isSome) :
      (if openedOrClosed && !v.holdingCosts.isEmpty then
        ({ v with positions } : SimulatedVenue).refreshNextCharge
      else .ok { v with positions }).Gives fun w => v.Cached → w.Cached := by
    split
    · apply refreshNextCharge_gives.mono
      rintro _ rfl h
      exact ⟨⟨h.lawful.congr rfl, h.loans, h.idle⟩, rfl, h.behind, h.interest⟩
    · rename_i hkept
      intro h
      refine ⟨⟨h.lawful.congr rfl, h.loans, h.idle⟩, h.charge.trans ?_, h.behind, h.interest⟩
      show v.accruedThrough.bind v.chargeAfter =
        v.accruedThrough.bind ({ v with positions } : SimulatedVenue).chargeAfter
      by_cases hcosts : v.holdingCosts = []
      · have hnone : ∀ u : SimulatedVenue, u.holdingCosts = [] → u.heldCosts = [] := by
          intro u hu
          unfold heldCosts
          rw [hu]
          simp
        have hnothing : ({ v with positions } : SimulatedVenue).chargeAfter = v.chargeAfter := by
          funext after
          unfold chargeAfter
          rw [hnone v hcosts, hnone { v with positions } hcosts]
        rw [hnothing]
      · have hopened : openedOrClosed = false := by
          cases openedOrClosed with
          | false => rfl
          | true => simp [hcosts] at hkept
        rw [chargeAfter_congr (v := v) (w := { v with positions }) rfl (hheld hopened)]
  unfold recordFill
  split
  · exact id
  · apply hmoved
    split
    · rename_i position hposition
      dsimp only
      split
      · intro hopened
        cases hopened
      · intro _ other
        rw [BTreeMap.get?_insert]
        split
        · rename_i heq
          rw [← heq, hposition]
          rfl
        · rfl
    · dsimp only
      split
      · intro hopened
        cases hopened
      · exact fun _ _ => rfl

theorem chargeDue_accrues {due : DateTime × Due} :
    (v.chargeDue due).Gives fun r => v.Accrues r.1 := by
  have hcharged (asset : AssetNameExchange) (amount : Decimal) :
      (v.account.charge asset amount due.1).Gives fun r =>
        v.Accrues { v with account := r.1, cashFlowSequence := v.cashFlowSequence + 1 } :=
    restate_accrues fun _ => rfl
  unfold chargeDue
  split
  · unfold chargeHoldingCost
    split
    · apply Except.gives_true.bind
      intro model _
      dsimp only
      split
      · exact .refl
      · split
        · exact .refl
        · apply (hcharged _ _).bind
          exact fun _ hr => hr
    · exact .refl
  · apply chargeInterest_accrues.bind
    rintro ⟨charged, _ | charge⟩ hmoved
    · exact hmoved
    · exact hmoved

/-- Charging what is due, the same. -/
theorem chargeAll_accrues (due : List (DateTime × Due)) :
    (Gather.run chargeDue v due).Gives fun r => v.Accrues r.1 :=
  Gather.run_gives (fun _ => Accrues.refl) Accrues.trans (fun _ _ => chargeDue_accrues) v due

/-- The caches stand where the clock passes neither. -/
theorem Cached.onward (h : v.Cached) (hfresh : v.Fresh) {after : DateTime}
    (haccrued : v.accruedThrough = some after) (hle : after ≤ now)
    (hcharge : ∀ due, v.nextCharge = some due → now < due)
    (hinterest : ∀ due, v.nextInterest = some due → now < due) :
    ({ v with accruedThrough := some now } : SimulatedVenue).Cached := by
  refine ⟨⟨h.lawful.congr rfl, h.loans, h.idle⟩, ?_, h.behind, fun _ => ?_⟩
  · have hnext : v.nextCharge = v.chargeAfter after := by
      rw [h.charge, haccrued]
      rfl
    show v.nextCharge = v.chargeAfter now
    rw [hnext]
    symm
    apply Boundary.earliest_stands _ hle
    · rw [hnext] at hcharge
      exact hcharge
    · intro held hheld
      exact h.lawful.holdingCosts held.2 (mem_heldCosts.1 hheld).2 held.1
  · have hnext : v.nextInterest = v.interestAfter after := by
      rw [h.interest hfresh, haccrued]
      rfl
    show v.nextInterest = v.interestAfter now
    rw [hnext]
    unfold interestAfter at hnext ⊢
    cases hmodel : v.marginInterest with
    | none => rfl
    | some model =>
      rw [hmodel] at hnext
      symm
      apply Boundary.earliest_stands _ hle
      · intro due hdue
        exact hinterest due (hnext.trans hdue)
      · exact fun loan _ => h.lawful.marginInterest model hmodel loan.1

theorem accrue_cached : (v.accrue now).Gives fun r => v.Cached → r.1.Cached := by
  have hrefreshed (u : SimulatedVenue) (events : List AccountEvent) : (do
      let venue ← u.refreshNextCharge
      let venue ← venue.refreshNextInterest
      return (venue, events) : Events).Gives fun r => u.Charged → r.1.Cached := by
    by_cases h : u.Charged
    · apply (refreshNextCharge_charged h).bind
      intro charged ⟨hcharged, hnext⟩
      apply (refreshNextInterest_cached hcharged hnext).bind
      exact fun _ hw _ => hw.1
    · apply Except.gives_true.mono
      exact fun _ _ hcharged => absurd hcharged h
  unfold accrue
  split
  · apply (hrefreshed { v with accruedThrough := some now } []).mono
    exact fun _ hr h => hr ⟨h.lawful.congr rfl, h.loans, h.idle⟩
  · rename_i after haccrued
    split
    · exact id
    · rename_i hlater
      by_cases h : v.Cached
      · apply (refreshNextInterestIfLoansChanged_cached h).bind
        intro refreshed ⟨hcached, hfresh, hreached⟩
        have hcharged : ({ refreshed with accruedThrough := some now } : SimulatedVenue).Charged :=
          ⟨hcached.lawful.congr rfl, hcached.loans, hcached.idle⟩
        extract_lets venue falls
        split
        · -- Nothing falls by `now`, so what fell first after `after` falls first after it.
          rename_i hneither
          have hpasses (next : Option DateTime) (hnot : falls next = false) :
              ∀ due, next = some due → now < due := by
            rintro due rfl
            exact not_le.1 (of_decide_eq_false hnot)
          obtain ⟨hcharge, hinterest⟩ : falls venue.nextCharge = false ∧
              falls venue.nextInterest = false := by
            simpa only [Bool.and_eq_true, Bool.not_eq_true'] using hneither
          intro _
          exact hcached.onward hfresh (hreached.trans haccrued) (not_le.1 hlater).le
            (hpasses _ hcharge) (hpasses _ hinterest)
        · apply Except.gives_true.bind
          intro due _
          apply (chargeAll_accrues due).bind
          intro ⟨charged, events⟩ hall
          apply (hrefreshed charged events).mono
          exact fun _ hr _ => hr (hcharged.ledger hall.charging hall.counts)
      · apply Except.gives_true.mono
        exact fun _ _ hcached => absurd hcached h

theorem finish_cached {events : List AccountEvent} : (v.finish events).Gives fun r =>
    (v.Cached → r.1.Cached) ∧ (v.Cached → r.1.Fresh) := by
  by_cases h : v.Cached
  · apply (refreshNextInterestIfLoansChanged_cached h).bind
    intro refreshed ⟨hcached, hfresh, _⟩
    show (v.Cached → (refreshed.reportDebtChanges events).1.Cached) ∧
      (v.Cached → (refreshed.reportDebtChanges events).1.Fresh)
    unfold reportDebtChanges
    split
    · exact ⟨fun _ => hcached, fun _ => hfresh⟩
    · have hkept : ∀ reportedDebt, ({ refreshed with reportedDebt } : SimulatedVenue).Cached :=
        fun _ => hcached.ledger rfl (.of_sameLoans .refl rfl)
      exact ⟨fun _ => hkept _, fun _ => hfresh⟩
  · apply Except.gives_true.mono
    exact fun _ _ => ⟨fun hcached => absurd hcached h, fun hcached => absurd hcached h⟩

/-- Every move of the venue keeps its caches. -/
theorem cached_moves [Build] : Moves (fun _ _ _ _ => True) AccountState.Counts
    (fun v w => v.Cached → w.Cached) where
  account := AccountState.counts_path
  trans h hnext hcached := hnext (h hcached)
  ledger hcharging hcounts hcached := hcached.ledger hcharging hcounts
  recordFill := recordFill_cached
  commit _ _ := commit_cached
  accrue := accrue_cached
  finish := finish_cached.mono fun _ hr => hr.1
  priced_none := trivial
  priced_own _ := trivial
  priced_getD _ _ := trivial
  priced_draw _ := trivial

theorem cached_path [Build] [RandomStream] : Path (fun _ _ _ _ => True) AccountState.Counts
    (fun v w => v.Cached → w.Cached) where
  toMoves := cached_moves
  release := cached_moves.releaseTaking fun hcached => hcached.ledger rfl (.of_sameLoans .refl rfl)

/-! ## The interest is refreshed where an input ends -/

theorem refreshNextInterest_fresh : v.refreshNextInterest.Gives Fresh := by
  unfold refreshNextInterest
  dsimp only
  split
  · exact rfl
  · split
    · exact rfl
    · apply Except.gives_true.bind
      exact fun _ _ => rfl

theorem finish_fresh {events : List AccountEvent} :
    (v.finish events).Gives fun r => r.1.Fresh := by
  have hrefreshed : v.refreshNextInterestIfLoansChanged.Gives Fresh := by
    unfold refreshNextInterestIfLoansChanged
    split
    · exact refreshNextInterest_fresh
    · rename_i hsame
      exact not_not.1 hsame
  apply hrefreshed.bind
  intro refreshed hfresh
  show (refreshed.reportDebtChanges events).1.Fresh
  unfold reportDebtChanges
  split
  · exact hfresh
  · exact hfresh

section Inputs

variable [Build] [RandomStream] [DecimalScale]

theorem step_fresh (h : v.Fresh) (input : Input) : (v.step input).Gives fun r => r.1.Fresh := by
  cases input with
  | advanceTime timeExchange =>
    have hadvanced : (v.advanceTime timeExchange).Gives fun r => r.1.Fresh := by
      apply Except.gives_true.bind
      exact fun _ _ => finish_fresh
    apply hadvanced.bind
    exact fun _ hr => hr
  | applyMarket instrument observation timeExchange =>
    have happlied : (v.applyMarket instrument observation timeExchange).Gives fun r =>
        r.1.Fresh := by
      apply Except.gives_true.bind
      exact fun _ _ => finish_fresh
    apply happlied.bind
    exact fun _ hr => hr
  | openOrder request =>
    have hopened : (v.openOrder request).Gives fun r => r.1.Fresh := by
      apply Except.gives_true.bind
      intro _ _
      apply finish_fresh.bind
      exact fun _ hr => hr
    apply hopened.bind
    exact fun _ hr => hr
  | cancelOrder request =>
    have haccount : (v.account.removeOrder request.key.cid).Gives fun r =>
        r.2.loansChanged = v.account.loansChanged := by
      apply Except.gives_true.bind
      exact fun _ _ => rfl
    have hremoved : (v.removeOrder request.key.cid).Gives fun r => r.2.Fresh := by
      apply haccount.bind
      exact fun _ hcount => hcount.trans h
    have hcancelled : (v.cancelOrder request).Gives fun r => r.1.Fresh := by
      apply hremoved.bind
      rintro ⟨_ | ⟨order, reservation⟩, venue⟩ hvenue
      · exact hvenue
      · apply Except.gives_true.bind
        intro _ _
        apply finish_fresh.bind
        exact fun _ hr => hr
    apply hcancelled.bind
    exact fun _ hr => hr
  | expireHeld timeExchange =>
    have hexpired : (v.expireHeld timeExchange).Gives fun r => r.1.Fresh := by
      apply Except.gives_true.bind
      exact fun _ _ => finish_fresh
    apply hexpired.bind
    exact fun _ hr => hr

theorem step_cached (h : v.Cached) (input : Input) :
    (v.step input).Gives fun r => r.1.Cached :=
  (cached_path.step input fun _ _ _ _ => trivial).mono fun _ hr => hr h

end Inputs

/-! ## Every venue a driver comes to -/

theorem lawful_balancesByAsset {account : AccountState} {balances : List AssetBalance}
    (h : account.balances = balancesByAsset balances)
    (hseeds : ∀ balance ∈ balances, 0 ≤ balance.balance.borrowed) : account.Lawful := by
  have hfold : ∀ (rest : List AssetBalance) (map : BTreeMap AssetNameExchange AssetBalance),
      (∀ balance ∈ rest, 0 ≤ balance.balance.borrowed) →
      (∀ (asset : AssetNameExchange) (balance : AssetBalance), map[asset]? = some balance →
        0 ≤ balance.balance.borrowed) →
      ∀ (asset : AssetNameExchange) (balance : AssetBalance),
        (rest.foldl (fun map balance => map.insert balance.asset balance) map)[asset]? =
          some balance → 0 ≤ balance.balance.borrowed := by
    intro rest
    induction rest with
    | nil => exact fun _ _ hmap => hmap
    | cons first rest ih =>
      intro map hrest hmap
      apply ih _ fun balance hbalance => hrest balance (List.mem_cons_of_mem _ hbalance)
      intro asset balance hbalance
      rw [BTreeMap.get?_insert] at hbalance
      split at hbalance
      · cases hbalance
        exact hrest _ List.mem_cons_self
      · exact hmap asset balance hbalance
  intro asset
  cases hbalance : account.balances[asset]? with
  | none => simp [AccountState.borrowed, hbalance]
  | some balance =>
    rw [AccountState.borrowed_of_some hbalance]
    rw [h] at hbalance
    apply hfold balances ∅ hseeds _ asset balance hbalance
    intro asset balance hnone
    rw [BTreeMap.get?_empty] at hnone
    cases hnone

/-- What a margin account knows of each debt is what it was seeded with. -/
theorem enableMargin_lawful {account : AccountState} (h : account.Lawful) :
    account.enableMargin.Lawful := by
  intro asset
  have hsame : account.enableMargin.borrowed asset = account.borrowed asset := by
    unfold AccountState.borrowed AccountState.enableMargin
    simp only [Std.ExtTreeMap.getElem?_map]
    cases account.balances[asset]? with
    | none => rfl
    | some balance =>
      simp only [Option.map_some, Option.getD_some, Balance.borrowed]
      cases balance.balance.margin <;> rfl
  rw [hsame]
  exact h asset

section Runs

variable [Build] [RandomStream] [DecimalScale] {config : MockExecutionConfig}
  {instruments : BTreeMap InstrumentNameExchange VenueInstrument} {regime : VenueRegime}
  {snapshot : SimulatedVenueSnapshot}

omit [Build] [RandomStream] [DecimalScale] in
theorem withRegime_cached (hseeds : ∀ balance ∈ config.initialState.balances,
    0 ≤ balance.balance.borrowed) (h : withRegime config instruments regime = .ok v) :
    v.Cached ∧ v.Fresh := by
  obtain ⟨positions, -, h⟩ := Except.bind_eq_ok.1 h
  obtain ⟨seeded, hseeded, h⟩ := Except.bind_eq_ok.1 h
  cases Except.pure_eq_ok.1 h
  have hloans : seeded.Lawful ∧ seeded.loansChanged = 0 := by
    have htried : AccountState.tryFrom config.initialState = .ok seeded := by
      cases htried : AccountState.tryFrom config.initialState with
      | error _ =>
        rw [htried] at hseeded
        cases hseeded
      | ok account =>
        rw [htried] at hseeded
        cases hseeded
        rfl
    obtain ⟨_, -, htried⟩ := Except.bind_eq_ok.1 htried
    cases Except.pure_eq_ok.1 htried
    exact ⟨lawful_balancesByAsset rfl hseeds, rfl⟩
  have haccount : (if config.spotMargin.isSome then seeded.enableMargin else seeded).Lawful ∧
      (if config.spotMargin.isSome then seeded.enableMargin else seeded).loansChanged = 0 := by
    split
    · exact ⟨enableMargin_lawful hloans.1, hloans.2⟩
    · exact hloans
  refine ⟨⟨⟨⟨?_, ?_⟩, haccount.1, fun _ => rfl⟩, rfl, Nat.zero_le _, fun _ => rfl⟩, haccount.2⟩
  · exact fun model hmodel => absurd hmodel List.not_mem_nil
  · exact fun model hmodel => absurd hmodel (Option.not_mem_none model)

omit [Build] [RandomStream] [DecimalScale] in
/-- A restored venue computes its caches again. -/
theorem fromSnapshot_cached (hseeds : ∀ balance ∈ snapshot.account.balances,
    0 ≤ balance.balance.borrowed) (h : fromSnapshot config instruments snapshot = .ok (.ok v)) :
    v.Cached ∧ v.Fresh := by
  unfold fromSnapshot at h
  split at h
  · cases h
  split at h
  · cases h
  rename_i account haccount
  have hloans : account.Lawful := by
    obtain ⟨ordersOpen, -, haccount⟩ := Except.bind_eq_ok.1 haccount
    obtain ⟨ordersCancelled, -, haccount⟩ := Except.bind_eq_ok.1 haccount
    obtain ⟨ordersFilled, -, haccount⟩ := Except.bind_eq_ok.1 haccount
    obtain ⟨ordersExpired, -, haccount⟩ := Except.bind_eq_ok.1 haccount
    cases Except.pure_eq_ok.1 haccount
    exact lawful_balancesByAsset rfl hseeds
  obtain ⟨charged, hcharge, h⟩ := Except.bind_eq_ok.1 h
  obtain ⟨venue, hinterest, h⟩ := Except.bind_eq_ok.1 h
  cases Except.pure_eq_ok.1 h
  have hrefreshed : ∀ restored : SimulatedVenue, restored.holdingCosts = [] →
      restored.marginInterest = none → restored.nextInterest = none → restored.account = account →
      restored.refreshNextCharge = .ok charged →
        charged.Charged ∧ charged.nextCharge = charged.accruedThrough.bind charged.chargeAfter := by
    intro restored hcosts hmodel hnext rfl hrefresh
    have hcharged : restored.Charged := by
      refine ⟨⟨?_, ?_⟩, hloans, fun _ => hnext⟩
      · rw [hcosts]
        exact fun model hmodel => absurd hmodel List.not_mem_nil
      · rw [hmodel]
        exact fun model hmodel => absurd hmodel (Option.not_mem_none model)
    exact (refreshNextCharge_charged hcharged).result hrefresh
  obtain ⟨hcharged, hnext⟩ := hrefreshed _ rfl rfl rfl rfl hcharge
  have hcached := (refreshNextInterest_cached hcharged hnext).result hinterest
  exact ⟨hcached.1, hcached.2.1⟩

omit [Build] [RandomStream] [DecimalScale] in
theorem withHoldingCosts_cached (h : v.Cached) {models : List HoldingCostModel}
    (hmodels : ∀ model ∈ models, model.Lawful) : (v.withHoldingCosts models).Gives fun w =>
      w.Cached ∧ (v.Fresh → w.Fresh) := by
  apply refreshNextCharge_gives.mono
  rintro _ rfl
  exact ⟨⟨⟨⟨hmodels, h.lawful.marginInterest⟩, h.loans, h.idle⟩, rfl, h.behind, h.interest⟩, id⟩

omit [Build] [RandomStream] [DecimalScale] in
theorem withMarginInterest_cached (h : v.Cached) {model : MarginInterestModel}
    (hmodel : model.Lawful) : (v.withMarginInterest model).Gives fun w => w.Cached ∧ w.Fresh := by
  have hmodels : ∀ given ∈ some model, MarginInterestModel.Lawful given := by
    intro given hgiven
    cases hgiven
    exact hmodel
  apply Except.gives_true.bind
  intro _ _
  have hcharged : ({ v with marginInterest := some model } : SimulatedVenue).Charged :=
    ⟨⟨h.lawful.holdingCosts, hmodels⟩, h.loans, fun hnone => absurd hnone (Option.some_ne_none _)⟩
  apply (refreshNextInterest_cached hcharged h.charge).mono
  exact fun _ hw => ⟨hw.1, hw.2.1⟩

end Runs

end SimulatedVenue

end Rustrade.Mock
