import Rustrade.Mock.Ledger

/-!
# A commitment within its limits

What one commitment does to each amount of the ledger: what is free of an asset, its total, and
what is owed of it. Each move shifts the three of one asset and leaves every other balance as it
was; the moves of a commitment add up.
-/

set_option autoImplicit false

namespace Rustrade.Mock

/-- What is owed of a balance, principal and interest. -/
def Balance.owed (self : Balance) : Decimal := (self.margin.map MarginDetails.owed).getD 0

theorem Balance.netAsset_eq (self : Balance) : self.netAsset = self.total - self.owed := by
  unfold netAsset owed
  cases self.margin <;> simp

namespace AccountState

/-- The total of an asset, and what it is net of its debt: nothing where the account has none. -/
def total (self : AccountState) (asset : AssetNameExchange) : Decimal :=
  (self.balances[asset]?.map fun balance => balance.balance.total).getD 0

def netAsset (self : AccountState) (asset : AssetNameExchange) : Decimal :=
  (self.balances[asset]?.map fun balance => balance.balance.netAsset).getD 0

variable {self before mid after : AccountState} {asset other : AssetNameExchange}
  {amount : Decimal} {timeExchange : DateTime}

theorem netAsset_eq : self.netAsset asset = self.total asset - self.owed asset := by
  unfold netAsset total owed
  cases self.balances[asset]? with
  | none => simp
  | some balance => exact balance.balance.netAsset_eq

/-! ## Shifts -/

/-- What the account has of an asset are the amounts of `balance`. -/
structure Amounts (account : AccountState) (asset : AssetNameExchange) (balance : Balance) :
    Prop where
  free : account.free asset = balance.free
  total : account.total asset = balance.total
  owed : account.owed asset = balance.owed

theorem amounts_of_some {balance : AssetBalance} (h : self.balances[asset]? = some balance) :
    self.Amounts asset balance.balance where
  free := free_of_some h
  total := by simp [AccountState.total, h]
  owed := by simp [AccountState.owed, h, Balance.owed]

theorem amounts_balanceOrOpen :
    self.Amounts asset (self.balanceOrOpen asset timeExchange).balance := by
  cases h : self.balances[asset]? with
  | some balance =>
    have hfound : self.balanceOrOpen asset timeExchange = balance := by simp [balanceOrOpen, h]
    rw [hfound]
    exact amounts_of_some h
  | none =>
    constructor
    · simp [AccountState.free, balanceOrOpen, h, Balance.new]
    · simp [AccountState.total, balanceOrOpen, h, Balance.new]
    · cases hmargin : self.margin <;>
        simp [AccountState.owed, balanceOrOpen, h, hmargin, Balance.owed, MarginDetails.owed,
          MarginDetails.default]

/-- `after` is `before` with the amounts of one asset shifted: what is free by `freed`, the total by
    `gained` and the debt by `lent`. -/
structure Shifts (before : AccountState) (asset : AssetNameExchange) (freed gained lent : Decimal)
    (after : AccountState) : Prop where
  free : after.free asset = before.free asset + freed
  total : after.total asset = before.total asset + gained
  owed : after.owed asset = before.owed asset + lent
  frame : ∀ other, other ≠ asset → after.balances[other]? = before.balances[other]?

namespace Shifts

variable {freed gained lent freed' gained' lent' : Decimal}

theorem refl : Shifts before asset 0 0 0 before where
  free := (add_zero _).symm
  total := (add_zero _).symm
  owed := (add_zero _).symm
  frame _ _ := rfl

theorem trans (h : Shifts before asset freed gained lent mid)
    (hnext : Shifts mid asset freed' gained' lent' after) :
    Shifts before asset (freed + freed') (gained + gained') (lent + lent') after where
  free := by rw [hnext.free, h.free, add_assoc]
  total := by rw [hnext.total, h.total, add_assoc]
  owed := by rw [hnext.owed, h.owed, add_assoc]
  frame other hne := (hnext.frame other hne).trans (h.frame other hne)

theorem congr (h : Shifts before asset freed gained lent after) (hfreed : freed = freed')
    (hgained : gained = gained') (hlent : lent = lent') :
    Shifts before asset freed' gained' lent' after := by
  subst hfreed hgained hlent
  exact h

/-- An asset that is not the one shifted has what it had. -/
theorem apart (h : Shifts before asset freed gained lent after) (hne : other ≠ asset) :
    after.free other = before.free other ∧ after.total other = before.total other ∧
      after.owed other = before.owed other := by
  have hsame := h.frame other hne
  unfold AccountState.free AccountState.total AccountState.owed
  rw [hsame]
  exact ⟨rfl, rfl, rfl⟩

/-- What an asset is net of its debt gains what its total gains beyond what is lent. -/
theorem netAsset (h : Shifts before asset freed gained lent after) (other : AssetNameExchange) :
    after.netAsset other = before.netAsset other +
      (Pi.single asset (gained - lent) : AssetNameExchange → Decimal) other := by
  rw [netAsset_eq, netAsset_eq]
  by_cases hsame : other = asset
  · rw [hsame, Pi.single_eq_same, h.total, h.owed]
    ring
  · obtain ⟨-, htotal, howed⟩ := h.apart hsame
    rw [Pi.single_eq_of_ne hsame, htotal, howed, add_zero]

/-- The rule of every move of one balance: it shifts what the balance gains. -/
theorem setBalance {balance : Balance} (h : self.Amounts asset balance) (restated : AssetBalance)
    (loansChanged : Nat) :
    Shifts self asset (restated.balance.free - balance.free)
      (restated.balance.total - balance.total) (restated.balance.owed - balance.owed)
      { self.setBalance asset restated with loansChanged } := by
  have hset : ({ self.setBalance asset restated with loansChanged } : AccountState).balances[asset]? =
      some restated := by
    show (self.balances.insert asset restated)[asset]? = some restated
    rw [BTreeMap.get?_insert, if_pos rfl]
  have hafter := amounts_of_some hset
  constructor
  · rw [hafter.free, h.free]
    ring
  · rw [hafter.total, h.total]
    ring
  · rw [hafter.owed, h.owed]
    ring
  · intro other hne
    show (self.balances.insert asset restated)[other]? = self.balances[other]?
    exact BTreeMap.get?_insert_of_ne (Ne.symm hne)

end Shifts

/-! ## The moves of a commitment -/

theorem balanceExpect_gives : (self.balanceExpect asset).Gives fun balance =>
    self.balances[asset]? = some balance := by
  unfold balanceExpect
  cases self.balances[asset]? with
  | none => exact id
  | some balance => rfl

/-- A restatement shifts what it changes of the balance. -/
theorem restate_shifts {change : Balance → Balance} (freed gained : Decimal)
    (hfree : ∀ balance, (change balance).free = balance.free + freed)
    (htotal : ∀ balance, (change balance).total = balance.total + gained)
    (hmargin : ∀ balance, (change balance).margin = balance.margin) :
    (self.restate asset timeExchange change).Gives fun r => Shifts self asset freed gained 0 r.1 := by
  apply balanceExpect_gives.bind
  intro balance hbalance
  apply (Shifts.setBalance (amounts_of_some hbalance)
    { balance with balance := change balance.balance, timeExchange } self.loansChanged).congr
  · show (change balance.balance).free - balance.balance.free = freed
    rw [hfree]
    ring
  · show (change balance.balance).total - balance.balance.total = gained
    rw [htotal]
    ring
  · show (change balance.balance).owed - balance.balance.owed = 0
    unfold Balance.owed
    rw [hmargin]
    ring

theorem borrow_shifts :
    Shifts self asset amount amount amount (self.borrow asset amount timeExchange) := by
  have hfound : self.Amounts asset (self.balanceOrOpen asset timeExchange).balance :=
    amounts_balanceOrOpen
  unfold borrow
  apply (Shifts.setBalance hfound _ _).congr
  · ring
  · ring
  · simp only [Balance.owed, Option.map_some, Option.getD_some]
    cases (self.balanceOrOpen asset timeExchange).balance.margin <;>
      simp only [Option.map_some, Option.map_none, Option.getD_some, Option.getD_none,
        MarginDetails.owed, MarginDetails.default] <;>
      ring

theorem fund_shifts : (self.fund asset amount).Gives (Shifts self asset amount amount 0) := by
  apply balanceExpect_gives.bind
  intro balance hbalance
  apply (Shifts.setBalance (amounts_of_some hbalance) _ self.loansChanged).congr
  · ring
  · ring
  · exact sub_self _

/-- A reserve is refused only where less is free, and moves nothing then. -/
theorem reserve_shifts : (self.reserve asset amount timeExchange).Gives fun r =>
    match r.2 with
    | .error _ => r.1 = self ∧ self.free asset < amount
    | .ok _ => Shifts self asset (-amount) 0 0 r.1 := by
  apply balanceExpect_gives.bind
  intro balance hbalance
  split
  · rename_i hshort
    refine ⟨rfl, ?_⟩
    rw [free_of_some hbalance]
    exact hshort
  · apply (restate_shifts (-amount) 0 ?_ ?_ ?_).bind
    · intro r hshifts
      exact hshifts
    · exact fun balance => sub_eq_add_neg _ _
    · exact fun balance => (add_zero _).symm
    · exact fun balance => rfl

theorem settle_shifts [Build] : (self.settle asset amount timeExchange).Gives fun r =>
    Shifts self asset 0 (-amount) 0 r.1 := by
  apply balanceExpect_gives.bind
  intro balance hbalance
  have hassert : (debugAssert .settle
      (balance.balance.free ≤ balance.balance.total - amount)).Gives fun _ => True := by
    unfold debugAssert
    split
    · exact id
    · trivial
  apply hassert.bind
  intro _ _
  apply restate_shifts
  · exact fun balance => (add_zero _).symm
  · exact fun balance => sub_eq_add_neg _ _
  · exact fun balance => rfl

/-- A repayment takes the same out of what is free, the total and the debt, and never more than it
    is given. -/
theorem repay_amounts (balance : Balance) (available : Decimal) :
    ∃ repaid ≤ max available 0, (repay balance available).1.free = balance.free - repaid ∧
      (repay balance available).1.total = balance.total - repaid ∧
      (repay balance available).1.owed = balance.owed - repaid := by
  unfold repay Balance.owed
  cases hmargin : balance.margin with
  | none => exact ⟨0, le_max_right _ _, by simp [hmargin]⟩
  | some margin =>
    set given := max available 0
    set interest := min margin.interest given
    set principal := min margin.borrowed (given - interest)
    refine ⟨interest + principal, ?_, rfl, rfl, ?_⟩
    · have : principal ≤ given - interest := min_le_right _ _
      linarith
    · simp only [Option.map_some, Option.getD_some, MarginDetails.owed]
      ring

/-- A delivery shifts the total and what is free by what of it repays nothing, and the debt by what
    it repays, which is nothing but for an order that repays. -/
theorem deliver_shifts (delivery : Delivery) (effect : MarginEffect) :
    ∃ repaid ≤ max delivery.amount 0, (effect ≠ .repay → repaid = 0) ∧
      Shifts self delivery.asset (delivery.amount - repaid) (delivery.amount - repaid) (-repaid)
        (self.deliver delivery effect timeExchange).1 := by
  have hfound : self.Amounts delivery.asset
      (self.balanceOrOpen delivery.asset timeExchange).balance := amounts_balanceOrOpen
  set balance := self.balanceOrOpen delivery.asset timeExchange with hbalance
  set credited : Balance := { balance.balance with
    total := balance.balance.total + delivery.amount
    free := balance.balance.free + delivery.amount } with hcredited
  unfold deliver
  by_cases hrepays : (self.margin && decide (effect = .repay)) = true
  · obtain ⟨repaid, hle, hfree, htotal, howed⟩ := repay_amounts credited delivery.amount
    simp only [hrepays, if_true, ← hbalance, ← hcredited]
    refine ⟨repaid, hle, ?_, (Shifts.setBalance hfound _ _).congr ?_ ?_ ?_⟩
    · intro hother
      simp [hother] at hrepays
    · rw [hfree]
      ring
    · rw [htotal]
      ring
    · rw [howed]
      show balance.balance.owed - repaid - balance.balance.owed = -repaid
      ring
  · simp only [hrepays, if_false, ← hbalance, ← hcredited, Bool.false_eq_true]
    refine ⟨0, le_max_right _ _, fun _ => rfl, (Shifts.setBalance hfound _ _).congr ?_ ?_ ?_⟩
    · ring
    · ring
    · show balance.balance.owed - balance.balance.owed = -0
      ring

/-! ## The loan -/

/-- A loan covers the shortfall and the minimum, and stays within both limits. -/
theorem lend_within {debit : Debit} {available borrowed excess : Decimal} {lends : Bool}
    {lending : Lending} (h : self.lend debit available lends lending = .ok (borrowed, excess))
    (hloan : borrowed ≠ 0) :
    lends = true ∧ debit.settled + debit.reserved - available ≤ borrowed ∧
      lending.minBorrow ≤ borrowed ∧ borrowed ≤ lending.borrowable ∧
      ∀ cap, lending.maxBorrow = some cap → self.owed debit.asset + borrowed ≤ cap := by
  unfold lend at h
  extract_lets required capped lendable shortfall loan at h
  by_cases hcovered : shortfall ≤ 0
  · rw [if_pos hcovered] at h
    cases h
    exact absurd rfl hloan
  rw [if_neg hcovered] at h
  by_cases hlends : (lends && decide (loan ≤ lendable)) = true
  · rw [if_pos hlends] at h
    have hborrowed : loan = borrowed := congrArg Prod.fst (Except.ok.inj h)
    rw [Bool.and_eq_true_iff, decide_eq_true_iff] at hlends
    obtain ⟨hlends, hlendable⟩ := hlends
    have hshort : shortfall ≤ loan := le_max_left _ _
    have hpositive : 0 < loan := lt_of_lt_of_le (not_le.1 hcovered) hshort
    have hmin : lending.minBorrow ≤ loan := le_max_right _ _
    -- The cap decides only where it leaves less than the leverage does.
    have hlimits : lendable ≤ lending.borrowable ∧
        ∀ cap, lending.maxBorrow = some cap → lendable ≤ self.capRoom debit.asset cap := by
      cases hcap : lending.maxBorrow with
      | none => simp [lendable, capped, hcap]
      | some cap =>
        by_cases hdecides : self.capRoom debit.asset cap < lending.borrowable
        · have : lendable = self.capRoom debit.asset cap := by
            simp [lendable, capped, hcap, Option.filter, hdecides]
          rw [this]
          refine ⟨hdecides.le, fun other hother => ?_⟩
          cases hother
          exact le_rfl
        · have : lendable = lending.borrowable := by
            simp [lendable, capped, hcap, Option.filter, hdecides]
          rw [this]
          refine ⟨le_rfl, fun other hother => ?_⟩
          cases hother
          exact not_lt.1 hdecides
    obtain ⟨hleverage, hcap⟩ := hlimits
    rw [← hborrowed]
    refine ⟨hlends, hshort, hmin, hlendable.trans hleverage, fun cap hsome => ?_⟩
    have hroom : loan ≤ max (cap - self.owed debit.asset) 0 := hlendable.trans (hcap cap hsome)
    rcases le_max_iff.1 hroom with hroom | hroom
    · linarith
    · exact absurd hroom (not_le.2 hpositive)
  · rw [if_neg hlends] at h
    cases h

/-! ## The commitment -/

variable {debit : Debit} {credit : Option Credit} {effect : MarginEffect} {lending : Lending}
  {committed : Committed}

/-- What a commitment lent is what it lacked, and within every limit on the loan. -/
structure LendsWithin (before : AccountState) (debit : Debit) (credit : Option Credit)
    (effect : MarginEffect) (lending : Lending) (committed : Committed) (after : AccountState) :
    Prop where
  covered : debit.settled + debit.reserved ≤
    before.free debit.asset + paidBack credit + committed.borrowed
  lends : committed.borrowed ≠ 0 → before.margin = true ∧ effect = .borrow
  shortfall : committed.borrowed ≠ 0 →
    debit.settled + debit.reserved - (before.free debit.asset + paidBack credit) ≤
      committed.borrowed
  least : committed.borrowed ≠ 0 → lending.minBorrow ≤ committed.borrowed
  most : committed.borrowed ≠ 0 → committed.borrowed ≤ lending.borrowable
  capped : committed.borrowed ≠ 0 → ∀ cap, lending.maxBorrow = some cap →
    after.owed debit.asset ≤ cap

/-- Nothing is delivered into the asset `debit` is paid with. -/
def DeliversElsewhere (debit : Debit) (credit : Option Credit) : Prop :=
  ∀ delivery, deliveryOf credit = some delivery → delivery.asset ≠ debit.asset

/-- A commitment paid, held and delivered exactly what was asked for, and moved nothing else. -/
structure MovesExactly (before : AccountState) (debit : Debit) (credit : Option Credit)
    (committed : Committed) (after : AccountState) : Prop where
  free : DeliversElsewhere debit credit → after.free debit.asset =
    before.free debit.asset -
      (debit.settled + debit.reserved - paidBack credit - committed.borrowed)
  total : DeliversElsewhere debit credit → after.total debit.asset =
    before.total debit.asset - (debit.settled - paidBack credit - committed.borrowed)
  netAsset : ∀ asset, after.netAsset asset = before.netAsset asset +
    ((Pi.single debit.asset (paidBack credit - debit.settled) : AssetNameExchange → Decimal) asset +
      deliveredBy credit asset)
  frame : ∀ asset, asset ≠ debit.asset →
    (∀ delivery, deliveryOf credit = some delivery → asset ≠ delivery.asset) →
    after.balances[asset]? = before.balances[asset]?
  solvent : DeliversElsewhere debit credit → ∀ asset, 0 ≤ before.free asset → 0 ≤ after.free asset

/-- What lending and paying back shift. -/
theorem fundAny_shifts {borrowed funding : Decimal} :
    ((if borrowed = 0 then self else self.borrow asset borrowed timeExchange).fundAny asset
      funding).Gives (Shifts self asset (borrowed + funding) (borrowed + funding) borrowed) := by
  set lent := if borrowed = 0 then self else self.borrow asset borrowed timeExchange with hlent
  have hlends : Shifts self asset borrowed borrowed borrowed lent := by
    by_cases hnone : borrowed = 0
    · rw [hlent, if_pos hnone, hnone]
      exact Shifts.refl
    · rw [hlent, if_neg hnone]
      exact borrow_shifts
  have hfunds : (lent.fundAny asset funding).Gives (Shifts lent asset funding funding 0) := by
    unfold fundAny
    split
    · rename_i hnone
      rw [hnone]
      exact Shifts.refl
    · exact fund_shifts
  apply hfunds.mono
  intro funded hfunded
  exact (hlends.trans hfunded).congr rfl rfl (add_zero _)

/-- A delivery that the account covers leaves nothing short that was not. -/
theorem deliver_solvent {delivery : Delivery} {repaid : Decimal}
    (hcovered : self.uncovered delivery = none) (hrepaid : repaid ≤ max delivery.amount 0)
    (hfree : 0 ≤ self.free delivery.asset) :
    0 ≤ self.free delivery.asset + (delivery.amount - repaid) := by
  by_cases htakes : delivery.amount < 0
  · have hmax : max delivery.amount 0 = 0 := max_eq_right htakes.le
    have henough : ¬ (delivery.amount < 0 ∧ self.free delivery.asset + delivery.amount < 0) := by
      intro hshort
      simp [uncovered, hshort] at hcovered
    have : 0 ≤ self.free delivery.asset + delivery.amount :=
      not_lt.1 fun hshort => henough ⟨htakes, hshort⟩
    rw [hmax] at hrepaid
    linarith
  · rw [max_eq_left (not_lt.1 htakes)] at hrepaid
    linarith

/-- What was paid and what is delivered make up the whole commitment. -/
theorem movesExactly_of_shifts {paid : AccountState}
    (hcovered : (deliveryOf credit).bind self.uncovered = none)
    (hrequired : debit.settled + debit.reserved ≤
      self.free debit.asset + paidBack credit + committed.borrowed)
    (hpaid : Shifts self debit.asset
      (committed.borrowed + paidBack credit - (debit.settled + debit.reserved))
      (committed.borrowed + paidBack credit - debit.settled) committed.borrowed paid) :
    MovesExactly self debit credit committed
      (paid.deliverAny (deliveryOf credit) effect timeExchange).1 := by
  have hpaying : 0 ≤ paid.free debit.asset := by
    rw [hpaid.free]
    linarith
  cases hdelivery : deliveryOf credit with
  | none =>
    show MovesExactly self debit credit committed paid
    constructor
    · intro _
      rw [hpaid.free]
      ring
    · intro _
      rw [hpaid.total]
      ring
    · intro asset
      rw [hpaid.netAsset]
      simp only [deliveredBy, hdelivery, Option.elim_none, Pi.zero_apply, add_zero]
      congr 2
      ring
    · exact fun asset hne _ => hpaid.frame asset hne
    · intro _ asset hfree
      by_cases hsame : asset = debit.asset
      · rw [hsame]
        exact hpaying
      · rw [(hpaid.apart hsame).1]
        exact hfree
  | some delivery =>
    obtain ⟨repaid, hrepaid, -, hdelivered⟩ : ∃ repaid ≤ max delivery.amount 0,
        (effect ≠ .repay → repaid = 0) ∧ Shifts paid delivery.asset (delivery.amount - repaid)
          (delivery.amount - repaid) (-repaid) (paid.deliver delivery effect timeExchange).1 :=
      deliver_shifts delivery effect
    show MovesExactly self debit credit committed (paid.deliver delivery effect timeExchange).1
    have helsewhere (h : DeliversElsewhere debit credit) : delivery.asset ≠ debit.asset :=
      h delivery hdelivery
    constructor
    · intro h
      rw [(hdelivered.apart (helsewhere h).symm).1, hpaid.free]
      ring
    · intro h
      rw [(hdelivered.apart (helsewhere h).symm).2.1, hpaid.total]
      ring
    · intro asset
      rw [hdelivered.netAsset, hpaid.netAsset]
      simp only [deliveredBy, hdelivery, Option.elim_some, add_assoc]
      congr 3
      · ring
      · ring
    · intro asset hne hother
      rw [hdelivered.frame asset (hother delivery hdelivery), hpaid.frame asset hne]
    · intro h asset hfree
      by_cases hreceives : asset = delivery.asset
      · subst hreceives
        have hsame := (hpaid.apart (helsewhere h)).1
        rw [hdelivered.free, hsame]
        rw [hdelivery] at hcovered
        exact deliver_solvent hcovered hrepaid hfree
      · rw [(hdelivered.apart hreceives).1]
        by_cases hpays : asset = debit.asset
        · rw [hpays]
          exact hpaying
        · rw [(hpaid.apart hpays).1]
          exact hfree

/-- A delivery changes no debt of an order that does not repay. -/
theorem owed_deliverAny (hrepays : effect ≠ .repay) (delivery : Option Delivery) :
    (self.deliverAny delivery effect timeExchange).1.owed asset = self.owed asset := by
  cases delivery with
  | none => rfl
  | some delivery =>
    obtain ⟨repaid, -, hnothing, hdelivered⟩ : ∃ repaid ≤ max delivery.amount 0,
        (effect ≠ .repay → repaid = 0) ∧ Shifts self delivery.asset (delivery.amount - repaid)
          (delivery.amount - repaid) (-repaid) (self.deliver delivery effect timeExchange).1 :=
      deliver_shifts delivery effect
    show (self.deliver delivery effect timeExchange).1.owed asset = self.owed asset
    by_cases hsame : asset = delivery.asset
    · rw [hsame, hdelivered.owed, hnothing hrepays, neg_zero, add_zero]
    · exact (hdelivered.apart hsame).2.2

/-- A commitment that is made lends within its limits and moves exactly what was asked for; one that
    is refused moves nothing. -/
theorem commit_gives [Build] : (self.commit debit credit effect lending timeExchange).Gives fun r =>
    match r.2 with
    | .error _ => r.1 = self
    | .ok committed => LendsWithin self debit credit effect lending committed r.1 ∧
        MovesExactly self debit credit committed r.1 := by
  have hparts : (creditParts credit).Ensures (Broken False) fun parts =>
      parts = (paidBack credit, deliveryOf credit) := creditParts_ensures
  have hfree : (self.freeToPay debit.asset).Ensures (Broken False) fun free =>
      free = self.free debit.asset := freeToPay_ensures
  unfold commit
  apply hparts.gives.bind
  rintro _ rfl
  apply hfree.gives.bind
  rintro _ rfl
  cases hlend : self.lend debit (self.free debit.asset + paidBack credit)
      (self.margin && effect = .borrow) lending with
  | error insufficient => rfl
  | ok lent =>
  obtain ⟨borrowed, excessBorrowed⟩ := lent
  obtain ⟨hcovers, -⟩ := lend_covers hlend
  cases hcovered : (deliveryOf credit).bind self.uncovered with
  | some insufficient => rfl
  | none =>
  apply fundAny_shifts.bind
  intro funded hfunded
  apply reserve_shifts.bind
  rintro ⟨reserved, _ | balance⟩ houtcome
  · -- What was lent and paid back covers what is required, so the reserve is never refused.
    obtain ⟨-, hshort⟩ := houtcome
    rw [hfunded.free] at hshort
    linarith
  apply settle_shifts.bind
  intro ⟨settled, paid⟩ hsettled
  have hpaid : Shifts self debit.asset
      (borrowed + paidBack credit - (debit.settled + debit.reserved))
      (borrowed + paidBack credit - debit.settled) borrowed settled := by
    apply ((hfunded.trans houtcome).trans hsettled).congr
    · ring
    · ring
    · ring
  refine ⟨?_, movesExactly_of_shifts hcovered hcovers hpaid⟩
  have hwithin := lend_within hlend
  constructor
  · exact hcovers
  · intro hloan
    obtain ⟨hlends, -⟩ := hwithin hloan
    simpa using hlends
  · exact fun hloan => (hwithin hloan).2.1
  · exact fun hloan => (hwithin hloan).2.2.1
  · exact fun hloan => (hwithin hloan).2.2.2.1
  · intro hloan cap hcap
    obtain ⟨hlends, -, -, -, hcaps⟩ := hwithin hloan
    have hborrow : effect = .borrow := by
      simp only [Bool.and_eq_true, decide_eq_true_eq] at hlends
      exact hlends.2
    show (settled.deliverAny (deliveryOf credit) effect timeExchange).1.owed debit.asset ≤ cap
    rw [owed_deliverAny (by rw [hborrow]; exact fun h => nomatch h), hpaid.owed]
    exact hcaps cap hcap

/-- A refused commitment leaves the whole ledger as it was, and one that is made lends no more than
    it may and moves exactly what was asked for. -/
theorem commit_lends_within_limits [Build] {outcome : Except BalanceInsufficient Committed}
    (hcommit : self.commit debit credit effect lending timeExchange = .ok (after, outcome)) :
    (∀ insufficient, outcome = .error insufficient → after = self) ∧
      (∀ committed, outcome = .ok committed →
        LendsWithin self debit credit effect lending committed after ∧
          MovesExactly self debit credit committed after) := by
  have hgives := commit_gives.result hcommit
  constructor
  · rintro insufficient rfl
    exact hgives
  · rintro committed rfl
    exact hgives

/-- A commitment that was made, and what can be checked of it. -/
def madeWith (result : Except Fault (AccountState × Except BalanceInsufficient Committed))
    (check : AccountState → Committed → Bool) : Bool :=
  match result with
  | .ok (after, .ok committed) => check after committed
  | _ => false

theorem exists_of_madeWith {x : Except Fault (AccountState × Except BalanceInsufficient Committed)}
    {f : AccountState → Committed → Bool} (h : madeWith x f = true) :
    ∃ after committed, x = .ok (after, .ok committed) ∧ f after committed = true := by
  match x with
  | .ok (after, .ok committed) => exact ⟨after, committed, rfl, h⟩

/-- An account of one balance. -/
def ofBalance (margin : Bool) (balance : AssetBalance) : AccountState :=
  { balances := balancesByAsset [balance]
    ordersOpen := .default
    ordersCancelled := ∅
    ordersFilled := ∅
    ordersExpired := ∅
    trades := []
    margin
    loansChanged := 0 }

/-- A purchase at 30 with 10 at hand lends 25 where at least 25 is lent. -/
theorem commit_lends_within_limits_least : ∃ after committed,
    letI : Build := ⟨true⟩
    let account := ofBalance true ⟨⟨"USDT"⟩, ⟨10, 10, some ⟨0, 0⟩⟩, 0⟩
    let debit : Debit := ⟨⟨"USDT"⟩, 30, 0⟩
    let credit : Option Credit := some (.delivery ⟨⟨"BTC"⟩, 1⟩)
    let lending : Lending := ⟨100, 25, some 50⟩
    account.commit debit credit .borrow lending 0 = .ok (after, .ok committed) ∧
      committed.borrowed = 25 ∧ LendsWithin account debit credit .borrow lending committed after ∧
      MovesExactly account debit credit committed after := by
  let _ : Build := ⟨true⟩
  obtain ⟨after, committed, hcommit, hborrowed⟩ := exists_of_madeWith
    (x := (ofBalance true ⟨⟨"USDT"⟩, ⟨10, 10, some ⟨0, 0⟩⟩, 0⟩).commit ⟨⟨"USDT"⟩, 30, 0⟩
      (some (.delivery ⟨⟨"BTC"⟩, 1⟩)) .borrow ⟨100, 25, some 50⟩ 0)
    (f := fun _ committed => committed.borrowed = 25) (by decide +kernel)
  obtain ⟨hwithin, hexact⟩ := (commit_lends_within_limits hcommit).2 committed rfl
  exact ⟨after, committed, hcommit, of_decide_eq_true hborrowed, hwithin, hexact⟩

/-- A delivery taken from what the purchase is paid with is only covered by what is free before it:
    both are taken, and less than nothing is left. -/
theorem commit_takes_twice : ¬ ∀ (_ : Build) (account after : AccountState) (debit : Debit)
    (credit : Option Credit) (effect : MarginEffect) (lending : Lending) (timeExchange : DateTime)
    (committed : Committed), 0 ≤ debit.settled → 0 ≤ debit.reserved →
    account.commit debit credit effect lending timeExchange = .ok (after, .ok committed) →
      after.free debit.asset = account.free debit.asset -
        (debit.settled + debit.reserved - paidBack credit - committed.borrowed) ∧
      ∀ asset, 0 ≤ account.free asset → 0 ≤ after.free asset := by
  intro hclaim
  let _ : Build := ⟨true⟩
  obtain ⟨after, committed, hcommit, hshort⟩ := exists_of_madeWith
    (x := (ofBalance false ⟨⟨"USDT"⟩, ⟨10, 10, none⟩, 0⟩).commit ⟨⟨"USDT"⟩, 10, 0⟩
      (some (.delivery ⟨⟨"USDT"⟩, -5⟩)) .noSideEffect ⟨0, 0, none⟩ 0)
    (f := fun after _ => after.free ⟨"USDT"⟩ < 0) (by decide +kernel)
  obtain ⟨-, hsolvent⟩ := hclaim ⟨true⟩ _ after _ _ _ _ _ committed (by decide) (by decide) hcommit
  have : 0 ≤ after.free ⟨"USDT"⟩ := hsolvent ⟨"USDT"⟩ (by decide +kernel)
  exact absurd (of_decide_eq_true hshort) (not_lt.2 this)

end AccountState

end Rustrade.Mock
