import Rustrade.Mock.DueThrough

/-!
# Time passing

A venue charges every boundary its clock passes, however far one call moves it. Moving the clock in
steps, or at once, leaves the same venue and emits the same events, where nothing but the passing of
time happens on the way.
-/

set_option autoImplicit false

namespace Rustrade.Mock

namespace AccountState

variable {account other : AccountState} {asset : AssetNameExchange} {stamp timeExchange : DateTime}

/-! ## Stamps -/

theorem updateTimeExchange_get? (asset : AssetNameExchange) :
    (account.updateTimeExchange stamp).balances[asset]? =
      account.balances[asset]?.map fun balance => { balance with timeExchange := stamp } := by
  unfold updateTimeExchange
  simp only [Std.ExtTreeMap.getElem?_map]

/-- The last stamp stands. -/
theorem updateTimeExchange_updateTimeExchange (again : DateTime) :
    (account.updateTimeExchange stamp).updateTimeExchange again =
      account.updateTimeExchange again := by
  have hbalances : ((account.updateTimeExchange stamp).updateTimeExchange again).balances =
      (account.updateTimeExchange again).balances := by
    apply BTreeMap.ext_get?
    intro asset
    rw [updateTimeExchange_get?, updateTimeExchange_get?, updateTimeExchange_get?, Option.map_map]
    rfl
  exact congrArg (fun balances => ({ account with balances } : AccountState)) hbalances

theorem updateTimeExchange_setBalance {balance : AssetBalance} :
    ((account.updateTimeExchange stamp).setBalance asset balance).updateTimeExchange stamp =
      (account.setBalance asset balance).updateTimeExchange stamp := by
  have hbalances : (((account.updateTimeExchange stamp).setBalance asset balance).updateTimeExchange
      stamp).balances = ((account.setBalance asset balance).updateTimeExchange stamp).balances := by
    apply BTreeMap.ext_get?
    intro other
    rw [updateTimeExchange_get?, updateTimeExchange_get?]
    unfold setBalance
    simp only [BTreeMap.get?_insert]
    split
    · rfl
    · rw [updateTimeExchange_get?, Option.map_map]
      rfl
  exact congrArg (fun balances => ({ account with balances } : AccountState)) hbalances

/-- A restatement is the same whatever the stamps were. -/
theorem restate_stamped (change : Balance → Balance) :
    ((account.updateTimeExchange stamp).restate asset timeExchange change).map
        (Prod.map (fun account => account.updateTimeExchange stamp) id) =
      (account.restate asset timeExchange change).map
        (Prod.map (fun account => account.updateTimeExchange stamp) id) := by
  unfold restate balanceExpect
  rw [updateTimeExchange_get?]
  cases account.balances[asset]? with
  | none => rfl
  | some balance =>
    exact congrArg (fun account => Except.ok (account, { balance with
      balance := change balance.balance, timeExchange })) updateTimeExchange_setBalance

end AccountState

namespace SimulatedVenue

variable {v w : SimulatedVenue} {after mid now stamp timeExchange : DateTime}

/-! ## A venue but for its clock -/

/-- The venue with its clock, what it computed of it and what it reported put away. -/
def unclocked (v : SimulatedVenue) : SimulatedVenue :=
  { v with
    timeExchangeLatest := 0
    accruedThrough := none
    nextCharge := none
    nextInterest := none
    nextInterestLoans := 0
    reportedDebt := ∅
    account := v.account.updateTimeExchange 0 }

/-- The venue at an instant it charged through, with its caches. -/
def clocked (v : SimulatedVenue) (now : DateTime)
    (reportedDebt : BTreeMap AssetNameExchange MarginDetails) : SimulatedVenue :=
  { v with
    timeExchangeLatest := now
    accruedThrough := some now
    nextCharge := v.chargeAfter now
    nextInterest := v.interestAfter now
    nextInterestLoans := v.account.loansChanged
    reportedDebt
    account := v.account.updateTimeExchange now }

@[simp] theorem unclocked_unclocked : v.unclocked.unclocked = v.unclocked := by
  unfold unclocked
  simp only [AccountState.updateTimeExchange_updateTimeExchange]

/-- A charge is the same whatever the clock is: its ledger moves alike, and its flow is numbered
    alike. -/
theorem charged_alike {x x' : Except Fault (AccountState × AssetBalance)}
    (h : x'.map (Prod.map (fun account => account.updateTimeExchange 0) id) =
      x.map (Prod.map (fun account => account.updateTimeExchange 0) id))
    {next next' : AccountState × AssetBalance → Events} (given : AssetBalance → List AccountEvent)
    (hnext : ∀ r, next r = .ok ({ v with
      account := r.1, cashFlowSequence := v.cashFlowSequence + 1 }, given r.2))
    (hnext' : ∀ r, next' r = .ok ({ v.unclocked with
      account := r.1, cashFlowSequence := v.cashFlowSequence + 1 }, given r.2)) :
    Gather.Alike unclocked (x' >>= next') (x >>= next) := by
  unfold Gather.Alike
  cases x' with
  | error fault =>
    cases x with
    | error _ =>
      cases h
      rfl
    | ok _ => cases h
  | ok r' =>
    cases x with
    | error _ => cases h
    | ok r =>
      obtain ⟨haccount, hbalance⟩ := Prod.mk.inj (Except.ok.inj h)
      have hbalance : r'.2 = r.2 := hbalance
      have haccount : r'.1.updateTimeExchange 0 = r.1.updateTimeExchange 0 := haccount
      show (next' r').map _ = (next r).map _
      rw [hnext, hnext', hbalance]
      show Except.ok (unclocked _, given r.2) = Except.ok (unclocked _, given r.2)
      unfold unclocked
      simp only [haccount]

/-- What is due is charged without looking at the clock. -/
theorem chargeDue_unclocked (due : DateTime × Due) :
    Gather.Alike unclocked (v.unclocked.chargeDue due) (v.chargeDue due) := by
  have hsame {out : List AccountEvent} : Gather.Alike unclocked
      (.ok (v.unclocked, out) : Except Fault (SimulatedVenue × List AccountEvent))
      (.ok (v, out)) := congrArg (fun u => Except.ok (u, out)) unclocked_unclocked
  unfold chargeDue
  cases due.2 with
  | holding instrument model =>
    dsimp only
    unfold chargeHoldingCost
    cases hposition : v.positions[instrument]? with
    | none =>
      have hposition' : v.unclocked.positions[instrument]? = none := hposition
      rw [hposition']
      exact hsame
    | some position =>
    have hposition' : v.unclocked.positions[instrument]? = some position := hposition
    rw [hposition']
    cases hterms : v.instruments[instrument]? with
    | none =>
      have hterms' : v.unclocked.instruments[instrument]? = none := hterms
      rw [hterms']
      exact hsame
    | some terms =>
    have hterms' : v.unclocked.instruments[instrument]? = some terms := hterms
    rw [hterms']
    dsimp only
    have hcosts : v.unclocked.holdingCosts = v.holdingCosts := rfl
    have hvaluation : v.unclocked.valuation instrument position =
        v.valuation instrument position := rfl
    rw [hcosts, hvaluation]
    cases v.holdingCosts[model]? with
    | none => rfl
    | some model =>
    dsimp only [expect, bind, Except.bind]
    cases model.charge ⟨instrument, position.quantity, terms.kind.contractSize, position.entry,
        v.valuation instrument position⟩ due.1 with
    | none => exact hsame
    | some charge =>
      dsimp only
      split
      · exact hsame
      · exact charged_alike (v := v) (AccountState.restate_stamped _)
          (fun balance => [v.balanceEvent balance, v.buildAccountEvent (.cashFlow
            { kind := charge.kind
              asset := terms.underlying.quote
              amount := charge.amount
              instrument := some instrument
              timeExchange := due.1
              id := some ⟨toString v.cashFlowSequence⟩
              period := none
              loan := none })]) (fun _ => rfl) fun _ => rfl
  | interest asset principal =>
    dsimp only
    unfold chargeInterestBoundary chargeInterest
    have hmodel : v.unclocked.marginInterest = v.marginInterest := rfl
    rw [hmodel]
    cases v.marginInterest.bind fun model => model.charge asset principal (.boundary due.1) with
    | none => exact hsame
    | some charge =>
      dsimp only [bind, Except.bind]
      cases assert (0 ≤ charge.interest) with
      | error _ => rfl
      | ok _ =>
        by_cases hnothing : charge.interest = 0
        · simp only [hnothing, if_true]
          exact hsame
        · have hstamped : (v.unclocked.account.chargeInterest asset charge.interest due.1).map
              (Prod.map (fun account => account.updateTimeExchange 0) id) =
              (v.account.chargeInterest asset charge.interest due.1).map
                (Prod.map (fun account => account.updateTimeExchange 0) id) :=
            AccountState.restate_stamped _
          simp only [hnothing, if_false, InterestDue.time]
          have hcharged := charged_alike (v := v) hstamped
            (fun balance => [v.balanceEvent balance, v.buildAccountEvent (.cashFlow
              { kind := .marginInterest charge.rate (some principal) (some .periodic)
                asset
                amount := -charge.interest
                instrument := none
                timeExchange := due.1
                id := some ⟨toString v.cashFlowSequence⟩
                period := none
                loan := none })]) (fun _ => rfl) fun _ => rfl
          cases hx : v.account.chargeInterest asset charge.interest due.1 with
          | error fault =>
            rw [hx] at hcharged
            cases hx' : v.unclocked.account.chargeInterest asset charge.interest due.1 with
            | error fault' =>
              rw [hx'] at hcharged
              exact hcharged
            | ok r' =>
              rw [hx'] at hcharged
              exact hcharged
          | ok r =>
            rw [hx] at hcharged
            cases hx' : v.unclocked.account.chargeInterest asset charge.interest due.1 with
            | error fault' =>
              rw [hx'] at hcharged
              exact hcharged
            | ok r' =>
              rw [hx'] at hcharged
              exact hcharged

theorem chargeAll_alike (h : v.unclocked = w.unclocked) (due : List (DateTime × Due)) :
    Gather.Alike unclocked (Gather.run chargeDue v due) (Gather.run chargeDue w due) := by
  apply Gather.run_alike _ h
  intro u x item hsame
  have hfirst := chargeDue_unclocked (v := u) item
  have hsecond := chargeDue_unclocked (v := x) item
  rw [hsame] at hfirst
  exact hfirst.symm.trans hsecond

/-! ## What is charged, but for the clock -/

theorem loans_congr {account other : AccountState} (h : account.SameLoans other) :
    other.loans = account.loans := by
  have hirrefl : Std.Irrefl fun a b : AssetNameExchange × Decimal => a.1 < b.1 :=
    ⟨fun a => lt_irrefl a.1⟩
  apply List.Pairwise.eq_of_mem_iff loans_pairwise loans_pairwise
  rintro ⟨asset, principal⟩
  rw [mem_loans, mem_loans, h asset]

/-- What is charged is what it was while nothing is opened or closed, lent or repaid. -/
theorem dueBetween_congr (h : v.Accrues w) : w.dueBetween = v.dueBetween := by
  have hpositions : w.positions = v.positions := congrArg Charging.positions h.charging
  have hcosts : w.holdingCosts = v.holdingCosts :=
    congrArg (fun charging => charging.setup.holdingCosts) h.charging
  have hmodel : w.marginInterest = v.marginInterest :=
    congrArg (fun charging => charging.setup.marginInterest) h.charging
  unfold dueBetween charged heldModels
  rw [hpositions, hcosts, hmodel, loans_congr h.loans]

theorem updateTimeExchange_sameLoans {account : AccountState} :
    account.SameLoans (account.updateTimeExchange stamp) := by
  intro asset
  unfold AccountState.borrowed
  rw [AccountState.updateTimeExchange_get?]
  cases account.balances[asset]? <;> rfl

theorem dueBetween_clocked {debts : BTreeMap AssetNameExchange MarginDetails} :
    (v.clocked now debts).dueBetween = v.dueBetween := by
  have hloans : (v.account.updateTimeExchange now).loans = v.account.loans :=
    loans_congr updateTimeExchange_sameLoans
  unfold dueBetween charged heldModels
  show (fun after through => _) = _
  unfold clocked
  rw [hloans]

theorem unclocked_clocked {debts : BTreeMap AssetNameExchange MarginDetails} :
    (v.clocked now debts).unclocked = v.unclocked := by
  unfold unclocked clocked
  simp only [AccountState.updateTimeExchange_updateTimeExchange]

theorem interestAfter_unclocked : v.unclocked.interestAfter = v.interestAfter := by
  refine interestAfter_congr (v := v) (w := v.unclocked) rfl fun asset => ?_
  show 0 < (v.account.updateTimeExchange 0).borrowed asset ↔ _
  rw [updateTimeExchange_sameLoans asset]

/-- A venue is the same at an instant whatever its clock was. -/
theorem clocked_congr (h : v.unclocked = w.unclocked)
    (reportedDebt : BTreeMap AssetNameExchange MarginDetails) :
    v.clocked now reportedDebt = w.clocked now reportedDebt := by
  have hsame : ∀ u : SimulatedVenue, u.unclocked.clocked now reportedDebt =
      u.clocked now reportedDebt := by
    intro u
    unfold clocked
    rw [interestAfter_unclocked]
    unfold unclocked
    simp only [AccountState.updateTimeExchange_updateTimeExchange]
    rfl
  rw [← hsame v, h, hsame w]

/-! ## What is reported -/

/-- The events as a client is given them, and what is then known of each debt. -/
def reported (v : SimulatedVenue) (debts : BTreeMap AssetNameExchange MarginDetails)
    (events : List AccountEvent) : List AccountEvent × BTreeMap AssetNameExchange MarginDetails :=
  if v.spotMargin.isNone then (events, debts) else v.reportDebts debts events

theorem reported_congr (hexchange : w.exchange = v.exchange)
    (hmargin : w.spotMargin = v.spotMargin) : w.reported = v.reported := by
  have hevent : w.buildAccountEvent = v.buildAccountEvent := by
    funext kind
    unfold buildAccountEvent
    rw [hexchange]
  have hdebts : ∀ (events : List AccountEvent) (debts : BTreeMap AssetNameExchange MarginDetails),
      w.reportDebts debts events = v.reportDebts debts events := by
    intro events
    induction events with
    | nil => exact fun _ => rfl
    | cons event rest ih =>
      intro debts
      simp only [reportDebts, reportDebt, ih, hevent]
  funext debts events
  unfold reported
  rw [hmargin, hdebts]

theorem reportDebtChanges_eq {events : List AccountEvent} : v.reportDebtChanges events =
    ({ v with reportedDebt := (v.reported v.reportedDebt events).2 },
      (v.reported v.reportedDebt events).1) := by
  unfold reportDebtChanges reported
  split <;> rfl

theorem reportDebts_append (events more : List AccountEvent)
    (debts : BTreeMap AssetNameExchange MarginDetails) :
    v.reportDebts debts (events ++ more) =
      ((v.reportDebts debts events).1 ++ (v.reportDebts (v.reportDebts debts events).2 more).1,
        (v.reportDebts (v.reportDebts debts events).2 more).2) := by
  induction events generalizing debts with
  | nil => rfl
  | cons event rest ih =>
    rw [List.cons_append]
    simp only [reportDebts, ih, List.cons_append, List.append_assoc]

theorem reported_append (events more : List AccountEvent)
    (debts : BTreeMap AssetNameExchange MarginDetails) :
    v.reported debts (events ++ more) =
      ((v.reported debts events).1 ++ (v.reported (v.reported debts events).2 more).1,
        (v.reported (v.reported debts events).2 more).2) := by
  unfold reported
  split
  · rfl
  · exact reportDebts_append events more debts

/-! ## Charging through an instant -/

theorem refreshNextCharge_ok (h : v.Lawful) : v.refreshNextCharge =
    .ok { v with nextCharge := v.accruedThrough.bind v.chargeAfter } := by
  unfold refreshNextCharge
  cases haccrued : v.accruedThrough with
  | none => rfl
  | some after =>
    have hall : (v.heldCosts.mapM fun held => nextBoundary held.2 held.1 after) =
        .ok (v.heldCosts.map fun held => held.2.nextBoundary held.1 after) := by
      apply Except.mapM_eq_ok
      intro held hheld
      rw [nextBoundary_ok (h.holdingCosts held.2 (mem_heldCosts.1 hheld).2)]
    show (v.heldCosts.mapM (fun held => nextBoundary held.2 held.1 after) >>= _) = _
    rw [hall]
    show Except.ok _ = Except.ok _
    rw [List.filterMap_map]
    rfl

theorem refreshNextInterest_ok (h : v.Lawful)
    (hidle : v.marginInterest = none → v.nextInterest = none) : v.refreshNextInterest =
      .ok { v with
        nextInterestLoans := v.account.loansChanged
        nextInterest := v.accruedThrough.bind v.interestAfter } := by
  have hgives := refreshNextInterest_gives hidle
  cases hrefreshed : v.refreshNextInterest with
  | ok w =>
    rw [hrefreshed] at hgives
    have hw : w = _ := hgives
    rw [hw]
  | error fault =>
    exfalso
    unfold refreshNextInterest at hrefreshed
    cases hmodel : v.marginInterest with
    | none =>
      simp only [hmodel] at hrefreshed
      cases hrefreshed
    | some model =>
      simp only [hmodel] at hrefreshed
      cases haccrued : v.accruedThrough with
      | none =>
        simp only [haccrued] at hrefreshed
        cases hrefreshed
      | some after =>
        have hall : (v.account.loans.mapM fun loan =>
            nextInterestBoundary model loan.1 after) =
            .ok (v.account.loans.map fun loan => model.nextBoundary loan.1 after) := by
          apply Except.mapM_eq_ok
          intro loan _
          rw [nextInterestBoundary_ok (h.marginInterest model hmodel)]
        simp only [haccrued] at hrefreshed
        rw [hall] at hrefreshed
        cases hrefreshed

/-- Nothing is due while neither cache has come. -/
theorem dueBetween_of_passes (h : v.Cached) (hfresh : v.Fresh)
    (haccrued : v.accruedThrough = some after)
    (hcharge : ∀ due, v.nextCharge = some due → now < due)
    (hinterest : ∀ due, v.nextInterest = some due → now < due) : v.dueBetween after now = [] := by
  have hpasses : ∀ charge ∈ v.charged, ∀ due, charge.1 after = some due → now < due := by
    have hearliest : ∀ {ι : Type} (f : ι → DateTime → Option DateTime) (items : List ι),
        (∀ due, Boundary.earliest f items after = some due → now < due) →
        ∀ item ∈ items, ∀ due, f item after = some due → now < due := by
      intro ι f items hfirst item hitem due hdue
      have hmem : due ∈ items.filterMap fun item => f item after :=
        List.mem_filterMap.2 ⟨item, hitem, hdue⟩
      obtain ⟨first, hsome⟩ : ∃ first, Boundary.earliest f items after = some first :=
        Option.isSome_iff_exists.1 (List.isSome_min?_of_mem hmem)
      exact (hfirst first hsome).trans_le ((List.min?_eq_some_iff.1 hsome).2 due hmem)
    intro charge hmem
    rcases List.mem_append.1 hmem with hheld | howed
    · obtain ⟨⟨instrument, model, index⟩, hcost, rfl⟩ := List.mem_map.1 hheld
      obtain ⟨hposition, hmodel⟩ := mem_heldModels.1 hcost
      apply hearliest (fun (held : InstrumentNameExchange × HoldingCostModel) =>
        held.2.nextBoundary held.1) v.heldCosts _ (instrument, model)
        (mem_heldCosts.2 ⟨hposition, List.mem_of_getElem? hmodel⟩)
      intro due hdue
      apply hcharge due
      rw [h.charge, haccrued]
      exact hdue
    · obtain ⟨model, hmodel, hloan⟩ := List.mem_flatMap.1 howed
      obtain ⟨loan, hlent, rfl⟩ := List.mem_map.1 hloan
      apply hearliest (fun (loan : AssetNameExchange × Decimal) => model.nextBoundary loan.1)
        v.account.loans _ loan hlent
      intro due hdue
      apply hinterest due
      rw [h.interest hfresh, haccrued]
      show v.interestAfter after = some due
      unfold interestAfter
      rw [Option.mem_toList.1 hmodel]
      exact hdue
  rw [List.eq_nil_iff_forall_not_mem]
  intro due hdue
  obtain ⟨next, hcharge, hlt, hle, hfalls⟩ := (mem_dueBetween h.lawful).1 hdue
  have hnext := h.lawful.charged _ hcharge
  have hnone : span next after now = [] :=
    (span_ok hnext).2.unique (.stop (hpasses _ hcharge))
  have hmem : due.1 ∈ span next after now := (mem_span hnext).2 ⟨hlt, hle, hfalls⟩
  rw [hnone] at hmem
  cases hmem

/-- The venue once it charged through an instant, its caches computed again. -/
def throughNow (v : SimulatedVenue) (now : DateTime) : SimulatedVenue :=
  { v with
    nextCharge := v.chargeAfter now
    nextInterestLoans := v.account.loansChanged
    nextInterest := v.interestAfter now }

theorem refreshBoth_ok (h : v.Lawful) (hidle : v.marginInterest = none → v.nextInterest = none)
    (hreached : v.accruedThrough = some now) (events : List AccountEvent) : (do
      let venue ← v.refreshNextCharge
      let venue ← venue.refreshNextInterest
      return (venue, events) : Events) = .ok (v.throughNow now, events) := by
  rw [refreshNextCharge_ok h]
  have hinterest := refreshNextInterest_ok (v := { v with
    nextCharge := v.accruedThrough.bind v.chargeAfter }) (h.congr rfl) hidle
  show (({ v with nextCharge := v.accruedThrough.bind v.chargeAfter } :
    SimulatedVenue).refreshNextInterest >>= _) = _
  have hcharge : v.accruedThrough.bind v.chargeAfter = v.chargeAfter now := by
    rw [hreached]
    rfl
  have hcaches : v.accruedThrough.bind v.interestAfter = v.interestAfter now := by
    rw [hreached]
    rfl
  rw [hinterest]
  unfold throughNow
  rw [← hcharge, ← hcaches]
  rfl

/-- Charging through an instant charges what is due by it, whether or not a cache says so. -/
theorem accrue_eq (h : v.Cached) (hfresh : v.Fresh) (haccrued : v.accruedThrough = some after)
    (hle : after ≤ now) : v.accrue now =
      (Gather.run chargeDue { v with accruedThrough := some now } (v.dueBetween after now)).map
        (Prod.map (fun venue => venue.throughNow now) id) := by
  have hnothing (hdue : v.dueBetween after now = [])
      (hstands : ({ v with accruedThrough := some now } : SimulatedVenue).Cached) :
      (Gather.run chargeDue { v with accruedThrough := some now } (v.dueBetween after now)).map
        (Prod.map (fun venue => venue.throughNow now) id) =
        .ok ({ v with accruedThrough := some now }, []) := by
    rw [hdue]
    have hcharge : v.nextCharge = v.chargeAfter now := hstands.charge
    have hinterest : v.nextInterest = v.interestAfter now := hstands.interest hfresh
    have hcounted : v.account.loansChanged = v.nextInterestLoans := hfresh
    show Except.ok (({ v with accruedThrough := some now } : SimulatedVenue).throughNow now, []) =
      Except.ok ({ v with accruedThrough := some now }, [])
    have hsame : ({ v with accruedThrough := some now } : SimulatedVenue).throughNow now =
        { v with accruedThrough := some now } := by
      unfold throughNow
      show ({ v with
        accruedThrough := some now
        nextCharge := v.chargeAfter now
        nextInterestLoans := v.account.loansChanged
        nextInterest := v.interestAfter now } : SimulatedVenue) = _
      rw [← hcharge, ← hinterest, hcounted]
    rw [hsame]
  have hrefresh : v.refreshNextInterestIfLoansChanged = .ok v := by
    unfold refreshNextInterestIfLoansChanged
    exact if_neg (not_not.2 hfresh)
  rcases hle.eq_or_lt with rfl | hlt
  · have hsame : ({ v with accruedThrough := some after } : SimulatedVenue) = v := by
      rw [← haccrued]
    rw [hnothing (dueBetween_of_le h.lawful le_rfl) (by rw [hsame]; exact h), hsame]
    unfold accrue
    simp only [haccrued, le_refl, if_true]
  · unfold accrue
    simp only [haccrued, not_le.2 hlt, if_false, hrefresh]
    show (ite _ _ _ : Events) = _
    split
    · rename_i hneither
      have hpasses (next : Option DateTime) (hnot : (next.any fun due => due ≤ now) = false) :
          ∀ due, next = some due → now < due := by
        rintro due rfl
        exact not_le.1 (of_decide_eq_false hnot)
      obtain ⟨hcharge, hinterest⟩ : (v.nextCharge.any fun due => due ≤ now) = false ∧
          (v.nextInterest.any fun due => due ≤ now) = false := by
        simpa only [Bool.and_eq_true, Bool.not_eq_true'] using hneither
      have hstands := h.onward hfresh haccrued hle (hpasses _ hcharge) (hpasses _ hinterest)
      rw [hnothing (dueBetween_of_passes h hfresh haccrued (hpasses _ hcharge)
        (hpasses _ hinterest)) hstands]
      rfl
    · have hdue : ({ v with accruedThrough := some now } : SimulatedVenue).dueThrough after now =
          .ok (v.dueBetween after now) := dueThrough_eq (h.lawful.congr rfl)
      rw [hdue]
      show (Gather.run chargeDue { v with accruedThrough := some now } (v.dueBetween after now) >>=
        _) = _
      have hall := chargeAll_accrues (v := { v with accruedThrough := some now })
        (v.dueBetween after now)
      cases hrun : Gather.run chargeDue { v with accruedThrough := some now }
          (v.dueBetween after now) with
      | error fault => rfl
      | ok r =>
        rw [hrun] at hall
        have hall : ({ v with accruedThrough := some now } : SimulatedVenue).Accrues r.1 := hall
        have hlawful : r.1.Lawful := h.lawful.congr (congrArg Charging.setup hall.charging)
        have hcharged : r.1.Charged :=
          Charged.ledger (v := { v with accruedThrough := some now })
            ⟨h.lawful.congr rfl, h.loans, h.idle⟩ hall.charging hall.counts
        exact refreshBoth_ok hlawful hcharged.idle
          (congrArg Charging.accruedThrough hall.charging) r.2

/-! ## Moving the clock -/

/-- The venue's clock may be moved on to an instant without anything else happening: it charged
    before, no open order expires by the instant, and the venue does not liquidate. -/
structure Undisturbed (v : SimulatedVenue) (through : DateTime) : Prop where
  cached : v.Cached
  fresh : v.Fresh
  started : ∃ after, v.accruedThrough = some after ∧ after ≤ through
  calm : v.spotMargin.bind SpotMarginConfig.liquidation = none
  expires : ∀ deadline, v.account.ordersOpen.nextExpiry = some deadline → through < deadline

variable [Build] [RandomStream] [DecimalScale]

omit [Build] [RandomStream] [DecimalScale] in
theorem expiredAsOf_nil {book : OpenOrders} {through : DateTime}
    (h : ∀ deadline, book.nextExpiry = some deadline → through < deadline) :
    book.expiredAsOf through = [] := by
  unfold OpenOrders.expiredAsOf
  unfold OpenOrders.nextExpiry at h
  cases hlist : book.expiries.toList with
  | nil => rfl
  | cons first rest =>
    rw [hlist] at h
    have hlater := h first.expiry rfl
    rw [List.takeWhile_cons_of_neg (by simpa using hlater)]
    rfl

/-- Nothing but the charges happens to an undisturbed venue. -/
theorem sweep_nothing (hcalm : v.spotMargin.bind SpotMarginConfig.liquidation = none)
    (hexpires : ∀ deadline, v.account.ordersOpen.nextExpiry = some deadline → now < deadline) :
    (Gather.andThen (v.sweepExpired now) fun venue => venue.checkMargin now) = .ok (v, []) := by
  have hswept : v.sweepExpired now = .ok (v, []) := by
    unfold sweepExpired
    rw [expiredAsOf_nil hexpires]
    rfl
  have hchecked : v.checkMargin now = .ok (v, []) := by
    unfold checkMargin
    rw [hcalm]
    cases v.spotMargin <;> rfl
  unfold Gather.andThen
  rw [hswept]
  show (v.checkMargin now >>= _) = _
  rw [hchecked]
  rfl

omit [Build] [RandomStream] [DecimalScale] in
theorem finish_of_fresh (h : v.Fresh) (events : List AccountEvent) :
    v.finish events = .ok (v.reportDebtChanges events) := by
  have hsame : ¬ v.account.loansChanged ≠ v.nextInterestLoans := not_not.2 h
  unfold finish refreshNextInterestIfLoansChanged
  rw [if_neg hsame]
  rfl

/-- Moving the clock charges what falls due, and does nothing else. -/
theorem advanceTime_eq (h : v.Undisturbed now) (haccrued : v.accruedThrough = some after)
    (hle : after ≤ now) : v.advanceTime now =
      (Gather.run chargeDue v (v.dueBetween after now)).map fun r =>
        (r.1.clocked now (v.reported v.reportedDebt r.2).2,
          (v.reported v.reportedDebt r.2).1) := by
  have hreached : v.notBeforeReached now = now := by
    unfold notBeforeReached
    rw [haccrued]
    exact max_eq_right hle
  have halike := chargeAll_alike (v := { v with accruedThrough := some now }) (w := v) rfl
    (v.dueBetween after now)
  have hall := chargeAll_accrues (v := { v with accruedThrough := some now })
    (v.dueBetween after now)
  unfold advanceTime
  rw [hreached]
  dsimp only
  rw [accrue_eq h.cached h.fresh haccrued hle]
  unfold Gather.Alike at halike
  cases hrun : Gather.run chargeDue { v with accruedThrough := some now }
      (v.dueBetween after now) with
  | error fault =>
    rw [hrun] at halike
    cases hrun' : Gather.run chargeDue v (v.dueBetween after now) with
    | error fault' =>
      rw [hrun'] at halike
      cases halike
      rfl
    | ok r =>
      rw [hrun'] at halike
      cases halike
  | ok r =>
    rw [hrun] at halike hall
    have hall : ({ v with accruedThrough := some now } : SimulatedVenue).Accrues r.1 := hall
    cases hrun' : Gather.run chargeDue v (v.dueBetween after now) with
    | error fault' =>
      rw [hrun'] at halike
      cases halike
    | ok r' =>
      rw [hrun'] at halike
      obtain ⟨hsame, hevents⟩ := Prod.mk.inj (Except.ok.inj halike)
      have hsame : r.1.unclocked = r'.1.unclocked := hsame
      have hevents : r.2 = r'.2 := hevents
      have hmargin : r.1.spotMargin = v.spotMargin :=
        congrArg (fun charging => charging.setup.spotMargin) hall.charging
      have hexchange : r.1.exchange = v.exchange :=
        congrArg (fun charging => charging.setup.exchange) hall.charging
      have hswept := @sweep_nothing ((r.1.throughNow now).reached now) now _ _ _
        (by rw [show ((r.1.throughNow now).reached now).spotMargin = v.spotMargin from hmargin]
            exact h.calm)
        (by rw [show ((r.1.throughNow now).reached now).account.ordersOpen =
              v.account.ordersOpen from hall.ordersOpen]
            exact h.expires)
      have hfinished := finish_of_fresh (v := (r.1.throughNow now).reached now) rfl r.2
      have hclocked (debts : BTreeMap AssetNameExchange MarginDetails) :
          ({ (r.1.throughNow now).reached now with reportedDebt := debts } : SimulatedVenue) =
            r.1.clocked now debts := by
        have hreached : r.1.accruedThrough = some now :=
          congrArg Charging.accruedThrough hall.charging
        unfold clocked reached throughNow
        rw [← hreached]
      rw [reportDebtChanges_eq, hclocked] at hfinished
      have hdebts : ((r.1.throughNow now).reached now).reported
          ((r.1.throughNow now).reached now).reportedDebt r.2 =
          v.reported v.reportedDebt r'.2 := by
        have hsame : ((r.1.throughNow now).reached now).reported = v.reported :=
          reported_congr hexchange hmargin
        have hdebt : ((r.1.throughNow now).reached now).reportedDebt = v.reportedDebt :=
          hall.reportedDebt
        rw [hsame, hdebt, hevents]
      rw [hdebts, clocked_congr hsame] at hfinished
      show (Gather.andThen (.ok (r.1.throughNow now, r.2)) _ >>= _) = Except.ok _
      unfold Gather.andThen at hswept ⊢
      show (((((r.1.throughNow now).reached now).sweepExpired now >>= _) >>= _) >>= _) = _
      rw [hswept]
      show ((r.1.throughNow now).reached now).finish (r.2 ++ []) = _
      rw [List.append_nil, hfinished]

/-! ## Moving it in steps -/

omit [Build] [RandomStream] [DecimalScale] in
theorem Undisturbed.sooner (h : v.Undisturbed now) (haccrued : v.accruedThrough = some after)
    (hafter : after ≤ mid) (hmid : mid ≤ now) : v.Undisturbed mid :=
  ⟨h.cached, h.fresh, ⟨after, haccrued, hafter⟩, h.calm, fun deadline hnext =>
    hmid.trans_lt (h.expires deadline hnext)⟩

omit [Build] [RandomStream] [DecimalScale] in
/-- A charged venue moved on to an instant is still undisturbed through a later one. -/
theorem Undisturbed.clocked (h : v.Undisturbed now) (hcharged : v.Accrues w) (hmid : mid ≤ now)
    (debts : BTreeMap AssetNameExchange MarginDetails) : (w.clocked mid debts).Undisturbed now where
  cached := by
    have hstands : w.Charged := h.cached.toCharged.ledger hcharged.charging hcharged.counts
    have hstamped : w.account.Counts (w.account.updateTimeExchange mid) :=
      AccountState.updateTimeExchange_counts
    refine ⟨⟨hstands.lawful.congr rfl, hstamped.lawful hstands.loans, fun hmodel => ?_⟩, rfl,
      le_rfl, fun _ => ?_⟩
    · have hmodel : w.marginInterest = none := hmodel
      show w.interestAfter mid = none
      unfold interestAfter
      rw [hmodel]
      rfl
    · show w.interestAfter mid = (w.clocked mid debts).interestAfter mid
      rw [interestAfter_congr (v := w) (w := w.clocked mid debts) rfl
        (hstamped.same hstands.loans rfl)]
  fresh := rfl
  started := ⟨mid, rfl, hmid⟩
  calm := by
    have hmargin : w.spotMargin = v.spotMargin :=
      congrArg (fun charging => charging.setup.spotMargin) hcharged.charging
    show w.spotMargin.bind _ = none
    rw [hmargin]
    exact h.calm
  expires := by
    show ∀ deadline, w.account.ordersOpen.nextExpiry = some deadline → now < deadline
    rw [hcharged.ordersOpen]
    exact h.expires

/-- An instant already passed is taken for the one the venue reached. -/
theorem advanceTime_reached (haccrued : v.accruedThrough = some after) :
    v.advanceTime mid = v.advanceTime (max after mid) := by
  have hsame : v.notBeforeReached (max after mid) = v.notBeforeReached mid := by
    unfold notBeforeReached
    rw [haccrued]
    exact max_eq_right (le_max_left after mid)
  unfold advanceTime
  rw [hsame]

theorem Undisturbed.advanceTime (h : v.Undisturbed now) (hmid : mid ≤ now) :
    (v.advanceTime mid).Gives fun r => r.1.Undisturbed now := by
  obtain ⟨after, haccrued, hafter⟩ := h.started
  have hmid : max after mid ≤ now := max_le hafter hmid
  have hafter : after ≤ max after mid := le_max_left after mid
  rw [advanceTime_reached haccrued,
    advanceTime_eq (h.sooner haccrued hafter hmid) haccrued hafter]
  have hall := chargeAll_accrues (v := v) (v.dueBetween after (max after mid))
  cases hrun : Gather.run chargeDue v (v.dueBetween after (max after mid)) with
  | error fault => exact not_false
  | ok r =>
    rw [hrun] at hall
    exact h.clocked hall hmid _

/-- Moving the clock on, and on again, is moving it once. -/
theorem advanceTime_andThen (h : v.Undisturbed now) (hmid : mid ≤ now) :
    (Gather.andThen (v.advanceTime mid) fun venue => venue.advanceTime now) =
      v.advanceTime now := by
  obtain ⟨after, haccrued, hafter⟩ := h.started
  have hmid : max after mid ≤ now := max_le hafter hmid
  have hafter : after ≤ max after mid := le_max_left after mid
  rw [advanceTime_reached haccrued]
  generalize max after mid = reached at *
  rw [advanceTime_eq (h.sooner haccrued hafter hmid) haccrued hafter,
    advanceTime_eq h haccrued (hafter.trans hmid),
    dueBetween_append h.cached.lawful hafter hmid, Gather.run_append]
  have hall := chargeAll_accrues (v := v) (v.dueBetween after reached)
  cases hrun : Gather.run chargeDue v (v.dueBetween after reached) with
  | error fault => rfl
  | ok r =>
    rw [hrun] at hall
    have hall : v.Accrues r.1 := hall
    generalize hfirst : v.reported v.reportedDebt r.2 = first
    have hstill : (r.1.clocked reached first.2).Undisturbed now := h.clocked hall hmid _
    have hreports : (r.1.clocked reached first.2).reported = v.reported :=
      reported_congr (congrArg (fun charging => charging.setup.exchange) hall.charging)
        (congrArg (fun charging => charging.setup.spotMargin) hall.charging)
    have hnext := advanceTime_eq hstill rfl hmid
    rw [dueBetween_clocked, dueBetween_congr hall, hreports] at hnext
    show ((r.1.clocked reached (v.reported v.reportedDebt r.2).2).advanceTime now >>= _) =
      Except.map _ (Gather.run chargeDue r.1 (v.dueBetween reached now) >>= _)
    rw [hfirst, hnext]
    have halike := chargeAll_alike (v := r.1.clocked reached first.2) (w := r.1)
      unclocked_clocked (v.dueBetween reached now)
    unfold Gather.Alike at halike
    cases hrun : Gather.run chargeDue (r.1.clocked reached first.2) (v.dueBetween reached now) with
    | error fault =>
      rw [hrun] at halike
      cases hrun' : Gather.run chargeDue r.1 (v.dueBetween reached now) with
      | error fault' =>
        rw [hrun'] at halike
        cases halike
        rfl
      | ok r' =>
        rw [hrun'] at halike
        cases halike
    | ok s =>
      rw [hrun] at halike
      cases hrun' : Gather.run chargeDue r.1 (v.dueBetween reached now) with
      | error fault' =>
        rw [hrun'] at halike
        cases halike
      | ok s' =>
        rw [hrun'] at halike
        obtain ⟨hsame, hevents⟩ := Prod.mk.inj (Except.ok.inj halike)
        have hsame : s.1.unclocked = s'.1.unclocked := hsame
        have hevents : s.2 = s'.2 := hevents
        show Except.ok (s.1.clocked now (v.reported first.2 s.2).2,
          first.1 ++ (v.reported first.2 s.2).1) =
            Except.ok (s'.1.clocked now (v.reported v.reportedDebt (r.2 ++ s'.2)).2,
              (v.reported v.reportedDebt (r.2 ++ s'.2)).1)
        rw [reported_append, hfirst, hevents, clocked_congr hsame]

/-- Moving the clock through any instants is moving it to the last. -/
theorem advanceTime_run {instants : List DateTime} (h : v.Undisturbed now)
    (hinstants : ∀ instant ∈ instants, instant ≤ now) :
    Gather.run (fun venue instant => venue.advanceTime instant) v (instants ++ [now]) =
      v.advanceTime now := by
  induction instants generalizing v with
  | nil =>
    show (v.advanceTime now >>= _) = _
    cases hnow : v.advanceTime now with
    | error fault => rfl
    | ok r =>
      show Except.ok (r.1, r.2 ++ []) = _
      rw [List.append_nil]
  | cons instant rest ih =>
    have hinstant : instant ≤ now := hinstants instant List.mem_cons_self
    rw [← advanceTime_andThen h hinstant]
    show Gather.andThen (v.advanceTime instant)
      (fun venue => Gather.run _ venue (rest ++ [now])) = _
    apply Gather.andThen_congr
    intro w out hw
    apply ih ((h.advanceTime hinstant).result hw)
    exact fun later hlater => hinstants later (List.mem_cons_of_mem _ hlater)

end SimulatedVenue

end Rustrade.Mock
