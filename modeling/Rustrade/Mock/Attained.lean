import Rustrade.Mock.Elapsed
import Rustrade.Mock.Placed
import Rustrade.Mock.Reducing

/-!
# Every venue a driver comes to

A driver builds or restores a venue, sets what it charges by and gives it inputs. What holds of
every venue it comes to: the next deadline is exact, the book agrees with its orders, each boundary
that time passes is charged once, and it does not matter in how many steps time passes.
-/

set_option autoImplicit false

namespace Rustrade.Mock

/-! ## Deadlines -/

namespace OpenOrders

/-- The deadlines of the open orders. -/
def deadlines (book : OpenOrders) : Set DateTime :=
  {deadline | ∃ (cid : ClientOrderId) (resting : RestingOrder), book.byId[cid]? = some resting ∧
    deadlineOf resting.order = some deadline}

/-- The next to expire is the first of the open orders' deadlines. -/
theorem Indexed.nextExpiry {book : OpenOrders} (h : book.Indexed) :
    Boundary.First book.deadlines book.nextExpiry := by
  have hordered : book.expiries.toList.Pairwise fun a b => a.expiry ≤ b.expiry := by
    apply Std.ExtTreeSet.ordered_toList.imp
    intro a b hlt
    have hlex : toLex (a.expiry, a.cid) < toLex (b.expiry, b.cid) := compare_lt_iff_lt.1 hlt
    rw [Prod.Lex.toLex_lt_toLex] at hlex
    rcases hlex with hless | ⟨hsame, -⟩
    · exact hless.le
    · exact hsame.le
  have hmem : ∀ deadline, deadline ∈ book.deadlines ↔
      ∃ entry ∈ book.expiries.toList, entry.expiry = deadline := by
    intro deadline
    constructor
    · rintro ⟨cid, hopen⟩
      exact ⟨⟨deadline, cid⟩, Std.ExtTreeSet.mem_toList.2 ((h.expiries _ _).2 hopen), rfl⟩
    · rintro ⟨entry, hentry, rfl⟩
      exact ⟨entry.cid, (h.expiries _ _).1 (Std.ExtTreeSet.mem_toList.1 hentry)⟩
  unfold OpenOrders.nextExpiry
  cases hlist : book.expiries.toList with
  | nil =>
    rw [hlist] at hmem
    exact Set.eq_empty_of_forall_notMem fun deadline hdeadline => by
      obtain ⟨_, hentry, _⟩ := (hmem deadline).1 hdeadline
      exact List.not_mem_nil hentry
  | cons first rest =>
    rw [hlist] at hmem hordered
    refine ⟨(hmem _).2 ⟨first, List.mem_cons_self, rfl⟩, fun deadline hdeadline => ?_⟩
    obtain ⟨entry, hentry, rfl⟩ := (hmem deadline).1 hdeadline
    rcases List.mem_cons.1 hentry with rfl | hrest
    · exact le_rfl
    · exact (List.pairwise_cons.1 hordered).1 entry hrest

end OpenOrders

/-! ## What is seeded -/

namespace AccountState

theorem seedOrder_places {seeded : OpenOrders × BTreeMap ClientOrderId (VenueOrder Cancelled)}
    {order : VenueOrder OrderState} (h : seeded.1.Places ∅) :
    (seedOrder seeded order).Gives fun r => r.1.Places ∅ := by
  obtain ⟨ordersOpen, ordersCancelled⟩ := seeded
  unfold seedOrder
  dsimp only
  split
  · split
    · exact h
    · split
      · exact not_false
      · split
        · exact not_false
        · rename_i booked hbooked
          exact OpenOrders.Places.insert h hbooked
  · split
    · exact not_false
    · exact h
  · exact h

theorem tryFrom_places {snapshot : AccountSnapshot} :
    (tryFrom snapshot).Gives fun account => account.ordersOpen.Places ∅ := by
  have hseeded : ((snapshot.instruments.flatMap fun snapshot => snapshot.orders).foldlM seedOrder
      (OpenOrders.default, ∅)).Gives fun seeded => seeded.1.Places ∅ :=
    Except.Ensures.foldlM _ (fun _ _ h => seedOrder_places h) OpenOrders.default_places _
  apply hseeded.bind
  exact fun _ hr => hr

end AccountState

namespace SimulatedVenue

variable {v w : SimulatedVenue} {after now through : DateTime}

variable {config : MockExecutionConfig}
  {instruments : BTreeMap InstrumentNameExchange VenueInstrument} {regime : VenueRegime}
  {snapshot : SimulatedVenueSnapshot}

theorem withRegime_places (h : withRegime config instruments regime = .ok v) :
    v.account.ordersOpen.Places ∅ := by
  obtain ⟨positions, -, h⟩ := Except.bind_eq_ok.1 h
  obtain ⟨seeded, hseeded, h⟩ := Except.bind_eq_ok.1 h
  cases Except.pure_eq_ok.1 h
  have hplaces : seeded.ordersOpen.Places ∅ := by
    cases htried : AccountState.tryFrom config.initialState with
    | error _ =>
      rw [htried] at hseeded
      cases hseeded
    | ok account =>
      rw [htried] at hseeded
      cases hseeded
      exact AccountState.tryFrom_places.result htried
  show (if config.spotMargin.isSome then seeded.enableMargin else seeded).ordersOpen.Places ∅
  split
  · exact hplaces
  · exact hplaces

theorem fromSnapshot_places
    (hentries : ∀ entry ∈ snapshot.account.ordersOpen, entry.Lawful)
    (h : fromSnapshot config instruments snapshot = .ok (.ok v)) :
    v.account.ordersOpen.Places ∅ := by
  unfold fromSnapshot at h
  split at h
  · cases h
  split at h
  · cases h
  rename_i account haccount
  have hplaces : account.ordersOpen.Places ∅ := by
    obtain ⟨ordersOpen, hopen, haccount⟩ := Except.bind_eq_ok.1 haccount
    obtain ⟨ordersCancelled, -, haccount⟩ := Except.bind_eq_ok.1 haccount
    obtain ⟨ordersFilled, -, haccount⟩ := Except.bind_eq_ok.1 haccount
    obtain ⟨ordersExpired, -, haccount⟩ := Except.bind_eq_ok.1 haccount
    cases Except.pure_eq_ok.1 haccount
    show ordersOpen.Places ∅
    unfold AccountState.openOrders at hopen
    split at hopen
    · rename_i book hbook
      cases hopen
      exact OpenOrders.fromEntries_places hentries hbook
    · cases hopen
  obtain ⟨charged, hcharge, h⟩ := Except.bind_eq_ok.1 h
  obtain ⟨venue, hinterest, h⟩ := Except.bind_eq_ok.1 h
  cases Except.pure_eq_ok.1 h
  have hcharged := refreshNextCharge_gives.result hcharge
  have hkept := (refreshNextInterest_sameOrders.result hinterest).keepsPlaces
  apply hkept
  rw [hcharged]
  exact hplaces

theorem withMarginInterest_places {model : MarginInterestModel} :
    (v.withMarginInterest model).Gives v.KeepsPlaces := by
  apply Except.gives_true.bind
  exact fun _ _ => refreshNextInterest_sameOrders.mono fun _ h => h.keepsPlaces

/-! ## The boundaries to come -/

/-- The next boundary of each position, by each model that charges for it. -/
def costBoundaries (v : SimulatedVenue) : Set DateTime :=
  {boundary | ∃ after ∈ v.accruedThrough, ∃ instrument : InstrumentNameExchange,
    v.positions[instrument]?.isSome = true ∧
      ∃ model ∈ v.holdingCosts, model.nextBoundary instrument after = some boundary}

/-- The next boundary of each loan. -/
def interestBoundaries (v : SimulatedVenue) : Set DateTime :=
  {boundary | ∃ after ∈ v.accruedThrough, ∃ model ∈ v.marginInterest,
    ∃ asset, 0 < v.account.borrowed asset ∧ model.nextBoundary asset after = some boundary}

theorem costBoundaries_first :
    Boundary.First v.costBoundaries (v.accruedThrough.bind v.chargeAfter) := by
  cases haccrued : v.accruedThrough with
  | none =>
    apply Set.eq_empty_of_forall_notMem
    rintro boundary ⟨after, hafter, -⟩
    rw [haccrued] at hafter
    cases hafter
  | some after =>
    have hmem : v.costBoundaries =
        {t | ∃ held ∈ v.heldCosts, held.2.nextBoundary held.1 after = some t} := by
      ext boundary
      constructor
      · rintro ⟨_, hafter, instrument, hheld, model, hmodel, hfalls⟩
        rw [haccrued] at hafter
        cases hafter
        exact ⟨(instrument, model), mem_heldCosts.2 ⟨hheld, hmodel⟩, hfalls⟩
      · rintro ⟨⟨instrument, model⟩, hcost, hfalls⟩
        obtain ⟨hheld, hmodel⟩ := mem_heldCosts.1 hcost
        exact ⟨after, haccrued, instrument, hheld, model, hmodel, hfalls⟩
    rw [hmem]
    exact Boundary.earliest_first

theorem interestBoundaries_first :
    Boundary.First v.interestBoundaries (v.accruedThrough.bind v.interestAfter) := by
  have hnone (h : ∀ after ∈ v.accruedThrough, ∀ model ∈ v.marginInterest, False) :
      v.interestBoundaries = ∅ := by
    apply Set.eq_empty_of_forall_notMem
    rintro boundary ⟨after, hafter, model, hmodel, -⟩
    exact h after hafter model hmodel
  cases haccrued : v.accruedThrough with
  | none =>
    apply hnone
    intro after hafter
    rw [haccrued] at hafter
    cases hafter
  | some after =>
    show Boundary.First v.interestBoundaries (v.interestAfter after)
    unfold interestAfter
    cases hmodel : v.marginInterest with
    | none =>
      apply hnone
      intro _ _ model howed
      rw [hmodel] at howed
      cases howed
    | some model =>
      have hmem : v.interestBoundaries =
          {t | ∃ loan ∈ v.account.loans, model.nextBoundary loan.1 after = some t} := by
        ext boundary
        constructor
        · rintro ⟨_, hafter, _, hcharges, asset, howed, hfalls⟩
          rw [haccrued] at hafter
          cases hafter
          rw [hmodel] at hcharges
          cases hcharges
          exact ⟨(asset, v.account.borrowed asset), mem_loans.2 ⟨howed, rfl⟩, hfalls⟩
        · rintro ⟨⟨asset, principal⟩, hloan, hfalls⟩
          exact ⟨after, haccrued, model, hmodel, asset, (mem_loans.1 hloan).1, hfalls⟩
      rw [hmem]
      exact Boundary.earliest_first

section Runs

variable [Build] [RandomStream] [DecimalScale]

/-- The venues a driver comes to: it builds or restores one, sets what it charges by, and gives it
    inputs. No loan is seeded of less than nothing, and none of the orders restored as unranked has
    a price. -/
inductive Attained : SimulatedVenue → Prop where
  | built {config : MockExecutionConfig}
      {instruments : BTreeMap InstrumentNameExchange VenueInstrument} {regime : VenueRegime}
      {v : SimulatedVenue} : (∀ balance ∈ config.initialState.balances,
        0 ≤ balance.balance.borrowed) → withRegime config instruments regime = .ok v → Attained v
  | restored {config : MockExecutionConfig}
      {instruments : BTreeMap InstrumentNameExchange VenueInstrument}
      {snapshot : SimulatedVenueSnapshot} {v : SimulatedVenue} :
      (∀ balance ∈ snapshot.account.balances, 0 ≤ balance.balance.borrowed) →
        (∀ entry ∈ snapshot.account.ordersOpen, entry.Lawful) →
          fromSnapshot config instruments snapshot = .ok (.ok v) → Attained v
  | holdingCosts {v w : SimulatedVenue} {models : List HoldingCostModel} : Attained v →
      (∀ model ∈ models, model.Lawful) → v.withHoldingCosts models = .ok w → Attained w
  | marginInterest {v w : SimulatedVenue} {model : MarginInterestModel} : Attained v →
      model.Lawful → v.withMarginInterest model = .ok w → Attained w
  | fillModel {v : SimulatedVenue} {model : FillModel} : Attained v →
      Attained (v.withFillModel model)
  | shortability {v : SimulatedVenue} {provider : ShortabilityProvider} : Attained v →
      Attained (v.withShortability provider)
  | checkpoint {v : SimulatedVenue} : Attained v → Attained v.checkpoint.2
  | input {v w : SimulatedVenue} {input : Input} {answer : Answer} : Attained v →
      v.step input = .ok (w, answer) → Attained w

namespace Attained

/-- Between inputs both caches are exact. -/
theorem cached (h : Attained v) : v.Cached ∧ v.Fresh := by
  induction h with
  | built hseeds hbuilt => exact withRegime_cached hseeds hbuilt
  | restored hseeds _ hrestored => exact fromSnapshot_cached hseeds hrestored
  | holdingCosts _ hmodels hset ih =>
    obtain ⟨hcached, hfresh⟩ := (withHoldingCosts_cached ih.1 hmodels).result hset
    exact ⟨hcached, hfresh ih.2⟩
  | marginInterest _ hmodel hset ih => exact (withMarginInterest_cached ih.1 hmodel).result hset
  | fillModel _ ih | shortability _ ih | checkpoint _ ih =>
    obtain ⟨hcached, hfresh⟩ := ih
    exact ⟨⟨⟨⟨hcached.lawful.holdingCosts, hcached.lawful.marginInterest⟩, hcached.loans,
      hcached.idle⟩, hcached.charge, hcached.behind, hcached.interest⟩, hfresh⟩
  | input _ hstep ih =>
    exact ⟨(step_cached ih.1 _).result hstep, (step_fresh ih.2 _).result hstep⟩

/-- Between inputs no order is handed out. -/
theorem places (h : Attained v) : v.account.ordersOpen.Places ∅ := by
  induction h with
  | built _ hbuilt => exact withRegime_places hbuilt
  | restored _ hentries hrestored => exact fromSnapshot_places hentries hrestored
  | holdingCosts _ _ hset ih =>
    rw [refreshNextCharge_gives.result hset]
    exact ih
  | marginInterest _ _ hset ih =>
    exact withMarginInterest_places.result hset _ ih
  | fillModel _ ih => exact ih
  | shortability _ ih => exact ih
  | checkpoint _ ih => exact ih
  | input _ hstep ih =>
    exact (places_path.step _ fun _ _ _ _ => trivial).result hstep _ ih

/-- Inputs drive a venue on to others a driver comes to. -/
theorem answers {inputs : List Input} {answers : List Answer} (h : Attained v)
    (hrun : v.answers inputs = .ok (w, answers)) : Attained w := by
  have hinput (u : SimulatedVenue) (input : Input) (hu : Attained u) :
      (step u input).Gives fun r => Attained r.1 := by
    cases hgives : step u input with
    | error fault => exact id
    | ok answered => exact hu.input hgives
  have hreached : (v.answers inputs).Gives fun r => True ∧ Attained r.1 := by
    unfold SimulatedVenue.answers
    apply Gather.run_ensures (P := fun (u : SimulatedVenue) _ => Attained u)
      (R := fun (_ : SimulatedVenue) (_ : List Answer) _ => True) (fun _ => trivial)
      (fun _ _ => trivial) _ h
    intro u input _ hu
    apply (hinput u input hu).bind
    exact fun _ hr => ⟨trivial, hr⟩
  exact (hreached.result hrun).2

theorem of_chargedBy {models : List HoldingCostModel} {inputs : List Input}
    {check : SimulatedVenue → Bool} (hmodels : ∀ model ∈ models, model.Lawful)
    (h : chargedBy models inputs check = true) : ∃ v, Attained v ∧ check v = true := by
  have hseeds : ∀ balance ∈ cfdVenue.initialState.balances, 0 ≤ balance.balance.borrowed := by
    decide +kernel
  unfold chargedBy at h
  split at h
  · rename_i venue hbuilt
    split at h
    · rename_i charged hcharged
      split at h
      · rename_i after answered hrun
        exact ⟨after, answers (.holdingCosts (.built hseeds hbuilt) hmodels hcharged) hrun, h⟩
      · cases h
    · cases h
  · cases h

omit [Build] [RandomStream] [DecimalScale] in
theorem chargedAtTen_lawful : chargedAtTen.Lawful := by
  intro instrument
  constructor
  · intro after boundary hnext
    unfold chargedAtTen at hnext
    dsimp only at hnext
    split at hnext
    · cases hnext
      assumption
    · cases hnext
  · intro after later hle hpast
    unfold chargedAtTen at hpast ⊢
    dsimp only at hpast ⊢
    split at hpast
    · rename_i hbefore
      rw [if_pos hbefore, if_pos (hpast 10 rfl)]
    · rename_i hafter
      rw [if_neg hafter, if_neg fun hlt => hafter (hle.trans_lt hlt)]

omit [Build] [RandomStream] [DecimalScale] in
/-- A contract is held that is charged for at ten. -/
theorem charged_at_ten : ∃ (_ : Build) (_ : RandomStream) (_ : DecimalScale) (v : SimulatedVenue),
    Attained v ∧ v.accruedThrough = some 0 ∧ v.nextDeadline = some 10 ∧
      v.spotMargin.bind SpotMarginConfig.liquidation = none ∧
        v.account.ordersOpen.nextExpiry = none := by
  let _ : Build := ⟨true⟩
  let _ : RandomStream := ⟨fun _ _ => 0, fun _ _ => by norm_num⟩
  let _ : DecimalScale := ⟨fun _ => 0⟩
  have hcharged : chargedBy [chargedAtTen] buysAll (fun v => decide (v.accruedThrough = some 0) &&
      decide (v.nextDeadline = some 10) &&
      (v.spotMargin.bind SpotMarginConfig.liquidation).isNone &&
      decide (v.account.ordersOpen.nextExpiry = none)) = true := by
    decide +kernel
  have hmodels : ∀ model ∈ [chargedAtTen], model.Lawful := by
    intro model hmodel
    rw [List.mem_singleton.1 hmodel]
    exact chargedAtTen_lawful
  obtain ⟨v, hattained, hchecked⟩ := of_chargedBy hmodels hcharged
  simp only [Bool.and_eq_true, decide_eq_true_eq, Option.isNone_iff_eq_none] at hchecked
  obtain ⟨⟨⟨haccrued, hnext⟩, hcalm⟩, hexpiry⟩ := hchecked
  exact ⟨_, _, _, v, hattained, haccrued, hnext, hcalm, hexpiry⟩

/-! ## The book -/

/-- The venue's next deadline is the first instant at which something happens of its own accord: an
    open order expires, a position is charged for, or a loan is. -/
theorem nextDeadline_first (h : Attained v) : Boundary.First
    (v.account.ordersOpen.deadlines ∪ v.costBoundaries ∪ v.interestBoundaries) v.nextDeadline := by
  obtain ⟨hcached, hfresh⟩ := h.cached
  have hexpiry := h.places.indexed.nextExpiry
  have hcharge : Boundary.First v.costBoundaries v.nextCharge := by
    rw [hcached.charge]
    exact costBoundaries_first
  have hinterest : Boundary.First v.interestBoundaries v.nextInterest := by
    rw [hcached.interest hfresh]
    exact interestBoundaries_first
  exact (hexpiry.toList.append hcharge.toList).append hinterest.toList

omit [Build] [RandomStream] [DecimalScale] in
/-- The contract is what the venue waits for. -/
theorem nextDeadline_first_charged : ∃ v : SimulatedVenue, IsLeast
    (v.account.ordersOpen.deadlines ∪ v.costBoundaries ∪ v.interestBoundaries) 10 := by
  obtain ⟨_, _, _, v, hattained, -, hnext, -⟩ := charged_at_ten
  exact ⟨v, hattained.nextDeadline_first.eq_some_iff.1 hnext⟩

/-! ## What time charges -/

/-- What falls due of a span is each boundary of each position by each model, and of each loan:
    once, and in the order it is charged. -/
theorem dueThrough_each (h : Attained v) : ∃ due, v.dueThrough after through = .ok due ∧
    due.Nodup ∧ (due.Pairwise fun a b => Due.before a b = true) ∧
    (∀ boundary instrument index, (boundary, Due.holding instrument index) ∈ due ↔
      v.positions[instrument]?.isSome = true ∧ ∃ model, v.holdingCosts[index]? = some model ∧
        after < boundary ∧ boundary ≤ through ∧
          Boundary.Falls (model.nextBoundary instrument) boundary) ∧
    ∀ boundary asset principal, (boundary, Due.interest asset principal) ∈ due ↔
      0 < v.account.borrowed asset ∧ principal = v.account.borrowed asset ∧
        ∃ model ∈ v.marginInterest, after < boundary ∧ boundary ≤ through ∧
          Boundary.Falls (model.nextBoundary asset) boundary := by
  have hlawful := h.cached.1.lawful
  refine ⟨_, dueThrough_eq hlawful, dueBetween_nodup hlawful, dueBetween_pairwise, ?_, ?_⟩
  · intro boundary instrument index
    rw [mem_dueBetween hlawful]
    constructor
    · rintro ⟨next, hcharge, hspan⟩
      rcases List.mem_append.1 hcharge with hheld | howed
      · obtain ⟨⟨held, model, _⟩, hcost, hsame⟩ := List.mem_map.1 hheld
        obtain ⟨rfl, hdue⟩ := Prod.mk.inj hsame
        cases hdue
        obtain ⟨hposition, hmodel⟩ := mem_heldModels.1 hcost
        exact ⟨hposition, model, hmodel, hspan⟩
      · obtain ⟨model, _, hloan⟩ := List.mem_flatMap.1 howed
        obtain ⟨loan, _, hsame⟩ := List.mem_map.1 hloan
        cases (Prod.mk.inj hsame).2
    · rintro ⟨hposition, model, hmodel, hspan⟩
      exact ⟨model.nextBoundary instrument, List.mem_append_left _ (List.mem_map.2
        ⟨(instrument, model, index), mem_heldModels.2 ⟨hposition, hmodel⟩, rfl⟩), hspan⟩
  · intro boundary asset principal
    rw [mem_dueBetween hlawful]
    constructor
    · rintro ⟨next, hcharge, hspan⟩
      rcases List.mem_append.1 hcharge with hheld | howed
      · obtain ⟨held, _, hsame⟩ := List.mem_map.1 hheld
        cases (Prod.mk.inj hsame).2
      · obtain ⟨model, hmodel, hloan⟩ := List.mem_flatMap.1 howed
        obtain ⟨loan, hlent, hsame⟩ := List.mem_map.1 hloan
        obtain ⟨rfl, hdue⟩ := Prod.mk.inj hsame
        cases hdue
        obtain ⟨hpos, hprincipal⟩ := mem_loans.1 hlent
        exact ⟨hpos, hprincipal, model, Option.mem_toList.1 hmodel, hspan⟩
    · rintro ⟨hpos, rfl, model, hmodel, hspan⟩
      exact ⟨model.nextBoundary asset, List.mem_append_right _ (List.mem_flatMap.2
        ⟨model, Option.mem_toList.2 hmodel, List.mem_map.2
          ⟨(asset, v.account.borrowed asset), mem_loans.2 ⟨hpos, rfl⟩, rfl⟩⟩), hspan⟩

omit [Build] [RandomStream] [DecimalScale] in
theorem dueThrough_each_charged : ∃ (v : SimulatedVenue) (due : List (DateTime × Due)),
    v.accruedThrough = some 0 ∧ v.dueThrough 0 20 = .ok due ∧ due.Nodup := by
  obtain ⟨_, _, _, v, hattained, haccrued, -⟩ := charged_at_ten
  obtain ⟨due, hdue, hnodup, -⟩ := @dueThrough_each v 0 20 _ _ _ hattained
  exact ⟨v, due, haccrued, hdue, hnodup⟩

/-! ## How time passes -/

theorem undisturbed (h : Attained v) (haccrued : v.accruedThrough = some after)
    (hafter : after ≤ now) (hcalm : v.spotMargin.bind SpotMarginConfig.liquidation = none)
    (hexpires : ∀ deadline ∈ v.account.ordersOpen.deadlines, now < deadline) :
    v.Undisturbed now := by
  obtain ⟨hcached, hfresh⟩ := h.cached
  exact ⟨hcached, hfresh, ⟨after, haccrued, hafter⟩, hcalm, fun deadline hnext =>
    hexpires deadline (h.places.indexed.nextExpiry.eq_some_iff.1 hnext).1⟩

/-- However many steps a driver takes to an instant, the venue charges the same, emits the same
    events in the same order and is the same after: where it does not liquidate, and no order
    expires on the way. -/
theorem advanceTime_steps (h : Attained v) (haccrued : v.accruedThrough = some after)
    (hafter : after ≤ now) (hcalm : v.spotMargin.bind SpotMarginConfig.liquidation = none)
    (hexpires : ∀ deadline ∈ v.account.ordersOpen.deadlines, now < deadline)
    {instants : List DateTime} (hinstants : ∀ instant ∈ instants, instant ≤ now) :
    Gather.run (fun venue instant => venue.advanceTime instant) v (instants ++ [now]) =
      v.advanceTime now :=
  advanceTime_run (h.undisturbed haccrued hafter hcalm hexpires) hinstants

omit [Build] [RandomStream] [DecimalScale] in
/-- The boundary at ten is charged once, however the clock passes it. -/
theorem advanceTime_steps_charged : ∃ (_ : Build) (_ : RandomStream) (_ : DecimalScale)
    (v : SimulatedVenue), v.nextDeadline = some 10 ∧
      Gather.run (fun venue instant => venue.advanceTime instant) v [3, 10, 7, 20] =
        v.advanceTime 20 := by
  obtain ⟨_, _, _, v, hattained, haccrued, hnext, hcalm, hexpiry⟩ := charged_at_ten
  have hexpires : ∀ deadline ∈ v.account.ordersOpen.deadlines, (20 : DateTime) < deadline :=
    hattained.places.indexed.nextExpiry.lt fun _ hsome => by
      rw [hexpiry] at hsome
      cases hsome
  have hinstants : ∀ instant ∈ [3, 10, 7], instant ≤ (20 : DateTime) := by decide
  exact ⟨_, _, _, v, hnext,
    hattained.advanceTime_steps haccrued (by decide) hcalm hexpires hinstants⟩

/-- Before its next deadline nothing happens of a venue's own accord: moving its clock there emits
    nothing, and only the clock has moved. -/
theorem advanceTime_quiet (h : Attained v) (haccrued : v.accruedThrough = some after)
    (hafter : after ≤ now) (hcalm : v.spotMargin.bind SpotMarginConfig.liquidation = none)
    (hbefore : ∀ deadline, v.nextDeadline = some deadline → now < deadline) :
    v.advanceTime now = .ok ({ v with
      timeExchangeLatest := now
      accruedThrough := some now
      account := v.account.updateTimeExchange now }, []) := by
  obtain ⟨hcached, hfresh⟩ := h.cached
  have hlater := h.nextDeadline_first.lt hbefore
  have hcharge : ∀ due, v.nextCharge = some due → now < due := by
    rw [hcached.charge]
    intro due hdue
    exact hlater due (.inl (.inr (costBoundaries_first.eq_some_iff.1 hdue).1))
  have hinterest : ∀ due, v.nextInterest = some due → now < due := by
    rw [hcached.interest hfresh]
    intro due hdue
    exact hlater due (.inr (interestBoundaries_first.eq_some_iff.1 hdue).1)
  have hundisturbed := h.undisturbed haccrued hafter hcalm fun deadline hdeadline =>
    hlater deadline (.inl (.inl hdeadline))
  rw [advanceTime_eq hundisturbed haccrued hafter,
    dueBetween_of_passes hcached hfresh haccrued hcharge hinterest]
  have hreported : v.reported v.reportedDebt [] = ([], v.reportedDebt) := by
    unfold reported
    split <;> rfl
  show Except.ok (v.clocked now (v.reported v.reportedDebt []).2,
    (v.reported v.reportedDebt []).1) = _
  rw [hreported]
  -- Neither cache has come, so each stands.
  have hstands := hcached.onward hfresh haccrued hafter hcharge hinterest
  have hcharges : v.nextCharge = v.chargeAfter now := hstands.charge
  have hcharges' : v.nextInterest = v.interestAfter now := hstands.interest hfresh
  have hcounted : v.account.loansChanged = v.nextInterestLoans := hfresh
  unfold clocked
  rw [← hcharges, ← hcharges', hcounted]

omit [Build] [RandomStream] [DecimalScale] in
theorem advanceTime_quiet_charged : ∃ (_ : Build) (_ : RandomStream) (_ : DecimalScale)
    (v : SimulatedVenue), v.nextDeadline = some 10 ∧
      v.advanceTime 9 = .ok ({ v with
        timeExchangeLatest := 9
        accruedThrough := some 9
        account := v.account.updateTimeExchange 9 }, []) := by
  obtain ⟨_, _, _, v, hattained, haccrued, hnext, hcalm, -⟩ := charged_at_ten
  refine ⟨_, _, _, v, hnext, hattained.advanceTime_quiet haccrued (by decide) hcalm ?_⟩
  intro deadline hdeadline
  rw [hnext] at hdeadline
  cases hdeadline
  decide

end Attained

end Runs

end SimulatedVenue

end Rustrade.Mock
