import Rustrade.Mock.Cached
import Rustrade.Mock.Priority

/-!
# The book over runs

Whatever a driver does to a venue, the indices of its open orders agree with the orders, and each
order stands where one is looked for. A release takes what is held out of its index before it
decides on it: until it has decided on them all, some orders stand nowhere, and once it has, none
does.
-/

set_option autoImplicit false

namespace Rustrade.Mock

/-- An order listed as unranked has no price to be ranked by. -/
def OpenOrderEntry.Lawful (entry : OpenOrderEntry) : Prop :=
  entry.placement = .unranked → entry.resting.order.price = none

namespace OpenOrders

variable {book after : OpenOrders} {order : OpenOrder} {reservation : Option Reservation}
  {cid : ClientOrderId} {instrument : InstrumentNameExchange} {handed more : Set ClientOrderId}

/-- The indices agree with the orders, and each order is in that of its place but for those handed
    out. -/
def Places (book : OpenOrders) (handed : Set ClientOrderId) : Prop :=
  ∃ entries, book.Lists entries ∧ ∀ entry ∈ entries, entry.place = .taken → entry.cid ∈ handed

theorem default_places : default.Places ∅ :=
  ⟨[], default_lists, fun _ hentry => absurd hentry List.not_mem_nil⟩

namespace Places

theorem mono (h : book.Places handed) (hmore : handed ⊆ more) : book.Places more := by
  obtain ⟨entries, hlists, htaken⟩ := h
  exact ⟨entries, hlists, fun entry hentry hplace => hmore (htaken entry hentry hplace)⟩

theorem insert (h : book.Places handed) (hok : book.insert order reservation = .ok after) :
    after.Places handed := by
  obtain ⟨entries, hlists, htaken⟩ := h
  refine ⟨_, hlists.insert hok, fun entry hentry hplace => ?_⟩
  rcases List.mem_append.1 hentry with hbefore | hnew
  · exact htaken entry hbefore hplace
  · rw [List.mem_singleton.1 hnew] at hplace
    cases hprice : order.price <;> simp [hprice] at hplace

theorem hold (h : book.Places handed) (hok : book.hold order reservation = .ok after) :
    after.Places handed := by
  obtain ⟨entries, hlists, htaken⟩ := h
  refine ⟨_, hlists.hold hok, fun entry hentry hplace => ?_⟩
  rcases List.mem_append.1 hentry with hbefore | hnew
  · exact htaken entry hbefore hplace
  · rw [List.mem_singleton.1 hnew] at hplace
    cases hplace

theorem takeHeld (h : book.Places handed) :
    (book.takeHeld instrument).2.Places (handed ∪ {cid | cid ∈ book.heldOn instrument}) := by
  obtain ⟨entries, hlists, htaken⟩ := h
  refine ⟨_, hlists.takeHeld instrument, fun entry hentry hplace => ?_⟩
  obtain ⟨before, hbefore, rfl⟩ := List.mem_map.1 hentry
  by_cases hheld : before.isHeldOn instrument = true
  · rw [if_pos hheld]
    right
    show before.cid ∈ book.heldOn instrument
    rw [hlists.held]
    exact List.mem_map_of_mem (List.mem_filter.2 ⟨hbefore, hheld⟩)
  · rw [if_neg hheld] at hplace ⊢
    exact .inl (htaken before hbefore hplace)

/-- An order removed is handed out no more. -/
theorem removed (h : book.Places handed) (hremoved : Removed book cid after) :
    after.Places (handed \ {cid}) := by
  obtain ⟨entries, hlists, htaken⟩ := h
  refine ⟨_, hlists.removed hremoved, fun entry hentry hplace => ?_⟩
  obtain ⟨hbefore, hne⟩ := List.mem_filter.1 hentry
  exact ⟨htaken entry hbefore hplace, by simpa using hne⟩

theorem indexed (h : book.Places handed) : book.Indexed := by
  obtain ⟨_, hlists, _⟩ := h
  exact hlists.indexed

/-- With none handed out, every open order with a price stands in its queue or is held. -/
theorem agrees (h : book.Places ∅) : ∃ entries, book.Agrees entries ∧
    ∀ entry ∈ entries, entry.place ≠ .taken := by
  obtain ⟨entries, hlists, htaken⟩ := h
  exact ⟨entries, hlists.agrees, fun entry hentry hplace => htaken entry hentry hplace⟩

end Places

/-! ## Entering what was listed -/

/-- What a book lists can be entered again where it stood. -/
theorem entries_lawful : ∀ entry ∈ book.entries, entry.Lawful := by
  intro entry hentry hunranked
  unfold entries at hentry
  dsimp only at hentry
  obtain ⟨⟨cid, placement⟩, hlisted, hfound⟩ := List.mem_filterMap.1 hentry
  obtain ⟨resting, hresting, rfl⟩ := Option.map_eq_some_iff.1 hfound
  have hplacement : placement = .unranked := hunranked
  have hresting : book.byId[cid]? = some resting := hresting
  rcases List.mem_append.1 hlisted with hranked | hrest
  · rcases List.mem_append.1 hranked with hqueued | hheld
    · obtain ⟨_, _, hsame⟩ := List.mem_map.1 hqueued
      rw [← (Prod.mk.inj hsame).2] at hplacement
      cases hplacement
    · obtain ⟨_, _, hsame⟩ := List.mem_map.1 hheld
      rw [← (Prod.mk.inj hsame).2] at hplacement
      cases hplacement
  · obtain ⟨e, hunpriced, hsame⟩ := List.mem_map.1 hrest
    obtain ⟨rfl, -⟩ := Prod.mk.inj hsame
    obtain ⟨hmem, hnone⟩ := List.mem_filter.1 hunpriced
    have hlookup : book.byId[e.1]? = some e.2 := BTreeMap.mem_toList.1 hmem
    rw [hresting] at hlookup
    cases hlookup
    rw [Bool.and_eq_true, Option.isNone_iff_eq_none] at hnone
    exact hnone.1

theorem Places.enter {entry : OpenOrderEntry} (h : book.Places handed) (hentry : entry.Lawful)
    (hok : book.enter entry = .ok after) : after.Places handed := by
  unfold OpenOrders.enter at hok
  cases hplacement : entry.placement with
  | queued =>
    rw [hplacement] at hok
    exact h.insert hok
  | held =>
    rw [hplacement] at hok
    exact h.hold hok
  | unranked =>
    rw [hplacement] at hok
    -- Without a price the order is on no queue, whether or not it was to be.
    have hsame : book.index entry.resting.order entry.resting.reservation false =
        book.insert entry.resting.order entry.resting.reservation := by
      unfold OpenOrders.insert OpenOrders.index
      rw [hentry hplacement]
      rfl
    exact h.insert (hsame.symm.trans hok)

theorem fromEntries_places {entries : List OpenOrderEntry}
    (h : ∀ entry ∈ entries, entry.Lawful)
    (hok : OpenOrders.fromEntries entries = .ok book) : book.Places ∅ := by
  have hfold : (entries.foldlM OpenOrders.enter default).Gives fun book =>
      book.Places ∅ ∧ ∀ entry ∈ ([] : List OpenOrderEntry), entry.Lawful := by
    apply Except.Ensures.foldlM_rest (fun (book : OpenOrders) (rest : List OpenOrderEntry) =>
      book.Places ∅ ∧ ∀ entry ∈ rest, entry.Lawful)
    · intro book entry rest ⟨hbook, hrest⟩
      cases hentered : book.enter entry with
      | error _ => exact not_false
      | ok after =>
        exact ⟨hbook.enter (hrest entry List.mem_cons_self) hentered,
          fun later hlater => hrest later (List.mem_cons_of_mem _ hlater)⟩
    · exact ⟨default_places, h⟩
  exact (hfold.result hok).1

end OpenOrders

/-! ## The ledger -/

namespace AccountState

variable {account other : AccountState} {asset : AssetNameExchange} {amount : Decimal}
  {timeExchange : DateTime} {cid : ClientOrderId} {handed : Set ClientOrderId}

/-- The same orders are open, and have ended. -/
def SameOrders (account other : AccountState) : Prop := other.orders = account.orders

/-- What is open keeps its places. -/
def KeepsPlaces (account other : AccountState) : Prop :=
  ∀ handed, account.ordersOpen.Places handed → other.ordersOpen.Places handed

theorem SameOrders.keepsPlaces (h : account.SameOrders other) : account.KeepsPlaces other := by
  have hopen : other.ordersOpen = account.ordersOpen := congrArg Orders.ordersOpen h
  intro handed hplaces
  rw [hopen]
  exact hplaces

theorem restate_sameOrders {change : Balance → Balance} :
    (account.restate asset timeExchange change).Gives fun r => account.SameOrders r.1 := by
  apply Except.gives_true.bind
  exact fun _ _ => rfl

theorem reserve_sameOrders :
    (account.reserve asset amount timeExchange).Gives fun r => account.SameOrders r.1 := by
  apply Except.gives_true.bind
  intro balance _
  split
  · exact rfl
  · apply restate_sameOrders.bind
    exact fun _ hr => hr

theorem fundAny_sameOrders : (account.fundAny asset amount).Gives account.SameOrders := by
  unfold fundAny
  split
  · exact rfl
  · apply Except.gives_true.bind
    exact fun _ _ => rfl

theorem deliver_sameOrders (delivery : Delivery) (effect : MarginEffect) :
    account.SameOrders (account.deliver delivery effect timeExchange).1 := by
  unfold deliver
  dsimp only
  split <;> rfl

variable [Build]

theorem settle_sameOrders :
    (account.settle asset amount timeExchange).Gives fun r => account.SameOrders r.1 := by
  apply Except.gives_true.bind
  intro _ _
  apply Except.gives_true.bind
  intro _ _
  exact restate_sameOrders

theorem release_sameOrders :
    (account.release asset amount timeExchange).Gives fun r => account.SameOrders r.1 := by
  apply Except.gives_true.bind
  intro _ _
  apply Except.gives_true.bind
  intro _ _
  exact restate_sameOrders

theorem commit_sameOrders {debit : Debit} {credit : Option Credit} {effect : MarginEffect}
    {lending : Lending} :
    (account.commit debit credit effect lending timeExchange).Gives fun r =>
      account.SameOrders r.1 := by
  unfold commit
  apply Except.gives_true.bind
  intro ⟨funding, delivery⟩ _
  apply Except.gives_true.bind
  intro free _
  dsimp only
  split
  · exact rfl
  rename_i borrowed excessBorrowed hlend
  split
  · exact rfl
  have hlent : account.SameOrders (if borrowed = 0 then account
      else account.borrow debit.asset borrowed timeExchange) := by
    split <;> rfl
  apply fundAny_sameOrders.bind
  intro funded hfunded
  apply reserve_sameOrders.bind
  rintro ⟨reserved, _ | balance⟩ hreserved
  · exact (hreserved.trans hfunded).trans hlent
  · apply settle_sameOrders.bind
    intro ⟨settled, paid⟩ hsettled
    have hdelivered : settled.SameOrders (settled.deliverAny delivery effect timeExchange).1 := by
      cases delivery with
      | none => rfl
      | some delivery => exact deliver_sameOrders delivery effect
    exact hdelivered.trans (((hsettled.trans hreserved).trans hfunded).trans hlent)

/-- An order taken out is handed out no more. -/
theorem removeOrder_places : (account.removeOrder cid).Gives fun r => ∀ handed,
    account.ordersOpen.Places handed → r.2.ordersOpen.Places (handed \ {cid}) := by
  by_cases h : account.ordersOpen.Indexed
  · obtain ⟨after, hremove, hremoved⟩ := OpenOrders.remove_ok h cid
    unfold removeOrder
    rw [hremove]
    exact fun handed hplaces => hplaces.removed hremoved
  · apply Except.gives_true.mono
    exact fun _ _ handed hplaces => absurd hplaces.indexed h

theorem places_path : Path KeepsPlaces where
  trans h hnext handed hplaces := hnext handed (h handed hplaces)
  same {account other} h _ handed hplaces := by
    have hopen : other.ordersOpen = account.ordersOpen := congrArg Standing.ordersOpen h
    rw [hopen]
    exact hplaces
  book h handed hplaces := by
    obtain ⟨ordersOpen, hinsert, hbooked⟩ := Except.bind_eq_ok.1 h
    cases hbooked
    exact hplaces.insert hinsert
  hold h handed hplaces := by
    obtain ⟨ordersOpen, hhold, hheld⟩ := Except.bind_eq_ok.1 h
    cases hheld
    exact hplaces.hold hhold
  removeOrder := removeOrder_places.mono fun _ h handed hplaces =>
    (h handed hplaces).mono Set.sdiff_subset
  restamp := SameOrders.keepsPlaces rfl
  charge := restate_sameOrders.mono fun _ h => h.keepsPlaces
  chargeInterest := restate_sameOrders.mono fun _ h => h.keepsPlaces
  settle := settle_sameOrders.mono fun _ h => h.keepsPlaces
  release := release_sameOrders.mono fun _ h => h.keepsPlaces
  repayLoan {account asset amount timeExchange} := by
    unfold repayLoan
    apply Except.gives_true.bind
    exact fun _ _ => SameOrders.keepsPlaces rfl
  deliver := (deliver_sameOrders _ _).keepsPlaces

end AccountState

/-! ## The venue -/

namespace SimulatedVenue

variable {v w : SimulatedVenue} {timeExchange now : DateTime} {handed : Set ClientOrderId}

/-- The same orders are open, and have ended. -/
def SameOrders (v w : SimulatedVenue) : Prop := v.account.SameOrders w.account

/-- What is open keeps its places. -/
def KeepsPlaces (v w : SimulatedVenue) : Prop := v.account.KeepsPlaces w.account

theorem recordFill_sameOrders {terms : InstrumentTerms} {instrument : InstrumentNameExchange}
    {side : Side} {fill : Fill} :
    (v.recordFill terms instrument side fill).Gives v.SameOrders := by
  have hmoved (positions : BTreeMap InstrumentNameExchange NetPosition) (refreshes : Bool) :
      (if refreshes then ({ v with positions } : SimulatedVenue).refreshNextCharge
      else .ok { v with positions }).Gives v.SameOrders := by
    split
    · apply refreshNextCharge_gives.mono
      rintro _ rfl
      exact rfl
    · exact rfl
  unfold recordFill
  split
  · exact rfl
  · exact hmoved _ _

theorem refreshNextInterest_sameOrders : v.refreshNextInterest.Gives v.SameOrders := by
  unfold refreshNextInterest
  dsimp only
  split
  · exact rfl
  · split
    · exact rfl
    · apply Except.gives_true.bind
      exact fun _ _ => rfl

theorem refreshNextInterestIfLoansChanged_sameOrders :
    v.refreshNextInterestIfLoansChanged.Gives v.SameOrders := by
  unfold refreshNextInterestIfLoansChanged
  split
  · exact refreshNextInterest_sameOrders
  · exact rfl

theorem accrue_sameOrders : (v.accrue now).Gives fun r => v.SameOrders r.1 := by
  have hrefreshed (u : SimulatedVenue) (events : List AccountEvent) (hu : v.SameOrders u) : (do
      let venue ← u.refreshNextCharge
      let venue ← venue.refreshNextInterest
      return (venue, events) : Events).Gives fun r => v.SameOrders r.1 := by
    apply refreshNextCharge_gives.bind
    rintro _ rfl
    apply refreshNextInterest_sameOrders.bind
    exact fun _ hr => Eq.trans hr hu
  unfold accrue
  split
  · exact hrefreshed _ _ rfl
  · split
    · exact rfl
    · apply refreshNextInterestIfLoansChanged_sameOrders.bind
      intro refreshed hkept
      extract_lets venue falls
      split
      · exact hkept
      · apply Except.gives_true.bind
        intro due _
        apply (chargeAll_accrues due).bind
        intro ⟨charged, events⟩ hall
        apply hrefreshed
        have hsame : charged.account.orders = refreshed.account.orders := hall.orders
        exact hsame.trans hkept

theorem finish_sameOrders {events : List AccountEvent} :
    (v.finish events).Gives fun r => v.SameOrders r.1 := by
  apply refreshNextInterestIfLoansChanged_sameOrders.bind
  intro refreshed hkept
  show v.SameOrders (refreshed.reportDebtChanges events).1
  unfold reportDebtChanges
  split
  · exact hkept
  · exact hkept

variable [Build]

theorem commit_sameOrders {debit : Debit} {credit : Option Credit} {effect : MarginEffect}
    {terms : InstrumentTerms} {market : Option MarketSnapshot} {borrower : Option Borrower} :
    (v.commit debit credit effect terms market borrower timeExchange).Gives fun r =>
      v.SameOrders r.1 := by
  apply AccountState.commit_sameOrders.bind
  rintro ⟨account, _ | committed⟩ hsame
  · exact hsame
  · dsimp only
    split
    · apply chargeInterest_accrues.bind
      rintro ⟨charged, _ | charge⟩ hcharged
      · exact hcharged.orders.trans hsame
      · exact hcharged.orders.trans hsame
    · exact hsame

theorem places_moves : Moves (fun _ _ _ _ => True) AccountState.KeepsPlaces KeepsPlaces where
  account := AccountState.places_path
  trans h hnext handed hplaces := hnext handed (h handed hplaces)
  ledger _ h := h
  recordFill := recordFill_sameOrders.mono fun _ h => h.keepsPlaces
  commit _ _ := commit_sameOrders.mono fun _ h => h.keepsPlaces
  accrue := accrue_sameOrders.mono fun _ h => h.keepsPlaces
  finish := finish_sameOrders.mono fun _ h => h.keepsPlaces
  priced_none := trivial
  priced_own _ := trivial
  priced_getD _ _ := trivial
  priced_draw _ := trivial

variable [RandomStream]

/-- The release of one order: it is handed out no more, wherever it goes. -/
theorem releaseOne_places {release : Release} {terms : InstrumentTerms} {cid : ClientOrderId} :
    (v.releaseOne release terms timeExchange cid).Gives fun r => ∀ handed,
      v.account.ordersOpen.Places handed → r.1.account.ordersOpen.Places (handed \ {cid}) := by
  have hremoved : (v.removeOrder cid).Gives fun r => ∀ handed,
      v.account.ordersOpen.Places handed → r.2.account.ordersOpen.Places (handed \ {cid}) := by
    apply AccountState.removeOrder_places.bind
    exact fun _ hr => hr
  apply hremoved.bind
  rintro ⟨_ | resting, venue⟩ hvenue
  · exact hvenue
  apply Except.gives_true.bind
  intro _ _
  split
  · exact places_moves.releaseHeldLimit.mono fun _ hr handed hplaces =>
      hr _ (hvenue handed hplaces)
  · exact places_moves.fillHeld.mono fun _ hr handed hplaces => hr _ (hvenue handed hplaces)

/-- Of the orders a release takes, none is left handed out. -/
theorem release_places {release : Release} {instrument : InstrumentNameExchange} :
    (v.release instrument release timeExchange).Gives fun r => v.KeepsPlaces r.1 := by
  have hall (handed : Set ClientOrderId) (hplaces : v.account.ordersOpen.Places handed) :
      (v.release instrument release timeExchange).Gives fun r =>
        r.1.account.ordersOpen.Places handed := by
    unfold SimulatedVenue.release
    dsimp only
    have htaken : (v.account.ordersOpen.takeHeld instrument).2.Places
        (handed ∪ {cid | cid ∈ v.account.ordersOpen.heldOn instrument}) := hplaces.takeHeld
    split
    · rename_i hnone
      apply htaken.mono
      rintro cid (hcid | hcid)
      · exact hcid
      · have hheld : v.account.ordersOpen.heldOn instrument = [] := List.isEmpty_iff.1 hnone
        rw [Set.mem_ofPred_eq, hheld] at hcid
        cases hcid
    · split
      · exact not_false
      · rename_i terms _
        have hrun : ∀ venue : SimulatedVenue, ∀ held : List ClientOrderId,
            venue.account.ordersOpen.Places (handed ∪ {cid | cid ∈ held}) →
            (Gather.run (fun venue cid => venue.releaseOne release terms timeExchange cid)
              venue held).Gives fun r => r.1.account.ordersOpen.Places handed := by
          intro venue held hvenue
          -- Those handed out and still to be decided on are what is left of the list.
          have hdrained : (Gather.run (fun venue cid =>
              SimulatedVenue.releaseOne venue release terms timeExchange cid) venue held).Gives
              fun r => True ∧ r.1.account.ordersOpen.Places (handed ∪ {cid | cid ∈ []}) := by
            apply Gather.run_ensures (P := fun (venue : SimulatedVenue) held =>
                venue.account.ordersOpen.Places (handed ∪ {cid | cid ∈ held}))
              (R := fun _ _ _ => True) (fun _ => trivial) (fun _ _ => trivial) _ hvenue
            intro venue cid rest hvenue
            apply releaseOne_places.mono
            intro r hr
            refine ⟨trivial, (hr _ hvenue).mono ?_⟩
            rintro other ⟨hother | hother, hne⟩
            · exact .inl hother
            · exact .inr ((List.mem_cons.1 hother).resolve_left hne)
          apply hdrained.mono
          intro r hr
          apply hr.2.mono
          rintro cid (hcid | hcid)
          · exact hcid
          · cases hcid
        exact hrun _ _ htaken
  cases hreleased : v.release instrument release timeExchange with
  | error fault => exact not_false
  | ok r => exact fun handed hplaces => (hall handed hplaces).result hreleased

theorem places_path : Path (fun _ _ _ _ => True) AccountState.KeepsPlaces KeepsPlaces where
  toMoves := places_moves
  release := release_places

end SimulatedVenue

end Rustrade.Mock
