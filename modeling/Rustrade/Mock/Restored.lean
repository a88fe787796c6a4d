import Rustrade.Mock.LendsWithin
import Rustrade.Mock.Rebuilt

/-!
# A venue restored from its snapshot

What a venue files it files under its own key: a balance under its asset, an ended order under its
id. So a snapshot, which lists what is filed without its key, is restored to what it was taken of,
and a snapshot taken of that is the same snapshot.
-/

set_option autoImplicit false

namespace Rustrade.Mock

/-! ## What is filed -/

namespace AccountState

variable {account other : AccountState} {asset : AssetNameExchange} {amount : Decimal}
  {timeExchange : DateTime} {debit : Debit} {credit : Option Credit} {effect : MarginEffect}
  {lending : Lending}

/-- Each balance is filed under its asset, and each ended order under its id. -/
structure Filed (account : AccountState) : Prop where
  keyed : account.Keyed
  ended : account.EndedById

/-- What is filed stays filed. -/
def KeepsFiled (account other : AccountState) : Prop := account.Filed → other.Filed

theorem EndedById.congr (h : account.EndedById) (hsame : account.SameOrders other) :
    other.EndedById where
  cancelled := by
    rw [show other.ordersCancelled = account.ordersCancelled from
      congrArg Orders.ordersCancelled hsame]
    exact h.cancelled
  filled := by
    rw [show other.ordersFilled = account.ordersFilled from congrArg Orders.ordersFilled hsame]
    exact h.filled
  expired := by
    rw [show other.ordersExpired = account.ordersExpired from congrArg Orders.ordersExpired hsame]
    exact h.expired

theorem EndedById.reopened (h : account.EndedById) (ordersOpen : OpenOrders) :
    ({ account with ordersOpen } : AccountState).EndedById := ⟨h.cancelled, h.filled, h.expired⟩

theorem Calm.keepsFiled (h : account.Calm other) (hsame : account.SameOrders other) :
    account.KeepsFiled other :=
  fun hfiled => ⟨h.keyed hfiled.keyed, hfiled.ended.congr hsame⟩

theorem repayLoan_sameOrders :
    (account.repayLoan asset amount timeExchange).Gives fun r => account.SameOrders r.1 := by
  unfold repayLoan
  apply Except.gives_true.bind
  exact fun _ _ => rfl

variable [Build]

/-- A commitment files what it lends under the asset it lends. -/
theorem commit_keepsFiled :
    (account.commit debit credit effect lending timeExchange).Gives fun r =>
      account.KeepsFiled r.1 := by
  apply (commit_lends.and commit_sameOrders).mono
  rintro ⟨after, insufficient | committed⟩ ⟨hlends, hsame⟩
  · have hrefused : after = account := hlends
    rw [hrefused]
    exact id
  · rcases hlends with ⟨-, hcalm⟩ | ⟨-, -, -, hcalm⟩
    · exact hcalm.keepsFiled hsame
    · exact fun hfiled =>
        ⟨hcalm.keyed (hfiled.keyed.setBalance hfiled.keyed.balanceOrOpen), hfiled.ended.congr hsame⟩

theorem filed_path : Path KeepsFiled where
  trans h hnext hfiled := hnext (h hfiled)
  same h hended hfiled := ⟨(calm_path.same h hended).keyed hfiled.keyed, hended hfiled.ended⟩
  book h hfiled := by
    obtain ⟨ordersOpen, -, hbooked⟩ := Except.bind_eq_ok.1 h
    cases hbooked
    exact ⟨hfiled.keyed, (hfiled.ended.reopened ordersOpen).forgetEnded _⟩
  hold h hfiled := by
    obtain ⟨ordersOpen, -, hheld⟩ := Except.bind_eq_ok.1 h
    cases hheld
    exact ⟨hfiled.keyed, (hfiled.ended.reopened ordersOpen).forgetEnded _⟩
  removeOrder {account cid} := by
    apply Except.gives_true.bind
    exact fun _ _ hfiled => ⟨hfiled.keyed, hfiled.ended.reopened _⟩
  restamp := updateTimeExchange_calm.keepsFiled rfl
  charge := (calm_path.charge.and restate_sameOrders).mono fun _ h => h.1.keepsFiled h.2
  chargeInterest :=
    (calm_path.chargeInterest.and restate_sameOrders).mono fun _ h => h.1.keepsFiled h.2
  settle := (calm_path.settle.and settle_sameOrders).mono fun _ h => h.1.keepsFiled h.2
  release := (calm_path.release.and release_sameOrders).mono fun _ h => h.1.keepsFiled h.2
  repayLoan := (calm_path.repayLoan.and repayLoan_sameOrders).mono fun _ h => h.1.keepsFiled h.2
  deliver := calm_path.deliver.keepsFiled (deliver_sameOrders _ _)

end AccountState

namespace SimulatedVenue

variable {v w : SimulatedVenue} {timeExchange : DateTime}

/-- What is filed stays filed. -/
def KeepsFiled (v w : SimulatedVenue) : Prop := v.account.KeepsFiled w.account

theorem Still.keepsFiled (h : v.Still w) (hsame : v.SameOrders w) : v.KeepsFiled w :=
  (AccountState.Calm.of_balances h.margin h.balances).keepsFiled hsame

theorem Leads.keepsFiled [Build] (h : v.Leads w) (hsame : v.SameOrders w) : v.KeepsFiled w := by
  obtain ⟨loans, hlends⟩ := h
  exact fun hfiled => ⟨hlends.keyed hfiled.keyed, hfiled.ended.congr hsame⟩

variable [Build]

theorem commit_keepsFiled {debit : Debit} {credit : Option Credit} {effect : MarginEffect}
    {terms : InstrumentTerms} {market : Option MarketSnapshot} {borrower : Option Borrower} :
    (v.commit debit credit effect terms market borrower timeExchange).Gives fun r =>
      v.KeepsFiled r.1 := by
  apply AccountState.commit_keepsFiled.bind
  rintro ⟨account, _ | committed⟩ hfiled
  · exact hfiled
  · dsimp only
    split
    · apply (chargeInterest_leads.and chargeInterest_accrues).bind
      rintro ⟨charged, _ | charge⟩ ⟨hleads, haccrues⟩
      · exact fun h => hleads.keepsFiled haccrues.orders (hfiled h)
      · exact fun h => hleads.keepsFiled haccrues.orders (hfiled h)
    · exact hfiled

theorem filed_moves : Moves (fun _ _ _ _ => True) AccountState.KeepsFiled KeepsFiled where
  account := AccountState.filed_path
  trans h hnext hfiled := hnext (h hfiled)
  ledger _ h := h
  recordFill := (recordFill_still.and recordFill_sameOrders).mono fun _ h => h.1.keepsFiled h.2
  commit _ _ := commit_keepsFiled
  accrue := (accrue_leads.and accrue_sameOrders).mono fun _ h => h.1.keepsFiled h.2
  finish := (finish_leads.and finish_sameOrders).mono fun _ h => h.1.keepsFiled h.2
  priced_none := trivial
  priced_own _ := trivial
  priced_getD _ _ := trivial
  priced_draw _ := trivial

theorem filed_path [RandomStream] :
    Path (fun _ _ _ _ => True) AccountState.KeepsFiled KeepsFiled where
  toMoves := filed_moves
  release := filed_moves.releaseTaking fun hfiled =>
    ⟨hfiled.keyed, hfiled.ended.reopened _⟩

end SimulatedVenue

/-! ## Listed and filed again -/

section Lists

variable {K V : Type} [LinearOrder K]

/-- What is entered once is what it was entered as, and what is not entered is what it was. -/
theorem get?_foldl_insert {entries : List (K × V)} (h : (entries.map Prod.fst).Nodup)
    {map : BTreeMap K V} {k : K} : (entries.foldl (fun map e => map.insert e.1 e.2) map)[k]? =
      ((entries.find? fun e => e.1 = k).map Prod.snd).or map[k]? := by
  induction entries generalizing map with
  | nil => rfl
  | cons first rest ih =>
    obtain ⟨hfirst, hrest⟩ := List.nodup_cons.1 h
    rw [List.foldl_cons, ih hrest, BTreeMap.get?_insert, List.find?_cons]
    by_cases hk : first.1 = k
    · subst hk
      have hnone : rest.find? (fun e => decide (e.1 = first.1)) = none := by
        rw [List.find?_eq_none]
        intro e he hsame
        exact hfirst (of_decide_eq_true hsame ▸ List.mem_map_of_mem he)
      simp [hnone]
    · simp [hk]

theorem mapOf_toList {map : BTreeMap K V} : mapOf map.toList = map := by
  apply BTreeMap.ext_get?
  intro k
  unfold mapOf
  rw [get?_foldl_insert BTreeMap.nodup_keys, BTreeMap.get?_empty, Option.or_none]
  cases hfound : map.toList.find? fun e => decide (e.1 = k) with
  | none =>
    rw [Option.map_none, eq_comm, Option.eq_none_iff_forall_ne_some]
    intro v hv
    simpa using List.find?_eq_none.1 hfound (k, v) (BTreeMap.mem_toList.2 hv)
  | some e =>
    have hkey : e.1 = k := by simpa using List.find?_some hfound
    rw [← hkey]
    exact (BTreeMap.mem_toList.1 (List.mem_of_find?_eq_some hfound)).symm

end Lists

theorem AccountState.Keyed.balancesByAsset {account : AccountState} (h : account.Keyed) :
    balancesByAsset (account.balances.toList.map Prod.snd) = account.balances := by
  unfold Mock.balancesByAsset
  rw [List.foldl_map]
  refine Eq.trans ?_ mapOf_toList
  apply List.foldl_ext
  intro map e he
  rw [h e.1 e.2 (BTreeMap.mem_toList.1 he)]

section Orders

variable {State : Type} {orders : BTreeMap ClientOrderId (VenueOrder State)}

/-- Orders filed by their ids are filed again as they were. -/
theorem ById.ordersById (h : ById orders) :
    ordersById (orders.toList.map Prod.snd) = .ok orders := by
  have hfold (entries : List (ClientOrderId × VenueOrder State))
      (map : BTreeMap ClientOrderId (VenueOrder State))
      (hentries : ∀ e ∈ entries, e.2.key.cid = e.1)
      (hfresh : ∀ e ∈ entries, map[e.1]? = none) (hnodup : (entries.map Prod.fst).Nodup) :
      (entries.map Prod.snd).foldlM (fun map order =>
        if map.contains order.key.cid then .error ⟨order.key.cid⟩
        else .ok (map.insert order.key.cid order)) map =
        (.ok (entries.foldl (fun map e => map.insert e.1 e.2) map) :
          Except DuplicateSeededOrder _) := by
    induction entries generalizing map with
    | nil => rfl
    | cons first rest ih =>
      obtain ⟨hfirst, hrest⟩ := List.nodup_cons.1 hnodup
      have hcid : first.2.key.cid = first.1 := hentries first List.mem_cons_self
      have hnone : map.contains first.1 = false := by
        rw [Std.ExtTreeMap.contains_eq_isSome_getElem?, hfresh first List.mem_cons_self]
        rfl
      have hnext := ih (map.insert first.1 first.2)
        (fun e he => hentries e (List.mem_cons_of_mem _ he)) (fun e he => ?_) hrest
      · rw [List.map_cons, List.foldlM_cons, hcid, hnone]
        exact hnext
      · rw [BTreeMap.get?_insert_of_ne, hfresh e (List.mem_cons_of_mem _ he)]
        intro hsame
        exact hfirst (hsame ▸ List.mem_map_of_mem he)
  have hempty : ∀ e ∈ orders.toList, (∅ : BTreeMap ClientOrderId (VenueOrder State))[e.1]? = none :=
    fun _ _ => BTreeMap.get?_empty
  refine (hfold orders.toList ∅ (fun e he => h _ _ (BTreeMap.mem_toList.1 he)) hempty
    BTreeMap.nodup_keys).trans ?_
  exact congrArg Except.ok mapOf_toList

theorem ordersById_byId {listed : List (VenueOrder State)} : (ordersById listed).Gives ById := by
  apply Except.Ensures.foldlM ById _ ById.empty
  intro map order h
  split
  · exact not_false
  · exact h.insert order

end Orders

/-! ## Every venue files what it has -/

namespace AccountState

theorem seedOrder_byId {seeded : OpenOrders × BTreeMap ClientOrderId (VenueOrder Cancelled)}
    {order : VenueOrder OrderState} (h : ById seeded.2) :
    (seedOrder seeded order).Gives fun r => ById r.2 := by
  obtain ⟨ordersOpen, ordersCancelled⟩ := seeded
  unfold seedOrder
  dsimp only
  split
  · split
    · exact h
    · split
      · exact not_false
      · split
        · exact not_false
        · exact h
  · rename_i cancelled _
    split
    · exact not_false
    · exact ById.insert h { order with state := cancelled }
  · exact h

theorem tryFrom_filed {value : AccountSnapshot} {account : AccountState}
    (h : tryFrom value = .ok account) : account.Filed := by
  have hkeyed := (SimulatedVenue.tryFrom_keyed h).1
  obtain ⟨⟨ordersOpen, ordersCancelled⟩, hseeded, h⟩ := Except.bind_eq_ok.1 h
  cases Except.pure_eq_ok.1 h
  have hfold : ((value.instruments.flatMap fun snapshot => snapshot.orders).foldlM seedOrder
      (.default, ∅)).Gives fun seeded => ById seeded.2 :=
    Except.Ensures.foldlM _ (fun _ _ h => seedOrder_byId h) ById.empty _
  exact ⟨hkeyed, hfold.result hseeded, .empty, .empty⟩

theorem fromSnapshot_filed {snapshot : AccountStateSnapshot} {account : AccountState}
    (h : fromSnapshot snapshot = .ok account) : account.Filed := by
  have hkeyed := (SimulatedVenue.fromSnapshot_keyed h).1
  obtain ⟨ordersOpen, -, h⟩ := Except.bind_eq_ok.1 h
  obtain ⟨ordersCancelled, hcancelled, h⟩ := Except.bind_eq_ok.1 h
  obtain ⟨ordersFilled, hfilled, h⟩ := Except.bind_eq_ok.1 h
  obtain ⟨ordersExpired, hexpired, h⟩ := Except.bind_eq_ok.1 h
  cases Except.pure_eq_ok.1 h
  exact ⟨hkeyed, ordersById_byId.result hcancelled, ordersById_byId.result hfilled,
    ordersById_byId.result hexpired⟩

/-- An account that files what it has is restored from its snapshot, its book rebuilt. -/
theorem Filed.restored {account : AccountState} (h : account.Filed) {rebuilt : OpenOrders}
    (hrebuilt : OpenOrders.fromEntries account.ordersOpen.entries = .ok rebuilt) :
    fromSnapshot account.snapshot = .ok { account with ordersOpen := rebuilt } := by
  unfold fromSnapshot openOrders snapshot
  dsimp only
  rw [hrebuilt, h.ended.cancelled.ordersById, h.ended.filled.ordersById,
    h.ended.expired.ordersById, h.keyed.balancesByAsset]
  rfl

end AccountState

namespace SimulatedVenue

variable {v w : SimulatedVenue} {config : MockExecutionConfig}
  {instruments : BTreeMap InstrumentNameExchange VenueInstrument} {regime : VenueRegime}
  {snapshot : SimulatedVenueSnapshot} {account : AccountState}

theorem withRegime_filed (h : withRegime config instruments regime = .ok v) : v.account.Filed := by
  obtain ⟨positions, -, h⟩ := Except.bind_eq_ok.1 h
  obtain ⟨seeded, hseeded, h⟩ := Except.bind_eq_ok.1 h
  cases Except.pure_eq_ok.1 h
  have hfiled : seeded.Filed := by
    cases htried : AccountState.tryFrom config.initialState with
    | error _ =>
      rw [htried] at hseeded
      cases hseeded
    | ok account =>
      rw [htried] at hseeded
      cases hseeded
      exact AccountState.tryFrom_filed htried
  show (if config.spotMargin.isSome then seeded.enableMargin else seeded).Filed
  split
  · exact ⟨enableMargin_keyed hfiled.keyed, hfiled.ended.congr rfl⟩
  · exact hfiled

/-- What a restored venue would be listed as. -/
theorem fromSnapshot_ok (hrefusal : restoreRefusal config instruments snapshot = none)
    (haccount : AccountState.fromSnapshot snapshot.account = .ok account) :
    ∃ w, fromSnapshot config instruments snapshot = .ok (.ok w) ∧ w.account = account ∧
      w.snapshot = { snapshot with
        version := SimulatedVenueSnapshot.VERSION
        exchange := config.mockedExchange
        instruments := instruments.toList.map Prod.fst
        account := account.snapshot
        positions := (mapOf snapshot.positions).toList
        reportedDebt := (mapOf snapshot.reportedDebt).toList
        borrowPrices := (if config.spotMargin.any fun margin => margin.borrowPriceWindow.isSome
          then mapOf snapshot.borrowPrices else ∅ : BTreeMap _ _).toList } := by
  -- A venue just restored charges by no model yet, so its caches are computed without a fault.
  have hrefreshed : ∀ restored : SimulatedVenue, restored.holdingCosts = [] →
      restored.marginInterest = none → restored.nextInterest = none →
      (restored.refreshNextCharge >>= fun charged => charged.refreshNextInterest >>= fun venue =>
        pure (.ok venue) : Except Fault (Except VenueRestoreError SimulatedVenue)) =
        .ok (.ok { restored with
          nextCharge := restored.accruedThrough.bind restored.chargeAfter
          nextInterestLoans := restored.account.loansChanged
          nextInterest := restored.accruedThrough.bind restored.interestAfter }) := by
    intro restored hcosts hmodel hnext
    have hlawful : restored.Lawful := by
      constructor
      · rw [hcosts]
        exact fun model hmem => absurd hmem List.not_mem_nil
      · rw [hmodel]
        exact fun model hmem => absurd hmem (Option.not_mem_none model)
    rw [refreshNextCharge_ok hlawful]
    have hinterest := refreshNextInterest_ok (v := { restored with
      nextCharge := restored.accruedThrough.bind restored.chargeAfter }) (hlawful.congr rfl)
      fun _ => hnext
    show (({ restored with
      nextCharge := restored.accruedThrough.bind restored.chargeAfter } :
        SimulatedVenue).refreshNextInterest >>= _) = _
    rw [hinterest]
    rfl
  unfold fromSnapshot
  rw [hrefusal]
  dsimp only
  rw [haccount]
  exact ⟨_, hrefreshed _ rfl rfl rfl, rfl, rfl⟩

/-- A snapshot that is not refused is of a venue of the exchange, trading its instruments. -/
theorem names_of_restoreRefusal (h : restoreRefusal config instruments snapshot = none) :
    snapshot.exchange = config.mockedExchange ∧
      ∀ name, name ∈ snapshot.instruments ↔ name ∈ instruments.toList.map Prod.fst := by
  unfold restoreRefusal at h
  dsimp only at h
  split at h
  · cases h
  split at h
  · cases h
  rename_i hexchange
  split at h
  · cases h
  rename_i hnames
  rw [not_or, not_not, not_not] at hnames
  obtain ⟨hsnapshot, hvenue⟩ := hnames
  refine ⟨not_not.1 hexchange, fun name => ⟨fun hname => ?_, fun hname => ?_⟩⟩
  · by_contra hnot
    have hperm := List.mergeSort_perm (snapshot.instruments.filter fun name =>
      name ∉ instruments.toList.map Prod.fst).dedup fun a b => a ≤ b
    rw [hsnapshot] at hperm
    have hmem : name ∈ (snapshot.instruments.filter fun name =>
        name ∉ instruments.toList.map Prod.fst).dedup :=
      List.mem_dedup.2 (List.mem_filter.2 ⟨hname, decide_eq_true hnot⟩)
    exact List.not_mem_nil (hperm.mem_iff.2 hmem)
  · by_contra hnot
    have hmem : name ∈ (instruments.toList.map Prod.fst).filter fun name =>
        name ∉ snapshot.instruments := List.mem_filter.2 ⟨hname, decide_eq_true hnot⟩
    rw [hvenue] at hmem
    exact List.not_mem_nil hmem

/-- The names a map lists are the names it has, in order. -/
theorem names_eq {other : BTreeMap InstrumentNameExchange VenueInstrument}
    (h : ∀ name, name ∈ other.toList.map Prod.fst ↔ name ∈ instruments.toList.map Prod.fst) :
    other.toList.map Prod.fst = instruments.toList.map Prod.fst := by
  have hordered {map : BTreeMap InstrumentNameExchange VenueInstrument} :
      (map.toList.map Prod.fst).Pairwise fun a b => a < b :=
    List.pairwise_map.2 BTreeMap.keys_pairwise
  apply List.Perm.eq_of_pairwise (fun a b _ _ hab hba => absurd hab hba.asymm) hordered hordered
  exact (List.perm_ext_iff_of_nodup BTreeMap.nodup_keys BTreeMap.nodup_keys).2 h

section Runs

variable [Build] [RandomStream] [DecimalScale]

namespace Attained

/-- Whatever a driver does, what the venue files it files under its own key. -/
theorem filed (h : Attained v) : v.account.Filed := by
  induction h with
  | built _ hbuilt => exact withRegime_filed hbuilt
  | restored _ _ hrestored =>
    unfold fromSnapshot at hrestored
    split at hrestored
    · cases hrestored
    split at hrestored
    · cases hrestored
    rename_i account haccount
    obtain ⟨charged, hcharge, hrestored⟩ := Except.bind_eq_ok.1 hrestored
    obtain ⟨venue, hinterest, hrestored⟩ := Except.bind_eq_ok.1 hrestored
    cases Except.pure_eq_ok.1 hrestored
    have hkept := (refreshNextInterest_still.and refreshNextInterest_sameOrders).result hinterest
    apply hkept.1.keepsFiled hkept.2
    rw [refreshNextCharge_gives.result hcharge]
    exact AccountState.fromSnapshot_filed haccount
  | holdingCosts _ _ hset ih =>
    rw [refreshNextCharge_gives.result hset]
    exact ih
  | marginInterest _ _ hset ih =>
    obtain ⟨_, -, hset⟩ := Except.bind_eq_ok.1 hset
    have hkept := (refreshNextInterest_still.and refreshNextInterest_sameOrders).result hset
    exact hkept.1.keepsFiled hkept.2 ih
  | fillModel _ ih => exact ih
  | shortability _ ih => exact ih
  | checkpoint _ ih => exact ih
  | input _ hstep ih =>
    exact (filed_path.step _ fun _ _ _ _ => trivial).result hstep ih

/-- What is restored from the snapshot of a venue a driver comes to is another such venue. -/
theorem restarted (h : Attained v)
    (hrestored : fromSnapshot config instruments v.snapshot = .ok (.ok w)) : Attained w := by
  apply Attained.restored _ OpenOrders.entries_lawful hrestored
  intro balance hbalance
  obtain ⟨⟨asset, held⟩, hheld, rfl⟩ := List.mem_map.1 hbalance
  have hlookup : v.account.balances[asset]? = some held := BTreeMap.mem_toList.1 hheld
  have howed : 0 ≤ v.account.borrowed asset := h.cached.1.loans asset
  unfold AccountState.borrowed at howed
  rw [hlookup] at howed
  exact howed

/-- A venue is restored from its own snapshot, where the snapshot is not refused, to one a driver
    comes to: a snapshot of the restored venue is the same snapshot, and no call tells its book
    from the venue's. -/
theorem restored_same (h : Attained v)
    (hrefusal : restoreRefusal config instruments v.snapshot = none)
    (hwindow : v.borrowPrices ≠ ∅ →
      config.spotMargin.any (fun margin => margin.borrowPriceWindow.isSome) = true) :
    ∃ w, fromSnapshot config instruments v.snapshot = .ok (.ok w) ∧ Attained w ∧
      w.snapshot = v.snapshot ∧ ∀ asked : List BookCall, ∃ after after' answers,
        v.account.ordersOpen.calls asked = .ok (after, answers) ∧
          w.account.ordersOpen.calls asked = .ok (after', answers) ∧ after.ReadsAs after' := by
  obtain ⟨rebuilt, hrebuilt, hmirrors⟩ := h.places.rebuilt
  obtain ⟨w, hrestored, haccount, hsnapshot⟩ :=
    fromSnapshot_ok hrefusal (h.filed.restored hrebuilt)
  refine ⟨w, hrestored, h.restarted hrestored, ?_, fun asked => ?_⟩
  · obtain ⟨hexchange, hnames⟩ := names_of_restoreRefusal hrefusal
    have hwindows : (if config.spotMargin.any fun margin => margin.borrowPriceWindow.isSome
        then v.borrowPrices else ∅) = v.borrowPrices := by
      by_cases hnone : v.borrowPrices = ∅
      · rw [hnone, ite_self]
      · rw [if_pos (hwindow hnone)]
    have hbook : ({ v.account with ordersOpen := rebuilt } : AccountState).snapshot =
        v.account.snapshot := by
      unfold AccountState.snapshot
      rw [hmirrors.listed]
    have hexchange : v.exchange = config.mockedExchange := hexchange
    rw [hsnapshot, hbook]
    unfold snapshot
    dsimp only
    rw [mapOf_toList, mapOf_toList, mapOf_toList, hwindows, ← hexchange, ← names_eq hnames]
  · obtain ⟨after, after', answers, hcall, hcall', hafter⟩ := hmirrors.calls asked
    rw [haccount]
    exact ⟨after, after', answers, hcall, hcall', hafter.readsAs⟩

omit [Build] [RandomStream] [DecimalScale] in
/-- A contract is held, a sell of it rests, and the venue is restored so. -/
theorem restored_same_resting : ∃ (_ : Build) (_ : RandomStream) (_ : DecimalScale)
    (v w : SimulatedVenue),
    (v.account.ordersOpen.resting ⟨"C"⟩ .sell).map (fun order => order.key.cid) = [⟨"close"⟩] ∧
      fromSnapshot cfdVenue cfdOnly v.snapshot = .ok (.ok w) ∧ Attained w ∧
        w.snapshot = v.snapshot ∧ ∀ asked : List BookCall, ∃ after after' answers,
          v.account.ordersOpen.calls asked = .ok (after, answers) ∧
            w.account.ordersOpen.calls asked = .ok (after', answers) ∧ after.ReadsAs after' := by
  let _ : Build := ⟨true⟩
  let _ : RandomStream := ⟨fun _ _ => 0, fun _ _ => by norm_num⟩
  let _ : DecimalScale := ⟨fun _ => 0⟩
  have hrests : chargedBy [] (buysAll ++ [.openOrder sellToClose]) (fun v =>
      decide ((v.account.ordersOpen.resting ⟨"C"⟩ .sell).map (fun order => order.key.cid) =
        [⟨"close"⟩]) && decide (restoreRefusal cfdVenue cfdOnly v.snapshot = none) &&
        v.borrowPrices.isEmpty) = true := by
    decide +kernel
  obtain ⟨v, hattained, hchecked⟩ := of_chargedBy (by simp) hrests
  simp only [Bool.and_eq_true, decide_eq_true_eq, Std.ExtTreeMap.isEmpty_iff] at hchecked
  obtain ⟨⟨hrests, hrefusal⟩, hnone⟩ := hchecked
  obtain ⟨w, hrestored⟩ := hattained.restored_same hrefusal fun hsome => absurd hnone hsome
  exact ⟨_, _, _, v, w, hrests, hrestored⟩

end Attained

end Runs

end SimulatedVenue

end Rustrade.Mock
