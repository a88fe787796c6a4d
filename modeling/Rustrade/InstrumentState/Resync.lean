import Rustrade.InstrumentState.ChainCall

/-!
# What a resync retires

`beginAccountResync` records the orders that are open as the account stream reconnects, and the
next account snapshot may retire those of them it leaves out. What an order carries in between can
change: it may end, its client order id be sent again, and the new order be acknowledged. The
record is of venue ids, and only an order that carries the very id on record is retired.
-/

set_option autoImplicit false

namespace Rustrade

namespace Orders

variable {ExchangeKey InstrumentKey : Type} {orders : Orders ExchangeKey InstrumentKey}

/-- Retiring open orders by their venue ids takes out none but those that carry them. -/
theorem mem_of_removeOpens (l : List (ClientOrderId × VenueOrderId)) {cid : ClientOrderId}
    {order : Order ExchangeKey InstrumentKey ActiveOrderState}
    (hbefore : orders.get? cid = some order)
    (hafter : (l.foldl (fun orders open_ => (orders.removeOpen open_.1 open_.2).1) orders).get?
      cid = none) :
    ∃ id open_, (cid, id) ∈ l ∧ order.state = .open open_ ∧ open_.id.isSameOrderAs id = true := by
  induction l generalizing orders with
  | nil => exact absurd (hbefore.symm.trans hafter) (by simp)
  | cons e l ih =>
    have hnext : (orders.removeOpen e.1 e.2).1.get? cid = some order →
        ∃ id open_, (cid, id) ∈ e :: l ∧ order.state = .open open_ ∧
          open_.id.isSameOrderAs id = true := by
      intro hkept
      obtain ⟨id, open_, hmem, hopen, hsame⟩ := ih hkept hafter
      exact ⟨id, open_, List.mem_cons_of_mem _ hmem, hopen, hsame⟩
    by_cases hcid : e.1 = cid
    · subst hcid
      by_cases hsame : ∃ open_, order.state = .open open_ ∧ open_.id.isSameOrderAs e.2 = true
      · obtain ⟨open_, hopen, hsame⟩ := hsame
        exact ⟨e.2, open_, List.mem_cons_self, hopen, hsame⟩
      · apply hnext
        unfold removeOpen
        rw [hbefore]
        cases hs : order.state with
        | «open» open_ =>
          have hnot : ¬ open_.id.isSameOrderAs e.2 = true := fun h => hsame ⟨open_, hs, h⟩
          simp only [hs, if_neg hnot]
          exact hbefore
        | openInFlight _ | cancelInFlight _ => simp only [hs]; exact hbefore
    · apply hnext
      unfold removeOpen
      split
      · exact hbefore
      · split
        · split
          · change (orders.tracked.remove e.1).get? cid = _
            rw [IndexMap.get?_remove_of_ne (Ne.symm hcid)]
            exact hbefore
          · exact hbefore
        · exact hbefore

/-- An order just sent is in flight, and carries no venue id yet. -/
theorem carries_recordInFlightOpen {request : OrderRequestOpen ExchangeKey InstrumentKey}
    {timeSent : DateTime} (h : orders.get? request.key.cid = none) {orderId : OrderId} :
    (orders.recordInFlightOpen request timeSent).carries request.key.cid orderId = false := by
  have hget : (orders.recordInFlightOpen request timeSent).get? request.key.cid =
      some (Order.openInFlight request timeSent) := by
    unfold recordInFlightOpen
    rw [IndexMap.not_contains_iff.2 h]
    exact IndexMap.get?_insert_self
  unfold carries
  rw [hget]
  rfl

end Orders

namespace InstrumentState

variable {Data ExchangeKey AssetKey InstrumentKey : Type} {hash : HashOrder}
  {s : InstrumentState Data ExchangeKey AssetKey InstrumentKey}

/-- The order is open under the venue order id `orderId`. -/
def OpenAs (s : InstrumentState Data ExchangeKey AssetKey InstrumentKey) (cid : ClientOrderId)
    (orderId : OrderId) : Prop :=
  ∃ order open_, s.orders.get? cid = some order ∧ order.state = .open open_ ∧
    open_.id = .assigned orderId

theorem OpenAs.carries {cid : ClientOrderId} {orderId : OrderId} (h : s.OpenAs cid orderId) :
    s.orders.carries cid orderId = true := by
  obtain ⟨order, open_, hget, hopen, hid⟩ := h
  refine Orders.carries_iff.2 ⟨order, hget, ?_⟩
  simp [ActiveOrderState.carries, hopen, ActiveOrderState.openMeta, hid]

/-- What a resync records of an order is the id it is open under. -/
theorem openAs_of_recorded {cid : ClientOrderId} {orderId : OrderId}
    (h : s.beginAccountResync.ordersOpenAtResync.get? cid = some (.assigned orderId)) :
    s.OpenAs cid orderId := by
  unfold beginAccountResync at h
  rw [IndexMap.get?_mapValues, IndexMap.get?_retain] at h
  obtain ⟨order, hfilter, hid⟩ := Option.map_eq_some_iff.1 h
  obtain ⟨hget, hstate⟩ := Option.filter_eq_some_iff.1 hfilter
  cases hs : order.state with
  | «open» open_ =>
    refine ⟨order, open_, hget, hs, ?_⟩
    simpa [hs, ActiveOrderState.openMeta] using hid
  | openInFlight _ | cancelInFlight _ => rw [hs] at hstate; exact absurd hstate (by simp)

/-! ## Orders a fill is not of -/

/-- No fill of `orderId` advances the order `cid`. -/
def Apart (s : InstrumentState Data ExchangeKey AssetKey InstrumentKey) (cid : ClientOrderId)
    (orderId : OrderId) : Prop :=
  s.exchangeIdToCid.get? orderId ≠ some cid ∧ s.orders.carries cid orderId = false

section Apart

variable {cid : ClientOrderId} {orderId : OrderId}

theorem Apart.congr {s' : InstrumentState Data ExchangeKey AssetKey InstrumentKey}
    (h : s.Apart cid orderId)
    (hindex : s'.exchangeIdToCid.get? orderId = some cid →
      s.exchangeIdToCid.get? orderId = some cid)
    (horders : s'.orders.get? cid = s.orders.get? cid) : s'.Apart cid orderId :=
  ⟨fun hindexed => h.1 (hindex hindexed), (Orders.carries_congr horders).trans h.2⟩

theorem Apart.cleanupRoutingTables (h : s.Apart cid orderId) :
    (s.cleanupRoutingTables hash).Apart cid orderId :=
  h.congr (fun hindexed => (get?_exchangeIdToCid_cleanupRoutingTables.1 hindexed).1) rfl

theorem Apart.advanceOrder {trade : Trade AssetKey InstrumentKey} (h : s.Apart cid trade.orderId) :
    (s.advanceOrder hash trade).orders.get? cid = s.orders.get? cid ∧
      (s.advanceOrder hash trade).Apart cid trade.orderId := by
  have hother : ∀ other, s.trackedOrderCid hash trade.orderId = some other → cid ≠ other := by
    rintro other hfound rfl
    rcases trackedOrderCid_cases hfound with hindex | hcarries
    · exact h.1 hindex
    · exact absurd (h.2.symm.trans hcarries) (by simp)
  have hkept : ∀ other reported, s.trackedOrderCid hash trade.orderId = some other →
      (s.orders.updateFromFill other trade.orderId reported).1.get? cid = s.orders.get? cid :=
    fun other reported hfound => Orders.get?_updateFromFill_of_ne (hother other hfound)
  refine advanceOrder_cases (P := fun s' => s'.orders.get? cid = s.orders.get? cid ∧
    s'.Apart cid trade.orderId) ⟨rfl, h⟩ ?_ ?_
  · intro other reported hfound _
    exact ⟨hkept other reported hfound, h.congr id (hkept other reported hfound)⟩
  · intro other reported hfound _
    refine ⟨hkept other reported hfound, Apart.cleanupRoutingTables ?_⟩
    exact h.congr id (hkept other reported hfound)

variable [DecimalRange] [DecidableEq AssetKey] [DecidableEq InstrumentKey]
  {reduceOnlyFills : List (TradeId × ReduceOnly)}

variable (hash reduceOnlyFills) in
theorem Apart.replayTrade {trade : Trade AssetKey InstrumentKey} (h : s.Apart cid trade.orderId) :
    (s.replayTrade hash trade reduceOnlyFills).1.orders.get? cid = s.orders.get? cid ∧
      (s.replayTrade hash trade reduceOnlyFills).1.Apart cid trade.orderId := by
  have hsame : ∀ s' : InstrumentState Data ExchangeKey AssetKey InstrumentKey,
      s'.tables = s.tables → s'.orders.get? cid = s.orders.get? cid ∧
        s'.Apart cid trade.orderId := by
    intro s' htables
    have horders : s'.orders = s.orders := congrArg Tables.orders htables
    have hindex : s'.exchangeIdToCid = s.exchangeIdToCid := congrArg Tables.exchangeIdToCid htables
    exact ⟨by rw [horders], h.congr (fun hindexed => hindex ▸ hindexed) (by rw [horders])⟩
  cases hd : (s.destination hash trade).positionId? with
  | none => exact hsame _ (tables_replayTrade_of_unplaced hd)
  | some positionId =>
    obtain ⟨booked, trade', hbooked, hid, heq, -⟩ := placedAt_replayTrade reduceOnlyFills hd
    rw [heq, ← hid]
    obtain ⟨horders, happart⟩ := hsame booked hbooked.tables
    rw [← hid] at happart
    split
    · have hpruned : (booked.prunePositionIds positionId).Apart cid trade'.orderId := happart
      exact ⟨hpruned.advanceOrder.1.trans horders, hpruned.advanceOrder.2⟩
    · exact ⟨happart.advanceOrder.1.trans horders, happart.advanceOrder.2⟩

theorem Apart.replayTrades {applied : FillsApplied AssetKey InstrumentKey}
    {fills : List (Trade AssetKey InstrumentKey)} (hfills : ∀ fill ∈ fills, fill.orderId = orderId)
    (h : s.Apart cid orderId) :
    (InstrumentState.replayTrades hash reduceOnlyFills s applied fills).1.orders.get? cid =
      s.orders.get? cid := by
  induction fills generalizing s applied with
  | nil => rfl
  | cons fill fills ih =>
    have hfill : s.Apart cid fill.orderId := by
      rw [hfills fill List.mem_cons_self]; exact h
    have hnext := hfill.replayTrade hash reduceOnlyFills
    rw [hfills fill List.mem_cons_self] at hnext
    exact (ih (fun fill' hmem => hfills fill' (List.mem_cons_of_mem _ hmem)) hnext.2).trans hnext.1

/-- **A report changes no order but its own**, if no other carries the id it settles. -/
theorem get?_updateFromOrderSnapshot_of_ne (hk : s.orders.Keyed)
    {order : Order ExchangeKey InstrumentKey OrderState} (hne : cid ≠ order.key.cid)
    (hcarries : ∀ id, namedId? order = some id → s.orders.carries cid id = false) :
    (s.updateFromOrderSnapshot hash order).1.orders.get? cid = s.orders.get? cid := by
  have hreported : (s.orders.updateFromOrderSnapshot order).get? cid = s.orders.get? cid :=
    (Orders.step_change hk (.updateFromOrderSnapshot order)).get?_of_ne rfl hne
  cases hack : s.ackExchangeId order with
  | none =>
    rw [updateFromOrderSnapshot_of_no_ack hack, orders_updated]
    exact hreported
  | some exchangeId =>
    have hreleasing : (s.releasing hash order exchangeId).orders =
        s.orders.updateFromOrderSnapshot order := orders_releasing
    rcases updateFromOrderSnapshot_tables hash hack with heq | heq
    · have horders : (s.updateFromOrderSnapshot hash order).1.orders =
          (s.releasing hash order exchangeId).orders := congrArg Tables.orders heq
      rw [horders, hreleasing]
      exact hreported
    · rw [heq, orders_cleanupRoutingTables]
      have happart : (s.releasing hash order exchangeId).Apart cid exchangeId := by
        refine ⟨?_, ?_⟩
        · rw [get?_exchangeIdToCid_releasing]
          exact fun h => hne (Option.some.inj h).symm
        · rw [hreleasing, Orders.carries_congr hreported]
          exact hcarries exchangeId (ackExchangeId_eq_some hack).2
      rw [happart.replayTrades fun fill hmem => by simpa using (List.mem_filter.1 hmem).2]
      rw [hreleasing]
      exact hreported

end Apart

section Retire

variable {listed : List ClientOrderId} {ordersComplete : Bool}

/-- An order the retirement takes out is open as the record has it. -/
theorem openAs_of_retired {cid : ClientOrderId} (hbefore : s.orders.get? cid ≠ none)
    (hafter : (s.retireUnlisted hash listed ordersComplete).orders.get? cid = none) :
    ordersComplete = true ∧ cid ∉ listed ∧
      ∃ orderId, s.ordersOpenAtResync.get? cid = some (.assigned orderId) ∧
        s.OpenAs cid orderId := by
  obtain ⟨order, hget⟩ := Option.ne_none_iff_exists'.1 hbefore
  change (if ordersComplete then _ else s.orders).get? cid = none at hafter
  cases ordersComplete with
  | false => exact absurd hafter hbefore
  | true =>
    obtain ⟨id, open_, hmem, hopen, hsame⟩ := Orders.mem_of_removeOpens _ hget hafter
    obtain ⟨hrecord, hunlisted⟩ := List.mem_filter.1 hmem
    have hrecord : s.ordersOpenAtResync.get? cid = some id :=
      IndexMap.get?_eq_some_iff.2 (HashOrder.mem_arrange.1 hrecord)
    cases hid : open_.id with
    | clientAssigned => rw [hid] at hsame; exact absurd hsame (by simp [VenueOrderId.isSameOrderAs])
    | assigned orderId =>
      cases id with
      | clientAssigned =>
        rw [hid] at hsame; exact absurd hsame (by simp [VenueOrderId.isSameOrderAs])
      | assigned recorded =>
        have heq : orderId = recorded := by
          rw [hid] at hsame; simpa [VenueOrderId.isSameOrderAs] using hsame
        subst heq
        exact ⟨rfl, by simpa using hunlisted, orderId, hrecord, order, open_, hget, hopen, hid⟩

end Retire

section Runs

variable [DecimalRange] [DecidableEq AssetKey] [DecidableEq InstrumentKey]
  [InstrumentDataState Data ExchangeKey AssetKey InstrumentKey]

/-! ## The record of a run -/

theorem ordersOpenAtResync_step {op : Op Data ExchangeKey AssetKey InstrumentKey}
    (h : op.isResync = false) : (s.step op).ordersOpenAtResync = s.ordersOpenAtResync :=
  congrArg Prod.snd (unwritten_step h)

theorem ordersOpenAtResync_run {ops : List (Op Data ExchangeKey AssetKey InstrumentKey)}
    (h : ∀ op ∈ ops, op.isResync = false) :
    (s.run ops).ordersOpenAtResync = s.ordersOpenAtResync :=
  Transition.run_invariant_of
    (fun s' : InstrumentState Data ExchangeKey AssetKey InstrumentKey =>
      s'.ordersOpenAtResync = s.ordersOpenAtResync)
    (fun _ _ hop hs => (ordersOpenAtResync_step hop).trans hs) h rfl

/-- Until a resync begins, what is on record was on record before. -/
theorem get?_ordersOpenAtResync_run {ops : List (Op Data ExchangeKey AssetKey InstrumentKey)}
    (h : ∀ op ∈ ops, op ≠ .beginAccountResync) {cid : ClientOrderId} {id : VenueOrderId}
    (hrecord : (s.run ops).ordersOpenAtResync.get? cid = some id) :
    s.ordersOpenAtResync.get? cid = some id := by
  refine Transition.run_invariant_of
    (fun s' : InstrumentState Data ExchangeKey AssetKey InstrumentKey =>
      s'.ordersOpenAtResync.get? cid = some id → s.ordersOpenAtResync.get? cid = some id)
    (fun s' op hop hs hnext => ?_) h (fun hsame => hsame) hrecord
  cases hresync : op.isResync with
  | false => exact hs (ordersOpenAtResync_step hresync ▸ hnext)
  | true =>
    cases op with
    | beginAccountResync => exact absurd rfl hop
    | retireUnlisted hash listed ordersComplete =>
      change (IndexMap.empty : IndexMap ClientOrderId VenueOrderId).get? cid = some id at hnext
      exact absurd hnext (by simp)
    | _ => exact absurd hresync (by simp [Op.isResync])

/-- What is on record was recorded by the last resync, and no snapshot has come since. -/
theorem recorded_by_last_resync (hrecord : s.ordersOpenAtResync = .empty)
    {ops : List (Op Data ExchangeKey AssetKey InstrumentKey)} {cid : ClientOrderId}
    {id : VenueOrderId} (h : (s.run ops).ordersOpenAtResync.get? cid = some id) :
    ∃ pre mid, ops = pre ++ .beginAccountResync :: mid ∧ (∀ op ∈ mid, op.isResync = false) ∧
      (s.run pre).beginAccountResync.ordersOpenAtResync.get? cid = some id := by
  induction ops using List.reverseRecOn with
  | nil => rw [run, Transition.run_nil, hrecord] at h; exact absurd h (by simp)
  | append_singleton ops op ih =>
    rw [run, Transition.run_concat] at h
    cases hresync : op.isResync with
    | false =>
      rw [ordersOpenAtResync_step hresync] at h
      obtain ⟨pre, mid, hops, hmid, hrecorded⟩ := ih h
      refine ⟨pre, mid ++ [op], by rw [hops]; simp, ?_, hrecorded⟩
      intro op' hop'
      rcases List.mem_append.1 hop' with hop' | hop'
      · exact hmid op' hop'
      · cases List.mem_singleton.1 hop'; exact hresync
    | true =>
      cases op with
      | beginAccountResync => exact ⟨ops, [], rfl, by simp, h⟩
      | retireUnlisted hash listed ordersComplete =>
        change (IndexMap.empty : IndexMap ClientOrderId VenueOrderId).get? cid = some id at h
        exact absurd h (by simp)
      | _ => exact absurd hresync (by simp [Op.isResync])

/-! ## The ids of a run -/

/-- Venue ids are unique per order: each is told of one client order id, and no longer told of it
    once an order is sent under that anew. -/
structure UniqueIds (s : InstrumentState Data ExchangeKey AssetKey InstrumentKey)
    (ops : List (Op Data ExchangeKey AssetKey InstrumentKey)) : Prop where
  owner : ∀ e ∈ ops.flatMap Op.tells, ∀ e' ∈ ops.flatMap Op.tells, e.2 = e'.2 → e.1 = e'.1
  anew : ∀ pre request timeSent post, ops = pre ++ .recordInFlightOpen request timeSent :: post →
    (s.run pre).orders.get? request.key.cid = none →
    ∀ id, (request.key.cid, id) ∈ pre.flatMap Op.tells →
      (request.key.cid, id) ∉ post.flatMap Op.tells

theorem UniqueIds.of_prefix {ops ops' : List (Op Data ExchangeKey AssetKey InstrumentKey)}
    (h : UniqueIds s (ops ++ ops')) : UniqueIds s ops where
  owner e he e' he' := by
    have hsub : ∀ e ∈ ops.flatMap Op.tells, e ∈ (ops ++ ops').flatMap Op.tells := by
      intro e he
      rw [List.flatMap_append]
      exact List.mem_append_left _ he
    exact h.owner e (hsub e he) e' (hsub e' he')
  anew pre request timeSent post hops huntracked id hbefore hafter := by
    refine h.anew pre request timeSent (post ++ ops') (by rw [hops]; simp) huntracked id hbefore ?_
    rw [List.flatMap_append]
    exact List.mem_append_left _ hafter

omit [DecimalRange] [DecidableEq AssetKey] [DecidableEq InstrumentKey]
  [InstrumentDataState Data ExchangeKey AssetKey InstrumentKey] in
/-- The orders are well formed, and carry no id but those told. -/
structure CarriesTold (s : InstrumentState Data ExchangeKey AssetKey InstrumentKey)
    (names : List (ClientOrderId × OrderId)) : Prop where
  keyed : s.orders.Keyed
  separated : s.orders.Separated
  told : ∀ id cid, s.orders.carries cid id = true → (cid, id) ∈ names

omit [DecimalRange] [DecidableEq AssetKey] [DecidableEq InstrumentKey]
  [InstrumentDataState Data ExchangeKey AssetKey InstrumentKey] in
theorem carriesTold_of_empty (h : s.orders = .empty) : CarriesTold s [] where
  keyed := by rw [h]; exact Orders.keyed_empty
  separated := by rw [h]; exact Orders.separated_empty
  told := by
    intro id cid hcarries
    rw [h, Orders.carries_of_untracked rfl] at hcarries
    exact absurd hcarries (by simp)

omit [DecimalRange] [DecidableEq AssetKey] [DecidableEq InstrumentKey]
  [InstrumentDataState Data ExchangeKey AssetKey InstrumentKey] in
theorem CarriesTold.mono {names names' : List (ClientOrderId × OrderId)} (h : CarriesTold s names)
    (hsub : ∀ e ∈ names, e ∈ names') : CarriesTold s names' :=
  ⟨h.keyed, h.separated, fun id cid hcarries => hsub _ (h.told id cid hcarries)⟩

theorem carriesTold_step {names : List (ClientOrderId × OrderId)} (h : CarriesTold s names)
    (op : Op Data ExchangeKey AssetKey InstrumentKey) :
    CarriesTold (s.step op) (names ++ op.tells) := by
  obtain ⟨orders', hcall, hends⟩ := step_orders h.keyed h.separated op
  refine ⟨hends.keyed, hends.separated, Chain.named_of_ends hends ?_⟩
  have hbefore : ∀ id cid, s.orders.carries cid id = true → (cid, id) ∈ names ++ op.tells :=
    fun id cid hcarries => List.mem_append_left _ (h.told id cid hcarries)
  rcases hcall with rfl | ⟨call, hcall, rfl⟩
  · exact hbefore
  · refine Chain.named_step call h.keyed hbefore ?_
    rintro snapshot open_ id rfl hopen hid
    refine List.mem_append_right _ ?_
    cases op <;> cases hcall
    simp [Op.tells, namedId?_of_openMeta hopen hid]

theorem carriesTold_run {names : List (ClientOrderId × OrderId)} (h : CarriesTold s names)
    (ops : List (Op Data ExchangeKey AssetKey InstrumentKey)) :
    CarriesTold (s.run ops) (names ++ ops.flatMap Op.tells) := by
  induction ops generalizing s names with
  | nil => simpa using h
  | cons op ops ih =>
    rw [List.flatMap_cons, ← List.append_assoc]
    exact ih (carriesTold_step h op)

/-- An order sent anew carries an id told since. -/
theorem told_since_sent {names : List (ClientOrderId × OrderId)} (h : CarriesTold s names)
    {request : OrderRequestOpen ExchangeKey InstrumentKey} {timeSent : DateTime}
    (huntracked : s.orders.get? request.key.cid = none)
    {ops : List (Op Data ExchangeKey AssetKey InstrumentKey)} {id : OrderId}
    (hcarries : (s.run (.recordInFlightOpen request timeSent :: ops)).orders.carries
      request.key.cid id = true) : (request.key.cid, id) ∈ ops.flatMap Op.tells := by
  have hsent : CarriesTold (s.recordInFlightOpen request timeSent)
      (names.filter fun e => e.1 ≠ request.key.cid) := by
    have hstep : CarriesTold (s.recordInFlightOpen request timeSent) (names ++ []) :=
      carriesTold_step h (.recordInFlightOpen request timeSent)
    refine ⟨hstep.keyed, hstep.separated, fun id cid hcarries => ?_⟩
    have htold := hstep.told id cid hcarries
    rw [List.append_nil] at htold
    refine List.mem_filter.2 ⟨htold, ?_⟩
    have hne : cid ≠ request.key.cid := by
      rintro rfl
      have hnew : s.orders.tracked.contains request.key.cid = false :=
        IndexMap.not_contains_iff.2 huntracked
      unfold recordInFlightOpen at hcarries
      rw [hnew] at hcarries
      exact absurd hcarries (by simp [Orders.carries_recordInFlightOpen huntracked])
    simpa using hne
  have hrun := (carriesTold_run hsent ops).told id request.key.cid hcarries
  rcases List.mem_append.1 hrun with hmem | hmem
  · exact absurd (List.mem_filter.1 hmem).2 (by simp)
  · exact hmem

/-! ## What a snapshot retires -/

/-- The calls of an account snapshot on the orders it lists. -/
abbrev reportsOf (hash : HashOrder)
    (snapshot : InstrumentAccountSnapshot ExchangeKey InstrumentKey) :
    List (Op Data ExchangeKey AssetKey InstrumentKey) :=
  snapshot.orders.map (Op.updateFromOrderSnapshot hash)

theorem updateFromAccountSnapshot_eq
    (snapshot : InstrumentAccountSnapshot ExchangeKey InstrumentKey) :
    s.updateFromAccountSnapshot hash snapshot =
      (s.run (reportsOf hash snapshot)).retireUnlisted hash
        (snapshot.orders.map fun order => order.key.cid) snapshot.ordersComplete := by
  rw [updateFromAccountSnapshot_eq_run, run, Transition.run_concat]
  rfl

/-- The reports of a snapshot leave an order it does not list as it is. -/
theorem get?_reports {cid : ClientOrderId}
    {orders : List (Order ExchangeKey InstrumentKey OrderState)}
    {names : List (ClientOrderId × OrderId)} (h : CarriesTold s names)
    (htold : ∀ order ∈ orders, ∀ id, namedId? order = some id → (order.key.cid, id) ∈ names)
    (howner : ∀ e ∈ names, ∀ e' ∈ names, e.2 = e'.2 → e.1 = e'.1)
    (hunlisted : cid ∉ orders.map fun order => order.key.cid) :
    (s.run (orders.map (Op.updateFromOrderSnapshot hash))).orders.get? cid = s.orders.get? cid := by
  induction orders generalizing s with
  | nil => rfl
  | cons order orders ih =>
    rw [List.map_cons, List.mem_cons, not_or] at hunlisted
    have hself := htold order List.mem_cons_self
    have hnext : CarriesTold (s.updateFromOrderSnapshot hash order).1 names := by
      refine (carriesTold_step h (.updateFromOrderSnapshot hash order)).mono ?_
      intro e he
      rcases List.mem_append.1 he with he | he
      · exact he
      · obtain ⟨id, hid, rfl⟩ := Option.map_eq_some_iff.1 (Option.mem_toList.1 he)
        exact hself id hid
    have hkept : (s.updateFromOrderSnapshot hash order).1.orders.get? cid = s.orders.get? cid := by
      refine get?_updateFromOrderSnapshot_of_ne h.keyed hunlisted.1 fun id hid => ?_
      cases hcarries : s.orders.carries cid id with
      | false => rfl
      | true => exact absurd (howner _ (h.told id cid hcarries) _ (hself id hid) rfl) hunlisted.1
    rw [List.map_cons, run, Transition.run_cons]
    exact (ih hnext (fun order' hmem => htold order' (List.mem_cons_of_mem _ hmem))
      hunlisted.2).trans hkept

/-- An order sent anew since the last resync, under ids told once, is not open as recorded. -/
theorem not_recorded_of_sent_anew (horders : s.orders = .empty)
    {pre mid post : List (Op Data ExchangeKey AssetKey InstrumentKey)}
    {request : OrderRequestOpen ExchangeKey InstrumentKey} {timeSent : DateTime}
    (hids : UniqueIds s (pre ++ mid ++ .recordInFlightOpen request timeSent :: post))
    (huntracked : (s.run (pre ++ mid)).orders.get? request.key.cid = none) {orderId : OrderId}
    (hbefore : (s.run pre).OpenAs request.key.cid orderId) :
    ¬ (s.run (pre ++ mid ++ .recordInFlightOpen request timeSent :: post)).OpenAs request.key.cid
      orderId := by
  intro hafter
  have hstart : CarriesTold s [] := carriesTold_of_empty horders
  have htold : (request.key.cid, orderId) ∈ pre.flatMap Op.tells := by
    simpa using (carriesTold_run hstart pre).told _ _ hbefore.carries
  refine hids.anew (pre ++ mid) request timeSent post rfl huntracked orderId ?_ ?_
  · rw [List.flatMap_append]
    exact List.mem_append_left _ htold
  · have hcarries := hafter.carries
    rw [run, Transition.run_append] at hcarries
    exact told_since_sent (carriesTold_run hstart (pre ++ mid)) huntracked hcarries

end Runs

/-! ## A client order id sent again -/

section Sample

attribute [local instance] DecimalRange.exact

namespace Sample

def resyncs : Op NoData Unit Asset Unit := .beginAccountResync

/-- The order of `v-1` ends while the stream is down, and its client order id is sent again and
    acknowledged as `v-2`. -/
def sentAgain : List (Op NoData Unit Asset Unit) :=
  [sends, reportsOpen, resyncs, reports (.inactive (.cancelled ⟨⟨"v-1"⟩, 3, none⟩)), sends,
    reports (.active (.open ⟨.assigned ⟨"v-2"⟩, 4, 0⟩))]

theorem uniqueIds_sentAgain : UniqueIds fresh sentAgain where
  owner := by decide
  anew := by
    intro pre request timeSent post hops _ id hbefore hafter
    rcases pre with _ | ⟨e₁, _ | ⟨e₂, _ | ⟨e₃, _ | ⟨e₄, _ | ⟨e₅, _ | ⟨e₆, pre⟩⟩⟩⟩⟩⟩ <;>
      simp only [sentAgain, List.nil_append, List.cons_append, List.cons.injEq] at hops
    · exact absurd hbefore (by simp)
    · exact absurd hops.2.1 (by simp [reportsOpen, reports])
    · exact absurd hops.2.2.1 (by simp [resyncs])
    · exact absurd hops.2.2.2.1 (by simp [reports])
    · -- The second request: `v-1` was told before it, and `v-2` is told after it.
      obtain ⟨rfl, rfl, rfl, rfl, hsends, rfl⟩ := hops
      cases hsends
      have hid : id = ⟨"v-1"⟩ := by
        simpa [sends, reportsOpen, resyncs, reports, Op.tells, namedId?, key,
          ActiveOrderState.openMeta] using hbefore
      subst hid
      exact absurd hafter (by decide)
    · exact absurd hops.2.2.2.2.2.1 (by simp [reports])
    · exact absurd hops.2.2.2.2.2.2 (by simp)

end Sample

end Sample

end InstrumentState

end Rustrade
