import Rustrade.InstrumentState.ChainReport

/-!
# The chain over any call

What can break the chain of an order is in `KeepsChain`, call by call: the order leaves tracking
with its id indexed by no ack, or its position closes while its chain is in the live tables alone.
A call that does neither keeps the chain, and counts as ended since only the orders that left over
it: `holds_step`.
-/

set_option autoImplicit false

namespace Rustrade

namespace InstrumentState

variable {Data ExchangeKey AssetKey InstrumentKey : Type}

/-! ## What a call tells -/

/-- The venue order id a call tells of an order. -/
def Op.tells [InstrumentDataState Data ExchangeKey AssetKey InstrumentKey] :
    Op Data ExchangeKey AssetKey InstrumentKey → List (ClientOrderId × OrderId)
  | .updateFromOrderSnapshot _ order =>
      ((namedId? order).map fun id => (order.key.cid, id)).toList
  | _ => []

/-- The call records an open request of `cid`, or a report says that one is in flight. -/
def Op.RecordsOpen [InstrumentDataState Data ExchangeKey AssetKey InstrumentKey]
    (cid : ClientOrderId) : Op Data ExchangeKey AssetKey InstrumentKey → Prop
  | .recordInFlightOpen request _ => request.key.cid = cid
  | .updateFromOrderSnapshot _ order =>
      order.key.cid = cid ∧ ∃ sent, order.state = .active (.openInFlight sent)
  | _ => False

/-- The call on the orders that a call starts with. -/
def Op.onOrders [InstrumentDataState Data ExchangeKey AssetKey InstrumentKey] :
    Op Data ExchangeKey AssetKey InstrumentKey → Option (Orders.Op ExchangeKey InstrumentKey)
  | .recordInFlightOpen request timeSent => some (.recordInFlightOpen request timeSent)
  | .recordInFlightCancel request timeSent => some (.recordInFlightCancel request timeSent)
  | .updateFromOrderSnapshot _ order => some (.updateFromOrderSnapshot order)
  | .updateFromCancelResponse _ response => some (.updateFromCancelResponse response)
  | _ => none

/-- The call is about the order `cid`. -/
def Op.IsAbout [InstrumentDataState Data ExchangeKey AssetKey InstrumentKey]
    (cid : ClientOrderId) (op : Op Data ExchangeKey AssetKey InstrumentKey) : Prop :=
  op.onOrders.bind Orders.Op.subject = some cid

variable {hash : HashOrder} {s : InstrumentState Data ExchangeKey AssetKey InstrumentKey}
  {names : List (ClientOrderId × OrderId)} {k : Chain} {N : Finset ClientOrderId}

theorem Op.recordsOpen_of_onOrders [InstrumentDataState Data ExchangeKey AssetKey InstrumentKey]
    {op : Op Data ExchangeKey AssetKey InstrumentKey} {call : Orders.Op ExchangeKey InstrumentKey}
    {cid : ClientOrderId} (hcall : op.onOrders = some call) (h : call.RecordsOpen cid) :
    op.RecordsOpen cid := by
  cases op <;> cases hcall <;> exact h

/-! ## The other calls -/

theorem tables_drainPendingFills : s.drainPendingFills.tables = s.tables := by
  unfold drainPendingFills
  split <;> rfl

theorem tables_updateFromCashFlow [DecimalRange] [DecidableEq AssetKey]
    {flow : CashFlow AssetKey InstrumentKey} :
    (s.updateFromCashFlow flow).1.tables = s.tables := by
  unfold updateFromCashFlow
  split
  · rfl
  · split
    · rfl
    · split <;> rfl
    · rfl

theorem tables_updateFromMarket [InstrumentDataState Data ExchangeKey AssetKey InstrumentKey]
    [DecimalRange]
    {event : MarketEvent InstrumentKey (InstrumentDataState.MarketEventKind Data)} :
    (s.updateFromMarket event).tables = s.tables := by
  unfold updateFromMarket
  simp only
  split <;> rfl

section Unlisted

variable {listed : List ClientOrderId} {ordersComplete : Bool}

/-- The state a complete list of orders leaves before its cleanup. -/
def unlisted (hash : HashOrder) (s : InstrumentState Data ExchangeKey AssetKey InstrumentKey)
    (listed : List ClientOrderId) (ordersComplete : Bool) :
    InstrumentState Data ExchangeKey AssetKey InstrumentKey :=
  { s with
    ordersOpenAtResync := .empty
    orders :=
      if ordersComplete then
        ((hash.arrange s.ordersOpenAtResync.entries).filter fun open_ => open_.1 ∉ listed).foldl
          (fun orders open_ => (orders.removeOpen open_.1 open_.2).1) s.orders
      else s.orders }

theorem ends_unlisted (hk : s.orders.Keyed) (hd : s.orders.Separated) :
    Orders.Ends s.orders (s.unlisted hash listed ordersComplete).orders := by
  cases ordersComplete with
  | true => exact Orders.ends_removeOpens hk hd _
  | false => exact .refl hk hd

end Unlisted

section Step

variable [DecimalRange] [DecidableEq AssetKey] [DecidableEq InstrumentKey]
  [InstrumentDataState Data ExchangeKey AssetKey InstrumentKey]

/-- **Every call leaves every id in the tables told of.** -/
theorem consistent_step (h : s.tables.Consistent names)
    {op : Op Data ExchangeKey AssetKey InstrumentKey}
    (htold : ∀ e ∈ op.tells, e ∈ names) : (s.step op).tables.Consistent names := by
  have hcall : ∀ call : Orders.Op ExchangeKey InstrumentKey,
      (∀ snapshot, call ≠ .updateFromOrderSnapshot snapshot) →
      Tables.Consistent names { s.tables with orders := s.orders.step call } := by
    intro call hcall
    refine h.setOrders (Orders.keyed_step h.keyed)
      ((Orders.step_change h.keyed call).separated h.keyed h.separated)
      (Chain.named_step _ h.keyed h.carried ?_)
    rintro snapshot - - rfl
    exact absurd rfl (hcall snapshot)
  cases op with
  | recordInFlightOpen request timeSent =>
    change (s.recordInFlightOpen request timeSent).tables.Consistent names
    unfold recordInFlightOpen
    split
    · exact h
    · exact Tables.Consistent.setPositionIds
        (hcall (.recordInFlightOpen request timeSent) (by simp))
  | recordInFlightCancel request timeSent =>
    exact hcall (.recordInFlightCancel request timeSent) (by simp)
  | updateFromOrderSnapshot hash order =>
    refine consistent_updateFromOrderSnapshot h fun id hid => htold _ ?_
    simp [Op.tells, hid]
  | updateFromCancelResponse hash response =>
    set answered : InstrumentState Data ExchangeKey AssetKey InstrumentKey :=
      { s with orders := s.orders.updateFromCancelResponse response }
    have hanswered : answered.tables.Consistent names :=
      hcall (.updateFromCancelResponse response) (by simp)
    change ((answered.cleanupRoutingTables hash).drainPendingFills).tables.Consistent names
    rw [tables_drainPendingFills]
    exact consistent_cleanupRoutingTables hanswered
  | updateFromTrade hash trade => exact consistent_replayTrade h
  | beginAccountResync => exact h
  | retireUnlisted hash listed ordersComplete =>
    have hends : Orders.Ends s.orders (s.unlisted hash listed ordersComplete).orders :=
      ends_unlisted h.keyed h.separated
    have hunlisted : (s.unlisted hash listed ordersComplete).tables.Consistent names :=
      h.setOrders hends.keyed hends.separated (Chain.named_of_ends hends h.carried)
    exact consistent_cleanupRoutingTables hunlisted
  | updateFromCashFlow flow =>
    change (s.updateFromCashFlow flow).1.tables.Consistent names
    rw [tables_updateFromCashFlow]; exact h
  | updateFromMarket event =>
    change (s.updateFromMarket event).tables.Consistent names
    rw [tables_updateFromMarket]; exact h

/-! ## The orders over a call -/

/-- A call is at most one call on the orders, and then calls that only end some. -/
theorem step_orders (hk : s.orders.Keyed) (hd : s.orders.Separated)
    (op : Op Data ExchangeKey AssetKey InstrumentKey) :
    ∃ orders', (orders' = s.orders ∨
        ∃ call, op.onOrders = some call ∧ orders' = s.orders.step call) ∧
      Orders.Ends orders' (s.step op).orders := by
  have hcall : ∀ call : Orders.Op ExchangeKey InstrumentKey,
      Orders.Ends (s.orders.step call) (s.orders.step call) := fun call =>
    .refl (Orders.keyed_step hk) ((Orders.step_change hk call).separated hk hd)
  cases op with
  | recordInFlightOpen request timeSent =>
    change ∃ orders', _ ∧ Orders.Ends orders' (s.recordInFlightOpen request timeSent).orders
    unfold recordInFlightOpen
    split
    · exact ⟨s.orders, Or.inl rfl, .refl hk hd⟩
    · exact ⟨_, Or.inr ⟨.recordInFlightOpen request timeSent, rfl, rfl⟩,
        hcall (.recordInFlightOpen request timeSent)⟩
  | recordInFlightCancel request timeSent =>
    exact ⟨_, Or.inr ⟨.recordInFlightCancel request timeSent, rfl, rfl⟩,
      hcall (.recordInFlightCancel request timeSent)⟩
  | updateFromOrderSnapshot hash order =>
    have hreported := hcall (.updateFromOrderSnapshot order)
    exact ⟨_, Or.inr ⟨.updateFromOrderSnapshot order, rfl, rfl⟩,
      ends_updateFromOrderSnapshot hreported.keyed hreported.separated⟩
  | updateFromCancelResponse hash response =>
    refine ⟨_, Or.inr ⟨.updateFromCancelResponse response, rfl, rfl⟩, ?_⟩
    have horders : (s.step (.updateFromCancelResponse hash response)).orders =
        s.orders.step (.updateFromCancelResponse response) :=
      congrArg Tables.orders tables_drainPendingFills
    rw [horders]
    exact hcall (.updateFromCancelResponse response)
  | updateFromTrade hash trade => exact ⟨s.orders, Or.inl rfl, ends_replayTrade hk hd⟩
  | beginAccountResync => exact ⟨s.orders, Or.inl rfl, .refl hk hd⟩
  | retireUnlisted hash listed ordersComplete => exact ⟨s.orders, Or.inl rfl, ends_unlisted hk hd⟩
  | updateFromCashFlow flow =>
    have horders : (s.step (.updateFromCashFlow flow)).orders = s.orders :=
      congrArg Tables.orders tables_updateFromCashFlow
    exact ⟨s.orders, Or.inl rfl, by rw [horders]; exact .refl hk hd⟩
  | updateFromMarket event =>
    have horders : (s.step (.updateFromMarket event)).orders = s.orders :=
      congrArg Tables.orders tables_updateFromMarket
    exact ⟨s.orders, Or.inl rfl, by rw [horders]; exact .refl hk hd⟩

/-- An ended order that is remembered stays ended. -/
theorem untracked_step {cid : ClientOrderId} (hk : s.orders.Keyed) (hd : s.orders.Separated)
    {op : Op Data ExchangeKey AssetKey InstrumentKey} (hbefore : s.orders.get? cid = none)
    (hremembered : cid ∈ s.orders.retired.items) (hnot : ¬ op.RecordsOpen cid) :
    (s.step op).orders.get? cid = none := by
  obtain ⟨orders', hfirst, hends⟩ := step_orders hk hd op
  refine hends.back cid ?_
  rcases hfirst with rfl | ⟨call, hcall, rfl⟩
  · exact hbefore
  · exact (Orders.step_change hk call).stays hbefore hremembered fun h =>
      hnot (Op.recordsOpen_of_onOrders hcall h)

/-- So does an order that no call is about. -/
theorem untracked_step_of_not_about {cid : ClientOrderId} (hk : s.orders.Keyed)
    (hd : s.orders.Separated) {op : Op Data ExchangeKey AssetKey InstrumentKey}
    (hbefore : s.orders.get? cid = none) (hnot : ¬ op.IsAbout cid) :
    (s.step op).orders.get? cid = none := by
  obtain ⟨orders', hfirst, hends⟩ := step_orders hk hd op
  refine hends.back cid ?_
  rcases hfirst with rfl | ⟨call, hcall, rfl⟩
  · exact hbefore
  · cases hsubject : call.subject with
    | none => cases op <;> cases hcall <;> exact absurd hsubject (by simp [Orders.Op.subject])
    | some c =>
      have hne : cid ≠ c := by
        rintro rfl
        exact hnot (by rw [Op.IsAbout, hcall]; exact hsubject)
      exact ((Orders.step_change hk call).get?_of_ne hsubject hne).trans hbefore

/-- An order that carries a working state carries one as long as it is tracked. -/
theorem carried_step {cid : ClientOrderId} (hk : s.orders.Keyed) (hd : s.orders.Separated)
    {op : Op Data ExchangeKey AssetKey InstrumentKey}
    (hcarried : (s.orders.carried cid).isSome = true)
    (hafter : (s.step op).orders.get? cid ≠ none) :
    ((s.step op).orders.carried cid).isSome = true := by
  obtain ⟨orders', hfirst, hends⟩ := step_orders hk hd op
  refine hends.continues cid ?_ hafter
  rcases hfirst with rfl | ⟨call, -, rfl⟩
  · exact hcarried
  · exact Orders.carried_isSome_step hk hcarried fun hmid => hafter (hends.back cid hmid)

/-! ## The id of a tracked order -/

/-- A report of the order under an id of the client's own finds the venue's id indexed: it would
    take the place of the id the order carries. -/
def KeepsId (k : Chain)
    (s : InstrumentState Data ExchangeKey AssetKey InstrumentKey) :
    Op Data ExchangeKey AssetKey InstrumentKey → Prop
  | .updateFromOrderSnapshot _ order => order.key.cid = k.cid →
      s.exchangeIdToCid.get? k.orderId = some k.cid ∨
        ∀ open_, order.state.openMeta = some open_ → open_.id.assigned? ≠ none
  | _ => True

/-- The tables or the order itself name its venue order id. -/
def Named (k : Chain) (s : InstrumentState Data ExchangeKey AssetKey InstrumentKey) : Prop :=
  s.exchangeIdToCid.get? k.orderId = some k.cid ∨ s.orders.carries k.cid k.orderId = true

omit [InstrumentDataState Data ExchangeKey AssetKey InstrumentKey] in
theorem get?_exchangeIdToCid_replayTrades {reduceOnlyFills : List (TradeId × ReduceOnly)}
    {applied : FillsApplied AssetKey InstrumentKey} {fills : List (Trade AssetKey InstrumentKey)}
    {id : OrderId} {cid : ClientOrderId} (hk : s.orders.Keyed) (hd : s.orders.Separated)
    (hindex : s.exchangeIdToCid.get? id = some cid)
    (htracked : (replayTrades hash reduceOnlyFills s applied fills).1.orders.get? cid ≠ none) :
    (replayTrades hash reduceOnlyFills s applied fills).1.exchangeIdToCid.get? id = some cid := by
  induction fills generalizing s applied with
  | nil => exact hindex
  | cons fill fills ih =>
    have hends : Orders.Ends s.orders (s.replayTrade hash fill reduceOnlyFills).1.orders :=
      ends_replayTrade hk hd
    refine ih hends.keyed hends.separated
      (get?_exchangeIdToCid_replayTrade hindex fun hnone => htracked ?_) htracked
    exact (ends_replayTrades hends.keyed hends.separated).back cid hnone

omit [InstrumentDataState Data ExchangeKey AssetKey InstrumentKey] in
/-- The index keeps the id of a tracked order over a report, which tells of no other order. -/
theorem indexed_updateFromOrderSnapshot {order : Order ExchangeKey InstrumentKey OrderState}
    (h : s.tables.Consistent names) (hnames : UsedOnce names)
    (hchain : (k.cid, k.orderId) ∈ names)
    (htold : ∀ id, namedId? order = some id → (order.key.cid, id) ∈ names)
    (hindex : s.exchangeIdToCid.get? k.orderId = some k.cid)
    (hafter : (s.updateFromOrderSnapshot hash order).1.orders.get? k.cid ≠ none) :
    (s.updateFromOrderSnapshot hash order).1.exchangeIdToCid.get? k.orderId = some k.cid := by
  have hkeyed : (s.orders.updateFromOrderSnapshot order).Keyed :=
    (Orders.step_change h.keyed (.updateFromOrderSnapshot order)).keyed h.keyed
  have hseparated : (s.orders.updateFromOrderSnapshot order).Separated :=
    (Orders.step_change h.keyed (.updateFromOrderSnapshot order)).separated h.keyed h.separated
  have hreported : (s.orders.updateFromOrderSnapshot order).get? k.cid ≠ none := fun hnone =>
    hafter ((ends_updateFromOrderSnapshot hkeyed hseparated).back k.cid hnone)
  have hupdated : (s.updated hash order).exchangeIdToCid.get? k.orderId = some k.cid := by
    refine get?_exchangeIdToCid_cleanupRoutingTables.2 ⟨?_, ?_⟩
    · exact (congrArg (fun t => t.exchangeIdToCid.get? k.orderId)
        (tables_reported s order)).trans hindex
    · refine IndexMap.contains_iff.2 (Option.ne_none_iff_exists'.1 ?_)
      change (s.reported order).orders.get? k.cid ≠ none
      rw [orders_reported]
      exact hreported
  cases hack : s.ackExchangeId order with
  | none => rw [updateFromOrderSnapshot_of_no_ack hack]; exact hupdated
  | some exchangeId =>
    have hreleasing : (s.releasing hash order exchangeId).exchangeIdToCid.get? k.orderId =
        some k.cid := by
      change ((s.updated hash order).exchangeIdToCid.insert exchangeId
        order.key.cid).get? k.orderId = _
      rw [IndexMap.get?_insert]
      split
      · rename_i hid
        have hname := htold exchangeId (ackExchangeId_eq_some hack).2
        exact congrArg some ((hnames _ hname _ hchain).2 hid.symm)
      · exact hupdated
    rcases updateFromOrderSnapshot_tables hash hack with heq | heq
    · exact (congrArg (fun t => t.exchangeIdToCid.get? k.orderId) heq).trans hreleasing
    · rw [heq] at hafter ⊢
      refine get?_exchangeIdToCid_cleanupRoutingTables.2
        ⟨get?_exchangeIdToCid_replayTrades ?_ ?_ hreleasing hafter,
          IndexMap.contains_iff.2 (Option.ne_none_iff_exists'.1 hafter)⟩
      · rw [orders_releasing]; exact hkeyed
      · rw [orders_releasing]; exact hseparated

/-- **The index keeps the id of a tracked order.** -/
theorem indexed_step (h : s.tables.Consistent names) (hnames : UsedOnce names)
    (hchain : (k.cid, k.orderId) ∈ names) {op : Op Data ExchangeKey AssetKey InstrumentKey}
    (htold : ∀ e ∈ op.tells, e ∈ names)
    (hindex : s.exchangeIdToCid.get? k.orderId = some k.cid)
    (hafter : (s.step op).orders.get? k.cid ≠ none) :
    (s.step op).exchangeIdToCid.get? k.orderId = some k.cid := by
  have hcontains : ∀ s' : InstrumentState Data ExchangeKey AssetKey InstrumentKey,
      s'.orders.get? k.cid ≠ none → s'.orders.tracked.contains k.cid = true :=
    fun s' hs' => IndexMap.contains_iff.2 (Option.ne_none_iff_exists'.1 hs')
  cases op with
  | recordInFlightOpen request timeSent =>
    change (s.recordInFlightOpen request timeSent).exchangeIdToCid.get? k.orderId = _
    unfold recordInFlightOpen
    split <;> exact hindex
  | recordInFlightCancel request timeSent => exact hindex
  | updateFromOrderSnapshot hash order =>
    exact indexed_updateFromOrderSnapshot h hnames hchain
      (fun id hid => htold _ (by simp [Op.tells, hid])) hindex hafter
  | updateFromCancelResponse hash response =>
    set answered : InstrumentState Data ExchangeKey AssetKey InstrumentKey :=
      { s with orders := s.orders.updateFromCancelResponse response }
    have htables : (s.step (.updateFromCancelResponse hash response)).tables =
        (answered.cleanupRoutingTables hash).tables := tables_drainPendingFills
    have horders : (s.step (.updateFromCancelResponse hash response)).orders = answered.orders :=
      congrArg Tables.orders htables
    have hkept : (answered.cleanupRoutingTables hash).exchangeIdToCid.get? k.orderId =
        some k.cid :=
      get?_exchangeIdToCid_cleanupRoutingTables.2 ⟨hindex, hcontains answered (horders ▸ hafter)⟩
    exact (congrArg (fun t => t.exchangeIdToCid.get? k.orderId) htables).trans hkept
  | updateFromTrade hash trade => exact get?_exchangeIdToCid_replayTrade hindex hafter
  | beginAccountResync => exact hindex
  | retireUnlisted hash listed ordersComplete =>
    exact get?_exchangeIdToCid_cleanupRoutingTables.2
      ⟨hindex, hcontains (s.unlisted hash listed ordersComplete) hafter⟩
  | updateFromCashFlow flow =>
    have htables : (s.step (.updateFromCashFlow flow)).tables = s.tables :=
      tables_updateFromCashFlow
    exact (congrArg (fun t => t.exchangeIdToCid.get? k.orderId) htables).trans hindex
  | updateFromMarket event =>
    have htables : (s.step (.updateFromMarket event)).tables = s.tables :=
      tables_updateFromMarket
    exact (congrArg (fun t => t.exchangeIdToCid.get? k.orderId) htables).trans hindex

/-- **A tracked order stays named over a call that keeps its id.** -/
theorem named_step (h : s.tables.Consistent names) (hnames : UsedOnce names)
    (hchain : (k.cid, k.orderId) ∈ names) {op : Op Data ExchangeKey AssetKey InstrumentKey}
    (htold : ∀ e ∈ op.tells, e ∈ names) (hkeeps : KeepsId k s op)
    (hcarried : (s.orders.carried k.cid).isSome = true) (hnamed : Named k s)
    (hafter : (s.step op).orders.get? k.cid ≠ none) : Named k (s.step op) := by
  by_cases hindex : s.exchangeIdToCid.get? k.orderId = some k.cid
  · exact Or.inl (indexed_step h hnames hchain htold hindex hafter)
  · have hcarries := hnamed.resolve_left hindex
    obtain ⟨held, hheld, hid⟩ := Orders.carries_iff_carried.1 hcarries
    obtain ⟨open_, hopen⟩ := Option.isSome_iff_exists.1
      (carried_step h.keyed h.separated hcarried hafter)
    obtain ⟨orders', hfirst, hends⟩ := step_orders h.keyed h.separated op
    obtain ⟨told, htells, hsame⟩ := hends.carries k.cid open_ hopen
    refine Or.inr (Orders.carries_iff_carried.2 ⟨open_, hopen, ?_⟩)
    rw [← hsame]
    rcases hfirst with rfl | ⟨call, hcall, rfl⟩
    · rw [Option.some.inj (htells.symm.trans hheld)]; exact hid
    · rcases (Orders.step_change h.keyed call).carried_cases htells with
        ⟨was, hwas, hwasId⟩ | ⟨snapshot, hsnapshot, hcid, meta_, hmeta, hmetaId⟩
      · rw [← hwasId, Option.some.inj (hwas.symm.trans hheld)]; exact hid
      · -- The report tells of an id of the venue's, and the order has only the one.
        rw [hsnapshot] at hcall
        cases op with
        | updateFromOrderSnapshot hash order =>
          cases hcall
          obtain ⟨id, hassigned⟩ := Option.ne_none_iff_exists'.1
            ((hkeeps hcid).resolve_left hindex meta_ hmeta)
          have hname : (snapshot.key.cid, id) ∈ names :=
            htold _ (by simp [Op.tells, namedId?_of_openMeta hmeta hassigned])
          rw [← hmetaId, hassigned]
          exact congrArg some ((hnames _ hname _ hchain).1 hcid)
        | _ => cases hcall

/-! ## What keeps a chain -/

/-- The call acknowledges the chain's order under the chain's venue order id. -/
def Acks (k : Chain) (s : InstrumentState Data ExchangeKey AssetKey InstrumentKey) :
    Op Data ExchangeKey AssetKey InstrumentKey → Prop
  | .updateFromOrderSnapshot _ order =>
      order.key.cid = k.cid ∧ s.ackExchangeId order = some k.orderId
  | _ => False

/-- The call closes the chain's position at no moment when the order has ended and its chain is
    not yet in the memory of ended orders. -/
def ClosesNone (k : Chain) (s : InstrumentState Data ExchangeKey AssetKey InstrumentKey) :
    Op Data ExchangeKey AssetKey InstrumentKey → Prop
  | .updateFromTrade hash trade =>
      s.orders.get? k.cid = none → s.retiredRouting.get? k.orderId = none →
        ∀ exited, (s.updateFromTrade hash trade).2.exited = some exited →
          exited.positionId ≠ k.positionId
  | .updateFromOrderSnapshot hash order =>
      order.key.cid = k.cid → s.ackExchangeId order = some k.orderId →
        (s.orders.updateFromOrderSnapshot order).get? k.cid = none →
        s.exchangeIdToCid.get? k.orderId = none →
        closesAt hash k.positionId (s.releasing hash order k.orderId)
          (s.pendingFills.filter fun fill => fill.orderId = k.orderId) = false
  | _ => True

/-- The call leaves a fill of the chain's venue order id a way to its position. -/
structure KeepsChain (k : Chain) (s : InstrumentState Data ExchangeKey AssetKey InstrumentKey)
    (op : Op Data ExchangeKey AssetKey InstrumentKey) : Prop where
  /-- If the order leaves tracking, its id is indexed, or the call is the ack that indexes it. -/
  leaves : s.orders.get? k.cid ≠ none → (s.step op).orders.get? k.cid = none →
    s.exchangeIdToCid.get? k.orderId = some k.cid ∨ Acks k s op
  keepsId : KeepsId k s op
  closes : ClosesNone k s op

variable {op : Op Data ExchangeKey AssetKey InstrumentKey}

/-- **A chain holds over a call that keeps it**, with the orders that left over the call counted
    as ended since. -/
theorem holds_step (h : k.Holds names N s.tables) (hnames : UsedOnce names)
    (hchain : (k.cid, k.orderId) ∈ names) (htold : ∀ e ∈ op.tells, e ∈ names)
    (hnot : ¬ op.RecordsOpen k.cid)
    (hmem : s.orders.get? k.cid = none → k.cid ∈ s.orders.retired.items)
    (hcarried : s.orders.get? k.cid ≠ none → (s.step op).orders.get? k.cid = none →
      (s.orders.carried k.cid).isSome = true ∨
        ∀ hash response, op ≠ .updateFromCancelResponse hash response)
    (hleaves : s.orders.get? k.cid ≠ none → (s.step op).orders.get? k.cid = none →
      s.exchangeIdToCid.get? k.orderId = some k.cid ∨ Acks k s op)
    (hcloses : ClosesNone k s op) :
    k.Holds names (N ∪ s.orders.gone (s.step op).orders) (s.step op).tables := by
  have hconsistent := h.1.consistent
  have hcall : ∀ call : Orders.Op ExchangeKey InstrumentKey, ¬ call.RecordsOpen k.cid →
      call.subject ≠ none → (∀ snapshot, call ≠ .updateFromOrderSnapshot snapshot) →
      (s.orders.get? k.cid ≠ none → (s.orders.step call).get? k.cid = none →
        (s.orders.carried k.cid).isSome = true ∨
          ∀ response, call ≠ .updateFromCancelResponse response) →
      (s.orders.get? k.cid ≠ none → (s.orders.step call).get? k.cid = none →
        s.exchangeIdToCid.get? k.orderId = some k.cid) →
      k.Holds names (N ∪ s.orders.gone (s.orders.step call))
        { s.tables with orders := s.orders.step call } := by
    intro call hrecords hone hsnapshot hreported hindexed
    refine h.setOrders (Chain.kept_step _ hconsistent.keyed hconsistent.separated hrecords hone
      hconsistent.carried ?_ hmem hreported) hindexed
    rintro snapshot - - rfl
    exact absurd rfl (hsnapshot snapshot)
  have hsame : k.Holds names (N ∪ s.orders.gone s.orders) s.tables :=
    h.mono Finset.subset_union_left
  cases op with
  | recordInFlightOpen request timeSent =>
    have hne : k.cid ≠ request.key.cid := fun heq => hnot heq.symm
    change k.Holds names (N ∪ s.orders.gone (s.recordInFlightOpen request timeSent).orders)
      (s.recordInFlightOpen request timeSent).tables
    unfold recordInFlightOpen
    split
    · exact hsame
    · refine Chain.Holds.setPositionIds (hcall (.recordInFlightOpen request timeSent) hnot
        (by simp [Orders.Op.subject]) (by simp) (fun _ _ => Or.inr (by simp)) ?_) ?_
      · intro hbefore hafter
        have hchange : Orders.Change s.orders (.recordInFlightOpen request timeSent)
            (s.orders.recordInFlightOpen request timeSent) := Orders.recordInFlightOpen_change
        exact absurd ((hchange.get?_of_ne rfl hne).symm.trans hafter) hbefore
      · cases request.state.positionId with
        | none => rfl
        | some positionId => exact IndexMap.get?_insert_of_ne hne
  | recordInFlightCancel request timeSent =>
    exact hcall (.recordInFlightCancel request timeSent) hnot (by simp [Orders.Op.subject])
      (by simp) (fun _ _ => Or.inr (by simp)) fun hbefore hafter =>
        (hleaves hbefore hafter).resolve_right id
  | updateFromOrderSnapshot hash order =>
    exact holds_updateFromOrderSnapshot h hnames hchain
      (fun id hid => htold _ (by simp [Op.tells, hid])) hnot hmem hleaves hcloses
  | updateFromCancelResponse hash response =>
    set answered : InstrumentState Data ExchangeKey AssetKey InstrumentKey :=
      { s with orders := s.orders.updateFromCancelResponse response }
    have horders : (s.step (.updateFromCancelResponse hash response)).orders = answered.orders :=
      congrArg Tables.orders tables_drainPendingFills
    have hanswered : k.Holds names (N ∪ s.orders.gone answered.orders) answered.tables := by
      rw [horders] at hcarried hleaves
      refine hcall (.updateFromCancelResponse response) hnot (by simp [Orders.Op.subject])
        (by simp) (fun hbefore hafter => ?_) fun hbefore hafter =>
          (hleaves hbefore hafter).resolve_right id
      exact Or.inl ((hcarried hbefore hafter).resolve_right fun hne => hne hash response rfl)
    rw [horders]
    change k.Holds names _ ((answered.cleanupRoutingTables hash).drainPendingFills).tables
    rw [tables_drainPendingFills]
    exact (firm_cleanupRoutingTables hanswered hnames hchain).holds
  | updateFromTrade hash trade =>
    refine (holds_replayTrade h hnames hchain hcloses fun hbefore hafter =>
      (hleaves hbefore hafter).resolve_right id).mono ?_
    exact Finset.union_subset_union_right Orders.departed_subset_gone
  | beginAccountResync => exact hsame
  | retireUnlisted hash listed ordersComplete =>
    have hends : Orders.Ends s.orders (s.unlisted hash listed ordersComplete).orders :=
      ends_unlisted hconsistent.keyed hconsistent.separated
    have hunlisted : k.Holds names
        (N ∪ s.orders.departed (s.unlisted hash listed ordersComplete).orders)
        (s.unlisted hash listed ordersComplete).tables :=
      h.setOrders (Chain.kept_of_ends hends hconsistent.carried) fun hbefore hafter =>
        (hleaves hbefore hafter).resolve_right id
    exact (firm_cleanupRoutingTables hunlisted hnames hchain).holds.mono
      (Finset.union_subset_union_right Orders.departed_subset_gone)
  | updateFromCashFlow flow =>
    have htables : (s.step (.updateFromCashFlow flow)).tables = s.tables :=
      tables_updateFromCashFlow
    rw [htables]; exact h.mono Finset.subset_union_left
  | updateFromMarket event =>
    have htables : (s.step (.updateFromMarket event)).tables = s.tables :=
      tables_updateFromMarket
    rw [htables]; exact h.mono Finset.subset_union_left

end Step

end InstrumentState

end Rustrade
