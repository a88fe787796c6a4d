import Mathlib.Logic.Function.Basic
import Rustrade.InstrumentState.LateFill
import Rustrade.InstrumentState.Resync
import Rustrade.InstrumentState.Stranded

/-!
# Client order ids sent again

A client order id may be sent again once its order has ended, and the routing tables are keyed by
it. What a run says of its orders is in `sentWith`: each venue order id it told, with the position
its own order was sent with. While no order is sent under an id whose last order still routes
elsewhere, every fill keeps to the position of its own order, or to one keyed by its venue order id.
-/

set_option autoImplicit false

namespace Rustrade

/-! ## What a run says of its orders -/

namespace InstrumentState

variable {Data ExchangeKey AssetKey InstrumentKey : Type}

/-- The position the last order sent under each client order id was sent with. -/
abbrev SentNames := ClientOrderId → Option PositionId

section Says

variable [InstrumentDataState Data ExchangeKey AssetKey InstrumentKey]

/-- An open request is recorded unless its client order id is tracked. -/
def Op.names (named : SentNames) (s : InstrumentState Data ExchangeKey AssetKey InstrumentKey) :
    Op Data ExchangeKey AssetKey InstrumentKey → SentNames
  | .recordInFlightOpen request _ =>
      if s.orders.tracked.contains request.key.cid then named
      else Function.update named request.key.cid request.state.positionId
  | _ => named

/-- The venue order ids a call tells, each with the position its order was sent with. -/
def Op.places (named : SentNames) (op : Op Data ExchangeKey AssetKey InstrumentKey) :
    List (OrderId × Option PositionId) :=
  op.tells.map fun e => (e.2, named e.1)

variable [DecimalRange] [DecidableEq AssetKey] [DecidableEq InstrumentKey]

/-- The positions named after a run. -/
def namedAfter (named : SentNames) (s : InstrumentState Data ExchangeKey AssetKey InstrumentKey) :
    List (Op Data ExchangeKey AssetKey InstrumentKey) → SentNames
  | [] => named
  | op :: ops => namedAfter (op.names named s) (s.step op) ops

/-- The venue order ids a run tells, each with the position its order was sent with. -/
def placed (named : SentNames) (s : InstrumentState Data ExchangeKey AssetKey InstrumentKey) :
    List (Op Data ExchangeKey AssetKey InstrumentKey) → List (OrderId × Option PositionId)
  | [] => []
  | op :: ops => op.places named ++ placed (op.names named s) (s.step op) ops

/-- The same of a run in which nothing was sent before. -/
abbrev sentWith (s : InstrumentState Data ExchangeKey AssetKey InstrumentKey)
    (ops : List (Op Data ExchangeKey AssetKey InstrumentKey)) :
    List (OrderId × Option PositionId) := s.placed (fun _ => none) ops

/-- An order is sent under a client order id with what the tables still route there, if they do or
    if it names no position itself. -/
def SentClean (s : InstrumentState Data ExchangeKey AssetKey InstrumentKey) :
    Op Data ExchangeKey AssetKey InstrumentKey → Prop
  | .recordInFlightOpen request _ =>
      s.orders.get? request.key.cid = none →
      (request.state.positionId = none ∨
        ∃ id, s.exchangeIdToCid.get? id = some request.key.cid) →
      s.positionIds.get? request.key.cid = request.state.positionId
  | _ => True

end Says

/-! ## The tables of a run -/

/-- The tables route no id but to the position its own order was sent with. -/
structure Owned (named : SentNames) (slots : List (OrderId × Option PositionId))
    (t : Tables ExchangeKey InstrumentKey) : Prop where
  mode : t.mode = .hedging
  keyed : t.orders.Keyed
  separated : t.orders.Separated
  sent : ∀ cid q, t.positionIds.get? cid = some q → named cid = some q
  carried : ∀ id cid, t.orders.carries cid id = true → (id, named cid) ∈ slots
  indexed : ∀ id cid q, t.exchangeIdToCid.get? id = some cid → t.positionIds.get? cid = some q →
    (id, some q) ∈ slots
  retired : ∀ id q, t.retiredRouting.get? id = some q → (id, some q) ∈ slots

section Owned

variable {named : SentNames} {slots slots' : List (OrderId × Option PositionId)}
  {t : Tables ExchangeKey InstrumentKey} {hash : HashOrder}
  {s : InstrumentState Data ExchangeKey AssetKey InstrumentKey}

theorem owned_fresh : Owned named slots (Tables.fresh : Tables ExchangeKey InstrumentKey) where
  mode := rfl
  keyed := Orders.keyed_empty
  separated := Orders.separated_empty
  sent _ _ h := absurd h (by simp [Tables.fresh])
  carried _ _ h := absurd h (by simp [Tables.fresh, Orders.carries, Orders.get?, Orders.empty])
  indexed _ _ _ h := absurd h (by simp [Tables.fresh])
  retired _ _ h := absurd h (by simp [Tables.fresh, BoundedMap.get?, BoundedMap.empty])

theorem Owned.mono (h : Owned named slots t) (hsub : ∀ e ∈ slots, e ∈ slots') :
    Owned named slots' t :=
  ⟨h.mode, h.keyed, h.separated, h.sent, fun id cid hcarries => hsub _ (h.carried id cid hcarries),
    fun id cid q hindex hsent => hsub _ (h.indexed id cid q hindex hsent),
    fun id q hretired => hsub _ (h.retired id q hretired)⟩

/-- Calls on the orders that name no more than they should. -/
theorem Owned.setOrders {orders' : Orders ExchangeKey InstrumentKey} (h : Owned named slots t)
    (hk : orders'.Keyed) (hd : orders'.Separated)
    (hcarried : ∀ id cid, orders'.carries cid id = true → (id, named cid) ∈ slots) :
    Owned named slots { t with orders := orders' } :=
  ⟨h.mode, hk, hd, h.sent, hcarried, h.indexed, h.retired⟩

theorem Owned.setEnded {orders' : Orders ExchangeKey InstrumentKey} (h : Owned named slots t)
    (hends : Orders.Ends t.orders orders') : Owned named slots { t with orders := orders' } :=
  h.setOrders hends.keyed hends.separated
    (Chain.named_of_ends (P := fun cid id => (id, named cid) ∈ slots) hends h.carried)

/-- Dropping positions orders were sent with. -/
theorem Owned.retain {keep : ClientOrderId → PositionId → Bool} (h : Owned named slots t) :
    Owned named slots { t with positionIds := t.positionIds.retain keep } := by
  have hkept : ∀ cid q, (t.positionIds.retain keep).get? cid = some q →
      t.positionIds.get? cid = some q := by
    intro cid q hget
    rw [IndexMap.get?_retain, Option.filter_eq_some_iff] at hget
    exact hget.1
  exact ⟨h.mode, h.keyed, h.separated, fun cid q hget => h.sent cid q (hkept cid q hget),
    h.carried, fun id cid q hindex hget => h.indexed id cid q hindex (hkept cid q hget), h.retired⟩

theorem Owned.prunePositionIds (h : Owned named slots s.tables) (q : PositionId) :
    Owned named slots (s.prunePositionIds q).tables := by
  show Owned named slots { s.tables with
    positionIds := s.positionIds.retain fun cid mapped =>
      mapped ≠ q || s.orders.tracked.contains cid }
  exact h.retain

theorem Owned.cleanupRoutingTables (h : Owned named slots s.tables) :
    Owned named slots (s.cleanupRoutingTables hash).tables where
  mode := h.mode
  keyed := h.keyed
  separated := h.separated
  sent cid q hsent := by
    change (s.cleanupRoutingTables hash).positionIds.get? cid = some q at hsent
    rw [get?_positionIds_cleanupRoutingTables, Option.ite_none_right_eq_some] at hsent
    exact h.sent cid q hsent.2
  carried := h.carried
  indexed id cid q hindex hsent := by
    change (s.cleanupRoutingTables hash).exchangeIdToCid.get? id = some cid at hindex
    change (s.cleanupRoutingTables hash).positionIds.get? cid = some q at hsent
    rw [get?_positionIds_cleanupRoutingTables, Option.ite_none_right_eq_some] at hsent
    exact h.indexed id cid q (get?_exchangeIdToCid_cleanupRoutingTables.1 hindex).1 hsent.2
  retired id q hretired := by
    change (s.cleanupRoutingTables hash).retiredRouting.get? id = some q at hretired
    rw [retiredRouting_cleanupRoutingTables h.mode] at hretired
    rcases BoundedMap.get?_foldl_insert hretired with hretired | hdemoted
    · exact h.retired id q hretired
    · obtain ⟨cid, hindex, -, hsent⟩ := mem_demoted.1 hdemoted
      exact h.indexed id cid q hindex hsent

theorem Owned.advanceOrder {trade : Trade AssetKey InstrumentKey} (h : Owned named slots s.tables) :
    Owned named slots (s.advanceOrder hash trade).tables := by
  have hfill : ∀ cid reported, Owned named slots { s.tables with
      orders := (s.orders.updateFromFill cid trade.orderId reported).1 } := fun cid reported =>
    h.setEnded (Orders.ends_step (.updateFromFill cid trade.orderId reported) trivial h.keyed
      h.separated)
  refine advanceOrder_cases (P := fun s' => Owned named slots s'.tables) h
    (fun cid reported _ _ => hfill cid reported) fun cid reported _ _ => ?_
  set advanced : InstrumentState Data ExchangeKey AssetKey InstrumentKey :=
    { s with orders := (s.orders.updateFromFill cid trade.orderId reported).1 }
  have hadvanced : Owned named slots advanced.tables := hfill cid reported
  exact hadvanced.cleanupRoutingTables

/-! ## Where a fill goes -/

/-- A fill of an order, the engine's own or another's. -/
def ofAnOrder (trade : Trade AssetKey InstrumentKey) : Prop :=
  trade.origin = .order ∨ trade.origin = .external

theorem Owned.matchedOrder {orderId : OrderId} {q : PositionId} (h : Owned named slots s.tables)
    (hmatched : s.matchedOrder hash orderId = some (some q)) : (orderId, some q) ∈ slots := by
  rw [matchedOrder_eq] at hmatched
  obtain ⟨e, hmem, he⟩ := List.exists_of_findSome?_eq_some hmatched
  rw [Option.ite_none_right_eq_some] at he
  obtain ⟨hcarries, hsent⟩ := he
  have hget : s.orders.get? e.1 = some e.2 :=
    IndexMap.get?_eq_some_iff.2 (HashOrder.mem_arrange.1 hmem)
  have hnamed : named e.1 = some q := h.sent e.1 q (Option.some.inj hsent)
  have hcarried := h.carried orderId e.1 (Orders.carries_iff.2 ⟨e.2, hget, hcarries⟩)
  rw [hnamed] at hcarried
  exact hcarried

/-- **An order's fill goes to the position its own order was sent with**, or by its venue id. -/
theorem Owned.destination {trade : Trade AssetKey InstrumentKey} {q : PositionId}
    (h : Owned named slots s.tables) (horigin : ofAnOrder trade)
    (hdest : (s.destination hash trade).positionId? = some q) :
    q = .ofOrderId trade.orderId ∨ (trade.orderId, some q) ∈ slots := by
  have hmode : s.position.mode = .hedging := h.mode
  have hleg : s.settlementLeg trade.origin = none := by
    rcases horigin with horigin | horigin <;> rw [horigin] <;> rfl
  unfold InstrumentState.destination at hdest
  rw [hmode] at hdest
  simp only at hdest
  split at hdest
  · rename_i q' hindexed
    cases hdest
    obtain ⟨cid, hindex, hsent⟩ := Option.bind_eq_some_iff.1 hindexed
    exact Or.inr (h.indexed _ cid q hindex hsent)
  · split at hdest
    · rename_i q' hmatched
      cases hdest
      exact Or.inr (h.matchedOrder hmatched)
    · cases hdest
      exact Or.inl rfl
    · split at hdest
      · rename_i q' hretired
        cases hdest
        exact Or.inr (h.retired _ q hretired)
      · split at hdest
        · cases hdest
        · unfold unroutedDestination at hdest
          rw [hleg] at hdest
          cases hdest
          exact Or.inl rfl

end Owned

/-! ## The calls -/

section Calls

variable [DecimalRange] [DecidableEq AssetKey] [DecidableEq InstrumentKey] {named : SentNames}
  {slots slots' : List (OrderId × Option PositionId)} {hash : HashOrder}
  {s : InstrumentState Data ExchangeKey AssetKey InstrumentKey}
  {reduceOnlyFills : List (TradeId × ReduceOnly)}

theorem Owned.replayTrade {trade : Trade AssetKey InstrumentKey} (h : Owned named slots s.tables) :
    Owned named slots (s.replayTrade hash trade reduceOnlyFills).1.tables := by
  refine replayTrade_tables_cases (P := fun s' => Owned named slots s'.tables)
    (fun s' hs' => by rw [hs']; exact h) ?_ ?_
  · intro booked trade' hbooked
    have hsame : Owned named slots booked.tables := by rw [hbooked]; exact h
    exact hsame.advanceOrder
  · intro booked trade' exited hbooked _
    have hsame : Owned named slots booked.tables := by rw [hbooked]; exact h
    exact (hsame.prunePositionIds exited.positionId).advanceOrder

theorem Owned.replayTrades {applied : FillsApplied AssetKey InstrumentKey}
    {fills : List (Trade AssetKey InstrumentKey)} (h : Owned named slots s.tables) :
    Owned named slots (InstrumentState.replayTrades hash reduceOnlyFills s applied fills).1.tables := by
  induction fills generalizing s applied with
  | nil => exact h
  | cons fill fills ih => exact ih h.replayTrade

variable {order : Order ExchangeKey InstrumentKey OrderState} {exchangeId : OrderId}

omit [DecimalRange] [DecidableEq AssetKey] [DecidableEq InstrumentKey] in
theorem Owned.updated (h : Owned named slots s.tables)
    (htold : ∀ id, namedId? order = some id → (id, named order.key.cid) ∈ slots) :
    Owned named slots (s.updated hash order).tables := by
  have hreported : Owned named slots (s.reported order).tables := by
    rw [tables_reported]
    have hchange : Orders.Change s.orders (.updateFromOrderSnapshot order)
        (s.orders.updateFromOrderSnapshot order) :=
      Orders.step_change h.keyed (.updateFromOrderSnapshot order)
    refine h.setOrders (hchange.keyed h.keyed) (hchange.separated h.keyed h.separated)
      (Chain.named_step (P := fun cid id => (id, named cid) ∈ slots)
        (.updateFromOrderSnapshot order) h.keyed h.carried ?_)
    rintro snapshot open_ id ⟨⟩ hopen hid
    exact htold id (namedId?_of_openMeta hopen hid)
  exact hreported.cleanupRoutingTables

omit [DecimalRange] [DecidableEq AssetKey] [DecidableEq InstrumentKey] in
/-- Where the report's order is untracked after it, the cleanup has dropped every older id of it. -/
theorem Owned.releasing (h : Owned named slots s.tables)
    (htold : ∀ id, namedId? order = some id → (id, named order.key.cid) ∈ slots)
    (hid : namedId? order = some exchangeId) :
    Owned named slots (s.releasing hash order exchangeId).tables := by
  have hupdated : Owned named slots (s.updated hash order).tables := h.updated htold
  have hsent : ∀ cid q, (s.releasing hash order exchangeId).positionIds.get? cid = some q →
      named cid = some q := by
    intro cid q hget
    change ((s.updated hash order).settleRouting order.key.cid exchangeId
      (s.positionIds.get? order.key.cid)).positionIds.get? cid = some q at hget
    rw [get?_positionIds_settleRouting] at hget
    split at hget
    · rename_i hcid
      rcases Option.or_eq_some_iff.1 hget with hget | ⟨-, hget⟩
      · exact hupdated.sent cid q hget
      · rw [hcid]; exact h.sent order.key.cid q hget
    · exact hupdated.sent cid q hget
  refine ⟨hupdated.mode, hupdated.keyed, hupdated.separated, hsent, hupdated.carried, ?_,
    hupdated.retired⟩
  intro id cid q hindex hget
  change ((s.updated hash order).exchangeIdToCid.insert exchangeId order.key.cid).get? id =
    some cid at hindex
  rw [IndexMap.get?_insert] at hindex
  split at hindex
  · rename_i heq
    cases hindex
    have hnamed : named order.key.cid = some q := hsent _ q hget
    rw [heq, ← hnamed]
    exact htold exchangeId hid
  · change ((s.updated hash order).settleRouting order.key.cid exchangeId
      (s.positionIds.get? order.key.cid)).positionIds.get? cid = some q at hget
    rw [get?_positionIds_settleRouting] at hget
    split at hget
    · rename_i hcid
      -- An older id of the order is left only while the order is tracked, with its position.
      change ((s.reported order).cleanupRoutingTables hash).exchangeIdToCid.get? id = some cid
        at hindex
      obtain ⟨hbefore, htracked⟩ := get?_exchangeIdToCid_cleanupRoutingTables.1 hindex
      have hkept : (s.updated hash order).positionIds.get? cid =
          (s.reported order).positionIds.get? cid := by
        change ((s.reported order).cleanupRoutingTables hash).positionIds.get? cid = _
        rw [get?_positionIds_cleanupRoutingTables, if_pos htracked]
      have hpositions : (s.reported order).positionIds = s.positionIds :=
        congrArg Tables.positionIds (tables_reported s order)
      have hindices : (s.reported order).exchangeIdToCid = s.exchangeIdToCid :=
        congrArg Tables.exchangeIdToCid (tables_reported s order)
      rw [hindices] at hbefore
      rw [hkept, hpositions, ← hcid, Option.or_self] at hget
      exact h.indexed id cid q hbefore hget
    · exact hupdated.indexed id cid q hindex hget

theorem Owned.updateFromOrderSnapshot (h : Owned named slots s.tables)
    (htold : ∀ id, namedId? order = some id → (id, named order.key.cid) ∈ slots) :
    Owned named slots (s.updateFromOrderSnapshot hash order).1.tables := by
  cases hack : s.ackExchangeId order with
  | none =>
    rw [updateFromOrderSnapshot_of_no_ack hack]
    exact h.updated htold
  | some exchangeId =>
    have hreleasing : Owned named slots (s.releasing hash order exchangeId).tables :=
      h.releasing htold (ackExchangeId_eq_some hack).2
    rcases updateFromOrderSnapshot_tables hash hack with heq | heq
    · rw [heq]; exact hreleasing
    · rw [heq]; exact hreleasing.replayTrades.cleanupRoutingTables

variable [InstrumentDataState Data ExchangeKey AssetKey InstrumentKey]

omit [DecimalRange] [DecidableEq AssetKey] [DecidableEq InstrumentKey] in
/-- An order sent clean names its own position, and its id routes no other. -/
theorem Owned.recordInFlightOpen {request : OrderRequestOpen ExchangeKey InstrumentKey}
    {timeSent : DateTime} (h : Owned named slots s.tables)
    (hclean : s.SentClean (.recordInFlightOpen request timeSent)) :
    Owned ((Op.recordInFlightOpen request timeSent : Op Data ExchangeKey AssetKey InstrumentKey).names
      named s) slots (s.recordInFlightOpen request timeSent).tables := by
  unfold InstrumentState.recordInFlightOpen Op.names
  simp only
  by_cases htracked : s.orders.tracked.contains request.key.cid = true
  · rw [if_pos htracked, if_pos htracked]
    exact h
  · rw [if_neg htracked, if_neg htracked]
    have huntracked : s.orders.get? request.key.cid = none :=
      IndexMap.not_contains_iff.1 (by simpa using htracked)
    have hstep : Orders.Change s.orders (.recordInFlightOpen request timeSent)
        (s.orders.recordInFlightOpen request timeSent) :=
      Orders.step_change h.keyed (.recordInFlightOpen request timeSent)
    have hclean := hclean huntracked
    have hposition : ∀ (ids : IndexMap ClientOrderId PositionId),
        (request.state.positionId = none → ids = s.positionIds) →
        (∀ positionId, request.state.positionId = some positionId →
          ids = s.positionIds.insert request.key.cid positionId) →
        ∀ cid q, ids.get? cid = some q →
          if cid = request.key.cid then request.state.positionId = some q
          else s.positionIds.get? cid = some q := by
      intro ids hnone hsome cid q hget
      split
      · rename_i hcid
        subst hcid
        cases hnamed : request.state.positionId with
        | none =>
          rw [hnone hnamed, hclean (Or.inl hnamed), hnamed] at hget
          cases hget
        | some positionId =>
          rw [hsome positionId hnamed, IndexMap.get?_insert_self] at hget
          exact hget
      · rename_i hcid
        cases hnamed : request.state.positionId with
        | none => rwa [hnone hnamed] at hget
        | some positionId => rwa [hsome positionId hnamed, IndexMap.get?_insert_of_ne hcid] at hget
    refine ⟨h.mode, hstep.keyed h.keyed, hstep.separated h.keyed h.separated, ?_, ?_, ?_, h.retired⟩
    · intro cid q hget
      have hcases := hposition _ (fun hnamed => by simp only [tables, hnamed])
        (fun positionId hnamed => by simp only [tables, hnamed]) cid q hget
      split at hcases
      · rename_i hcid
        rw [hcid, Function.update_self]
        exact hcases
      · rename_i hcid
        rw [Function.update_of_ne hcid]
        exact h.sent cid q hcases
    · intro id cid hcarries
      by_cases hcid : cid = request.key.cid
      · subst hcid
        change (s.orders.recordInFlightOpen request timeSent).carries request.key.cid id = true
          at hcarries
        rw [Orders.carries_recordInFlightOpen huntracked] at hcarries
        cases hcarries
      · rw [Function.update_of_ne hcid]
        change (s.orders.recordInFlightOpen request timeSent).carries cid id = true at hcarries
        rw [Orders.carries_congr (hstep.get?_of_ne rfl hcid)] at hcarries
        exact h.carried id cid hcarries
    · intro id cid q hindex hget
      have hcases := hposition _ (fun hnamed => by simp only [tables, hnamed])
        (fun positionId hnamed => by simp only [tables, hnamed]) cid q hget
      split at hcases
      · rename_i hcid
        subst hcid
        have hsent : s.positionIds.get? request.key.cid = some q :=
          (hclean (Or.inr ⟨id, hindex⟩)).trans hcases
        exact h.indexed id request.key.cid q hindex hsent
      · exact h.indexed id cid q hindex hcases

/-- **Every call keeps the tables to the orders told of**, an order sent clean. -/
theorem Owned.step (h : Owned named slots s.tables)
    {op : Op Data ExchangeKey AssetKey InstrumentKey} (hclean : s.SentClean op) :
    Owned (op.names named s) (slots ++ op.places named) (s.step op).tables := by
  have hcall : ∀ call : Orders.Op ExchangeKey InstrumentKey,
      (∀ snapshot, call ≠ .updateFromOrderSnapshot snapshot) →
      Owned named slots { s.tables with orders := s.orders.step call } := by
    intro call hcall
    refine h.setOrders (Orders.keyed_step h.keyed)
      ((Orders.step_change h.keyed call).separated h.keyed h.separated)
      (Chain.named_step (P := fun cid id => (id, named cid) ∈ slots) _ h.keyed h.carried ?_)
    intro snapshot open_ id heq
    exact absurd heq (hcall snapshot)
  have hquiet : op.names named s = named → Owned named slots (s.step op).tables →
      Owned (op.names named s) (slots ++ op.places named) (s.step op).tables := by
    intro hnames hstep
    rw [hnames]
    exact hstep.mono fun e he => List.mem_append_left _ he
  cases op with
  | recordInFlightOpen request timeSent =>
    exact (h.recordInFlightOpen hclean).mono fun e he => List.mem_append_left _ he
  | recordInFlightCancel request timeSent =>
    exact hquiet rfl (hcall (.recordInFlightCancel request timeSent) (by simp))
  | updateFromOrderSnapshot hash order =>
    have hbefore : Owned named (slots ++ (Op.updateFromOrderSnapshot hash order :
        Op Data ExchangeKey AssetKey InstrumentKey).places named) s.tables :=
      h.mono fun e he => List.mem_append_left _ he
    refine hbefore.updateFromOrderSnapshot fun id hid => List.mem_append_right _ ?_
    simp [Op.places, Op.tells, hid]
  | updateFromCancelResponse hash response =>
    set answered : InstrumentState Data ExchangeKey AssetKey InstrumentKey :=
      { s with orders := s.orders.updateFromCancelResponse response }
    have hanswered : Owned named slots answered.tables :=
      hcall (.updateFromCancelResponse response) (by simp)
    refine hquiet rfl ?_
    change Owned named slots ((answered.cleanupRoutingTables hash).drainPendingFills).tables
    rw [tables_drainPendingFills]
    exact hanswered.cleanupRoutingTables
  | updateFromTrade hash trade => exact hquiet rfl h.replayTrade
  | beginAccountResync => exact hquiet rfl h
  | retireUnlisted hash listed ordersComplete =>
    have hunlisted : Owned named slots (s.unlisted hash listed ordersComplete).tables :=
      h.setEnded (ends_unlisted h.keyed h.separated)
    exact hquiet rfl hunlisted.cleanupRoutingTables
  | updateFromCashFlow flow =>
    refine hquiet rfl ?_
    change Owned named slots (s.updateFromCashFlow flow).1.tables
    rw [tables_updateFromCashFlow]
    exact h
  | updateFromMarket event =>
    refine hquiet rfl ?_
    change Owned named slots (s.updateFromMarket event).tables
    rw [tables_updateFromMarket]
    exact h

theorem Owned.run (h : Owned named slots s.tables)
    {ops : List (Op Data ExchangeKey AssetKey InstrumentKey)}
    (hclean : Transition.Guarded InstrumentState.step SentClean s ops) :
    Owned (s.namedAfter named ops) (slots ++ s.placed named ops) (s.run ops).tables := by
  induction ops generalizing s named slots with
  | nil => exact h.mono fun e he => List.mem_append_left _ he
  | cons op ops ih =>
    have hrest := ih (h.step hclean.1) hclean.2
    rw [List.append_assoc] at hrest
    exact hrest

/-! ## What a fill moves -/

/-- From `s` to `s'` no position moves but the one a told order was sent with, or the one keyed by
    the venue order id. -/
def KeepsTo (slots : List (OrderId × Option PositionId)) (orderId : OrderId)
    (s s' : InstrumentState Data ExchangeKey AssetKey InstrumentKey) : Prop :=
  ∀ q, s'.position.positions.get? q ≠ s.position.positions.get? q →
    q = .ofOrderId orderId ∨ (orderId, some q) ∈ slots

omit [DecimalRange] [DecidableEq AssetKey] [DecidableEq InstrumentKey]
  [InstrumentDataState Data ExchangeKey AssetKey InstrumentKey] in
theorem keepsTo_of_eq {orderId : OrderId}
    {s' : InstrumentState Data ExchangeKey AssetKey InstrumentKey}
    (h : s'.position = s.position) : KeepsTo slots orderId s s' := by
  intro q hmoved
  rw [h] at hmoved
  exact absurd rfl hmoved

omit [DecimalRange] [DecidableEq AssetKey] [DecidableEq InstrumentKey]
  [InstrumentDataState Data ExchangeKey AssetKey InstrumentKey] in
theorem KeepsTo.trans {orderId : OrderId}
    {s' s'' : InstrumentState Data ExchangeKey AssetKey InstrumentKey}
    (h : KeepsTo slots orderId s s') (h' : KeepsTo slots orderId s' s'') :
    KeepsTo slots orderId s s'' := by
  intro q hmoved
  by_cases hfirst : s'.position.positions.get? q = s.position.positions.get? q
  · exact h' q (by rw [hfirst]; exact hmoved)
  · exact h q hfirst

omit [DecimalRange] [DecidableEq AssetKey] [DecidableEq InstrumentKey]
  [InstrumentDataState Data ExchangeKey AssetKey InstrumentKey] in
theorem get?_of_booksAt {s' : InstrumentState Data ExchangeKey AssetKey InstrumentKey}
    (h : ∀ q, BooksAt q s s') (q : PositionId) :
    s'.position.positions.get? q = s.position.positions.get? q := by
  by_cases hq : q = .netting
  · exact (h ⟨""⟩).elsewhere q (by rw [hq]; decide)
  · exact (h .netting).elsewhere q hq

omit [InstrumentDataState Data ExchangeKey AssetKey InstrumentKey] in
theorem Owned.keepsTo_replayTrade {trade : Trade AssetKey InstrumentKey}
    (h : Owned named slots s.tables) (horigin : ofAnOrder trade) :
    KeepsTo slots trade.orderId s (s.replayTrade hash trade reduceOnlyFills).1 := by
  intro q hmoved
  cases hdest : (s.destination hash trade).positionId? with
  | none =>
    refine absurd ?_ hmoved
    cases hplace : s.destination hash trade with
    | queued =>
      obtain ⟨noted, hnoted, heq⟩ := replayTrade_queued reduceOnlyFills hplace
      rw [heq]
      exact get?_of_booksAt hnoted q
    | unallocated => exact get?_of_booksAt (replayTrade_unallocated reduceOnlyFills hplace).1 q
    | slot _ => rw [hplace] at hdest; cases hdest
    | fallback _ => rw [hplace] at hdest; cases hdest
    | unmatched _ => rw [hplace] at hdest; cases hdest
    | settles _ _ => rw [hplace] at hdest; cases hdest
  | some positionId =>
    obtain ⟨booked, trade', hbooked, -, heq, -⟩ := placedAt_replayTrade reduceOnlyFills hdest
    have hat : q = positionId := by
      by_contra hne
      refine hmoved ?_
      rw [heq, position_advanceOrder]
      split <;> exact hbooked.elsewhere q hne
    rw [hat]
    exact h.destination horigin hdest

omit [InstrumentDataState Data ExchangeKey AssetKey InstrumentKey] in
theorem Owned.keepsTo_replayTrades {applied : FillsApplied AssetKey InstrumentKey}
    {orderId : OrderId} {fills : List (Trade AssetKey InstrumentKey)}
    (h : Owned named slots s.tables)
    (hfills : ∀ fill ∈ fills, fill.orderId = orderId ∧ ofAnOrder fill) :
    KeepsTo slots orderId s
      (InstrumentState.replayTrades hash reduceOnlyFills s applied fills).1 := by
  induction fills generalizing s applied with
  | nil => exact keepsTo_of_eq rfl
  | cons fill fills ih =>
    obtain ⟨hid, horigin⟩ := hfills fill List.mem_cons_self
    have hfirst : KeepsTo slots orderId s (s.replayTrade hash fill reduceOnlyFills).1 := by
      rw [← hid]
      exact h.keepsTo_replayTrade horigin
    exact hfirst.trans (ih h.replayTrade fun fill hmem => hfills fill (List.mem_cons_of_mem _ hmem))

/-! ## A run -/

/-- Every fill that waits is of an order the engine sent. -/
def WaitingAreOrders (s : InstrumentState Data ExchangeKey AssetKey InstrumentKey) : Prop :=
  ∀ fill ∈ s.pendingFills, fill.origin = .order

omit [DecimalRange] [DecidableEq AssetKey] [DecidableEq InstrumentKey]
  [InstrumentDataState Data ExchangeKey AssetKey InstrumentKey] in
theorem origin_of_queued {trade : Trade AssetKey InstrumentKey}
    (h : s.destination hash trade = .queued) : trade.origin = .order := by
  unfold InstrumentState.destination at h
  split at h
  · cases h
  · split at h
    · cases h
    · split at h
      · cases h
      · cases h
      · split at h
        · cases h
        · split at h
          · rename_i hflight
            simp only [Bool.and_eq_true, decide_eq_true_eq] at hflight
            exact hflight.1
          · unfold unroutedDestination at h
            split at h
            · cases h
            · split at h <;> cases h

theorem waitingAreOrders_step {op : Op Data ExchangeKey AssetKey InstrumentKey}
    (h : s.WaitingAreOrders) : (s.step op).WaitingAreOrders := by
  intro fill hmem
  rcases mem_pendingFills_step hmem with hwaiting | ⟨hash, -, hqueued⟩
  · exact h fill hwaiting
  · exact origin_of_queued hqueued

theorem waitingAreOrders_run (h : s.pendingFills = [])
    (ops : List (Op Data ExchangeKey AssetKey InstrumentKey)) :
    (s.run ops).WaitingAreOrders :=
  Transition.run_invariant WaitingAreOrders (fun _ _ hs => waitingAreOrders_step hs) ops
    (by intro fill hmem; rw [h] at hmem; cases hmem)

omit [InstrumentDataState Data ExchangeKey AssetKey InstrumentKey] in
theorem Owned.keepsTo_updateFromOrderSnapshot (h : Owned named slots s.tables)
    (hwaiting : s.WaitingAreOrders)
    (htold : ∀ id, namedId? order = some id → (id, named order.key.cid) ∈ slots) {q : PositionId}
    (hmoved : (s.updateFromOrderSnapshot hash order).1.position.positions.get? q ≠
      s.position.positions.get? q) :
    ∃ id, namedId? order = some id ∧ (q = .ofOrderId id ∨ (id, some q) ∈ slots) := by
  have hnoted : (s.updated hash order).position.positions.get? q = s.position.positions.get? q :=
    get?_of_booksAt (fun q => booksAt_noteOpenRejected q) q
  cases hack : s.ackExchangeId order with
  | none =>
    rw [updateFromOrderSnapshot_of_no_ack hack] at hmoved
    exact absurd hnoted hmoved
  | some exchangeId =>
    have hid : namedId? order = some exchangeId := (ackExchangeId_eq_some hack).2
    refine ⟨exchangeId, hid, ?_⟩
    by_cases hpending : s.pendingFills = []
    · rw [updateFromOrderSnapshot_of_ack hack hpending] at hmoved
      exact absurd hnoted hmoved
    · rw [updateFromOrderSnapshot_releases hash hack hpending,
        position_cleanupRoutingTables] at hmoved
      have hreleased : KeepsTo slots exchangeId (s.releasing hash order exchangeId)
          (InstrumentState.replayTrades hash [] (s.releasing hash order exchangeId) .none
            (s.pendingFills.filter fun fill => fill.orderId = exchangeId)).1 := by
        refine (h.releasing htold hid).keepsTo_replayTrades fun fill hmem => ?_
        obtain ⟨hmem, heq⟩ := List.mem_filter.1 hmem
        exact ⟨by simpa using heq, Or.inl (hwaiting fill hmem)⟩
      refine hreleased q ?_
      have hreleasing : (s.releasing hash order exchangeId).position.positions.get? q =
          s.position.positions.get? q := hnoted
      rw [hreleasing]
      exact hmoved

/-- The fills a call books move no position but their own orders'. -/
def FillsKeepTo (slots : List (OrderId × Option PositionId))
    (s : InstrumentState Data ExchangeKey AssetKey InstrumentKey) :
    Op Data ExchangeKey AssetKey InstrumentKey → Prop
  | .updateFromTrade hash trade => ofAnOrder trade →
      KeepsTo slots trade.orderId s (s.updateFromTrade hash trade).1
  | .updateFromOrderSnapshot hash order => ∀ q,
      (s.updateFromOrderSnapshot hash order).1.position.positions.get? q ≠
        s.position.positions.get? q →
      ∃ id, namedId? order = some id ∧ (q = .ofOrderId id ∨ (id, some q) ∈ slots)
  | _ => True

theorem Owned.fillsKeepTo (h : Owned named slots s.tables) (hwaiting : s.WaitingAreOrders)
    (op : Op Data ExchangeKey AssetKey InstrumentKey) :
    FillsKeepTo (slots ++ op.places named) s op := by
  have hbefore : Owned named (slots ++ op.places named) s.tables :=
    h.mono fun e he => List.mem_append_left _ he
  cases op with
  | updateFromTrade hash trade => exact fun horigin => hbefore.keepsTo_replayTrade horigin
  | updateFromOrderSnapshot hash order =>
    intro q hmoved
    refine hbefore.keepsTo_updateFromOrderSnapshot hwaiting (fun id hid => ?_) hmoved
    refine List.mem_append_right _ ?_
    simp [Op.places, Op.tells, hid]
  | _ => trivial

/-! ## One order to a venue order id -/

theorem placed_append {ops ops' : List (Op Data ExchangeKey AssetKey InstrumentKey)} :
    s.placed named (ops ++ ops') =
      s.placed named ops ++ (s.run ops).placed (s.namedAfter named ops) ops' := by
  induction ops generalizing s named with
  | nil => rfl
  | cons op ops ih =>
    rw [List.cons_append, placed, ih, placed, List.append_assoc]
    rfl

theorem mem_placed {ops : List (Op Data ExchangeKey AssetKey InstrumentKey)} {id : OrderId}
    {a : Option PositionId} (h : (id, a) ∈ s.placed named ops) :
    ∃ pre op post cid, ops = pre ++ op :: post ∧ (cid, id) ∈ op.tells ∧
      a = s.namedAfter named pre cid := by
  induction ops generalizing s named with
  | nil => cases h
  | cons op ops ih =>
    rcases List.mem_append.1 h with hhere | hlater
    · obtain ⟨⟨cid, id'⟩, htold, heq⟩ := List.mem_map.1 hhere
      cases heq
      exact ⟨[], op, ops, cid, rfl, htold, rfl⟩
    · obtain ⟨pre, op', post, cid, hops, htold, ha⟩ := ih hlater
      exact ⟨op :: pre, op', post, cid, by rw [hops]; rfl, htold, ha⟩

/-- What a client order id was last sent with changes only where an order is sent under it anew. -/
theorem namedAfter_or_sent (cid : ClientOrderId)
    (ops : List (Op Data ExchangeKey AssetKey InstrumentKey)) :
    s.namedAfter named ops cid = named cid ∨ ∃ pre request timeSent post,
      ops = pre ++ .recordInFlightOpen request timeSent :: post ∧ request.key.cid = cid ∧
        (s.run pre).orders.get? cid = none := by
  induction ops generalizing s named with
  | nil => exact Or.inl rfl
  | cons op ops ih =>
    have hrest := @ih (op.names named s) (s.step op)
    rcases hrest with hsame | hsent
    · by_cases hnames : op.names named s cid = named cid
      · exact Or.inl (hsame.trans hnames)
      · cases op with
        | recordInFlightOpen request timeSent =>
          unfold Op.names at hnames
          simp only at hnames
          split at hnames
          · exact absurd rfl hnames
          · rename_i huntracked
            have hcid : request.key.cid = cid := by
              by_contra hne
              exact hnames (Function.update_of_ne (Ne.symm hne) _ _)
            refine Or.inr ⟨[], request, timeSent, ops, rfl, hcid, ?_⟩
            rw [← hcid]
            exact IndexMap.not_contains_iff.1 (by simpa using huntracked)
        | _ => exact absurd rfl hnames
    · obtain ⟨pre, request, timeSent, post, hops, hcid, huntracked⟩ := hsent
      exact Or.inr ⟨op :: pre, request, timeSent, post, by rw [hops]; rfl, hcid, huntracked⟩

/-- Between two reports of one id its order's client id is not sent anew. -/
theorem namedAfter_eq_of_told {pre mid post : List (Op Data ExchangeKey AssetKey InstrumentKey)}
    {op : Op Data ExchangeKey AssetKey InstrumentKey}
    (hids : UniqueIds s (pre ++ op :: mid ++ post)) {cid : ClientOrderId} {id : OrderId}
    (htold : (cid, id) ∈ op.tells) (hafter : (cid, id) ∈ post.flatMap Op.tells) :
    s.namedAfter named (pre ++ op :: mid) cid = s.namedAfter named pre cid := by
  have happend : s.namedAfter named (pre ++ op :: mid) =
      (s.run pre).namedAfter (s.namedAfter named pre) (op :: mid) := by
    clear hids
    induction pre generalizing s named with
    | nil => rfl
    | cons op pre ih => exact ih
  rw [happend]
  refine (namedAfter_or_sent cid (op :: mid)).resolve_right ?_
  intro hsent
  obtain ⟨mid₁, request, timeSent, mid₂, hmid, hcid, huntracked⟩ := hsent
  cases mid₁ with
  | nil =>
    -- The report itself sends nothing.
    rw [List.nil_append, List.cons.injEq] at hmid
    rw [hmid.1] at htold
    cases htold
  | cons op₁ mid₁ =>
    have hsplit : pre ++ op :: mid ++ post =
        (pre ++ op₁ :: mid₁) ++ .recordInFlightOpen request timeSent :: (mid₂ ++ post) := by
      rw [hmid]; simp
    rw [List.cons_append, List.cons.injEq] at hmid
    have huntracked : (s.run (pre ++ op₁ :: mid₁)).orders.get? request.key.cid = none := by
      rw [hcid, InstrumentState.run, Transition.run_append]
      exact huntracked
    refine hids.anew _ request timeSent _ hsplit huntracked id ?_ ?_
    · rw [hcid, ← hmid.1]
      simp [htold]
    · rw [hcid, List.flatMap_append]
      exact List.mem_append_right _ hafter

/-- **A venue order id told of orders is told of one**: it was sent with one position. -/
theorem placed_functional {ops : List (Op Data ExchangeKey AssetKey InstrumentKey)}
    (hids : UniqueIds s ops) {id : OrderId} {a b : Option PositionId}
    (ha : (id, a) ∈ s.placed named ops) (hb : (id, b) ∈ s.placed named ops) : a = b := by
  obtain ⟨pre, op, post, cid, hops, htold, rfl⟩ := mem_placed ha
  obtain ⟨pre', op', post', cid', hops', htold', rfl⟩ := mem_placed hb
  have hmem : (cid, id) ∈ ops.flatMap Op.tells := by rw [hops]; simp [htold]
  have hmem' : (cid', id) ∈ ops.flatMap Op.tells := by rw [hops']; simp [htold']
  have hcid : cid = cid' := hids.owner _ hmem _ hmem' rfl
  subst hcid
  rcases List.append_eq_append_iff.1 (hops.symm.trans hops') with
    ⟨mid, hpre, hpost⟩ | ⟨mid, hpre, hpost⟩
  · rw [hpre]
    cases mid with
    | nil => rw [List.append_nil]
    | cons first mid =>
      rw [List.cons_append, List.cons.injEq] at hpost
      rw [← hpost.1]
      have hids' : UniqueIds s (pre ++ op :: mid ++ op' :: post') := by
        rw [hpost.1, ← hpre, ← hops']; exact hids
      exact (namedAfter_eq_of_told hids' htold (by simp [htold'])).symm
  · rw [hpre]
    cases mid with
    | nil => rw [List.append_nil]
    | cons first mid =>
      rw [List.cons_append, List.cons.injEq] at hpost
      rw [← hpost.1]
      have hids' : UniqueIds s (pre' ++ op' :: mid ++ op :: post) := by
        rw [hpost.1, ← hpre, ← hops]; exact hids
      exact namedAfter_eq_of_told hids' htold' (by simp [htold])

/-- Ids that are each told once are unique. -/
theorem uniqueIds_of_nodup {ops : List (Op Data ExchangeKey AssetKey InstrumentKey)}
    (h : ((ops.flatMap Op.tells).map Prod.snd).Nodup) : UniqueIds s ops where
  owner e he e' he' hid := congrArg Prod.fst (List.inj_on_of_nodup_map h he he' hid)
  anew pre request timeSent post hops _ id hbefore hafter := by
    rw [hops, List.flatMap_append, List.map_append, List.nodup_append] at h
    refine h.2.2 id (List.mem_map.2 ⟨(request.key.cid, id), hbefore, rfl⟩) id
      (List.mem_map.2 ⟨(request.key.cid, id), ?_, rfl⟩) rfl
    rw [List.flatMap_cons]
    exact List.mem_append_right _ hafter

end Calls

/-! ## Runs that send an id again -/

section Runs

attribute [local instance] DecimalRange.exact

namespace Sample

/-- An order under the same client order id, with no position. -/
def sendsUnnamed : Op NoData Unit Asset Unit :=
  .recordInFlightOpen
    ⟨key, ⟨.buy, some 100, 2, .limit, .goodUntilCancelled false, none, .no⟩⟩ 5

/-- The venue reports it working under `v-2`. -/
def reportsOpenAgain : Op NoData Unit Asset Unit :=
  reports (.active (.open ⟨.assigned ⟨"v-2"⟩, 6, 0⟩))

/-- A fill of one under `v-2`. -/
def fillAgain : Op NoData Unit Asset Unit :=
  .updateFromTrade .insertion { trade with id := ⟨"t-2"⟩, orderId := ⟨"v-2"⟩ }

/-- The first order is filled on its ack, its fill is delivered, and its id is sent again by
    `again`. -/
def reused (again : Op NoData Unit Asset Unit) : List (Op NoData Unit Asset Unit) :=
  [sends, reportsFilled, fill, again, reportsOpenAgain, fillAgain]

end Sample

end Runs

end InstrumentState

end Rustrade
