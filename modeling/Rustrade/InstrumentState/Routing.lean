import Rustrade.InstrumentState.Run

/-!
# How a fill finds its position

`destination` reads three tables in turn: the reverse index with the positions orders were sent
with, the tracked orders, and the memory of ended orders. One lemma for each says when a fill
goes by it; the rest of the module is what the two tables' own writes, `cleanupRoutingTables` and
`advanceOrder`, leave of the routing of one order.
-/

set_option autoImplicit false

namespace Rustrade

/-- The order works, or its cancel is in flight, under the venue's `orderId`. -/
def ActiveOrderState.carries (state : ActiveOrderState) (orderId : OrderId) : Bool :=
  state.openMeta.any fun open_ => open_.id.assigned? = some orderId

namespace Orders

variable {ExchangeKey InstrumentKey : Type}

/-- The order tracked under `cid` carries the venue order id `orderId`. -/
def carries (orders : Orders ExchangeKey InstrumentKey) (cid : ClientOrderId)
    (orderId : OrderId) : Bool :=
  (orders.get? cid).any fun order => order.state.carries orderId

theorem carries_iff {orders : Orders ExchangeKey InstrumentKey} {cid : ClientOrderId}
    {orderId : OrderId} : orders.carries cid orderId = true ↔
      ∃ order, orders.get? cid = some order ∧ order.state.carries orderId = true :=
  Option.any_eq_true _ _

theorem carries_congr {orders orders' : Orders ExchangeKey InstrumentKey} {cid : ClientOrderId}
    {orderId : OrderId} (h : orders'.get? cid = orders.get? cid) :
    orders'.carries cid orderId = orders.carries cid orderId := by
  unfold carries; rw [h]

theorem carries_of_untracked {orders : Orders ExchangeKey InstrumentKey} {cid : ClientOrderId}
    {orderId : OrderId} (h : orders.get? cid = none) : orders.carries cid orderId = false := by
  simp [carries, h]

end Orders

namespace InstrumentState

variable {Data ExchangeKey AssetKey InstrumentKey : Type} {hash : HashOrder}
  {s : InstrumentState Data ExchangeKey AssetKey InstrumentKey}
  {trade : Trade AssetKey InstrumentKey} {orderId : OrderId} {cid : ClientOrderId}
  {positionId : PositionId}

/-! ## The tracked orders -/

theorem matchedOrder_eq :
    s.matchedOrder hash orderId = (hash.arrange s.orders.tracked.entries).findSome? fun e =>
      if e.2.state.carries orderId then some (s.positionIds.get? e.1) else none := by
  unfold matchedOrder
  congr 1
  funext e
  cases hs : e.2.state with
  | openInFlight _ => simp [ActiveOrderState.carries]
  | «open» _ => simp [ActiveOrderState.carries]
  | cancelInFlight cancel => rfl

theorem matchedOrder_eq_none (h : ∀ cid, s.orders.carries cid orderId = false) :
    s.matchedOrder hash orderId = none := by
  rw [matchedOrder_eq, List.findSome?_eq_none_iff]
  intro e hmem
  have hget : s.orders.get? e.1 = some e.2 :=
    IndexMap.get?_eq_some_iff.2 (HashOrder.mem_arrange.1 hmem)
  have hcarries : e.2.state.carries orderId = false := by
    have := h e.1
    rwa [Orders.carries, hget] at this
  simp [hcarries]

/-- If one tracked order alone carries the id, the fill goes by the position that order was sent
    with. -/
theorem matchedOrder_of_unique (hcarries : s.orders.carries cid orderId = true)
    (hunique : ∀ other, s.orders.carries other orderId = true → other = cid) :
    s.matchedOrder hash orderId = some (s.positionIds.get? cid) := by
  cases hmatched : s.matchedOrder hash orderId with
  | none =>
    obtain ⟨order, hget, horder⟩ := Orders.carries_iff.1 hcarries
    rw [matchedOrder_eq, List.findSome?_eq_none_iff] at hmatched
    have hnone := hmatched (cid, order)
      (HashOrder.mem_arrange.2 (IndexMap.get?_eq_some_iff.1 hget))
    simp [horder] at hnone
  | some found =>
    rw [matchedOrder_eq] at hmatched
    obtain ⟨e, hmem, he⟩ := List.exists_of_findSome?_eq_some hmatched
    rw [Option.ite_none_right_eq_some] at he
    have hget : s.orders.get? e.1 = some e.2 :=
      IndexMap.get?_eq_some_iff.2 (HashOrder.mem_arrange.1 hmem)
    rw [← hunique e.1 (Orders.carries_iff.2 ⟨e.2, hget, he.1⟩), ← Option.some.inj he.2]

/-! ## Where a fill goes -/

theorem destination_of_indexed (hmode : s.position.mode = .hedging)
    (hindex : s.exchangeIdToCid.get? trade.orderId = some cid)
    (hsent : s.positionIds.get? cid = some positionId) :
    s.destination hash trade = .slot positionId := by
  have hindexed : s.indexedPositionId trade.orderId = some positionId := by
    simp [indexedPositionId, hindex, hsent]
  unfold destination
  rw [hmode, hindexed]

theorem destination_of_matched (hmode : s.position.mode = .hedging)
    (hindex : s.indexedPositionId trade.orderId = none)
    (hmatched : s.matchedOrder hash trade.orderId = some (some positionId)) :
    s.destination hash trade = .slot positionId := by
  unfold destination
  rw [hmode, hindex, hmatched]

theorem destination_of_retired (hmode : s.position.mode = .hedging)
    (hindex : s.indexedPositionId trade.orderId = none)
    (hmatched : s.matchedOrder hash trade.orderId = none)
    (hretired : s.retiredRouting.get? trade.orderId = some positionId) :
    s.destination hash trade = .slot positionId := by
  unfold destination
  rw [hmode, hindex, hmatched, hretired]

/-! ## The order a fill advances -/

theorem trackedOrderCid_of_indexed (h : s.exchangeIdToCid.get? orderId = some cid) :
    s.trackedOrderCid hash orderId = some cid := by
  unfold trackedOrderCid
  rw [h]
  rfl

/-- The order a fill advances is the one indexed under its id, or one that carries it. -/
theorem trackedOrderCid_cases (h : s.trackedOrderCid hash orderId = some cid) :
    s.exchangeIdToCid.get? orderId = some cid ∨ s.orders.carries cid orderId = true := by
  unfold trackedOrderCid at h
  rcases Option.or_eq_some_iff.1 h with h | ⟨-, h⟩
  · exact Or.inl h
  · refine Or.inr ?_
    obtain ⟨e, hmem, he⟩ := List.exists_of_findSome?_eq_some h
    have hget : s.orders.get? e.1 = some e.2 :=
      IndexMap.get?_eq_some_iff.2 (HashOrder.mem_arrange.1 hmem)
    cases hs : e.2.state with
    | openInFlight _ => simp [hs] at he
    | cancelInFlight _ => simp [hs] at he
    | «open» open_ =>
      simp only [hs, Option.ite_none_right_eq_some, Option.some.injEq] at he
      rw [← he.2]
      exact Orders.carries_iff.2 ⟨e.2, hget, by simp [ActiveOrderState.carries, hs, he.1]⟩

/-- A fill of an order that is not tracked advances none. -/
theorem advanceOrder_eq_self
    (h : ∀ cid, s.trackedOrderCid hash trade.orderId = some cid → s.orders.get? cid = none) :
    s.advanceOrder hash trade = s := by
  have hfill : ∀ cid reported, s.trackedOrderCid hash trade.orderId = some cid →
      s.orders.updateFromFill cid trade.orderId reported = (s.orders, false) := by
    intro cid reported hcid
    unfold Orders.updateFromFill
    rw [h cid hcid]
  refine advanceOrder_cases (P := fun s' => s' = s) rfl ?_ ?_
  · intro cid reported hcid _
    rw [hfill cid reported hcid]
  · intro cid reported hcid hretired
    rw [hfill cid reported hcid] at hretired
    exact absurd hretired (by simp)

end InstrumentState

end Rustrade
