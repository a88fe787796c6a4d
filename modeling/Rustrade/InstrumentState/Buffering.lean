import Rustrade.InstrumentState.LateFill

/-!
# A fill before its ack

The venue's ack of an order and the fills of it may come in either order. A fill that comes first
waits, and the ack replays it through the tables the ack has settled; one that comes after goes
through them at once. The two ends are one state: what is between the replayed fills and the direct
ones is a cleanup of tables that are tidy already.
-/

set_option autoImplicit false

namespace Rustrade

namespace InstrumentState

variable {Data ExchangeKey AssetKey InstrumentKey : Type}

/-! ## Tidy tables -/

/-- No routing is kept for an order that is not tracked. -/
structure Tidy (s : InstrumentState Data ExchangeKey AssetKey InstrumentKey) : Prop where
  positionIds : ∀ e ∈ s.positionIds.entries, s.orders.tracked.contains e.1 = true
  exchangeIdToCid : ∀ e ∈ s.exchangeIdToCid.entries, s.orders.tracked.contains e.2 = true
  reduceOnly : ∀ e ∈ s.reduceOnly.live.entries, s.orders.tracked.contains e.1 = true

variable {hash : HashOrder} {s : InstrumentState Data ExchangeKey AssetKey InstrumentKey}

theorem tidy_cleanupRoutingTables : (s.cleanupRoutingTables hash).Tidy where
  positionIds _ hmem := (List.mem_filter.1 hmem).2
  exchangeIdToCid _ hmem := (List.mem_filter.1 hmem).2
  reduceOnly _ hmem := (List.mem_filter.1 hmem).2

theorem Tidy.demoted (h : s.Tidy) : s.demoted hash = [] := by
  refine List.filterMap_eq_nil_iff.2 fun e hmem => ?_
  rw [h.exchangeIdToCid e (HashOrder.mem_arrange.1 hmem)]
  rfl

theorem Tidy.retireUntracked (h : s.Tidy) :
    s.reduceOnly.retireUntracked s.orders.tracked.contains = s.reduceOnly := by
  have hended : (s.reduceOnly.live.entries.filter fun e =>
      !s.orders.tracked.contains e.1 && e.2.reduceOnly.isReduceOnly) = [] := by
    refine List.filter_eq_nil_iff.2 fun e hmem => ?_
    rw [h.reduceOnly e hmem]
    simp
  have hlive : (s.reduceOnly.live.retain fun cid _ => s.orders.tracked.contains cid) =
      s.reduceOnly.live :=
    IndexMap.ext (List.filter_eq_self.2 h.reduceOnly)
  unfold ReduceOnlyBook.retireUntracked
  simp only [hended, hlive]
  rfl

/-- Cleaning up tidy tables changes nothing. -/
theorem Tidy.cleanupRoutingTables (h : s.Tidy) : s.cleanupRoutingTables hash = s := by
  have hpositionIds : (s.positionIds.retain fun cid _ => s.orders.tracked.contains cid) =
      s.positionIds := IndexMap.ext (List.filter_eq_self.2 h.positionIds)
  have hindex : (s.exchangeIdToCid.retain fun _ cid => s.orders.tracked.contains cid) =
      s.exchangeIdToCid := IndexMap.ext (List.filter_eq_self.2 h.exchangeIdToCid)
  have hretired : (s.cleanupRoutingTables hash).retiredRouting = s.retiredRouting := by
    unfold InstrumentState.cleanupRoutingTables
    simp only [h.demoted]
    split <;> rfl
  calc s.cleanupRoutingTables hash
      = { s with
          retiredRouting := (s.cleanupRoutingTables hash).retiredRouting
          reduceOnly := s.reduceOnly.retireUntracked s.orders.tracked.contains
          positionIds := s.positionIds.retain fun cid _ => s.orders.tracked.contains cid
          exchangeIdToCid :=
            s.exchangeIdToCid.retain fun _ cid => s.orders.tracked.contains cid } := rfl
    _ = s := by rw [hretired, h.retireUntracked, hpositionIds, hindex]

/-- Tables that lose entries, while no order leaves, stay tidy. -/
theorem Tidy.mono {s' : InstrumentState Data ExchangeKey AssetKey InstrumentKey} (h : s.Tidy)
    (htracked : ∀ cid, s.orders.tracked.contains cid = true →
      s'.orders.tracked.contains cid = true)
    (hpositionIds : ∀ e ∈ s'.positionIds.entries, e ∈ s.positionIds.entries)
    (hindex : s'.exchangeIdToCid = s.exchangeIdToCid) (hbook : s'.reduceOnly = s.reduceOnly) :
    s'.Tidy where
  positionIds e hmem := htracked e.1 (h.positionIds e (hpositionIds e hmem))
  exchangeIdToCid e hmem := htracked e.2 (h.exchangeIdToCid e (hindex ▸ hmem))
  reduceOnly e hmem := htracked e.1 (h.reduceOnly e (hbook ▸ hmem))

theorem Tidy.advanceOrder {trade : Trade AssetKey InstrumentKey} (h : s.Tidy) :
    (s.advanceOrder hash trade).Tidy := by
  refine advanceOrder_cases (P := Tidy) h (fun cid reported _ hflag => ?_)
    fun cid reported _ _ => tidy_cleanupRoutingTables
  refine h.mono (fun c hc => ?_) (fun _ hmem => hmem) rfl rfl
  obtain ⟨order, horder⟩ := IndexMap.contains_iff.1 hc
  have hkept : (s.orders.updateFromFill cid trade.orderId reported).1.get? c ≠ none :=
    get?_updateFromFill_ne_none hflag (by rw [Orders.get?, horder]; simp)
  obtain ⟨order', horder'⟩ := Option.ne_none_iff_exists'.1 hkept
  exact IndexMap.contains_iff.2 ⟨order', horder'⟩

section Checked

variable [DecimalRange] [DecidableEq AssetKey] [DecidableEq InstrumentKey]
  {reduceOnlyFills : List (TradeId × ReduceOnly)}

/-- A fill keeps the tables tidy. -/
theorem Tidy.replayTrade {trade : Trade AssetKey InstrumentKey} (h : s.Tidy) :
    (s.replayTrade hash trade reduceOnlyFills).1.Tidy := by
  cases hdest : (s.destination hash trade).positionId? with
  | some positionId =>
    obtain ⟨booked, trade', hbooked, -, heq, -⟩ := placedAt_replayTrade reduceOnlyFills hdest
    have htidy : booked.Tidy := h.mono (fun _ hc => by rw [hbooked.orders]; exact hc)
      (fun _ hmem => by rwa [hbooked.positionIds] at hmem) hbooked.exchangeIdToCid
      hbooked.reduceOnly
    rw [heq]
    split
    · have hpruned : (booked.prunePositionIds positionId).Tidy :=
        htidy.mono (fun _ hc => hc) (fun _ hmem => (List.mem_filter.1 hmem).1) rfl rfl
      exact hpruned.advanceOrder
    · exact htidy.advanceOrder
  | none =>
    have hframe : ∀ s' : InstrumentState Data ExchangeKey AssetKey InstrumentKey,
        BooksAt .netting s s' → s'.Tidy := fun s' hbooks =>
      h.mono (fun _ hc => by rw [hbooks.orders]; exact hc)
        (fun _ hmem => by rwa [hbooks.positionIds] at hmem) hbooks.exchangeIdToCid hbooks.reduceOnly
    cases hplace : s.destination hash trade with
    | queued =>
      obtain ⟨noted, hnoted, heq⟩ := replayTrade_queued reduceOnlyFills hplace
      rw [heq]
      exact (hframe noted (hnoted _)).mono (fun _ hc => hc) (fun _ hmem => hmem) rfl rfl
    | unallocated =>
      exact hframe _ ((replayTrade_unallocated reduceOnlyFills hplace).1 _)
    | slot _ => rw [hplace] at hdest; cases hdest
    | fallback _ => rw [hplace] at hdest; cases hdest
    | unmatched _ => rw [hplace] at hdest; cases hdest
    | settles _ _ => rw [hplace] at hdest; cases hdest

theorem Tidy.replayTrades {applied : FillsApplied AssetKey InstrumentKey}
    {fills : List (Trade AssetKey InstrumentKey)} (h : s.Tidy) :
    (InstrumentState.replayTrades hash reduceOnlyFills s applied fills).1.Tidy := by
  induction fills generalizing s applied with
  | nil => exact h
  | cons fill fills ih => exact ih h.replayTrade

/-! ## Fills one after another -/

/-- What has been applied before decides nothing of the state. -/
theorem replayTrades_fst {applied applied' : FillsApplied AssetKey InstrumentKey}
    {fills : List (Trade AssetKey InstrumentKey)} :
    (replayTrades hash reduceOnlyFills s applied fills).1 =
      (replayTrades hash reduceOnlyFills s applied' fills).1 := by
  induction fills generalizing s applied applied' with
  | nil => rfl
  | cons fill fills ih => exact ih

theorem replayTrades_append {applied : FillsApplied AssetKey InstrumentKey}
    {fills fills' : List (Trade AssetKey InstrumentKey)} :
    (replayTrades hash reduceOnlyFills s applied (fills ++ fills')).1 =
      (replayTrades hash reduceOnlyFills (replayTrades hash reduceOnlyFills s applied fills).1
        applied fills').1 := by
  induction fills generalizing s applied with
  | nil => rfl
  | cons fill fills ih => exact ih.trans replayTrades_fst

variable [InstrumentDataState Data ExchangeKey AssetKey InstrumentKey]

/-- Fills delivered one by one. -/
abbrev deliveries (hash : HashOrder) (fills : List (Trade AssetKey InstrumentKey)) :
    List (Op Data ExchangeKey AssetKey InstrumentKey) := fills.map (Op.updateFromTrade hash)

theorem run_deliveries {applied : FillsApplied AssetKey InstrumentKey}
    {fills : List (Trade AssetKey InstrumentKey)} :
    s.run (deliveries hash fills) = (replayTrades hash [] s applied fills).1 := by
  induction fills generalizing s applied with
  | nil => rfl
  | cons fill fills ih => exact ih

/-! ## Before the ack -/

omit [DecimalRange] [DecidableEq AssetKey] [DecidableEq InstrumentKey]
  [InstrumentDataState Data ExchangeKey AssetKey InstrumentKey] in
/-- Neither the live tables nor the memory of ended orders resolve a venue order id. -/
def Unresolved (s : InstrumentState Data ExchangeKey AssetKey InstrumentKey)
    (orderId : OrderId) : Prop :=
  s.indexedPositionId orderId = none ∧ s.retiredRouting.get? orderId = none

omit [DecimalRange] [DecidableEq AssetKey] [DecidableEq InstrumentKey]
  [InstrumentDataState Data ExchangeKey AssetKey InstrumentKey] in
theorem matchedOrder_of_not_carried {orderId : OrderId}
    (h : ∀ cid, s.orders.carries cid orderId = false) : s.matchedOrder hash orderId = none := by
  rw [matchedOrder_eq, List.findSome?_eq_none_iff]
  intro e hmem
  rw [if_neg]
  have hget : s.orders.get? e.1 = some e.2 :=
    IndexMap.get?_eq_some_iff.2 (HashOrder.mem_arrange.1 hmem)
  intro hcarries
  exact absurd (Orders.carries_iff.2 ⟨e.2, hget, hcarries⟩) (by rw [h e.1]; simp)

omit [DecimalRange] [DecidableEq AssetKey] [DecidableEq InstrumentKey]
  [InstrumentDataState Data ExchangeKey AssetKey InstrumentKey] in
/-- Such a fill waits while an order awaits its ack. -/
theorem destination_queued {trade : Trade AssetKey InstrumentKey}
    (hmode : s.position.mode = .hedging) (horigin : trade.origin = .order)
    (hflight : s.hasOpenInFlight = true)
    (hcarried : ∀ cid, s.orders.carries cid trade.orderId = false)
    (hunresolved : s.Unresolved trade.orderId) : s.destination hash trade = .queued := by
  unfold destination
  rw [hmode]
  simp only [hunresolved.1, hunresolved.2, matchedOrder_of_not_carried hcarried, horigin, hflight,
    decide_true, Bool.and_self, if_true]

/-- The fills of an order not yet acknowledged join the buffer, and nothing else changes. -/
theorem run_deliveries_of_unacknowledged {orderId : OrderId}
    {fills : List (Trade AssetKey InstrumentKey)} (hmode : s.position.mode = .hedging)
    (hflight : s.hasOpenInFlight = true) (hcarried : ∀ cid, s.orders.carries cid orderId = false)
    (hunresolved : s.Unresolved orderId)
    (hfills : ∀ fill ∈ fills, fill.origin = .order ∧ fill.orderId = orderId) :
    s.run (deliveries hash fills) = { s with pendingFills := s.pendingFills ++ fills } := by
  induction fills generalizing s with
  | nil => rw [List.append_nil]; rfl
  | cons fill fills ih =>
    obtain ⟨horigin, hid⟩ := hfills fill List.mem_cons_self
    have hqueued : s.destination hash fill = .queued :=
      destination_queued hmode horigin hflight (by rw [hid]; exact hcarried)
        (by rw [hid]; exact hunresolved)
    have hunforced : fill.origin.isForced = false := by rw [horigin]; rfl
    have hstep : s.step (.updateFromTrade hash fill) =
        { s with pendingFills := s.pendingFills ++ [fill] } := by
      change (s.replayTrade hash fill []).1 = _
      unfold InstrumentState.replayTrade
      simp only [hunforced, Bool.false_eq_true, if_false, hqueued]
      rfl
    rw [deliveries, List.map_cons, run, Transition.run_cons, hstep]
    refine (ih ?_ ?_ ?_ ?_ fun fill hmem => hfills fill (List.mem_cons_of_mem _ hmem)).trans ?_
    · exact hmode
    · exact hflight
    · exact hcarried
    · exact hunresolved
    · rw [List.append_assoc]
      rfl

/-! ## The ack -/

variable {order : Order ExchangeKey InstrumentKey OrderState} {orderId : OrderId}

omit [DecimalRange] [DecidableEq AssetKey] [DecidableEq InstrumentKey]
  [InstrumentDataState Data ExchangeKey AssetKey InstrumentKey] in
theorem openInFlight_of_awaitsAck {cid : ClientOrderId} (h : s.orders.awaitsAck cid = true) :
    ∃ current sent, s.orders.get? cid = some current ∧ current.state = .openInFlight sent := by
  obtain ⟨current, hget, hcurrent⟩ := (Option.any_eq_true _ _).1 h
  cases hstate : current.state with
  | openInFlight sent => exact ⟨current, sent, hget, hstate⟩
  | «open» _ => rw [hstate] at hcurrent; cases hcurrent
  | cancelInFlight _ => rw [hstate] at hcurrent; cases hcurrent

omit [DecimalRange] [DecidableEq AssetKey] [DecidableEq InstrumentKey]
  [InstrumentDataState Data ExchangeKey AssetKey InstrumentKey] in
/-- The order awaits its ack, and the report is one: working under `orderId`, nothing filled and
    something left to fill. -/
structure Acknowledges (s : InstrumentState Data ExchangeKey AssetKey InstrumentKey)
    (order : Order ExchangeKey InstrumentKey OrderState) (orderId : OrderId) : Prop where
  awaits : s.orders.awaitsAck order.key.cid = true
  working : ∃ timeExchange, order.state = .active (.open ⟨.assigned orderId, timeExchange, 0⟩)
  unfilled : order.quantity ≠ 0

omit [DecimalRange] [DecidableEq AssetKey] [DecidableEq InstrumentKey]
  [InstrumentDataState Data ExchangeKey AssetKey InstrumentKey] in
theorem Acknowledges.ackExchangeId (h : s.Acknowledges order orderId) :
    s.ackExchangeId order = some orderId := by
  obtain ⟨timeExchange, hstate⟩ := h.working
  rw [ackExchangeId_of_awaitsAck h.awaits]
  unfold reportedId
  rw [hstate]
  rfl

omit [DecimalRange] [DecidableEq AssetKey] [DecidableEq InstrumentKey]
  [InstrumentDataState Data ExchangeKey AssetKey InstrumentKey] in
/-- The ack leaves the order open, and so tracked. -/
theorem Acknowledges.contains (h : s.Acknowledges order orderId) :
    (s.orders.updateFromOrderSnapshot order).tracked.contains order.key.cid = true := by
  obtain ⟨current, sent, hget, hsent⟩ := openInFlight_of_awaitsAck h.awaits
  obtain ⟨timeExchange, hstate⟩ := h.working
  have happlied : s.orders.isFailedOpenToIgnore order = false := by
    simp [Orders.isFailedOpenToIgnore, Orders.isContradictedNeverPlaced, hstate,
      OrderState.isOutcomeUnknown]
  have hremaining : (⟨.assigned orderId, timeExchange, 0⟩ : Open).quantityRemaining order.quantity ≠
      0 := by
    unfold Open.quantityRemaining
    rw [sub_zero]
    exact h.unfilled
  have hopen : s.orders.updateFromOrderSnapshot order =
      s.orders.setState order.key.cid current (.open ⟨.assigned orderId, timeExchange, 0⟩) := by
    unfold Orders.updateFromOrderSnapshot
    rw [if_neg (by rw [happlied]; simp), hget]
    simp only [Order.toActive, hstate, Orders.updateTracked, hsent, if_neg hremaining]
  rw [hopen]
  exact IndexMap.contains_iff.2 ⟨_, IndexMap.get?_insert_self⟩

omit [DecimalRange] [DecidableEq AssetKey] [DecidableEq InstrumentKey]
  [InstrumentDataState Data ExchangeKey AssetKey InstrumentKey] in
/-- The ack's own cleanup leaves the tables tidy, and what it settles is of the order it opens. -/
theorem Acknowledges.tidy_releasing (h : s.Acknowledges order orderId) :
    (s.releasing hash order orderId).Tidy := by
  have hupdated : (s.updated hash order).Tidy := tidy_cleanupRoutingTables
  have htracked : (s.releasing hash order orderId).orders.tracked.contains order.key.cid = true := by
    rw [orders_releasing]
    exact h.contains
  refine ⟨fun e hmem => ?_, fun e hmem => ?_, fun e hmem => ?_⟩
  · have hget := IndexMap.get?_eq_some_iff.2 hmem
    change ((s.updated hash order).settleRouting order.key.cid orderId
      (s.positionIds.get? order.key.cid)).positionIds.get? e.1 = some e.2 at hget
    rw [get?_positionIds_settleRouting] at hget
    split at hget
    · rename_i hcid
      rw [hcid]
      exact htracked
    · exact hupdated.positionIds e (IndexMap.get?_eq_some_iff.1 hget)
  · have hget := IndexMap.get?_eq_some_iff.2 hmem
    change ((s.updated hash order).exchangeIdToCid.insert orderId order.key.cid).get? e.1 =
      some e.2 at hget
    rw [IndexMap.get?_insert] at hget
    split at hget
    · rw [← Option.some.inj hget]
      exact htracked
    · exact hupdated.exchangeIdToCid e (IndexMap.get?_eq_some_iff.1 hget)
  · -- Noting the venue's id changes no key of the book's live orders.
    have hkey : e.1 ∈ (s.updated hash order).reduceOnly.live.keys := by
      have hnoted : e.1 ∈ ((s.updated hash order).reduceOnly.acknowledge order.key.cid
          orderId).live.keys := List.mem_map_of_mem hmem
      unfold ReduceOnlyBook.acknowledge at hnoted
      split at hnoted
      · rwa [IndexMap.keys_modify] at hnoted
      · exact hnoted
    obtain ⟨sent, hget⟩ := IndexMap.mem_keys_iff.1 hkey
    exact hupdated.reduceOnly (e.1, sent) (IndexMap.get?_eq_some_iff.1 hget)

omit [InstrumentDataState Data ExchangeKey AssetKey InstrumentKey] in
/-- The ack by the fills it releases, whether any waits or not. -/
theorem Acknowledges.updateFromOrderSnapshot (h : s.Acknowledges order orderId) :
    (s.updateFromOrderSnapshot hash order).1 =
      (InstrumentState.replayTrades hash [] (s.releasing hash order orderId) .none
        (s.pendingFills.filter fun fill => fill.orderId = orderId)).1 := by
  by_cases hpending : s.pendingFills = []
  · rw [updateFromOrderSnapshot_of_ack h.ackExchangeId hpending, hpending]
    have hnone : (s.updated hash order).pendingFills = [] :=
      (pendingFills_updated hash).trans hpending
    show _ = s.releasing hash order orderId
    unfold InstrumentState.releasing
    rw [hpending]
    show _ = { (s.updated hash order).settleRouting order.key.cid orderId
      (s.positionIds.get? order.key.cid) with pendingFills := [] }
    rw [← hnone]
    rfl
  · rw [updateFromOrderSnapshot_releases hash h.ackExchangeId hpending]
    exact h.tidy_releasing.replayTrades.cleanupRoutingTables

/-- **Fills before their ack end where fills after it do.** The order awaits its ack under
    `orderId`, which neither a tracked order nor the tables know. Whether any fills of it are
    delivered and then the ack, or the ack and then the fills, the state after is the same. -/
theorem fill_before_ack_commutes (hmode : s.position.mode = .hedging)
    (hack : s.Acknowledges order orderId)
    (hcarried : ∀ cid, cid ≠ order.key.cid → s.orders.carries cid orderId = false)
    (hunresolved : s.Unresolved orderId) {fills : List (Trade AssetKey InstrumentKey)}
    (hfills : ∀ fill ∈ fills, fill.origin = .order ∧ fill.orderId = orderId) (hash : HashOrder) :
    s.run (deliveries hash fills ++ [.updateFromOrderSnapshot hash order]) =
      s.run (.updateFromOrderSnapshot hash order :: deliveries hash fills) := by
  have hflight : s.hasOpenInFlight = true := hasOpenInFlight_iff.2 ⟨_, hack.awaits⟩
  have hnone : ∀ cid, s.orders.carries cid orderId = false := by
    intro cid
    by_cases hcid : cid = order.key.cid
    · obtain ⟨current, sent, hget, hsent⟩ := openInFlight_of_awaitsAck hack.awaits
      rw [hcid, Orders.carries, hget, Option.any_some, hsent]
      rfl
    · exact hcarried cid hcid
  set buffered : InstrumentState Data ExchangeKey AssetKey InstrumentKey :=
    { s with pendingFills := s.pendingFills ++ fills } with hbuffered
  have hackLater : buffered.Acknowledges order orderId :=
    ⟨hack.awaits, hack.working, hack.unfilled⟩
  have hreleasing : buffered.releasing hash order orderId = s.releasing hash order orderId := by
    obtain ⟨timeExchange, hstate⟩ := hack.working
    have hnote : ∀ s : InstrumentState Data ExchangeKey AssetKey InstrumentKey,
        s.noteOpenRejected order = s := by
      intro s
      unfold noteOpenRejected
      rw [hstate]
    have hkept : (buffered.pendingFills.filter fun fill => fill.orderId ≠ orderId) =
        s.pendingFills.filter fun fill => fill.orderId ≠ orderId := by
      have hothers : (fills.filter fun fill => decide (fill.orderId ≠ orderId)) = [] :=
        List.filter_eq_nil_iff.2 fun fill hmem => by simpa using (hfills fill hmem).2
      rw [hbuffered, List.filter_append, hothers, List.append_nil]
    unfold releasing updated
    rw [hnote, hnote, hkept]
    rfl
  have hreleased : (buffered.pendingFills.filter fun fill => fill.orderId = orderId) =
      (s.pendingFills.filter fun fill => fill.orderId = orderId) ++ fills := by
    rw [hbuffered, List.filter_append]
    congr 1
    exact List.filter_eq_self.2 fun fill hmem => by simpa using (hfills fill hmem).2
  calc s.run (deliveries hash fills ++ [.updateFromOrderSnapshot hash order])
      = (buffered.updateFromOrderSnapshot hash order).1 := by
        rw [run, Transition.run_concat]
        exact congrArg (fun s => (InstrumentState.updateFromOrderSnapshot hash s order).1)
          (run_deliveries_of_unacknowledged hmode hflight hnone hunresolved hfills)
    _ = (InstrumentState.replayTrades hash [] (s.releasing hash order orderId) .none
          ((s.pendingFills.filter fun fill => fill.orderId = orderId) ++ fills)).1 := by
        rw [hackLater.updateFromOrderSnapshot, hreleasing, hreleased]
    _ = (s.updateFromOrderSnapshot hash order).1.run (deliveries hash fills) := by
        rw [hack.updateFromOrderSnapshot, replayTrades_append, run_deliveries]
    _ = s.run (.updateFromOrderSnapshot hash order :: deliveries hash fills) := rfl

end Checked

/-! ## Ids the tables know, and orders for nothing -/

section Runs

attribute [local instance] DecimalRange.exact

namespace Sample

/-- Another order is sent, with the position `p-2`. -/
def sendsOther : Op NoData Unit Asset Unit :=
  .recordInFlightOpen
    ⟨{ key with cid := ⟨"c-2"⟩ },
      ⟨.buy, some 100, 2, .limit, .goodUntilCancelled false, some ⟨"p-2"⟩, .no⟩⟩ 5

/-- An ack of `cid` as `v-1`, for `quantity`. -/
def acks (cid : ClientOrderId) (quantity : Decimal) : Order Unit Unit OrderState :=
  ⟨{ key with cid := cid }, .buy, some 100, quantity, .limit, .goodUntilCancelled false,
    .active (.open ⟨.assigned ⟨"v-1"⟩, 6, 0⟩)⟩

/-- The order of `v-1` has ended, and another awaits its ack. -/
def endedOther : InstrumentState NoData Unit Asset Unit :=
  fresh.run [sends, reportsOpen, reports (.inactive (.cancelled ⟨⟨"v-1"⟩, 3, none⟩)), sendsOther]

/-- A fill of an unknown order waits while one awaits its ack. -/
def waitingOther : InstrumentState NoData Unit Asset Unit :=
  fresh.run [sends, .updateFromTrade .insertion { trade with orderId := ⟨"v-9"⟩ }]

/-- A fill that opens a position, one that closes it, and one more. -/
def roundTrip : List (Trade Asset Unit) :=
  [trade, { trade with id := ⟨"t-2"⟩, side := .sell }, { trade with id := ⟨"t-3"⟩ }]

end Sample

theorem carries_of_untracked_key {cid : ClientOrderId} {orderId : OrderId}
    (h : cid ∉ s.orders.tracked.keys) : s.orders.carries cid orderId = false :=
  Orders.carries_of_untracked (IndexMap.not_contains_iff.1 (by
    rwa [← Bool.not_eq_true, ← IndexMap.mem_keys_iff_contains]))

/-- A round trip of fills, before the ack and after it. -/
theorem fill_before_ack_commutes_sent :
    let sent := Sample.fresh.run [Sample.sends]
    let ack := Op.updateFromOrderSnapshot .insertion (Sample.acks ⟨"c-1"⟩ 2)
    sent.run (deliveries .insertion Sample.roundTrip ++ [ack]) =
      sent.run (ack :: deliveries .insertion Sample.roundTrip) := by
  refine @fill_before_ack_commutes _ _ _ _ (Sample.fresh.run [Sample.sends]) _ _ _ _
    (Sample.acks ⟨"c-1"⟩ 2) ⟨"v-1"⟩ rfl ⟨by decide +kernel, ⟨6, rfl⟩, by decide +kernel⟩
    ?_ ⟨by decide +kernel, by decide +kernel⟩ Sample.roundTrip (by decide) .insertion
  intro cid hcid
  refine carries_of_untracked_key ?_
  have hkeys : (Sample.fresh.run [Sample.sends]).orders.tracked.keys = [⟨"c-1"⟩] := by
    decide +kernel
  rw [hkeys, List.mem_singleton]
  exact hcid

/-- **Where the two orders part.** A venue order id an ended order had resolves already: its fills
    do not wait, and before the ack they move that order's position. And an order acknowledged with
    quantity zero ends with its ack: while other fills wait, the cleanup after it remembers where
    its fills go, which the position's close makes the buffered ones forget. -/
theorem fill_before_ack_parts :
    let fills := deliveries .insertion [Sample.trade]
    let ack := Op.updateFromOrderSnapshot .insertion (Sample.acks ⟨"c-2"⟩ 2)
    let roundTrip := deliveries .insertion Sample.roundTrip
    let ackNothing := Op.updateFromOrderSnapshot .insertion (Sample.acks ⟨"c-1"⟩ 0)
    (Sample.endedOther.orders.awaitsAck ⟨"c-2"⟩ = true ∧
      (∀ cid, cid ≠ ⟨"c-2"⟩ → Sample.endedOther.orders.carries cid ⟨"v-1"⟩ = false) ∧
      (Sample.endedOther.run (fills ++ [ack])).position ≠
        (Sample.endedOther.run (ack :: fills)).position) ∧
    (Sample.waitingOther.orders.awaitsAck ⟨"c-1"⟩ = true ∧
      (∀ cid, cid ≠ ⟨"c-1"⟩ → Sample.waitingOther.orders.carries cid ⟨"v-1"⟩ = false) ∧
      (Sample.waitingOther.run (roundTrip ++ [ackNothing])).position ≠
        (Sample.waitingOther.run (ackNothing :: roundTrip)).position) := by
  have hended : Sample.endedOther.orders.tracked.keys = [⟨"c-2"⟩] := by decide +kernel
  have hwaiting : Sample.waitingOther.orders.tracked.keys = [⟨"c-1"⟩] := by decide +kernel
  refine ⟨⟨by decide +kernel, fun cid hcid => carries_of_untracked_key ?_, by decide +kernel⟩,
    by decide +kernel, fun cid hcid => carries_of_untracked_key ?_, by decide +kernel⟩
  · rw [hended, List.mem_singleton]
    exact hcid
  · rw [hwaiting, List.mem_singleton]
    exact hcid

end Runs

end InstrumentState

end Rustrade
