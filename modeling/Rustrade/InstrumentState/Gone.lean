import Rustrade.InstrumentState.PendingFills
import Rustrade.InstrumentState.Routing

/-!
# A position nothing routes to

A hedging position is opened again by a fill that is routed to its key. Once it is closed and
neither the positions orders were sent with nor the memory of ended orders names it, no call opens
it but the record of an order sent with it: every other entry of the two tables is made of one that
was there.
-/

set_option autoImplicit false

namespace Rustrade

namespace InstrumentState

variable {Data ExchangeKey AssetKey InstrumentKey : Type} {p : PositionId} {hash : HashOrder}
  {s s' : InstrumentState Data ExchangeKey AssetKey InstrumentKey}

/-- No position is open under `p`, and none of the routing names it. -/
structure Gone (p : PositionId) (s : InstrumentState Data ExchangeKey AssetKey InstrumentKey) :
    Prop where
  mode : s.position.mode = .hedging
  closed : s.position.positions.get? p = none
  unsent : ∀ cid, s.positionIds.get? cid ≠ some p
  forgotten : ∀ orderId, s.retiredRouting.get? orderId ≠ some p
  unkeyed : ∀ fill ∈ s.pendingFills, .ofOrderId fill.orderId ≠ p

/-- It is enough that the position stays closed and each table names no more than it did. -/
theorem Gone.congr (h : Gone p s) (hmode : s'.position.mode = s.position.mode)
    (hclosed : s'.position.positions.get? p = s.position.positions.get? p)
    (hsent : ∀ cid q, s'.positionIds.get? cid = some q → s.positionIds.get? cid = some q)
    (hretired : ∀ orderId q, s'.retiredRouting.get? orderId = some q →
      s.retiredRouting.get? orderId = some q)
    (hpending : ∀ fill ∈ s'.pendingFills, fill ∈ s.pendingFills) : Gone p s' where
  mode := hmode.trans h.mode
  closed := hclosed.trans h.closed
  unsent cid hcid := h.unsent cid (hsent cid p hcid)
  forgotten orderId hid := h.forgotten orderId (hretired orderId p hid)
  unkeyed fill hfill := h.unkeyed fill (hpending fill hfill)

theorem Gone.of_booksAt {q : PositionId} (h : Gone p s) (hne : p ≠ q) (hbooks : BooksAt q s s') :
    Gone p s' := by
  apply h.congr hbooks.mode (hbooks.elsewhere p hne)
  · rw [hbooks.positionIds]; exact fun _ _ hsent => hsent
  · rw [hbooks.retiredRouting]; exact fun _ _ hretired => hretired
  · rw [hbooks.pendingFills]; exact fun _ hfill => hfill

/-- A call that books at no slot in particular. -/
theorem Gone.of_noted (h : Gone p s) (hnoted : ∀ q, BooksAt q s s') : Gone p s' := by
  obtain ⟨q, hne⟩ : ∃ q : PositionId, p ≠ q := by
    by_cases hp : p = ⟨""⟩
    · exact ⟨⟨"p"⟩, by rw [hp]; decide⟩
    · exact ⟨⟨""⟩, hp⟩
  exact h.of_booksAt hne (hnoted q)

/-- What a cleanup moves into the memory of ended orders was in the other table. -/
theorem Gone.cleanupRoutingTables (h : Gone p s) : Gone p (s.cleanupRoutingTables hash) where
  mode := h.mode
  closed := h.closed
  unsent cid hcid := by
    rw [get?_positionIds_cleanupRoutingTables] at hcid
    split at hcid
    · exact h.unsent cid hcid
    · cases hcid
  forgotten orderId hid := by
    rw [retiredRouting_cleanupRoutingTables h.mode] at hid
    rcases BoundedMap.get?_foldl_insert hid with hid | hid
    · exact h.forgotten orderId hid
    · obtain ⟨cid, -, -, hsent⟩ := mem_demoted.1 hid
      exact h.unsent cid hsent
  unkeyed := h.unkeyed

theorem Gone.setOrders (h : Gone p s) (orders : Orders ExchangeKey InstrumentKey) :
    Gone p { s with orders := orders } :=
  h.congr rfl rfl (fun _ _ hsent => hsent) (fun _ _ hretired => hretired) fun _ hfill => hfill

theorem Gone.prunePositionIds (h : Gone p s) {q : PositionId} : Gone p (s.prunePositionIds q) := by
  have hsent : ∀ cid mapped, (s.prunePositionIds q).positionIds.get? cid = some mapped →
      s.positionIds.get? cid = some mapped := by
    intro cid mapped hmapped
    change (s.positionIds.retain _).get? cid = some mapped at hmapped
    rw [IndexMap.get?_retain, Option.filter_eq_some_iff] at hmapped
    exact hmapped.1
  exact h.congr rfl rfl hsent (fun _ _ hretired => hretired) fun _ hfill => hfill

theorem Gone.advanceOrder {trade : Trade AssetKey InstrumentKey} (h : Gone p s) :
    Gone p (s.advanceOrder hash trade) :=
  advanceOrder_cases (P := Gone p) h (fun _ _ _ _ => h.setOrders _) fun _ _ _ _ =>
    (h.setOrders _).cleanupRoutingTables

theorem Gone.of_placedAt {q : PositionId} {orderId : OrderId}
    {result : InstrumentState Data ExchangeKey AssetKey InstrumentKey ×
      FillsApplied AssetKey InstrumentKey} (h : Gone p s) (hne : p ≠ q)
    (hplaced : PlacedAt hash q orderId s result) : Gone p result.1 := by
  obtain ⟨booked, trade, hbooked, -, heq, -⟩ := hplaced
  have hgone : Gone p booked := h.of_booksAt hne hbooked
  rw [heq]
  split
  · exact hgone.prunePositionIds.advanceOrder
  · exact hgone.advanceOrder

/-! ## Where no fill goes -/

theorem Gone.matchedOrder {orderId : OrderId} (h : Gone p s) :
    s.matchedOrder hash orderId ≠ some (some p) := by
  intro hmatched
  rw [matchedOrder_eq] at hmatched
  obtain ⟨e, -, he⟩ := List.exists_of_findSome?_eq_some hmatched
  rw [Option.ite_none_right_eq_some] at he
  exact h.unsent e.1 (Option.some.inj he.2)

/-- A settlement reduces a position that is open. -/
theorem Gone.settlementFillPosition {trade : Trade AssetKey InstrumentKey} {q : PositionId}
    {held : Decimal} (h : Gone p s) (hplaced : s.settlementFillPosition trade = .ok (q, held)) :
    p ≠ q := by
  have hopen : ∀ reduces : Side, ∀ e, (s.position.positions.entries.filter fun e =>
      e.2.side = reduces) = [e] → p ≠ e.1 := by
    rintro reduces e honly rfl
    have hmem : e ∈ s.position.positions.entries.filter fun e => e.2.side = reduces := by
      rw [honly]; exact List.mem_singleton_self e
    have hget := IndexMap.get?_eq_some_iff.2 (List.mem_of_mem_filter hmem)
    rw [h.closed] at hget
    cases hget
  unfold InstrumentState.settlementFillPosition at hplaced
  cases hside : trade.side with
  | buy | sell =>
    simp only [hside] at hplaced
    split at hplaced
    · cases hplaced
    · split at hplaced
      · rename_i e honly
        cases hplaced
        exact hopen _ e honly
      · cases hplaced

/-- **No fill goes to it**, unless that is the fill's own venue order id. -/
theorem Gone.destination {trade : Trade AssetKey InstrumentKey} (h : Gone p s)
    (hraw : .ofOrderId trade.orderId ≠ p) :
    (s.destination hash trade).positionId? ≠ some p := by
  have hindexed : s.indexedPositionId trade.orderId ≠ some p := by
    intro hindexed
    obtain ⟨cid, -, hsent⟩ := Option.bind_eq_some_iff.1 hindexed
    exact h.unsent cid hsent
  have hunrouted : (s.unroutedDestination trade).positionId? ≠ some p := by
    unfold unroutedDestination
    cases hleg : s.settlementLeg trade.origin with
    | none => simpa [Destination.positionId?] using hraw
    | some leg =>
      cases hplaced : s.settlementFillPosition trade with
      | ok placed =>
        have hne : p ≠ placed.1 := h.settlementFillPosition hplaced
        simpa [Destination.positionId?] using hne.symm
      | error reason =>
        simp only
        split
        · rename_i heq; cases heq
        · simpa [Destination.positionId?] using hraw
        · simpa [Destination.positionId?] using hraw
        · simp [Destination.positionId?]
  unfold InstrumentState.destination
  rw [h.mode]
  simp only
  split
  · rename_i q hq
    rw [hq] at hindexed
    exact hindexed
  · split
    · rename_i q hq
      intro heq
      cases heq
      exact h.matchedOrder hq
    · simpa [Destination.positionId?] using hraw
    · split
      · rename_i q hq
        intro heq
        cases heq
        exact h.forgotten _ hq
      · split
        · simp [Destination.positionId?]
        · exact hunrouted

/-! ## Fills and reports -/

section Checked

variable [DecimalRange] [DecidableEq AssetKey] [DecidableEq InstrumentKey]
  {reduceOnlyFills : List (TradeId × ReduceOnly)}

theorem Gone.replayTrade {trade : Trade AssetKey InstrumentKey} (h : Gone p s)
    (hraw : .ofOrderId trade.orderId ≠ p) :
    Gone p (s.replayTrade hash trade reduceOnlyFills).1 := by
  have hnot : (s.destination hash trade).positionId? ≠ some p := h.destination hraw
  cases hdest : s.destination hash trade with
  | queued =>
    obtain ⟨noted, hnoted, heq⟩ := replayTrade_queued reduceOnlyFills hdest
    have hgone := h.of_noted hnoted
    rw [heq]
    refine ⟨hgone.mode, hgone.closed, hgone.unsent, hgone.forgotten, fun fill hfill => ?_⟩
    rcases List.mem_append.1 hfill with hfill | hfill
    · exact h.unkeyed fill hfill
    · cases List.mem_singleton.1 hfill
      exact hraw
  | unallocated => exact h.of_noted (replayTrade_unallocated reduceOnlyFills hdest).1
  | slot q | fallback q | unmatched q | settles q held =>
    have hplaced : PlacedAt hash q trade.orderId s (s.replayTrade hash trade reduceOnlyFills) :=
      placedAt_replayTrade _ (by rw [hdest]; rfl)
    refine h.of_placedAt ?_ hplaced
    rintro rfl
    rw [hdest] at hnot
    exact hnot rfl

theorem Gone.replayTrades {applied : FillsApplied AssetKey InstrumentKey}
    {fills : List (Trade AssetKey InstrumentKey)} (h : Gone p s)
    (hraw : ∀ fill ∈ fills, .ofOrderId fill.orderId ≠ p) :
    Gone p (InstrumentState.replayTrades hash reduceOnlyFills s applied fills).1 := by
  induction fills generalizing s applied with
  | nil => exact h
  | cons fill fills ih =>
    exact ih (h.replayTrade (hraw fill (List.mem_cons_self ..)))
      fun fill' hfill => hraw fill' (List.mem_cons_of_mem _ hfill)

omit [DecimalRange] [DecidableEq AssetKey] [DecidableEq InstrumentKey] in
theorem Gone.updated {order : Order ExchangeKey InstrumentKey OrderState} (h : Gone p s) :
    Gone p (s.updated hash order) :=
  ((h.of_noted fun _ => booksAt_noteOpenRejected _).setOrders _).cleanupRoutingTables

omit [DecimalRange] [DecidableEq AssetKey] [DecidableEq InstrumentKey] in
/-- A report restores the position its order was sent with, which is another. -/
theorem Gone.settleRouting {cid : ClientOrderId} {exchangeId : OrderId}
    {sentWith : Option PositionId} (h : Gone p s) (hsent : sentWith ≠ some p) :
    Gone p (s.settleRouting cid exchangeId sentWith) := by
  refine ⟨h.mode, h.closed, fun other hother => ?_, h.forgotten, h.unkeyed⟩
  unfold InstrumentState.settleRouting at hother
  cases sentWith with
  | none => exact h.unsent other hother
  | some q =>
    simp only [IndexMap.get?_insertIfAbsent] at hother
    split at hother
    · cases hget : s.positionIds.get? cid with
      | none => rw [hget] at hother; exact hsent hother
      | some mapped => rw [hget] at hother; exact h.unsent cid (hget.trans hother)
    · exact h.unsent other hother

theorem Gone.updateFromOrderSnapshot {order : Order ExchangeKey InstrumentKey OrderState}
    (h : Gone p s) : Gone p (s.updateFromOrderSnapshot hash order).1 := by
  cases hack : s.ackExchangeId order with
  | none =>
    rw [updateFromOrderSnapshot_of_no_ack hack]
    exact h.updated
  | some exchangeId =>
    have hsettled : Gone p ((s.updated hash order).settleRouting order.key.cid exchangeId
        (s.positionIds.get? order.key.cid)) :=
      h.updated.settleRouting (h.unsent order.key.cid)
    by_cases hpending : s.pendingFills = []
    · rw [updateFromOrderSnapshot_of_ack hack hpending]
      exact hsettled
    · rw [updateFromOrderSnapshot_releases hash hack hpending]
      have hreleasing : Gone p (s.releasing hash order exchangeId) :=
        ⟨hsettled.mode, hsettled.closed, hsettled.unsent, hsettled.forgotten, fun fill hfill =>
          h.unkeyed fill (List.mem_of_mem_filter hfill)⟩
      exact (hreleasing.replayTrades fun fill hfill =>
        h.unkeyed fill (List.mem_of_mem_filter hfill)).cleanupRoutingTables

end Checked

/-! ## Every call -/

section Calls

omit hash in
theorem Gone.drainPendingFills (h : Gone p s) : Gone p s.drainPendingFills := by
  unfold InstrumentState.drainPendingFills
  split
  · exact h
  · exact ⟨h.mode, h.closed, h.unsent, h.forgotten, by simp⟩

theorem Gone.updateFromCashFlow [DecimalRange] [DecidableEq AssetKey]
    {flow : CashFlow AssetKey InstrumentKey} (h : Gone p s) :
    Gone p (s.updateFromCashFlow flow).1 := by
  unfold InstrumentState.updateFromCashFlow
  split
  · exact h
  · split
    · exact h
    · split
      · exact h
      · refine h.congr rfl ?_ (fun _ _ hsent => hsent) (fun _ _ hretired => hretired)
          fun _ hfill => hfill
        change (s.position.positions.modify _ _).get? p = _
        rw [IndexMap.get?_modify, h.closed]
        split <;> rfl
    · exact h

variable [InstrumentDataState Data ExchangeKey AssetKey InstrumentKey]

/-- The call records no open naming the position, and is no fill whose venue order id is its key. -/
def KeepsGone (p : PositionId) (s : InstrumentState Data ExchangeKey AssetKey InstrumentKey) :
    Op Data ExchangeKey AssetKey InstrumentKey → Prop
  | .recordInFlightOpen request _ =>
      request.state.positionId = some p → s.orders.tracked.contains request.key.cid = true
  | .updateFromTrade _ trade => .ofOrderId trade.orderId ≠ p
  | _ => True

theorem Gone.recordInFlightOpen {request : OrderRequestOpen ExchangeKey InstrumentKey}
    {timeSent : DateTime} (h : Gone p s)
    (hkeeps : request.state.positionId = some p →
      s.orders.tracked.contains request.key.cid = true) :
    Gone p (s.recordInFlightOpen request timeSent) := by
  unfold InstrumentState.recordInFlightOpen
  split
  · exact h
  · rename_i huntracked
    refine ⟨h.mode, h.closed, fun cid hcid => ?_, h.forgotten, h.unkeyed⟩
    cases hnamed : request.state.positionId with
    | none => simp only [hnamed] at hcid; exact h.unsent cid hcid
    | some q =>
      simp only [hnamed, IndexMap.get?_insert] at hcid
      split at hcid
      · exact huntracked (hkeeps (hnamed.trans hcid))
      · exact h.unsent cid hcid

variable [DecimalRange]

theorem Gone.updateFromMarket
    {event : MarketEvent InstrumentKey (InstrumentDataState.MarketEventKind Data)}
    (h : Gone p s) : Gone p (s.updateFromMarket event) := by
  unfold InstrumentState.updateFromMarket
  simp only
  split
  · exact h.congr rfl rfl (fun _ _ hsent => hsent) (fun _ _ hretired => hretired)
      fun _ hfill => hfill
  · refine h.congr rfl ?_ (fun _ _ hsent => hsent) (fun _ _ hretired => hretired)
      fun _ hfill => hfill
    change (s.position.positions.mapValues _).get? p = _
    rw [IndexMap.get?_mapValues, h.closed]
    rfl

variable [DecidableEq AssetKey] [DecidableEq InstrumentKey]

/-- **No call opens it again**, but the record of an order sent with it. -/
theorem Gone.step {op : Op Data ExchangeKey AssetKey InstrumentKey} (h : Gone p s)
    (hkeeps : KeepsGone p s op) : Gone p (s.step op) := by
  cases op with
  | recordInFlightOpen request timeSent => exact h.recordInFlightOpen hkeeps
  | recordInFlightCancel request timeSent =>
    exact h.congr rfl rfl (fun _ _ hsent => hsent) (fun _ _ hretired => hretired)
      fun _ hfill => hfill
  | updateFromOrderSnapshot hash order => exact h.updateFromOrderSnapshot
  | updateFromCancelResponse hash response =>
    exact ((h.setOrders _).cleanupRoutingTables).drainPendingFills
  | updateFromTrade hash trade => exact h.replayTrade hkeeps
  | beginAccountResync =>
    exact h.congr rfl rfl (fun _ _ hsent => hsent) (fun _ _ hretired => hretired)
      fun _ hfill => hfill
  | retireUnlisted hash listed ordersComplete =>
    refine Gone.cleanupRoutingTables (h.congr rfl rfl (fun _ _ hsent => hsent)
      (fun _ _ hretired => hretired) fun _ hfill => hfill)
  | updateFromCashFlow flow => exact h.updateFromCashFlow
  | updateFromMarket event => exact h.updateFromMarket

end Calls

end InstrumentState

end Rustrade
