import Rustrade.InstrumentState.Run
import Rustrade.Orders.Retired

/-!
# Fills that wait for an ack

A hedged fill whose order the venue has not yet named waits in `pendingFills`, and only the
report that takes an order out of flight releases one. `Releasable` is what the buffer needs to
be of any use, that some order still awaits its ack, and `ReleasedTo` what a report that names
the fill's order owes: every fill buffered under its venue order id is taken, in turn, to the
position the order was sent with.

Neither holds of every run. An order leaves flight in ways that release nothing, and a report
that ends the order can lose its routing half way through the fills it releases;
`KeepsReleasable` and `SettlesInTime` are the steps that do neither.
-/

set_option autoImplicit false

namespace Rustrade

namespace Orders

variable {ExchangeKey InstrumentKey : Type}

/-- The order is tracked and the venue has reported nothing of it. -/
def awaitsAck (orders : Orders ExchangeKey InstrumentKey) (cid : ClientOrderId) : Bool :=
  (orders.get? cid).any fun order => order.state.isOpenInFlight

theorem awaitsAck_congr {orders orders' : Orders ExchangeKey InstrumentKey} {cid : ClientOrderId}
    (h : orders'.get? cid = orders.get? cid) : orders'.awaitsAck cid = orders.awaitsAck cid := by
  unfold awaitsAck; rw [h]

/-- A fill advances open orders alone. -/
theorem awaitsAck_updateFromFill {orders : Orders ExchangeKey InstrumentKey}
    {cid c : ClientOrderId} {orderId : OrderId} {filledQuantity : Decimal} :
    (orders.updateFromFill cid orderId filledQuantity).1.awaitsAck c = orders.awaitsAck c := by
  unfold updateFromFill
  cases hget : orders.get? cid with
  | none => rfl
  | some order =>
    cases hs : order.state with
    | openInFlight _ => simp only [hs]
    | cancelInFlight _ => simp only [hs]
    | «open» open_ =>
      have hwas : orders.awaitsAck cid = false := by
        simp [awaitsAck, hget, hs, ActiveOrderState.isOpenInFlight]
      simp only [hs]
      split
      · rfl
      · split
        · rfl
        · split
          · by_cases hc : c = cid
            · subst hc
              rw [hwas]
              have : ({ tracked := orders.tracked.remove c,
                        retired := orders.retired.insert c } : Orders _ _).get? c = none :=
                IndexMap.get?_remove_self
              simp [awaitsAck, this]
            · exact awaitsAck_congr (IndexMap.get?_remove_of_ne hc)
          · by_cases hc : c = cid
            · subst hc
              rw [hwas]
              simp [awaitsAck, get?_setState, ActiveOrderState.isOpenInFlight]
            · exact awaitsAck_congr (by rw [get?_setState, if_neg hc])

theorem awaitsAck_removeOpen {orders : Orders ExchangeKey InstrumentKey} {cid c : ClientOrderId}
    {id : VenueOrderId} : (orders.removeOpen cid id).1.awaitsAck c = orders.awaitsAck c := by
  unfold removeOpen
  cases hget : orders.get? cid with
  | none => rfl
  | some order =>
    cases hs : order.state with
    | openInFlight _ => simp only [hs]
    | cancelInFlight _ => simp only [hs]
    | «open» open_ =>
      simp only [hs]
      split
      · by_cases hc : c = cid
        · subst hc
          have : ({ tracked := orders.tracked.remove c,
                    retired := orders.retired.insert c } : Orders _ _).get? c = none :=
            IndexMap.get?_remove_self
          simp [awaitsAck, this, hget, hs, ActiveOrderState.isOpenInFlight]
        · exact awaitsAck_congr (IndexMap.get?_remove_of_ne hc)
      · rfl

end Orders

namespace InstrumentState

variable {Data ExchangeKey AssetKey InstrumentKey : Type}

/-! ## What the buffer is for -/

/-- A buffered fill can still be released. -/
def Releasable (s : InstrumentState Data ExchangeKey AssetKey InstrumentKey) : Prop :=
  s.pendingFills = [] ∨ s.hasOpenInFlight = true

instance (s : InstrumentState Data ExchangeKey AssetKey InstrumentKey) :
    Decidable s.Releasable := by unfold Releasable; exact inferInstance

/-- Some order besides `cid` awaits its ack. -/
def othersAwaitAck (s : InstrumentState Data ExchangeKey AssetKey InstrumentKey)
    (cid : ClientOrderId) : Bool :=
  s.orders.tracked.keys.any fun other => other ≠ cid && s.orders.awaitsAck other

/-- The venue order id a report of a working or ended order carries. -/
def venueId? {ExchangeKey InstrumentKey : Type}
    (order : Order ExchangeKey InstrumentKey OrderState) : Option OrderId :=
  match order.state with
  | .active (.open open_) => open_.id.assigned?
  | .active _ => none
  | .inactive (.fullyFilled filled) => some filled.id
  | .inactive (.cancelled cancelled) => some cancelled.id
  | .inactive (.expired expired) => some expired.id
  | .inactive (.openFailed _) => none

theorem hasOpenInFlight_iff {s : InstrumentState Data ExchangeKey AssetKey InstrumentKey} :
    s.hasOpenInFlight = true ↔ ∃ cid, s.orders.awaitsAck cid = true := by
  unfold hasOpenInFlight Orders.awaitsAck
  simp only [List.any_eq_true, Option.any_eq_true]
  constructor
  · rintro ⟨order, hmem, hflight⟩
    obtain ⟨cid, hget⟩ := IndexMap.mem_values_iff.1 hmem
    exact ⟨cid, order, hget, hflight⟩
  · rintro ⟨cid, order, hget, hflight⟩
    exact ⟨order, IndexMap.mem_values_iff.2 ⟨cid, hget⟩, hflight⟩

theorem othersAwaitAck_iff {s : InstrumentState Data ExchangeKey AssetKey InstrumentKey}
    {cid : ClientOrderId} :
    s.othersAwaitAck cid = true ↔ ∃ other, other ≠ cid ∧ s.orders.awaitsAck other = true := by
  unfold othersAwaitAck
  simp only [List.any_eq_true, Bool.and_eq_true, decide_eq_true_eq]
  constructor
  · rintro ⟨other, -, hne, hflight⟩; exact ⟨other, hne, hflight⟩
  · rintro ⟨other, hne, hflight⟩
    refine ⟨other, ?_, hne, hflight⟩
    obtain ⟨order, hget, -⟩ := (Option.any_eq_true _ _).1 hflight
    exact IndexMap.mem_keys_iff.2 ⟨order, hget⟩

theorem Releasable.congr {s s' : InstrumentState Data ExchangeKey AssetKey InstrumentKey}
    (hpending : s'.pendingFills = s.pendingFills)
    (hawaits : ∀ cid, s.orders.awaitsAck cid = true → s'.orders.awaitsAck cid = true)
    (h : s.Releasable) : s'.Releasable := by
  rcases h with h | h
  · exact Or.inl (hpending.trans h)
  · obtain ⟨cid, hcid⟩ := hasOpenInFlight_iff.1 h
    exact Or.inr (hasOpenInFlight_iff.2 ⟨cid, hawaits cid hcid⟩)

/-! ## A fill strands no other -/

section Replay

variable {hash : HashOrder} {s : InstrumentState Data ExchangeKey AssetKey InstrumentKey}
  {trade : Trade AssetKey InstrumentKey} {positionId : PositionId}
  {reduceOnlyFills : List (TradeId × ReduceOnly)}

theorem pendingFills_advanceOrder :
    (s.advanceOrder hash trade).pendingFills = s.pendingFills :=
  advanceOrder_cases (P := fun s' => s'.pendingFills = s.pendingFills) rfl
    (fun _ _ _ _ => rfl) fun _ _ _ _ => rfl

theorem awaitsAck_advanceOrder {c : ClientOrderId} :
    (s.advanceOrder hash trade).orders.awaitsAck c = s.orders.awaitsAck c :=
  advanceOrder_cases (P := fun s' => s'.orders.awaitsAck c = s.orders.awaitsAck c) rfl
    (fun _ _ _ _ => Orders.awaitsAck_updateFromFill)
    fun _ _ _ _ => Orders.awaitsAck_updateFromFill

theorem PlacedAt.leaves {orderId : OrderId}
    {result : InstrumentState Data ExchangeKey AssetKey InstrumentKey ×
      FillsApplied AssetKey InstrumentKey} (h : PlacedAt hash positionId orderId s result) :
    result.1.pendingFills = s.pendingFills ∧
      ∀ c, result.1.orders.awaitsAck c = s.orders.awaitsAck c := by
  obtain ⟨booked, trade, hbooked, -, heq, -⟩ := h
  rw [heq, pendingFills_advanceOrder]
  refine ⟨?_, fun c => ?_⟩
  · split
    · exact hbooked.pendingFills
    · exact hbooked.pendingFills
  · rw [awaitsAck_advanceOrder]
    split
    · exact congrArg (fun orders => orders.awaitsAck c) hbooked.orders
    · exact congrArg (fun orders => orders.awaitsAck c) hbooked.orders

variable [DecimalRange] [DecidableEq AssetKey] [DecidableEq InstrumentKey]

omit [DecimalRange] [DecidableEq AssetKey] [DecidableEq InstrumentKey] in
theorem hasOpenInFlight_of_queued (h : s.destination hash trade = .queued) :
    s.hasOpenInFlight = true := by
  unfold destination at h
  split at h
  · exact absurd h (by simp)
  · split at h
    · exact absurd h (by simp)
    · split at h
      · exact absurd h (by simp)
      · exact absurd h (by simp)
      · split at h
        · exact absurd h (by simp)
        · split at h
          · rename_i hflight; simp only [Bool.and_eq_true] at hflight; exact hflight.2
          · unfold unroutedDestination at h
            split at h
            · exact absurd h (by simp)
            · split at h <;> exact absurd h (by simp)

/-- A fill leaves every order that awaits its ack awaiting it. -/
theorem awaitsAck_replayTrade {c : ClientOrderId} :
    (s.replayTrade hash trade reduceOnlyFills).1.orders.awaitsAck c = s.orders.awaitsAck c := by
  cases hd : (s.destination hash trade).positionId? with
  | some positionId => exact (placedAt_replayTrade _ hd).leaves.2 c
  | none =>
    cases hdest : s.destination hash trade with
    | queued =>
      obtain ⟨noted, hnoted, heq⟩ := replayTrade_queued reduceOnlyFills hdest
      rw [heq]
      exact congrArg (fun orders => orders.awaitsAck c) (hnoted .netting).orders
    | unallocated =>
      exact congrArg (fun orders => orders.awaitsAck c)
        ((replayTrade_unallocated reduceOnlyFills hdest).1 .netting).orders
    | _ => rw [hdest] at hd; exact absurd hd (by simp [Destination.positionId?])

theorem releasable_replayTrade (h : s.Releasable) :
    (s.replayTrade hash trade reduceOnlyFills).1.Releasable := by
  cases hdest : s.destination hash trade with
  | queued =>
    obtain ⟨cid, hcid⟩ := hasOpenInFlight_iff.1 (hasOpenInFlight_of_queued hdest)
    exact Or.inr (hasOpenInFlight_iff.2 ⟨cid, by rwa [awaitsAck_replayTrade]⟩)
  | unallocated =>
    have hbooks := (replayTrade_unallocated reduceOnlyFills hdest).1 .netting
    exact h.congr hbooks.pendingFills fun cid hcid => by rwa [awaitsAck_replayTrade]
  | slot q | fallback q | unmatched q | settles q held =>
    have hplaced : PlacedAt hash q trade.orderId s (s.replayTrade hash trade reduceOnlyFills) :=
      placedAt_replayTrade _ (by rw [hdest]; rfl)
    exact h.congr hplaced.leaves.1 fun cid hcid => by rwa [awaitsAck_replayTrade]

theorem awaitsAck_replayTrades {c : ClientOrderId} {applied : FillsApplied AssetKey InstrumentKey}
    {fills : List (Trade AssetKey InstrumentKey)} :
    (replayTrades hash reduceOnlyFills s applied fills).1.orders.awaitsAck c =
      s.orders.awaitsAck c := by
  induction fills generalizing s applied with
  | nil => rfl
  | cons fill fills ih => exact ih.trans awaitsAck_replayTrade

theorem releasable_replayTrades {applied : FillsApplied AssetKey InstrumentKey}
    {fills : List (Trade AssetKey InstrumentKey)} (h : s.Releasable) :
    (replayTrades hash reduceOnlyFills s applied fills).1.Releasable := by
  induction fills generalizing s applied with
  | nil => exact h
  | cons fill fills ih => exact ih (releasable_replayTrade h)

end Replay

/-! ## The steps that strand none -/

/-- The report leaves an order awaiting its ack where it is. -/
def keepsInFlight {ExchangeKey InstrumentKey : Type}
    (order : Order ExchangeKey InstrumentKey OrderState) : Bool :=
  order.state.isOutcomeUnknown ||
    match order.state with
    | .active (.openInFlight _) => true
    | _ => false

variable [InstrumentDataState Data ExchangeKey AssetKey InstrumentKey]

/-- Where the last order awaiting its ack leaves flight with fills buffered, it leaves by a report
    of the one venue order id all of them carry. -/
def KeepsReleasable (s : InstrumentState Data ExchangeKey AssetKey InstrumentKey) :
    Op Data ExchangeKey AssetKey InstrumentKey → Prop
  | .recordInFlightCancel request _ =>
      s.pendingFills = [] ∨ s.orders.awaitsAck request.key.cid = false ∨
        s.othersAwaitAck request.key.cid = true
  | .updateFromOrderSnapshot _ order =>
      s.pendingFills = [] ∨ s.orders.awaitsAck order.key.cid = false ∨
        s.othersAwaitAck order.key.cid = true ∨ keepsInFlight order = true ∨
        ∃ exchangeId, reportedId order = some exchangeId ∧
          ∀ fill ∈ s.pendingFills, fill.orderId = exchangeId
  | _ => True

section Step

variable {hash : HashOrder} {s : InstrumentState Data ExchangeKey AssetKey InstrumentKey}
  [DecimalRange] [DecidableEq AssetKey] [DecidableEq InstrumentKey]

omit [InstrumentDataState Data ExchangeKey AssetKey InstrumentKey] [DecimalRange]
  [DecidableEq AssetKey] [DecidableEq InstrumentKey] in
/-- A call about one order leaves every other awaiting its ack. -/
theorem others_still_await {orders' : Orders ExchangeKey InstrumentKey}
    {op : Orders.Op ExchangeKey InstrumentKey} (hc : Orders.Change s.orders op orders')
    {cid : ClientOrderId} (hs : op.subject = some cid)
    (h : s.orders.awaitsAck cid = false ∧ s.hasOpenInFlight = true ∨
      s.othersAwaitAck cid = true) : ∃ other, orders'.awaitsAck other = true := by
  have hother : ∃ other, other ≠ cid ∧ s.orders.awaitsAck other = true := by
    rcases h with ⟨hnot, hflight⟩ | h
    · obtain ⟨other, hother⟩ := hasOpenInFlight_iff.1 hflight
      refine ⟨other, ?_, hother⟩
      rintro rfl
      exact absurd (hnot.symm.trans hother) (by simp)
    · exact othersAwaitAck_iff.1 h
  obtain ⟨other, hne, hother⟩ := hother
  exact ⟨other, by rw [Orders.awaitsAck_congr (hc.get?_of_ne hs hne), hother]⟩

omit [InstrumentDataState Data ExchangeKey AssetKey InstrumentKey] [DecimalRange]
  [DecidableEq AssetKey] [DecidableEq InstrumentKey] in
theorem updateFromOrderSnapshot_of_keepsInFlight
    {order : Order ExchangeKey InstrumentKey OrderState}
    (hflight : s.orders.awaitsAck order.key.cid = true) (h : keepsInFlight order = true) :
    s.orders.updateFromOrderSnapshot order = s.orders := by
  obtain ⟨current, hget, hcur⟩ := (Option.any_eq_true _ _).1 hflight
  unfold Orders.updateFromOrderSnapshot
  split
  · rfl
  · rename_i hignore
    cases hcs : current.state with
    | «open» _ => rw [hcs] at hcur; exact absurd hcur (by simp [ActiveOrderState.isOpenInFlight])
    | cancelInFlight _ =>
      rw [hcs] at hcur; exact absurd hcur (by simp [ActiveOrderState.isOpenInFlight])
    | openInFlight sent =>
      cases hs : order.state with
      | inactive state =>
        have hunknown : order.state.isOutcomeUnknown = true := by
          simpa [keepsInFlight, hs] using h
        exact absurd (by simp [Orders.isFailedOpenToIgnore, hunknown]) hignore
      | active state =>
        cases state with
        | openInFlight _ => simp [hget, Order.toActive, hs, Orders.updateTracked, hcs]
        | «open» _ => simp [keepsInFlight, hs, OrderState.isOutcomeUnknown] at h
        | cancelInFlight _ => simp [keepsInFlight, hs, OrderState.isOutcomeUnknown] at h

omit [InstrumentDataState Data ExchangeKey AssetKey InstrumentKey] [DecimalRange]
  [DecidableEq AssetKey] [DecidableEq InstrumentKey] in
/-- A report of the id every buffered fill carries is an ack if it finds its order in flight. -/
theorem ackExchangeId_of_awaitsAck {order : Order ExchangeKey InstrumentKey OrderState}
    (h : s.orders.awaitsAck order.key.cid = true) : s.ackExchangeId order = reportedId order := by
  obtain ⟨current, hget, hcur⟩ := (Option.any_eq_true _ _).1 h
  unfold ackExchangeId
  rw [hget]
  cases hs : current.state with
  | openInFlight _ => simp only [hs]
  | «open» _ => rw [hs] at hcur; exact absurd hcur (by simp [ActiveOrderState.isOpenInFlight])
  | cancelInFlight _ =>
    rw [hs] at hcur; exact absurd hcur (by simp [ActiveOrderState.isOpenInFlight])

/-- The state a report leaves before any fill is released. -/
def updated (hash : HashOrder) (s : InstrumentState Data ExchangeKey AssetKey InstrumentKey)
    (order : Order ExchangeKey InstrumentKey OrderState) :
    InstrumentState Data ExchangeKey AssetKey InstrumentKey :=
  { s.noteOpenRejected order with
    orders := (s.noteOpenRejected order).orders.updateFromOrderSnapshot order }.cleanupRoutingTables
      hash

omit [InstrumentDataState Data ExchangeKey AssetKey InstrumentKey] [DecimalRange]
  [DecidableEq AssetKey] [DecidableEq InstrumentKey] in
@[simp] theorem orders_updated (hash : HashOrder) {order : Order ExchangeKey InstrumentKey OrderState} :
    (s.updated hash order).orders = s.orders.updateFromOrderSnapshot order :=
  congrArg (fun orders => Orders.updateFromOrderSnapshot orders order)
    (booksAt_noteOpenRejected .netting).orders

omit [InstrumentDataState Data ExchangeKey AssetKey InstrumentKey] [DecimalRange]
  [DecidableEq AssetKey] [DecidableEq InstrumentKey] in
@[simp] theorem pendingFills_updated (hash : HashOrder)
    {order : Order ExchangeKey InstrumentKey OrderState} :
    (s.updated hash order).pendingFills = s.pendingFills :=
  (booksAt_noteOpenRejected .netting).pendingFills

/-- The state the fills waiting for `exchangeId` are released into: the id indexed, the order's
    position restored, and those fills out of the buffer. -/
def releasing (hash : HashOrder) (s : InstrumentState Data ExchangeKey AssetKey InstrumentKey)
    (order : Order ExchangeKey InstrumentKey OrderState) (exchangeId : OrderId) :
    InstrumentState Data ExchangeKey AssetKey InstrumentKey :=
  { (s.updated hash order).settleRouting order.key.cid exchangeId
      (s.positionIds.get? order.key.cid) with
    pendingFills := s.pendingFills.filter fun fill => fill.orderId ≠ exchangeId }

omit [InstrumentDataState Data ExchangeKey AssetKey InstrumentKey] in
theorem updateFromOrderSnapshot_of_no_ack {order : Order ExchangeKey InstrumentKey OrderState}
    (h : s.ackExchangeId order = none) :
    (s.updateFromOrderSnapshot hash order).1 = s.updated hash order := by
  unfold updateFromOrderSnapshot replayOrderSnapshot
  simp only [h]
  rfl

omit [InstrumentDataState Data ExchangeKey AssetKey InstrumentKey] in
theorem updateFromOrderSnapshot_of_ack {order : Order ExchangeKey InstrumentKey OrderState}
    {exchangeId : OrderId} (h : s.ackExchangeId order = some exchangeId)
    (hpending : s.pendingFills = []) :
    (s.updateFromOrderSnapshot hash order).1 =
      (s.updated hash order).settleRouting order.key.cid exchangeId
        (s.positionIds.get? order.key.cid) := by
  have hnone : ((s.updated hash order).settleRouting order.key.cid exchangeId
      (s.positionIds.get? order.key.cid)).pendingFills = [] :=
    (pendingFills_updated hash).trans hpending
  unfold updateFromOrderSnapshot replayOrderSnapshot
  simp only [h]
  change (releaseFills hash ((s.updated hash order).settleRouting _ _ _) exchangeId []).1 = _
  rw [releaseFills, hnone]
  rfl

variable (hash) in
omit [InstrumentDataState Data ExchangeKey AssetKey InstrumentKey] in
theorem updateFromOrderSnapshot_releases {order : Order ExchangeKey InstrumentKey OrderState}
    {exchangeId : OrderId} (h : s.ackExchangeId order = some exchangeId)
    (hpending : s.pendingFills ≠ []) :
    (s.updateFromOrderSnapshot hash order).1 =
      (replayTrades hash [] (s.releasing hash order exchangeId) .none
        (s.pendingFills.filter fun fill => fill.orderId = exchangeId)).1.cleanupRoutingTables
          hash := by
  have heq : ((s.updated hash order).settleRouting order.key.cid exchangeId
      (s.positionIds.get? order.key.cid)).pendingFills = s.pendingFills := pendingFills_updated hash
  unfold updateFromOrderSnapshot replayOrderSnapshot
  simp only [h]
  change (releaseFills hash ((s.updated hash order).settleRouting _ _ _) exchangeId []).1 = _
  rw [releaseFills, heq, if_neg (by simpa using hpending)]
  rfl

omit [InstrumentDataState Data ExchangeKey AssetKey InstrumentKey] in
/-- While some order still awaits its ack after a report, nothing is stranded by it. -/
theorem releasable_updateFromOrderSnapshot_of_awaitsAck
    {order : Order ExchangeKey InstrumentKey OrderState} (other : ClientOrderId)
    (h : (s.orders.updateFromOrderSnapshot order).awaitsAck other = true) :
    (s.updateFromOrderSnapshot hash order).1.Releasable := by
  refine Or.inr (hasOpenInFlight_iff.2 ⟨other, ?_⟩)
  rw [← orders_updated hash] at h
  cases hack : s.ackExchangeId order with
  | none => rwa [updateFromOrderSnapshot_of_no_ack hack]
  | some exchangeId =>
    by_cases hpending : s.pendingFills = []
    · rw [updateFromOrderSnapshot_of_ack hack hpending]; exact h
    · rw [updateFromOrderSnapshot_releases _ hack hpending, orders_cleanupRoutingTables,
        awaitsAck_replayTrades]
      exact h

omit [InstrumentDataState Data ExchangeKey AssetKey InstrumentKey] in
/-- If no fill was buffered, none is. -/
theorem releasable_updateFromOrderSnapshot_of_pendingFills
    {order : Order ExchangeKey InstrumentKey OrderState} (h : s.pendingFills = []) :
    (s.updateFromOrderSnapshot hash order).1.Releasable := by
  refine Or.inl ?_
  cases hack : s.ackExchangeId order with
  | none => rw [updateFromOrderSnapshot_of_no_ack hack, pendingFills_updated, h]
  | some exchangeId =>
    rw [updateFromOrderSnapshot_of_ack hack h]
    exact (pendingFills_updated hash).trans h

theorem releasable_updateFromOrderSnapshot {order : Order ExchangeKey InstrumentKey OrderState}
    (h : s.Releasable) (hok : KeepsReleasable s (.updateFromOrderSnapshot hash order)) :
    (s.updateFromOrderSnapshot hash order).1.Releasable := by
  by_cases hpending : s.pendingFills = []
  · exact releasable_updateFromOrderSnapshot_of_pendingFills hpending
  · have hflight : s.hasOpenInFlight = true := h.resolve_left hpending
    have hchange : Orders.Change s.orders (.updateFromOrderSnapshot order)
        (s.orders.updateFromOrderSnapshot order) := Orders.updateFromOrderSnapshot_change
    by_cases hothers : s.orders.awaitsAck order.key.cid = false ∨
        s.othersAwaitAck order.key.cid = true
    · obtain ⟨other, hother⟩ := others_still_await hchange rfl
        (hothers.imp_left fun hnot => ⟨hnot, hflight⟩)
      exact releasable_updateFromOrderSnapshot_of_awaitsAck other hother
    · obtain ⟨hawaits, hnone⟩ := not_or.1 hothers
      have hawaits : s.orders.awaitsAck order.key.cid = true := by simpa using hawaits
      rcases hok with hok | hok | hok | hok | ⟨exchangeId, hreported, hall⟩
      · exact absurd hok hpending
      · exact absurd (hok.symm.trans hawaits) (by simp)
      · exact absurd hok hnone
      · exact releasable_updateFromOrderSnapshot_of_awaitsAck order.key.cid
          (by rw [updateFromOrderSnapshot_of_keepsInFlight hawaits hok]; exact hawaits)
      · -- The whole buffer is released, and nothing is left in it to wait for.
        have hack : s.ackExchangeId order = some exchangeId :=
          (ackExchangeId_of_awaitsAck hawaits).trans hreported
        rw [updateFromOrderSnapshot_releases _ hack hpending]
        have hempty : (s.releasing hash order exchangeId).pendingFills = [] := by
          refine List.filter_eq_nil_iff.2 fun fill hmem => ?_
          simp [hall fill hmem]
        exact (releasable_replayTrades (Or.inl hempty)).congr rfl fun _ h => h

/-- **A step that strands no fill keeps every buffered fill releasable.** -/
theorem releasable_step (h : s.Releasable) {op : Op Data ExchangeKey AssetKey InstrumentKey}
    (hok : KeepsReleasable s op) : (s.step op).Releasable := by
  cases op with
  | recordInFlightOpen request timeSent =>
    change (s.recordInFlightOpen request timeSent).Releasable
    unfold recordInFlightOpen
    split
    · exact h
    · rename_i huntracked
      refine Releasable.congr (s := s) rfl (fun cid hcid => ?_) h
      have hchange : Orders.Change s.orders (.recordInFlightOpen request timeSent)
          (s.orders.recordInFlightOpen request timeSent) := Orders.recordInFlightOpen_change
      by_cases hc : cid = request.key.cid
      · subst hc
        obtain ⟨order, hget, -⟩ := (Option.any_eq_true _ _).1 hcid
        exact absurd (IndexMap.contains_iff.2 ⟨order, hget⟩) huntracked
      · exact (Orders.awaitsAck_congr (hchange.get?_of_ne rfl hc)).trans hcid
  | recordInFlightCancel request timeSent =>
    rcases h with h | h
    · exact Or.inl h
    · have hchange : Orders.Change s.orders (.recordInFlightCancel request timeSent)
          (s.orders.recordInFlightCancel request timeSent) := Orders.recordInFlightCancel_change
      refine hok.imp id fun hok => hasOpenInFlight_iff.2 ?_
      exact others_still_await hchange rfl (hok.imp_left fun hnot => ⟨hnot, h⟩)
  | updateFromOrderSnapshot hash order => exact releasable_updateFromOrderSnapshot h hok
  | updateFromCancelResponse hash response =>
    change (drainPendingFills _).Releasable
    unfold drainPendingFills
    split
    · rename_i hflight; exact Or.inr hflight
    · exact Or.inl rfl
  | updateFromTrade hash trade => exact releasable_replayTrade h
  | beginAccountResync => exact Releasable.congr (s := s) rfl (fun _ h => h) h
  | retireUnlisted hash listed ordersComplete =>
    refine Releasable.congr (s := s) rfl (fun cid hcid => ?_) h
    change Orders.awaitsAck (if ordersComplete then _ else s.orders) cid = true
    split
    · generalize (hash.arrange s.ordersOpenAtResync.entries).filter _ = unlisted
      have hall : ∀ (l : List (ClientOrderId × VenueOrderId))
          (orders : Orders ExchangeKey InstrumentKey), orders.awaitsAck cid = true →
          (l.foldl (fun orders open_ => (orders.removeOpen open_.1 open_.2).1) orders).awaitsAck
            cid = true := by
        intro l
        induction l with
        | nil => exact fun _ h => h
        | cons open_ l ih =>
          intro orders h
          exact ih _ (by rw [Orders.awaitsAck_removeOpen]; exact h)
      exact hall unlisted s.orders hcid
    · exact hcid
  | updateFromCashFlow flow =>
    change (s.updateFromCashFlow flow).1.Releasable
    unfold updateFromCashFlow
    split
    · exact h
    · split
      · exact h
      · split
        · exact h
        · exact Releasable.congr (s := s) rfl (fun _ h => h) h
      · exact h
  | updateFromMarket event =>
    change (s.updateFromMarket event).Releasable
    unfold updateFromMarket
    simp only
    split
    · exact Releasable.congr (s := s) rfl (fun _ h => h) h
    · exact Releasable.congr (s := s) rfl (fun _ h => h) h

end Step

end InstrumentState

end Rustrade
