import Rustrade.InstrumentState.Release

/-!
# No fill is stranded

What a run has told of its orders is kept beside the state: the position each was last sent with,
and the venue order ids the venue has reported for it since. `StrandsNone` is the guard of a step
that neither leaves a fill in the buffer with nothing to release it nor takes one to another slot
than its order's; a run of such steps strands no fill.
-/

set_option autoImplicit false

namespace Rustrade

namespace InstrumentState

variable {Data ExchangeKey AssetKey InstrumentKey : Type}

/-! ## What the run has told -/

/-- The position each order was last sent with, and the venue order ids reported of it since. -/
structure History where
  sent : ClientOrderId → Option PositionId
  reported : List (ClientOrderId × OrderId)

namespace History

/-- Nothing sent, and nothing reported. -/
def start : History := ⟨fun _ => none, []⟩

/-- The venue has reported an order under `orderId` that was sent with a position. -/
def accountsFor (self : History) (orderId : OrderId) : Bool :=
  self.reported.any fun e => e.2 = orderId && (self.sent e.1).isSome

variable [InstrumentDataState Data ExchangeKey AssetKey InstrumentKey]

/-- What a call adds: a request that starts an order forgets what was told of an earlier one. -/
def note (self : History) (s : InstrumentState Data ExchangeKey AssetKey InstrumentKey) :
    Op Data ExchangeKey AssetKey InstrumentKey → History
  | .recordInFlightOpen request _ =>
      if s.orders.tracked.contains request.key.cid then self
      else
        { sent := Function.update self.sent request.key.cid request.state.positionId
          reported := self.reported.filter fun e => e.1 ≠ request.key.cid }
  | .updateFromOrderSnapshot _ order =>
      match venueId? order with
      | some orderId => { self with reported := (order.key.cid, orderId) :: self.reported }
      | none => self
  | _ => self

theorem accountsFor_iff {self : History} {orderId : OrderId} :
    self.accountsFor orderId = true ↔
      ∃ cid positionId, (cid, orderId) ∈ self.reported ∧ self.sent cid = some positionId := by
  simp only [accountsFor, List.any_eq_true, Bool.and_eq_true, decide_eq_true_eq, Prod.exists,
    Option.isSome_iff_exists]
  constructor
  · rintro ⟨cid, id, hmem, rfl, positionId, hsent⟩
    exact ⟨cid, positionId, hmem, hsent⟩
  · rintro ⟨cid, positionId, hmem, hsent⟩
    exact ⟨cid, orderId, hmem, rfl, positionId, hsent⟩

end History

section Step

variable [InstrumentDataState Data ExchangeKey AssetKey InstrumentKey] [DecimalRange]
  [DecidableEq AssetKey] [DecidableEq InstrumentKey]

/-- One call, with what the run has told. -/
def tracedStep (t : InstrumentState Data ExchangeKey AssetKey InstrumentKey × History)
    (op : Op Data ExchangeKey AssetKey InstrumentKey) :
    InstrumentState Data ExchangeKey AssetKey InstrumentKey × History :=
  (t.1.step op, t.2.note t.1 op)

/-! ## What is promised of a call -/

/-- A report of the id that buffered fills carry, for an order sent with a position, takes every
    one of them to that position and leaves none in the buffer. -/
def ReleasesFills (t : InstrumentState Data ExchangeKey AssetKey InstrumentKey × History) :
    Op Data ExchangeKey AssetKey InstrumentKey → Prop
  | .updateFromOrderSnapshot hash order => ∀ orderId positionId, venueId? order = some orderId →
      t.2.sent order.key.cid = some positionId →
      (∃ fill ∈ t.1.pendingFills, fill.orderId = orderId) →
      let fills := t.1.pendingFills.filter fun fill => fill.orderId = orderId
      let after := (t.1.updateFromOrderSnapshot hash order).1
      after = (replayTrades hash [] (t.1.releasing hash order orderId) .none
        fills).1.cleanupRoutingTables hash ∧
      FillsReach hash positionId (t.1.releasing hash order orderId) fills ∧
      ∀ fill ∈ after.pendingFills, fill.orderId ≠ orderId
  | _ => True

/-- **What is promised of every call**: a buffered fill can still be released, the report of its
    order releases it to the order's position, and no fill is left in the buffer whose order has
    been reported. -/
def PromiseKept (t : InstrumentState Data ExchangeKey AssetKey InstrumentKey × History)
    (op : Op Data ExchangeKey AssetKey InstrumentKey) : Prop :=
  (t.1.step op).Releasable ∧ ReleasesFills t op ∧
    ∀ fill ∈ (t.1.step op).pendingFills, (t.2.note t.1 op).accountsFor fill.orderId = false

/-! ## The guard -/

/-- The tables, a tracked order or the memory of ended orders know the venue order id. -/
def knows (hash : HashOrder) (s : InstrumentState Data ExchangeKey AssetKey InstrumentKey)
    (orderId : OrderId) : Bool :=
  (s.indexedPositionId orderId).isSome || (s.matchedOrder hash orderId).isSome ||
    (s.retiredRouting.get? orderId).isSome

/-- A report of an id that buffered fills carry finds its order awaiting its ack, or ends an open
    one; the order still has the position it was sent with; and the routing of those fills lasts.
    A fill whose order has been reported arrives while the routing knows it, or while no order
    awaits its ack. -/
def ReleasesInTime (t : InstrumentState Data ExchangeKey AssetKey InstrumentKey × History) :
    Op Data ExchangeKey AssetKey InstrumentKey → Prop
  | .updateFromOrderSnapshot hash order => ∀ orderId positionId, venueId? order = some orderId →
      t.2.sent order.key.cid = some positionId →
      (∃ fill ∈ t.1.pendingFills, fill.orderId = orderId) →
      t.1.ackExchangeId order = some orderId ∧
      t.1.positionIds.get? order.key.cid = some positionId ∧
      RoutingLasts hash t.1 order orderId positionId
  | .updateFromTrade hash trade =>
      t.2.accountsFor trade.orderId = false ∨ t.1.knows hash trade.orderId = true ∨
        t.1.hasOpenInFlight = false
  | _ => True

/-- A call that strands no fill. -/
def StrandsNone (t : InstrumentState Data ExchangeKey AssetKey InstrumentKey × History)
    (op : Op Data ExchangeKey AssetKey InstrumentKey) : Prop :=
  KeepsReleasable t.1 op ∧ ReleasesInTime t op

variable {hash : HashOrder} {s : InstrumentState Data ExchangeKey AssetKey InstrumentKey}

omit [InstrumentDataState Data ExchangeKey AssetKey InstrumentKey] [DecimalRange]
  [DecidableEq AssetKey] [DecidableEq InstrumentKey] in
/-- Only a fill the routing does not know waits. -/
theorem knows_eq_false_of_queued {trade : Trade AssetKey InstrumentKey}
    (h : s.destination hash trade = .queued) : s.knows hash trade.orderId = false := by
  unfold destination at h
  unfold knows
  split at h
  · exact absurd h (by simp)
  · split at h
    · exact absurd h (by simp)
    · rename_i hindex
      split at h
      · exact absurd h (by simp)
      · exact absurd h (by simp)
      · rename_i hmatched
        split at h
        · exact absurd h (by simp)
        · rename_i hretired
          simp [hindex, hmatched, hretired]

/-- A call other than a fill buffers nothing. -/
theorem mem_pendingFills_step {op : Op Data ExchangeKey AssetKey InstrumentKey}
    {fill : Trade AssetKey InstrumentKey} (h : fill ∈ (s.step op).pendingFills) :
    fill ∈ s.pendingFills ∨
      ∃ hash, op = .updateFromTrade hash fill ∧ s.destination hash fill = .queued := by
  cases op with
  | recordInFlightOpen request timeSent =>
    change fill ∈ (s.recordInFlightOpen request timeSent).pendingFills at h
    unfold recordInFlightOpen at h
    split at h <;> exact Or.inl h
  | recordInFlightCancel request timeSent => exact Or.inl h
  | updateFromOrderSnapshot hash order =>
    exact Or.inl (mem_pendingFills_updateFromOrderSnapshot h)
  | updateFromCancelResponse hash response =>
    change fill ∈ (drainPendingFills _).pendingFills at h
    unfold drainPendingFills at h
    split at h
    · exact Or.inl h
    · exact absurd h (by simp)
  | updateFromTrade hash trade =>
    change fill ∈ (s.replayTrade hash trade []).1.pendingFills at h
    rw [pendingFills_replayTrade] at h
    split at h
    · rename_i hqueued
      rcases List.mem_append.1 h with h | h
      · exact Or.inl h
      · cases List.mem_singleton.1 h
        exact Or.inr ⟨hash, rfl, hqueued⟩
    · exact Or.inl h
  | beginAccountResync => exact Or.inl h
  | retireUnlisted hash listed ordersComplete => exact Or.inl h
  | updateFromCashFlow flow =>
    change fill ∈ (s.updateFromCashFlow flow).1.pendingFills at h
    unfold updateFromCashFlow at h
    split at h
    · exact Or.inl h
    · split at h
      · exact Or.inl h
      · split at h <;> exact Or.inl h
      · exact Or.inl h
  | updateFromMarket event =>
    change fill ∈ (s.updateFromMarket event).pendingFills at h
    unfold updateFromMarket at h
    simp only at h
    split at h <;> exact Or.inl h

variable {t : InstrumentState Data ExchangeKey AssetKey InstrumentKey × History}
  {op : Op Data ExchangeKey AssetKey InstrumentKey}

theorem releasesFills_of_inTime (hmode : t.1.position.mode = .hedging)
    (hok : ReleasesInTime t op) : ReleasesFills t op := by
  cases op with
  | updateFromOrderSnapshot hash order =>
    intro orderId positionId hreports hsent hwaiting
    obtain ⟨hack, hrouted, hlasts⟩ := hok orderId positionId hreports hsent hwaiting
    have hpending : t.1.pendingFills ≠ [] := by
      obtain ⟨fill, hmem, -⟩ := hwaiting
      exact List.ne_nil_of_mem hmem
    have hreach := fillsReach_releasing hmode hrouted hlasts
    have hafter := updateFromOrderSnapshot_releases hash hack hpending
    refine ⟨hafter, hreach, fun fill hmem => ?_⟩
    rw [hafter, pendingFills_cleanupRoutingTables, pendingFills_of_fillsReach hreach] at hmem
    simpa using (List.mem_filter.1 hmem).2
  | _ => trivial

omit [DecimalRange] [DecidableEq AssetKey] [DecidableEq InstrumentKey] in
/-- What a call newly accounts for is what it reports. -/
theorem accountsFor_note {orderId : OrderId}
    (h : (t.2.note t.1 op).accountsFor orderId = true) :
    t.2.accountsFor orderId = true ∨ ∃ hash order positionId,
      op = .updateFromOrderSnapshot hash order ∧ venueId? order = some orderId ∧
      t.2.sent order.key.cid = some positionId := by
  cases op with
  | recordInFlightOpen request timeSent =>
    unfold History.note at h
    simp only at h
    split at h
    · exact Or.inl h
    · obtain ⟨cid, positionId, hmem, hsent⟩ := History.accountsFor_iff.1 h
      obtain ⟨hmem, hne⟩ := List.mem_filter.1 hmem
      have hne : cid ≠ request.key.cid := by simpa using hne
      simp only [Function.update_of_ne hne] at hsent
      exact Or.inl (History.accountsFor_iff.2 ⟨cid, positionId, hmem, hsent⟩)
  | updateFromOrderSnapshot hash order =>
    unfold History.note at h
    simp only at h
    split at h
    · rename_i id hid
      obtain ⟨cid, positionId, hmem, hsent⟩ := History.accountsFor_iff.1 h
      rcases List.mem_cons.1 hmem with heq | hmem
      · cases heq
        exact Or.inr ⟨hash, order, positionId, rfl, hid, hsent⟩
      · exact Or.inl (History.accountsFor_iff.2 ⟨cid, positionId, hmem, hsent⟩)
    · exact Or.inl h
  | _ => exact Or.inl h

/-- What a run of guarded calls keeps. -/
structure Accounted (t : InstrumentState Data ExchangeKey AssetKey InstrumentKey × History) :
    Prop where
  mode : t.1.position.mode = .hedging
  releasable : t.1.Releasable
  unreported : ∀ fill ∈ t.1.pendingFills, t.2.accountsFor fill.orderId = false

/-- A call that strands no fill keeps every promise. -/
theorem promiseKept_of_strandsNone (ht : Accounted t) (hok : StrandsNone t op) :
    PromiseKept t op := by
  have hreleases : ReleasesFills t op := releasesFills_of_inTime ht.mode hok.2
  refine ⟨releasable_step ht.releasable hok.1, hreleases, fun fill hmem => ?_⟩
  rw [← Bool.not_eq_true]
  intro haccounts
  rcases mem_pendingFills_step hmem with hwaiting | ⟨hash, rfl, hqueued⟩
  · rcases accountsFor_note haccounts with hbefore | ⟨hash, order, positionId, rfl, hid, hsent⟩
    · exact absurd (hbefore.symm.trans (ht.unreported fill hwaiting)) (by simp)
    · -- The report that accounts for the fill has released it.
      have hreleased := hreleases fill.orderId positionId hid hsent ⟨fill, hwaiting, rfl⟩
      exact hreleased.2.2 fill hmem rfl
  · have haccounts : t.2.accountsFor fill.orderId = true := haccounts
    rcases hok.2 with h | h | h
    · exact absurd (haccounts.symm.trans h) (by simp)
    · exact absurd ((knows_eq_false_of_queued hqueued).symm.trans h) (by simp)
    · exact absurd ((hasOpenInFlight_of_queued hqueued).symm.trans h) (by simp)

theorem accounted_step (ht : Accounted t) (hok : StrandsNone t op) :
    Accounted (tracedStep t op) where
  mode := (congrArg Frame.mode (frame_step op)).trans ht.mode
  releasable := (promiseKept_of_strandsNone ht hok).1
  unreported := (promiseKept_of_strandsNone ht hok).2.2

/-- **A run whose calls strand no fill keeps every promise at every call.** -/
theorem no_fill_stranded (hmode : s.position.mode = .hedging) (hpending : s.pendingFills = [])
    {ops : List (Op Data ExchangeKey AssetKey InstrumentKey)}
    (hok : Transition.Guarded tracedStep StrandsNone (s, .start) ops) :
    Transition.Guarded tracedStep PromiseKept (s, .start) ops := by
  rw [Transition.guarded_iff_prefix]
  rintro pre op post rfl
  have hpre := (Transition.guarded_append.1 hok).1
  have hop := (Transition.guarded_append.1 hok).2.1
  have hstart : Accounted (s, History.start) :=
    ⟨hmode, Or.inl hpending, by rw [hpending]; simp⟩
  exact promiseKept_of_strandsNone
    (hpre.invariant Accounted (fun _ _ hok ht => accounted_step ht hok) hstart) hop

end Step

/-! ## Stranding runs -/

section Runs

attribute [local instance] DecimalRange.exact

/-- The order is acknowledged in time, and its fill goes to its position. -/
theorem no_fill_stranded_acknowledged :
    Transition.Guarded tracedStep PromiseKept (Sample.fresh, .start)
      [Sample.sends, Sample.fill, Sample.reportsOpen] := by
  refine no_fill_stranded rfl rfl ⟨⟨trivial, trivial⟩, ⟨trivial, Or.inl (by decide +kernel)⟩,
    ⟨Or.inr (Or.inr (Or.inr (Or.inr ⟨⟨"v-1"⟩, by decide +kernel⟩))), ?_⟩, trivial⟩
  rintro orderId positionId hid hsent -
  have horder : orderId = ⟨"v-1"⟩ := (Option.some.inj hid).symm
  have hposition : positionId = ⟨"p-1"⟩ := (Option.some.inj hsent).symm
  subst horder hposition
  decide +kernel

/-- A cancel sent before the ack takes the last order out of flight, and its fill is left waiting
    for nothing. -/
theorem cancelled_before_ack_strands :
    ¬ Transition.Guarded tracedStep PromiseKept (Sample.fresh, .start)
      [Sample.sends, Sample.fill, Sample.sendsCancel] := by
  intro h
  have hreleasable : (Sample.fresh.run [Sample.sends, Sample.fill, Sample.sendsCancel]).Releasable :=
    h.2.2.1.1
  revert hreleasable
  decide +kernel

end Runs

end InstrumentState

end Rustrade
