import Rustrade.InstrumentState.ChainCall

/-!
# Late fills

From the report that names an order's venue id, a fill of that id finds the position the order was
sent with, however late it comes and whatever comes in between, as long as every call keeps the
order's chain and fewer orders end after it than the memories of ended orders have places:
`late_fill_reaches_position`.
-/

set_option autoImplicit false

namespace Rustrade

/-- Tables nothing has been written to. -/
def Tables.fresh {ExchangeKey InstrumentKey : Type} : Tables ExchangeKey InstrumentKey :=
  ⟨.hedging, .empty, .empty, .empty, .empty⟩

theorem Tables.consistent_fresh {ExchangeKey InstrumentKey : Type}
    {names : List (ClientOrderId × OrderId)} :
    (fresh : Tables ExchangeKey InstrumentKey).Consistent names where
  mode := rfl
  keyed := Orders.keyed_empty
  separated := Orders.separated_empty
  indexed id cid h := absurd h (by simp [fresh])
  carried id cid h := absurd h (by simp [fresh, Orders.carries, Orders.get?, Orders.empty])
  retired id positionId h := absurd h (by simp [fresh, BoundedMap.get?, BoundedMap.empty])

theorem Tables.Consistent.mono {ExchangeKey InstrumentKey : Type}
    {names names' : List (ClientOrderId × OrderId)} {t : Tables ExchangeKey InstrumentKey}
    (h : t.Consistent names) (hsub : names ⊆ names') : t.Consistent names' where
  mode := h.mode
  keyed := h.keyed
  separated := h.separated
  indexed id cid hindex := hsub (h.indexed id cid hindex)
  carried id cid hcarries := hsub (h.carried id cid hcarries)
  retired id positionId hretired := by
    obtain ⟨cid, hname⟩ := h.retired id positionId hretired
    exact ⟨cid, hsub hname⟩

namespace InstrumentState

variable {Data ExchangeKey AssetKey InstrumentKey : Type} {hash : HashOrder}
  {s : InstrumentState Data ExchangeKey AssetKey InstrumentKey}
  {names : List (ClientOrderId × OrderId)} {k : Chain} {N : Finset ClientOrderId}

/-! ## Where the chain leads -/

/-- **A fill of the chain's venue order id goes to its position**, while fewer orders have ended
    since than the memory has places. -/
theorem destination_of_holds {trade : Trade AssetKey InstrumentKey}
    (h : k.Holds names N s.tables) (hnames : UsedOnce names)
    (hchain : (k.cid, k.orderId) ∈ names)
    (hroute : s.orders.get? k.cid ≠ none →
      s.exchangeIdToCid.get? k.orderId = some k.cid ∨ s.orders.carries k.cid k.orderId = true)
    (hroom : s.orders.get? k.cid = none → (N.erase k.cid).card < maxRetiredRouting)
    (hfill : trade.orderId = k.orderId) : s.destination hash trade = .slot k.positionId := by
  have hmode : s.position.mode = .hedging := h.1.consistent.mode
  have howner : ∀ cid, s.exchangeIdToCid.get? k.orderId = some cid → cid = k.cid :=
    fun cid hindex => (hnames _ (h.1.consistent.indexed _ _ hindex) _ hchain).2 rfl
  have hcarrier : ∀ cid, s.orders.carries cid k.orderId = true → cid = k.cid :=
    fun cid hcarries => (hnames _ (h.1.consistent.carried _ _ hcarries) _ hchain).2 rfl
  -- Whatever the index answers, it answers the chain's position.
  cases hindexed : s.indexedPositionId trade.orderId with
  | some positionId =>
    obtain ⟨cid, hindex, hsent⟩ := Option.bind_eq_some_iff.1 hindexed
    rw [hfill] at hindex
    have hposition : positionId = k.positionId := h.1.sent positionId (howner cid hindex ▸ hsent)
    rw [← hposition]
    exact destination_of_indexed hmode (hfill ▸ hindex) hsent
  | none =>
    have hunindexed : s.positionIds.get? k.cid = some k.positionId →
        s.exchangeIdToCid.get? k.orderId ≠ some k.cid := by
      intro hsent hindex
      rw [hfill, indexedPositionId, hindex] at hindexed
      exact absurd (hsent.symm.trans hindexed) (by simp)
    rcases h.2 with hworking | ⟨hover, hlive | hmoved⟩
    · have hcarries : s.orders.carries k.cid k.orderId = true :=
        (hroute hworking.tracked).resolve_left (hunindexed hworking.sent)
      refine destination_of_matched hmode hindexed ?_
      rw [hfill, matchedOrder_of_unique hcarries hcarrier]
      exact congrArg some hworking.sent
    · exact absurd hlive.indexed (hunindexed hlive.sent)
    · have hcard : ((idsOf names N).erase k.orderId).card < maxRetiredRouting :=
        Nat.lt_of_le_of_lt (card_idsOf_erase_le hnames hchain) (hroom hover.untracked)
      obtain ⟨positionId, hretired⟩ :=
        BoundedMap.mem_keyFifo_iff.1 (BoundedFifo.Covered.mem hmoved hcard)
      rw [← h.1.moved positionId hretired]
      refine destination_of_retired hmode hindexed (matchedOrder_eq_none fun cid => ?_)
        (hfill ▸ hretired)
      rw [hfill, ← Bool.not_eq_true]
      intro hcarries
      obtain ⟨order, hget, -⟩ := Orders.carries_iff.1 hcarries
      rw [hcarrier cid hcarries] at hget
      exact absurd (hover.untracked.symm.trans hget) (by simp)

/-! ## The orders that end since -/

/-- The ended orders whose routing no cleanup has moved yet. -/
def unmoved (s : InstrumentState Data ExchangeKey AssetKey InstrumentKey) :
    Finset ClientOrderId :=
  s.exchangeIdToCid.values.toFinset.filter fun cid => s.orders.tracked.contains cid = false

/-- A chain whose order is tracked holds whatever is counted, but for the ended orders still
    indexed. -/
theorem holds_unmoved (h : k.Holds names N s.tables) (htracked : s.orders.get? k.cid ≠ none) :
    k.Holds names s.unmoved s.tables := by
  refine ⟨{ h.1 with unmoved := fun id cid hindex hnone _ => ?_ },
    Or.inl (h.2.resolve_right fun hover => htracked hover.1.untracked)⟩
  refine Finset.mem_filter.2 ⟨List.mem_toFinset.2 (IndexMap.mem_values_iff.2 ⟨id, hindex⟩), ?_⟩
  exact IndexMap.not_contains_iff.2 hnone

section Run

variable [InstrumentDataState Data ExchangeKey AssetKey InstrumentKey] [DecimalRange]
  [DecidableEq AssetKey] [DecidableEq InstrumentKey]

/-- The orders that end over a run from the call that ends the chain's order on, with those it
    finds ended and not yet moved. -/
def endedSince (k : Chain) :
    InstrumentState Data ExchangeKey AssetKey InstrumentKey →
      List (Op Data ExchangeKey AssetKey InstrumentKey) → Finset ClientOrderId
  | _, [] => ∅
  | s, op :: ops =>
      (if (s.step op).orders.tracked.contains k.cid then ∅
        else s.orders.gone (s.step op).orders ∪
          if s.orders.tracked.contains k.cid then s.unmoved else ∅) ∪
      endedSince k (s.step op) ops

/-- The chain holds, and what its order carries and what has ended since is bounded. -/
structure Routed (k : Chain) (names : List (ClientOrderId × OrderId)) (N : Finset ClientOrderId)
    (s : InstrumentState Data ExchangeKey AssetKey InstrumentKey) : Prop where
  holds : k.Holds names N s.tables
  carried : s.orders.get? k.cid ≠ none → (s.orders.carried k.cid).isSome = true
  named : s.orders.get? k.cid ≠ none → Named k s
  room : s.orders.get? k.cid = none → (N.erase k.cid).card < maxRetiredRouting

variable {op : Op Data ExchangeKey AssetKey InstrumentKey}
  {ops : List (Op Data ExchangeKey AssetKey InstrumentKey)}

omit [InstrumentDataState Data ExchangeKey AssetKey InstrumentKey] [DecimalRange]
  [DecidableEq AssetKey] [DecidableEq InstrumentKey] in
theorem contains_eq_false_iff {cid : ClientOrderId} :
    s.orders.tracked.contains cid = false ↔ s.orders.get? cid = none :=
  IndexMap.not_contains_iff

omit [InstrumentDataState Data ExchangeKey AssetKey InstrumentKey] [DecimalRange]
  [DecidableEq AssetKey] [DecidableEq InstrumentKey] in
theorem contains_of_get?_ne_none {cid : ClientOrderId} (h : s.orders.get? cid ≠ none) :
    s.orders.tracked.contains cid = true :=
  IndexMap.contains_iff.2 (Option.ne_none_iff_exists'.1 h)

theorem endedSince_tail_subset :
    endedSince k (s.step op) ops ⊆ endedSince k s (op :: ops) := Finset.subset_union_right

/-- What leaves over the call that ends the chain's order is counted, with what was not moved. -/
theorem endedSince_of_leaves (hbefore : s.orders.get? k.cid ≠ none)
    (hafter : (s.step op).orders.get? k.cid = none) :
    s.unmoved ∪ s.orders.gone (s.step op).orders ⊆ endedSince k s (op :: ops) := by
  rw [endedSince, if_neg (by rw [contains_eq_false_iff.2 hafter]; simp),
    if_pos (contains_of_get?_ne_none hbefore), Finset.union_comm s.unmoved]
  exact Finset.subset_union_left

variable (ops) in
/-- What leaves over a later call is counted. -/
theorem endedSince_of_ended (hbefore : s.orders.get? k.cid = none)
    (hafter : (s.step op).orders.get? k.cid = none) :
    s.orders.gone (s.step op).orders ⊆ endedSince k s (op :: ops) := by
  rw [endedSince, if_neg (by rw [contains_eq_false_iff.2 hafter]; simp),
    if_neg (by rw [contains_eq_false_iff.2 hbefore]; simp), Finset.union_empty]
  exact Finset.subset_union_left

omit [DecimalRange] [DecidableEq AssetKey] [DecidableEq InstrumentKey]
  [InstrumentDataState Data ExchangeKey AssetKey InstrumentKey] in
theorem card_erase_lt_of_subset {N N' : Finset ClientOrderId} {cid : ClientOrderId} {n : Nat}
    (hsub : N ⊆ N') (h : (N'.erase cid).card < n) : (N.erase cid).card < n :=
  Nat.lt_of_le_of_lt (Finset.card_le_card (Finset.erase_subset_erase cid hsub)) h

/-- **A run of calls that keep the chain keeps a fill of it routed.** -/
theorem routed_run (h : Routed k names N s) (hnames : UsedOnce names)
    (hchain : (k.cid, k.orderId) ∈ names) (htold : ∀ op ∈ ops, ∀ e ∈ op.tells, e ∈ names)
    (hnot : ∀ op ∈ ops, ¬ op.RecordsOpen k.cid)
    (hkeeps : Transition.Guarded step (KeepsChain k) s ops)
    (hroom : (s.orders.get? k.cid = none →
        ((N ∪ endedSince k s ops).erase k.cid).card < maxRetiredRouting) ∧
      ((endedSince k s ops).erase k.cid).card < maxRetiredRouting) :
    ∃ N', Routed k names N' (s.run ops) := by
  induction ops generalizing s N with
  | nil => exact ⟨N, h⟩
  | cons op ops ih =>
    have hconsistent := h.holds.1.consistent
    have hop : op ∈ op :: ops := List.mem_cons_self ..
    have htail : ∀ N', Routed k names N' (s.step op) →
        ((s.step op).orders.get? k.cid = none →
          ((N' ∪ endedSince k (s.step op) ops).erase k.cid).card < maxRetiredRouting) →
        ∃ N'', Routed k names N'' (s.run (op :: ops)) := fun N' hrouted hroom' =>
      ih hrouted (fun o ho => htold o (List.mem_cons_of_mem _ ho))
        (fun o ho => hnot o (List.mem_cons_of_mem _ ho)) hkeeps.2
        ⟨hroom', card_erase_lt_of_subset endedSince_tail_subset hroom.2⟩
    by_cases htracked : s.orders.get? k.cid = none
    · -- The order has ended, and is remembered: it stays ended.
      have hover : k.Over N s.tables :=
        (h.holds.2.resolve_left fun hworking => hworking.tracked htracked).1
      have hmem : k.cid ∈ s.orders.retired.items := hover.covered.mem (h.room htracked)
      have hafter : (s.step op).orders.get? k.cid = none :=
        untracked_step hconsistent.keyed hconsistent.separated htracked hmem (hnot op hop)
      have hsub := endedSince_of_ended ops htracked hafter
      have hcount : (N ∪ s.orders.gone (s.step op).orders) ∪ endedSince k (s.step op) ops ⊆
          N ∪ endedSince k s (op :: ops) := by
        rw [Finset.union_assoc]
        exact Finset.union_subset_union_right (Finset.union_subset hsub endedSince_tail_subset)
      refine htail (N ∪ s.orders.gone (s.step op).orders) ?_ fun _ =>
        card_erase_lt_of_subset hcount (hroom.1 htracked)
      refine ⟨holds_step h.holds hnames hchain (htold op hop) (hnot op hop) (fun _ => hmem)
        (fun hbefore => absurd htracked hbefore) hkeeps.1.leaves hkeeps.1.closes,
        fun h => absurd hafter h, fun h => absurd hafter h, fun _ => ?_⟩
      exact card_erase_lt_of_subset (Finset.subset_union_left.trans hcount) (hroom.1 htracked)
    · have hholds : k.Holds names (s.unmoved ∪ s.orders.gone (s.step op).orders)
          (s.step op).tables :=
        holds_step (holds_unmoved h.holds htracked) hnames hchain (htold op hop) (hnot op hop)
          (fun hnone => absurd hnone htracked) (fun hbefore _ => Or.inl (h.carried hbefore))
          hkeeps.1.leaves hkeeps.1.closes
      have hcount : (s.step op).orders.get? k.cid = none →
          (s.unmoved ∪ s.orders.gone (s.step op).orders) ∪ endedSince k (s.step op) ops ⊆
            endedSince k s (op :: ops) := fun hafter =>
        Finset.union_subset (endedSince_of_leaves htracked hafter) endedSince_tail_subset
      refine htail _ ⟨hholds, ?_, ?_, fun hafter => ?_⟩ fun hafter =>
        card_erase_lt_of_subset (hcount hafter) hroom.2
      · exact carried_step hconsistent.keyed hconsistent.separated (h.carried htracked)
      · exact named_step hconsistent hnames hchain (htold op hop) hkeeps.1.keepsId
          (h.carried htracked) (h.named htracked)
      · exact card_erase_lt_of_subset (Finset.subset_union_left.trans (hcount hafter)) hroom.2

/-! ## From the request to the report -/

/-- The report of the order, open or filled under the chain's venue id, is accepted: it finds the
    order tracked, and leaves it carrying that id or ended. -/
def Accepts (k : Chain) (s : InstrumentState Data ExchangeKey AssetKey InstrumentKey)
    (op : Op Data ExchangeKey AssetKey InstrumentKey) : Prop :=
  ∃ hash order, op = .updateFromOrderSnapshot hash order ∧ order.key.cid = k.cid ∧
    reportedId order = some k.orderId ∧ s.orders.get? k.cid ≠ none ∧
    ((s.step op).orders.get? k.cid ≠ none →
      (s.step op).orders.carries k.cid k.orderId = true)

theorem consistent_run (h : s.tables.Consistent names)
    (htold : ∀ op ∈ ops, ∀ e ∈ op.tells, e ∈ names) : (s.run ops).tables.Consistent names := by
  induction ops generalizing s with
  | nil => exact h
  | cons op ops ih =>
    exact ih (consistent_step h (htold op (List.mem_cons_self ..)))
      fun op hop => htold op (List.mem_cons_of_mem _ hop)

omit [DecimalRange] [DecidableEq AssetKey] [DecidableEq InstrumentKey] in
theorem isAbout_of_mem_tells {e : ClientOrderId × OrderId} (h : e ∈ op.tells) :
    op.IsAbout e.1 := by
  cases op with
  | updateFromOrderSnapshot hash order =>
    obtain ⟨id, -, rfl⟩ : ∃ id, namedId? order = some id ∧ (order.key.cid, id) = e := by
      simpa [Op.tells] using h
    rfl
  | _ => exact absurd h (by simp [Op.tells])

/-- An order no call is about is not tracked. -/
theorem untracked_run {cid : ClientOrderId} (h : s.tables.Consistent names)
    (htold : ∀ op ∈ ops, ∀ e ∈ op.tells, e ∈ names) (hbefore : s.orders.get? cid = none)
    (hnot : ∀ op ∈ ops, ¬ op.IsAbout cid) : (s.run ops).orders.get? cid = none := by
  induction ops generalizing s with
  | nil => exact hbefore
  | cons op ops ih =>
    have hop : op ∈ op :: ops := List.mem_cons_self ..
    exact ih (consistent_step h (htold op hop))
      (fun op hop => htold op (List.mem_cons_of_mem _ hop))
      (untracked_step_of_not_about h.keyed h.separated hbefore (hnot op hop))
      fun op hop => hnot op (List.mem_cons_of_mem _ hop)

/-- The request starts the chain: its order is tracked with its position, and nothing has been
    told of it. -/
theorem holds_of_sent {request : OrderRequestOpen ExchangeKey InstrumentKey} (timeSent : DateTime)
    (h : s.tables.Consistent names) (hcid : request.key.cid = k.cid)
    (hposition : request.state.positionId = some k.positionId)
    (huntracked : s.orders.get? k.cid = none)
    (hunmoved : s.retiredRouting.get? k.orderId = none) :
    k.Holds names (s.recordInFlightOpen request timeSent).unmoved
      (s.recordInFlightOpen request timeSent).tables := by
  have hnew : s.orders.tracked.contains request.key.cid = false :=
    contains_eq_false_iff.2 (hcid ▸ huntracked)
  have hsends : s.recordInFlightOpen request timeSent =
      { s with
        orders := s.orders.recordInFlightOpen request timeSent
        data := InstrumentDataState.recordInFlightOpen s.data request timeSent
        tearSheet := s.tearSheet.recordOpenRequested
        positionIds := s.positionIds.insert request.key.cid k.positionId
        reduceOnly := s.reduceOnly.register request.key.cid request.state.reduceOnly } := by
    unfold recordInFlightOpen
    rw [hnew, hposition]
    rfl
  have hconsistent : (s.recordInFlightOpen request timeSent).tables.Consistent names := by
    change (s.step (.recordInFlightOpen request timeSent)).tables.Consistent names
    exact consistent_step h (by simp [Op.tells])
  have hretired : (s.recordInFlightOpen request timeSent).retiredRouting = s.retiredRouting := by
    rw [hsends]
  have hsent : (s.recordInFlightOpen request timeSent).positionIds.get? k.cid =
      some k.positionId := by
    rw [hsends, ← hcid]
    exact IndexMap.get?_insert_self
  have htracked : (s.recordInFlightOpen request timeSent).orders.get? k.cid ≠ none := by
    rw [hsends]
    unfold Orders.recordInFlightOpen
    rw [hnew, ← hcid]
    simp [Orders.get?_track]
  have hunmoved : (s.recordInFlightOpen request timeSent).retiredRouting.get? k.orderId = none := by
    rw [hretired]; exact hunmoved
  refine ⟨⟨hconsistent, ?_, ?_, ?_⟩, Or.inl ⟨htracked, hsent, hunmoved⟩⟩
  · intro positionId hget
    exact Option.some.inj (hget.symm.trans hsent)
  · intro positionId hget
    exact absurd (hunmoved.symm.trans hget) (by simp)
  · intro id cid hindex hnone _
    refine Finset.mem_filter.2 ⟨List.mem_toFinset.2 (IndexMap.mem_values_iff.2 ⟨id, hindex⟩), ?_⟩
    exact contains_eq_false_iff.2 hnone

/-- A chain holds over a stretch its order is tracked over. -/
theorem holds_throughout (h : k.Holds names N s.tables) (hnames : UsedOnce names)
    (hchain : (k.cid, k.orderId) ∈ names) (htold : ∀ op ∈ ops, ∀ e ∈ op.tells, e ∈ names)
    (hnot : ∀ op ∈ ops, ¬ op.RecordsOpen k.cid)
    (htracked : Transition.Throughout step (fun s => s.orders.get? k.cid ≠ none) s ops) :
    ∃ N', k.Holds names N' (s.run ops).tables := by
  induction ops generalizing s N with
  | nil => exact ⟨N, h⟩
  | cons op ops ih =>
    have hafter : (s.step op).orders.get? k.cid ≠ none := htracked.2.head
    have hop : op ∈ op :: ops := List.mem_cons_self ..
    have hcloses : ClosesNone k s op := by
      cases op with
      | updateFromTrade hash trade => exact fun hnone => absurd hnone htracked.1
      | updateFromOrderSnapshot hash order =>
        intro _ _ hleaves
        have hkeyed : (s.orders.updateFromOrderSnapshot order).Keyed :=
          (Orders.step_change h.1.consistent.keyed (.updateFromOrderSnapshot order)).keyed h.1.consistent.keyed
        have hseparated : (s.orders.updateFromOrderSnapshot order).Separated :=
          (Orders.step_change h.1.consistent.keyed (.updateFromOrderSnapshot order)).separated
            h.1.consistent.keyed h.1.consistent.separated
        exact absurd ((ends_updateFromOrderSnapshot hkeyed hseparated).back k.cid hleaves) hafter
      | _ => trivial
    exact ih (holds_step (holds_unmoved h htracked.1) hnames hchain (htold op hop) (hnot op hop)
      (fun hnone => absurd hnone htracked.1) (fun _ hleaves => absurd hleaves hafter)
      (fun _ hleaves => absurd hleaves hafter) hcloses)
      (fun o ho => htold o (List.mem_cons_of_mem _ ho))
      (fun o ho => hnot o (List.mem_cons_of_mem _ ho)) htracked.2

/-- The report that is accepted routes the chain. -/
theorem routed_of_accepts (h : k.Holds names N s.tables) (hnames : UsedOnce names)
    (hchain : (k.cid, k.orderId) ∈ names) (htold : ∀ e ∈ op.tells, e ∈ names)
    (hnot : ¬ op.RecordsOpen k.cid) (haccepts : Accepts k s op) (hkeeps : KeepsChain k s op)
    (hroom : ((endedSince k s (op :: ops)).erase k.cid).card < maxRetiredRouting) :
    ∃ N', Routed k names N' (s.step op) ∧ ((s.step op).orders.get? k.cid = none →
      N' ⊆ endedSince k s (op :: ops)) := by
  obtain ⟨hash, order, hop, -, -, htracked, hcarries⟩ := haccepts
  have hsub : (s.step op).orders.get? k.cid = none →
      s.unmoved ∪ s.orders.gone (s.step op).orders ⊆ endedSince k s (op :: ops) :=
    fun hafter => endedSince_of_leaves htracked hafter
  refine ⟨s.unmoved ∪ s.orders.gone (s.step op).orders, ⟨?_, fun hafter => ?_,
    fun hafter => Or.inr (hcarries hafter),
    fun hafter => card_erase_lt_of_subset (hsub hafter) hroom⟩, hsub⟩
  · refine holds_step (holds_unmoved h htracked) hnames hchain htold hnot
      (fun hnone => absurd hnone htracked) (fun _ _ => Or.inr fun hash response => ?_)
      hkeeps.leaves hkeeps.closes
    rw [hop]; simp
  · obtain ⟨open_, hopen, -⟩ := Orders.carries_iff_carried.1 (hcarries hafter)
    rw [hopen]; rfl

/-! ## The whole run -/

omit [InstrumentDataState Data ExchangeKey AssetKey InstrumentKey] in
/-- A fill moves no position but the one it goes to. -/
theorem get?_positions_updateFromTrade {trade : Trade AssetKey InstrumentKey}
    {positionId other : PositionId} (hdest : s.destination hash trade = .slot positionId)
    (hne : other ≠ positionId) :
    (s.updateFromTrade hash trade).1.position.positions.get? other =
      s.position.positions.get? other := by
  obtain ⟨booked, trade', hbooked, -, heq, -⟩ :=
    placedAt_replayTrade [] (congrArg Destination.positionId? hdest)
  change (s.replayTrade hash trade []).1.position.positions.get? other = _
  rw [heq, position_advanceOrder]
  split <;> exact hbooked.elsewhere other hne

/-- **A late fill moves the position its order was sent with.** An order is sent with a position,
    stays tracked to a report that names its venue id, and from there every call keeps its chain;
    fewer than 64 others end since it did. Then a fill of that id, after any such run, goes to that
    position, and to no other slot. -/
theorem late_fill_reaches_position
    {pre mid post : List (Op Data ExchangeKey AssetKey InstrumentKey)}
    {request : OrderRequestOpen ExchangeKey InstrumentKey} {timeSent : DateTime}
    {report : Op Data ExchangeKey AssetKey InstrumentKey}
    (hfresh : s.tables = .fresh)
    (hids : UsedOnce ((pre ++ .recordInFlightOpen request timeSent :: (mid ++
      report :: post)).flatMap Op.tells))
    (hsent : request.key.cid = k.cid ∧ request.state.positionId = some k.positionId)
    (hbefore : ∀ op ∈ pre, ¬ op.IsAbout k.cid)
    (hafter : ∀ op ∈ mid ++ report :: post, ¬ op.RecordsOpen k.cid)
    (htracked : Transition.Throughout step (fun s => s.orders.get? k.cid ≠ none)
      ((s.run pre).recordInFlightOpen request timeSent) mid)
    (haccepts : Accepts k (((s.run pre).recordInFlightOpen request timeSent).run mid) report)
    (hkeeps : Transition.Guarded step (KeepsChain k)
      (((s.run pre).recordInFlightOpen request timeSent).run mid) (report :: post))
    (hroom : ((endedSince k (((s.run pre).recordInFlightOpen request timeSent).run mid)
      (report :: post)).erase k.cid).card < maxRetiredRouting)
    (hash : HashOrder) {fill : Trade AssetKey InstrumentKey} (hfill : fill.orderId = k.orderId) :
    let reached := s.run (pre ++ .recordInFlightOpen request timeSent :: (mid ++ report :: post))
    reached.destination hash fill = .slot k.positionId ∧
      ∀ other, other ≠ k.positionId →
        (reached.updateFromTrade hash fill).1.position.positions.get? other =
          reached.position.positions.get? other := by
  intro reached
  suffices hdest : reached.destination hash fill = .slot k.positionId from
    ⟨hdest, fun other hne => get?_positions_updateFromTrade hdest hne⟩
  set sends : Op Data ExchangeKey AssetKey InstrumentKey := .recordInFlightOpen request timeSent
  set names := (pre ++ sends :: (mid ++ report :: post)).flatMap Op.tells with hnames
  have htold : ∀ op ∈ pre ++ sends :: (mid ++ report :: post), ∀ e ∈ op.tells, e ∈ names :=
    fun op hop e he => List.mem_flatMap.2 ⟨op, hop, he⟩
  have hpre : ∀ op ∈ pre, ∀ e ∈ op.tells, e ∈ pre.flatMap Op.tells :=
    fun op hop e he => List.mem_flatMap.2 ⟨op, hop, he⟩
  have hchain : (k.cid, k.orderId) ∈ names := by
    obtain ⟨hash, order, hop, hcid, hid, -⟩ := haccepts
    refine htold report (by simp) _ ?_
    rw [hop, ← hcid]
    simp [Op.tells, namedId?_of_reportedId hid]
  -- Before the request nothing is told of the order, and so not of its venue id.
  have hunnamed : ∀ cid, (cid, k.orderId) ∉ pre.flatMap Op.tells := by
    intro cid hmem
    obtain ⟨op, hop, he⟩ := List.mem_flatMap.1 hmem
    have hcid : cid = k.cid :=
      (hids _ (htold op (List.mem_append_left _ hop) _ he) _ hchain).2 rfl
    exact hbefore op hop (hcid ▸ isAbout_of_mem_tells he)
  have hstart : (s.run pre).tables.Consistent (pre.flatMap Op.tells) :=
    consistent_run (by rw [hfresh]; exact Tables.consistent_fresh) hpre
  have huntracked : (s.run pre).orders.get? k.cid = none := by
    have hempty : s.tables.Consistent (pre.flatMap Op.tells) := by
      rw [hfresh]; exact Tables.consistent_fresh
    refine untracked_run hempty hpre ?_ hbefore
    rw [show s.orders = Orders.empty from congrArg Tables.orders hfresh]
    rfl
  have hunmoved : (s.run pre).retiredRouting.get? k.orderId = none := by
    refine Option.eq_none_iff_forall_not_mem.2 fun positionId hget => ?_
    obtain ⟨cid, hmem⟩ := hstart.retired k.orderId positionId hget
    exact hunnamed cid hmem
  have hall : (s.run pre).tables.Consistent names := hstart.mono fun e he => by
    rw [hnames, List.flatMap_append]
    exact List.mem_append_left _ he
  have hsends := holds_of_sent timeSent hall hsent.1 hsent.2 huntracked hunmoved
  obtain ⟨N, hmid⟩ := holds_throughout hsends hids hchain
    (fun op hop => htold op (by simp [hop])) (fun op hop => hafter op (by simp [hop])) htracked
  obtain ⟨N', hrouted, hcount⟩ := routed_of_accepts hmid hids hchain (htold report (by simp))
    (hafter report (by simp)) haccepts hkeeps.1 hroom
  obtain ⟨N'', hreached⟩ := routed_run hrouted hids hchain
    (fun op hop => htold op (by simp [hop])) (fun op hop => hafter op (by simp [hop])) hkeeps.2
    ⟨fun hended => card_erase_lt_of_subset
      (Finset.union_subset (hcount hended) endedSince_tail_subset) hroom,
      card_erase_lt_of_subset endedSince_tail_subset hroom⟩
  have hrun : reached = ((((s.run pre).recordInFlightOpen request timeSent).run mid).step
      report).run post := by
    simp only [reached, run, Transition.run_append, Transition.run_cons]
    rfl
  rw [hrun]
  exact destination_of_holds hreached.holds hids hchain hreached.named hreached.room hfill

end Run

/-! ## Two late fills -/

section Runs

attribute [local instance] DecimalRange.exact

namespace Sample

def chain : Chain := ⟨⟨"c-1"⟩, ⟨"v-1"⟩, ⟨"p-1"⟩⟩

/-- The venue reports the order filled under `v-1`. -/
def reportsFilled : Op NoData Unit Asset Unit :=
  reports (.inactive (.fullyFilled ⟨⟨"v-1"⟩, 3, 2, none⟩))

/-- The venue reports it cancelled. -/
def reportsCancelled : Op NoData Unit Asset Unit :=
  reports (.inactive (.cancelled ⟨⟨"v-1"⟩, 3, none⟩))

end Sample

/-- The order is acknowledged, and cancelled by the venue before its fill is delivered. -/
theorem late_fill_reaches_position_cancelled :
    let reached := Sample.fresh.run [Sample.sends, Sample.reportsOpen, Sample.reportsCancelled]
    reached.destination .insertion Sample.trade = .slot ⟨"p-1"⟩ ∧
      ∀ other, other ≠ ⟨"p-1"⟩ →
        (reached.updateFromTrade .insertion Sample.trade).1.position.positions.get? other =
          reached.position.positions.get? other := by
  refine @late_fill_reaches_position _ _ _ _ Sample.fresh Sample.chain _ _ _ _ [] []
    [Sample.reportsCancelled]
    ⟨Sample.key, ⟨.buy, some 100, 2, .limit, .goodUntilCancelled false, some ⟨"p-1"⟩, .no⟩⟩ 0
    Sample.reportsOpen rfl (by decide) ⟨rfl, rfl⟩ (by simp) ?_ (by decide +kernel) ?_
    ⟨?_, ?_, trivial⟩ (by decide +kernel) .insertion Sample.trade rfl
  · intro op hop
    rcases List.mem_cons.1 hop with rfl | hop
    · exact fun h => absurd h.2 (by simp)
    · cases List.mem_singleton.1 hop
      exact fun h => absurd h.2 (by simp)
  · exact ⟨_, _, rfl, rfl, rfl, by decide +kernel, fun _ => by decide +kernel⟩
  · refine ⟨fun _ h => absurd h (by decide +kernel), fun _ => Or.inr ?_,
      fun _ _ h => absurd h (by decide +kernel)⟩
    intro open_ hopen
    cases hopen
    simp [VenueOrderId.assigned?]
  · exact ⟨fun _ _ => Or.inl (by decide +kernel), fun _ => Or.inl (by decide +kernel),
      fun _ h => absurd h (by decide +kernel)⟩

/-- Reported filled while its cancel is in flight, the order leaves nothing by which its fill finds
    the position: the fill opens one of its own under the venue order id. -/
theorem filled_in_cancel_loses_position :
    let ops := [Sample.sends, Sample.sendsCancel, Sample.reportsFilled]
    let reached := Sample.fresh.run ops
    UsedOnce (ops.flatMap Op.tells) ∧
      Accepts Sample.chain (Sample.fresh.run [Sample.sends, Sample.sendsCancel])
        Sample.reportsFilled ∧
      endedSince Sample.chain (Sample.fresh.run [Sample.sends, Sample.sendsCancel])
        [Sample.reportsFilled] ⊆ {⟨"c-1"⟩} ∧
      reached.destination .insertion Sample.trade = .unmatched ⟨"v-1"⟩ ∧
      ((reached.updateFromTrade .insertion Sample.trade).1.position.positions.get?
        ⟨"v-1"⟩).isSome ∧
      (reached.updateFromTrade .insertion Sample.trade).1.position.positions.get? ⟨"p-1"⟩ =
        none := by
  refine ⟨by decide, ⟨_, _, rfl, rfl, rfl, by decide +kernel, ?_⟩, by decide +kernel,
    by decide +kernel, by decide +kernel, by decide +kernel⟩
  exact fun h => absurd (by decide +kernel) h

end Runs

end InstrumentState

end Rustrade
