import Rustrade.InstrumentState.ChainStep

/-!
# The chain over a report

A report is a call on the orders and a cleanup; an ack settles the id it names, releases the fills
that waited for it and cleans up once more. The chain of its own order is in no table in between if
the ack both ends the order and is the first to name its id: `holds_of_own_ack` is that case.
-/

set_option autoImplicit false

namespace Rustrade

namespace InstrumentState

variable {Data ExchangeKey AssetKey InstrumentKey : Type} {hash : HashOrder}
  {s : InstrumentState Data ExchangeKey AssetKey InstrumentKey}
  {names : List (ClientOrderId × OrderId)} {k : Chain} {N : Finset ClientOrderId}

/-! ## A report -/

section Report

variable {order : Order ExchangeKey InstrumentKey OrderState} {exchangeId : OrderId}

theorem namedId?_of_reportedId (h : reportedId order = some exchangeId) :
    namedId? order = some exchangeId := by
  unfold reportedId at h
  unfold namedId?
  split at h
  · rename_i open_ hs; rw [hs]; exact h
  · rename_i filled hs; rw [hs]; exact h
  · exact absurd h (by simp)

theorem namedId?_of_openMeta {open_ : Open} (hopen : order.state.openMeta = some open_)
    (hid : open_.id.assigned? = some exchangeId) : namedId? order = some exchangeId := by
  unfold namedId?
  cases hs : order.state with
  | active state => rw [hs] at hopen; exact Option.bind_eq_some_iff.2 ⟨open_, hopen, hid⟩
  | inactive _ => rw [hs] at hopen; exact absurd hopen (by simp [OrderState.openMeta])

/-- An ack is of a tracked order, and names the id it settles. -/
theorem ackExchangeId_eq_some (h : s.ackExchangeId order = some exchangeId) :
    s.orders.get? order.key.cid ≠ none ∧ namedId? order = some exchangeId := by
  unfold ackExchangeId at h
  cases hget : s.orders.get? order.key.cid with
  | none => rw [hget] at h; exact absurd h (by simp)
  | some current =>
    refine ⟨by simp, ?_⟩
    rw [hget] at h
    cases hs : current.state with
    | openInFlight _ => simp only [hs] at h; exact namedId?_of_reportedId h
    | cancelInFlight _ => simp only [hs] at h; exact absurd h (by simp)
    | «open» _ =>
      simp only [hs] at h
      split at h
      · exact namedId?_of_reportedId h
      · exact absurd h (by simp)

/-- The state a report leaves before its cleanup. -/
def reported (s : InstrumentState Data ExchangeKey AssetKey InstrumentKey)
    (order : Order ExchangeKey InstrumentKey OrderState) :
    InstrumentState Data ExchangeKey AssetKey InstrumentKey :=
  { s.noteOpenRejected order with
    orders := (s.noteOpenRejected order).orders.updateFromOrderSnapshot order }

variable (s order) in
theorem tables_reported : (s.reported order).tables =
    { s.tables with orders := s.orders.updateFromOrderSnapshot order } := by
  have hbooks : BooksAt .netting s (s.noteOpenRejected order) := booksAt_noteOpenRejected _
  unfold tables reported
  rw [hbooks.mode, hbooks.orders, hbooks.positionIds, hbooks.exchangeIdToCid,
    hbooks.retiredRouting]

/-- The tables a release finds are those the settling leaves. -/
theorem tables_releasing : (s.releasing hash order exchangeId).tables =
    ((s.updated hash order).settleRouting order.key.cid exchangeId
      (s.positionIds.get? order.key.cid)).tables := rfl

theorem orders_reported :
    (s.reported order).orders = s.orders.updateFromOrderSnapshot order :=
  congrArg Tables.orders (tables_reported _ _)

/-- What leaves over an ack's two halves leaves over the whole. -/
theorem gone_union_departed_subset {orders' : Orders ExchangeKey InstrumentKey}
    (hk : s.orders.Keyed) (htracked : s.orders.get? order.key.cid ≠ none)
    (hends : Orders.Ends (s.orders.updateFromOrderSnapshot order) orders') :
    s.orders.gone (s.orders.updateFromOrderSnapshot order) ∪
      (s.orders.updateFromOrderSnapshot order).departed orders' ⊆ s.orders.gone orders' := by
  have hchange : Orders.Change s.orders (.updateFromOrderSnapshot order)
      (s.orders.updateFromOrderSnapshot order) := Orders.updateFromOrderSnapshot_change
  have hdeparted : s.orders.departed (s.orders.updateFromOrderSnapshot order) ⊆
      s.orders.departed orders' := by
    intro cid hcid
    obtain ⟨hbefore, hafter⟩ := Orders.mem_departed.1 hcid
    exact Orders.mem_departed.2 ⟨hbefore, hends.back cid hafter⟩
  refine Finset.Subset.trans ?_ Orders.departed_subset_gone
  intro cid hcid
  rcases Finset.mem_union.1 hcid with hcid | hcid
  · rcases Finset.mem_union.1 hcid with hcid | hcid
    · exact hdeparted hcid
    · rcases hchange.arrives hk hcid with hcid | ⟨hsubject, hnone⟩
      · exact hdeparted hcid
      · cases hsubject; exact absurd hnone htracked
  · obtain ⟨hbefore, hafter⟩ := Orders.mem_departed.1 hcid
    refine Orders.mem_departed.2 ⟨fun hnone => ?_, hafter⟩
    by_cases hc : cid = order.key.cid
    · exact htracked (hc ▸ hnone)
    · exact hbefore ((hchange.get?_of_ne rfl hc).trans hnone)

variable [DecimalRange] [DecidableEq AssetKey] [DecidableEq InstrumentKey]

variable (hash) in
/-- A report by what it does to the tables: no ack, or an ack with the fills it releases. -/
theorem updateFromOrderSnapshot_tables (hack : s.ackExchangeId order = some exchangeId) :
    (s.updateFromOrderSnapshot hash order).1.tables = (s.releasing hash order exchangeId).tables ∨
      (s.updateFromOrderSnapshot hash order).1 =
        (replayTrades hash [] (s.releasing hash order exchangeId) .none
          (s.pendingFills.filter fun fill => fill.orderId = exchangeId)).1.cleanupRoutingTables
            hash := by
  by_cases hpending : s.pendingFills = []
  · exact Or.inl (by rw [updateFromOrderSnapshot_of_ack hack hpending]; rfl)
  · exact Or.inr (updateFromOrderSnapshot_releases _ hack hpending)

theorem ends_updateFromOrderSnapshot
    (hk : (s.orders.updateFromOrderSnapshot order).Keyed)
    (hd : (s.orders.updateFromOrderSnapshot order).Separated) :
    Orders.Ends (s.orders.updateFromOrderSnapshot order)
      (s.updateFromOrderSnapshot hash order).1.orders := by
  cases hack : s.ackExchangeId order with
  | none =>
    rw [updateFromOrderSnapshot_of_no_ack hack, orders_updated]
    exact .refl hk hd
  | some exchangeId =>
    have hreleasing : (s.releasing hash order exchangeId).orders =
        s.orders.updateFromOrderSnapshot order := orders_releasing
    rw [← hreleasing] at hk hd ⊢
    rcases updateFromOrderSnapshot_tables hash hack with h | h
    · have horders : (s.updateFromOrderSnapshot hash order).1.orders =
          (s.releasing hash order exchangeId).orders := congrArg Tables.orders h
      rw [horders]; exact .refl hk hd
    · rw [h]
      change Orders.Ends _ (replayTrades hash [] _ .none _).1.orders
      exact ends_replayTrades hk hd

/-- The ack that ends its own order puts the chain in the tables, where nothing had it indexed. -/
theorem holds_of_own_ack (h : k.Holds names N s.tables) (hnames : UsedOnce names)
    (hchain : (k.cid, k.orderId) ∈ names) {G : Finset ClientOrderId}
    (hkept : k.Kept names G s.orders (s.orders.updateFromOrderSnapshot order))
    (htracked : s.orders.get? k.cid ≠ none)
    (hleaves : (s.orders.updateFromOrderSnapshot order).get? k.cid = none)
    (hunindexed : s.exchangeIdToCid.get? k.orderId ≠ some k.cid)
    (hcid : order.key.cid = k.cid) (hack : s.ackExchangeId order = some k.orderId)
    (hcloses : closesAt hash k.positionId (s.releasing hash order k.orderId)
      (s.pendingFills.filter fun fill => fill.orderId = k.orderId) = false) :
    k.Holds names (N ∪ G) (s.updateFromOrderSnapshot hash order).1.tables := by
  have hworking : k.Working s.tables :=
    h.2.resolve_right fun hover => htracked hover.1.untracked
  have hreported : k.Sound names (N ∪ G) (s.reported order).tables := by
    rw [tables_reported]; exact h.1.setOrders hkept
  have hover : k.Over (N ∪ G) (s.reported order).tables := by
    rw [tables_reported]; exact hworking.over hkept hleaves
  have hindex : (s.reported order).exchangeIdToCid = s.exchangeIdToCid :=
    congrArg Tables.exchangeIdToCid (tables_reported s order)
  have hretired : (s.reported order).retiredRouting = s.retiredRouting :=
    congrArg Tables.retiredRouting (tables_reported s order)
  -- The cleanup finds nothing of the chain to move, and the settling puts it in the tables.
  have hunmoved : (s.updated hash order).retiredRouting.get? k.orderId = none := by
    refine get?_retiredRouting_cleanupRoutingTables (s := s.reported order) hreported hnames
      hchain ?_ fun hindexed => absurd (hindex ▸ hindexed) hunindexed
    rw [hretired]
    exact hworking.unmoved
  have hsound : k.Sound names (N ∪ G) (s.releasing hash order k.orderId).tables := by
    rw [tables_releasing]
    refine sound_settleRouting (sound_cleanupRoutingTables hreported hnames hchain)
      (hcid ▸ hchain) (fun _ positionId hsent => ?_) fun _ hne => absurd hcid hne
    exact h.1.sent positionId (hcid ▸ hsent)
  have hlive : k.Live (s.releasing hash order k.orderId).tables := by
    refine ⟨?_, ?_, hunmoved⟩
    · have hindexed : (s.releasing hash order k.orderId).exchangeIdToCid.get? k.orderId =
          some order.key.cid := get?_exchangeIdToCid_releasing
      exact hcid ▸ hindexed
    · have hrestored : (s.releasing hash order k.orderId).positionIds.get? order.key.cid =
          some k.positionId := get?_positionIds_releasing (hcid.symm ▸ hworking.sent)
      exact hcid ▸ hrestored
  have hended : (s.releasing hash order k.orderId).orders.get? k.cid = none := by
    rw [orders_releasing]; exact hleaves
  have hover : k.Over (N ∪ G) (s.releasing hash order k.orderId).tables :=
    ⟨hended, by
      change BoundedFifo.Covered _ _ (s.releasing hash order k.orderId).orders.retired
      rw [orders_releasing]
      have hcov := hover.covered
      rw [tables_reported] at hcov
      exact hcov⟩
  have hholds : k.Holds names (N ∪ G) (s.releasing hash order k.orderId).tables :=
    ⟨hsound, Or.inr ⟨hover, Or.inl hlive⟩⟩
  rcases updateFromOrderSnapshot_tables hash hack with heq | heq
  · rw [heq]; exact hholds
  · rw [heq]
    refine (firm_cleanupRoutingTables ?_ hnames hchain).holds
    rw [tables_replayTrades_of_live hsound hended hlive (fun fill hfill => by
      simpa using (List.mem_filter.1 hfill).2) hcloses]
    exact hholds

/-- **A chain holds over a report.** -/
theorem holds_updateFromOrderSnapshot (h : k.Holds names N s.tables) (hnames : UsedOnce names)
    (hchain : (k.cid, k.orderId) ∈ names)
    (htold : ∀ id, namedId? order = some id → (order.key.cid, id) ∈ names)
    (hnot : ¬ (Orders.Op.updateFromOrderSnapshot order).RecordsOpen k.cid)
    (hmem : s.orders.get? k.cid = none → k.cid ∈ s.orders.retired.items)
    (hindexed : s.orders.get? k.cid ≠ none →
      (s.updateFromOrderSnapshot hash order).1.orders.get? k.cid = none →
      s.exchangeIdToCid.get? k.orderId = some k.cid ∨
        order.key.cid = k.cid ∧ s.ackExchangeId order = some k.orderId)
    (hcloses : order.key.cid = k.cid → s.ackExchangeId order = some k.orderId →
      (s.orders.updateFromOrderSnapshot order).get? k.cid = none →
      s.exchangeIdToCid.get? k.orderId = none →
      closesAt hash k.positionId (s.releasing hash order k.orderId)
        (s.pendingFills.filter fun fill => fill.orderId = k.orderId) = false) :
    k.Holds names (N ∪ s.orders.gone (s.updateFromOrderSnapshot hash order).1.orders)
      (s.updateFromOrderSnapshot hash order).1.tables := by
  have hconsistent := h.1.consistent
  have hkept : k.Kept names (s.orders.gone (s.orders.updateFromOrderSnapshot order)) s.orders
      (s.orders.updateFromOrderSnapshot order) := by
    refine Chain.kept_step (.updateFromOrderSnapshot order) hconsistent.keyed
      hconsistent.separated hnot (by simp [Orders.Op.subject]) hconsistent.carried ?_ hmem ?_
    · rintro snapshot open_ id ⟨⟩ hopen hid
      exact htold id (namedId?_of_openMeta hopen hid)
    · exact fun _ _ => Or.inr fun response => by simp
  have hends : Orders.Ends (s.orders.updateFromOrderSnapshot order)
      (s.updateFromOrderSnapshot hash order).1.orders :=
    ends_updateFromOrderSnapshot hkept.keyed hkept.separated
  by_cases hown : s.orders.get? k.cid ≠ none ∧
      (s.orders.updateFromOrderSnapshot order).get? k.cid = none ∧
      s.exchangeIdToCid.get? k.orderId ≠ some k.cid
  · obtain ⟨htracked, hleaves, hunindexed⟩ := hown
    obtain ⟨hcid, hack⟩ :=
      (hindexed htracked (hends.back k.cid hleaves)).resolve_left hunindexed
    have hnone : s.exchangeIdToCid.get? k.orderId = none := by
      refine Option.eq_none_iff_forall_not_mem.2 fun cid hindex => hunindexed ?_
      have hindex : s.exchangeIdToCid.get? k.orderId = some cid := hindex
      have hcid : cid = k.cid := (hnames _ (hconsistent.indexed _ _ hindex) _ hchain).2 rfl
      rw [hindex, hcid]
    refine (holds_of_own_ack h hnames hchain hkept htracked hleaves hunindexed hcid hack
      (hcloses hcid hack hleaves hnone)).mono (Finset.union_subset_union_right ?_)
    exact Finset.subset_union_left.trans
      (gone_union_departed_subset hconsistent.keyed (hcid ▸ htracked) hends)
  · have hreported : k.Holds names
        (N ∪ s.orders.gone (s.orders.updateFromOrderSnapshot order)) (s.reported order).tables := by
      rw [tables_reported]
      refine h.setOrders hkept fun htracked hleaves => ?_
      by_contra hunindexed
      exact hown ⟨htracked, hleaves, hunindexed⟩
    have hupdated : k.Firm names
        (N ∪ s.orders.gone (s.orders.updateFromOrderSnapshot order))
        (s.updated hash order).tables := firm_cleanupRoutingTables hreported hnames hchain
    cases hack : s.ackExchangeId order with
    | none =>
      rw [updateFromOrderSnapshot_of_no_ack hack, orders_updated]
      exact hupdated.holds
    | some exchangeId =>
      obtain ⟨htracked, hnamed⟩ := ackExchangeId_eq_some hack
      have hname : (order.key.cid, exchangeId) ∈ names := htold exchangeId hnamed
      have hsettled : k.Firm names
          (N ∪ s.orders.gone (s.orders.updateFromOrderSnapshot order))
          (s.releasing hash order exchangeId).tables := by
        rw [tables_releasing]
        refine firm_settleRouting hupdated hname (fun hcid positionId hsent => ?_) ?_
        · exact h.1.sent positionId (hcid ▸ hsent)
        · intro hleaves _
          rw [orders_updated] at hleaves
          exact Finset.mem_union_right _ (hkept.departs _ htracked hleaves)
      have hsub := gone_union_departed_subset hconsistent.keyed htracked hends
      rcases updateFromOrderSnapshot_tables hash hack with heq | heq
      · rw [heq]
        exact hsettled.holds.mono (Finset.union_subset_union_right
          (Finset.subset_union_left.trans hsub))
      · have horders : (s.releasing hash order exchangeId).orders =
            s.orders.updateFromOrderSnapshot order := orders_releasing
        have hfills := firm_replayTrades hash []
          (s.pendingFills.filter fun fill => fill.orderId = exchangeId) .none hsettled hnames
          hchain ?_
        · rw [heq] at hsub ⊢
          refine (firm_cleanupRoutingTables hfills.holds hnames hchain).holds.mono ?_
          rw [Finset.union_assoc, horders]
          exact Finset.union_subset_union_right hsub
        · intro hbefore hleaves
          by_cases hcid : order.key.cid = k.cid
          · have hid : exchangeId = k.orderId := (hnames _ hname _ hchain).1 hcid
            rw [← hid, ← hcid]
            exact get?_exchangeIdToCid_releasing
          · rw [horders] at hbefore
            have hchange : Orders.Change s.orders (.updateFromOrderSnapshot order)
                (s.orders.updateFromOrderSnapshot order) := Orders.updateFromOrderSnapshot_change
            have hbefore' : s.orders.get? k.cid ≠ none := fun hnone =>
              hbefore ((hchange.get?_of_ne rfl (Ne.symm hcid)).trans hnone)
            have hindex : s.exchangeIdToCid.get? k.orderId = some k.cid :=
              (hindexed hbefore' (by rw [heq]; exact hleaves)).resolve_right fun h => hcid h.1
            have hne : k.orderId ≠ exchangeId := by
              rintro rfl
              exact hcid ((hnames _ hname _ hchain).2 rfl)
            change ((s.updated hash order).exchangeIdToCid.insert exchangeId
              order.key.cid).get? k.orderId = _
            rw [IndexMap.get?_insert_of_ne hne]
            refine get?_exchangeIdToCid_cleanupRoutingTables.2 ⟨?_, ?_⟩
            · exact (congrArg (fun t => t.exchangeIdToCid.get? k.orderId)
                (tables_reported s order)).trans hindex
            · refine IndexMap.contains_iff.2 (Option.ne_none_iff_exists'.1 ?_)
              change (s.reported order).orders.get? k.cid ≠ none
              rw [orders_reported]
              exact hbefore

theorem consistent_updateFromOrderSnapshot (h : s.tables.Consistent names)
    (htold : ∀ id, namedId? order = some id → (order.key.cid, id) ∈ names) :
    (s.updateFromOrderSnapshot hash order).1.tables.Consistent names := by
  have hreported : (s.reported order).tables.Consistent names := by
    rw [tables_reported]
    refine h.setOrders ((Orders.step_change h.keyed (.updateFromOrderSnapshot order)).keyed h.keyed)
      ((Orders.step_change h.keyed (.updateFromOrderSnapshot order)).separated h.keyed
        h.separated)
      (Chain.named_step (.updateFromOrderSnapshot order) h.keyed h.carried ?_)
    rintro snapshot open_ id ⟨⟩ hopen hid
    exact htold id (namedId?_of_openMeta hopen hid)
  have hupdated : (s.updated hash order).tables.Consistent names :=
    consistent_cleanupRoutingTables hreported
  cases hack : s.ackExchangeId order with
  | none => rw [updateFromOrderSnapshot_of_no_ack hack]; exact hupdated
  | some exchangeId =>
    have hreleasing : (s.releasing hash order exchangeId).tables.Consistent names := by
      rw [tables_releasing]
      exact consistent_settleRouting hupdated (htold exchangeId (ackExchangeId_eq_some hack).2)
    rcases updateFromOrderSnapshot_tables hash hack with heq | heq
    · rw [heq]; exact hreleasing
    · rw [heq]
      exact consistent_cleanupRoutingTables (consistent_replayTrades hreleasing)

end Report

end InstrumentState

end Rustrade
