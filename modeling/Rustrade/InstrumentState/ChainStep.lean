import Rustrade.InstrumentState.Chain
import Rustrade.InstrumentState.Release

/-!
# The chain over a call

Each call is a sequence of the single writes of `Chain`: a call on the orders, a cleanup, and for a
report that settles its order's id the settling, the fills it releases and a second cleanup. A
cleanup makes a chain firm, so the one stretch where a close can break it is a fill of an order
whose ended chain no cleanup has moved yet.
-/

set_option autoImplicit false

namespace Rustrade

namespace Chain

variable {ExchangeKey InstrumentKey : Type} {k : Chain} {names : List (ClientOrderId × OrderId)}
  {orders orders' : Orders ExchangeKey InstrumentKey}

section Named

variable {P : ClientOrderId → OrderId → Prop}

/-- A call names no order but as its report tells. -/
theorem named_step (op : Orders.Op ExchangeKey InstrumentKey) (hk : orders.Keyed)
    (hcarried : ∀ id cid, orders.carries cid id = true → P cid id)
    (htold : ∀ snapshot open_ id, op = .updateFromOrderSnapshot snapshot →
      snapshot.state.openMeta = some open_ → open_.id.assigned? = some id →
      P snapshot.key.cid id) (id : OrderId) (cid : ClientOrderId)
    (hcarries : (orders.step op).carries cid id = true) : P cid id := by
  obtain ⟨open_, hopen, hid⟩ := Orders.carries_iff_carried.1 hcarries
  rcases (Orders.step_change hk op).carried_cases hopen with
    ⟨held, hheld, hsame⟩ | ⟨snapshot, rfl, rfl, told, htells, hsame⟩
  · exact hcarried id cid (Orders.carries_iff_carried.2 ⟨held, hheld, hsame ▸ hid⟩)
  · exact htold snapshot told id rfl htells (hsame ▸ hid)

/-- Calls that only end orders name none. -/
theorem named_of_ends (h : Orders.Ends orders orders')
    (hcarried : ∀ id cid, orders.carries cid id = true → P cid id) (id : OrderId)
    (cid : ClientOrderId) (hcarries : orders'.carries cid id = true) : P cid id := by
  obtain ⟨open_, hopen, hid⟩ := Orders.carries_iff_carried.1 hcarries
  obtain ⟨held, hheld, hsame⟩ := h.carries cid open_ hopen
  exact hcarried id cid (Orders.carries_iff_carried.2 ⟨held, hheld, hsame ▸ hid⟩)

end Named

/-- What one call keeps of the chain's order. -/
theorem kept_step (op : Orders.Op ExchangeKey InstrumentKey) (hk : orders.Keyed)
    (hd : orders.Separated) (hnot : ¬ op.RecordsOpen k.cid) (hone : op.subject ≠ none)
    (hcarried : ∀ id cid, orders.carries cid id = true → (cid, id) ∈ names)
    (htold : ∀ snapshot open_ id, op = .updateFromOrderSnapshot snapshot →
      snapshot.state.openMeta = some open_ → open_.id.assigned? = some id →
      (snapshot.key.cid, id) ∈ names)
    (hmem : orders.get? k.cid = none → k.cid ∈ orders.retired.items)
    (hreported : orders.get? k.cid ≠ none → (orders.step op).get? k.cid = none →
      (orders.carried k.cid).isSome = true ∨
        ∀ response, op ≠ .updateFromCancelResponse response) :
    k.Kept names (orders.gone (orders.step op)) orders (orders.step op) where
  keyed := Orders.keyed_step hk
  separated := (Orders.step_change hk op).separated hk hd
  named := named_step op hk hcarried htold
  departs _ hbefore hafter :=
    Orders.departed_subset_gone (Orders.mem_departed.2 ⟨hbefore, hafter⟩)
  stays huntracked := (Orders.step_change hk op).stays huntracked (hmem huntracked) hnot
  covered newer _ hcov := Orders.covered_gone hk hd hcov hnot
  leaves hbefore hafter := by
    obtain ⟨order, hget⟩ := Option.ne_none_iff_exists'.1 hbefore
    exact Orders.covered_of_remembered hk hd (hd k.cid order hget)
      ((Orders.step_change hk op).remembered hk hbefore hafter (hreported hbefore hafter) hone)

/-- What calls that only end orders keep of it. -/
theorem kept_of_ends (h : Orders.Ends orders orders')
    (hcarried : ∀ id cid, orders.carries cid id = true → (cid, id) ∈ names) :
    k.Kept names (orders.departed orders') orders orders' where
  keyed := h.keyed
  separated := h.separated
  named := named_of_ends h hcarried
  departs _ hbefore hafter := Orders.mem_departed.2 ⟨hbefore, hafter⟩
  stays := h.back k.cid
  covered newer _ hcov := h.covered k.cid newer hcov
  leaves := h.leaves k.cid

end Chain

namespace InstrumentState

variable {Data ExchangeKey AssetKey InstrumentKey : Type} {hash : HashOrder}
  {s : InstrumentState Data ExchangeKey AssetKey InstrumentKey}
  {names : List (ClientOrderId × OrderId)} {k : Chain} {N : Finset ClientOrderId}
  {trade : Trade AssetKey InstrumentKey} {positionId : PositionId}
  {reduceOnlyFills : List (TradeId × ReduceOnly)}

/-! ## The order a fill advances -/

theorem ends_advanceOrder (hk : s.orders.Keyed) (hd : s.orders.Separated) :
    Orders.Ends s.orders (s.advanceOrder hash trade).orders := by
  have hfill : ∀ cid reported, Orders.Ends s.orders
      (s.orders.updateFromFill cid trade.orderId reported).1 := fun cid reported =>
    Orders.ends_step (.updateFromFill cid trade.orderId reported) trivial hk hd
  exact advanceOrder_cases (P := fun s' => Orders.Ends s.orders s'.orders) (.refl hk hd)
    (fun cid reported _ _ => hfill cid reported) fun cid reported _ _ => hfill cid reported

/-- A fill leaves an order tracked unless it says it ended it. -/
theorem get?_updateFromFill_ne_none {orders : Orders ExchangeKey InstrumentKey}
    {cid c : ClientOrderId} {orderId : OrderId} {reported : Decimal}
    (hflag : (orders.updateFromFill cid orderId reported).2 = false)
    (htracked : orders.get? c ≠ none) :
    (orders.updateFromFill cid orderId reported).1.get? c ≠ none := by
  by_cases hc : c = cid
  · subst hc
    rw [Ne, Orders.get?_updateFromFill_self, hflag]
    simpa using htracked
  · rwa [Orders.get?_updateFromFill_of_ne hc]

theorem firm_advanceOrder (h : k.Firm names N s.tables) (hnames : UsedOnce names)
    (hchain : (k.cid, k.orderId) ∈ names)
    (hindexed : s.orders.get? k.cid ≠ none →
      (s.advanceOrder hash trade).orders.get? k.cid = none →
      s.exchangeIdToCid.get? k.orderId = some k.cid) :
    k.Firm names (N ∪ s.orders.departed (s.advanceOrder hash trade).orders)
      (s.advanceOrder hash trade).tables := by
  have hkept : ∀ cid reported,
      k.Kept names (s.orders.departed (s.orders.updateFromFill cid trade.orderId reported).1)
        s.tables.orders (s.orders.updateFromFill cid trade.orderId reported).1 :=
    fun cid reported => Chain.kept_of_ends
      (Orders.ends_step (.updateFromFill cid trade.orderId reported) trivial
        h.1.consistent.keyed h.1.consistent.separated) h.1.consistent.carried
  revert hindexed
  refine advanceOrder_cases (P := fun s' =>
    (s.orders.get? k.cid ≠ none → s'.orders.get? k.cid = none →
      s.exchangeIdToCid.get? k.orderId = some k.cid) →
    k.Firm names (N ∪ s.orders.departed s'.orders) s'.tables) ?_ ?_ ?_
  · exact fun _ => h.mono Finset.subset_union_left
  · intro cid reported _ hflag _
    exact h.setOrders (hkept cid reported) fun htracked =>
      get?_updateFromFill_ne_none hflag htracked
  · intro cid reported _ _ hindexed
    set advanced : InstrumentState Data ExchangeKey AssetKey InstrumentKey :=
      { s with orders := (s.orders.updateFromFill cid trade.orderId reported).1 }
    have hholds : k.Holds names (N ∪ s.orders.departed advanced.orders) advanced.tables :=
      h.holds.setOrders (hkept cid reported) hindexed
    exact firm_cleanupRoutingTables hholds hnames hchain

theorem holds_advanceOrder (h : k.Holds names N s.tables) (hnames : UsedOnce names)
    (hchain : (k.cid, k.orderId) ∈ names)
    (hindexed : s.orders.get? k.cid ≠ none →
      (s.advanceOrder hash trade).orders.get? k.cid = none →
      s.exchangeIdToCid.get? k.orderId = some k.cid) :
    k.Holds names (N ∪ s.orders.departed (s.advanceOrder hash trade).orders)
      (s.advanceOrder hash trade).tables := by
  have hkept : ∀ cid reported,
      k.Kept names (s.orders.departed (s.orders.updateFromFill cid trade.orderId reported).1)
        s.tables.orders (s.orders.updateFromFill cid trade.orderId reported).1 :=
    fun cid reported => Chain.kept_of_ends
      (Orders.ends_step (.updateFromFill cid trade.orderId reported) trivial
        h.1.consistent.keyed h.1.consistent.separated) h.1.consistent.carried
  revert hindexed
  refine advanceOrder_cases (P := fun s' =>
    (s.orders.get? k.cid ≠ none → s'.orders.get? k.cid = none →
      s.exchangeIdToCid.get? k.orderId = some k.cid) →
    k.Holds names (N ∪ s.orders.departed s'.orders) s'.tables) ?_ ?_ ?_
  · exact fun _ => h.mono Finset.subset_union_left
  · exact fun cid reported _ _ hindexed => h.setOrders (hkept cid reported) hindexed
  · intro cid reported _ _ hindexed
    set advanced : InstrumentState Data ExchangeKey AssetKey InstrumentKey :=
      { s with orders := (s.orders.updateFromFill cid trade.orderId reported).1 }
    have hholds : k.Holds names (N ∪ s.orders.departed advanced.orders) advanced.tables :=
      h.setOrders (hkept cid reported) hindexed
    exact (firm_cleanupRoutingTables hholds hnames hchain).holds

theorem consistent_advanceOrder (h : s.tables.Consistent names) :
    (s.advanceOrder hash trade).tables.Consistent names := by
  have hfill : ∀ cid reported, Tables.Consistent names { s.tables with
      orders := (s.orders.updateFromFill cid trade.orderId reported).1 } := by
    intro cid reported
    have hends : Orders.Ends s.orders (s.orders.updateFromFill cid trade.orderId reported).1 :=
      Orders.ends_step (.updateFromFill cid trade.orderId reported) trivial h.keyed
        h.separated
    exact h.setOrders hends.keyed hends.separated (Chain.named_of_ends hends h.carried)
  refine advanceOrder_cases (P := fun s' => s'.tables.Consistent names) h
    (fun cid reported _ _ => hfill cid reported) fun cid reported _ _ => ?_
  set advanced : InstrumentState Data ExchangeKey AssetKey InstrumentKey :=
    { s with orders := (s.orders.updateFromFill cid trade.orderId reported).1 }
  have hadvanced : advanced.tables.Consistent names := hfill cid reported
  exact consistent_cleanupRoutingTables hadvanced

/-- The index keeps the orders that stay tracked. -/
theorem get?_exchangeIdToCid_advanceOrder {id : OrderId} {cid : ClientOrderId}
    (hindex : s.exchangeIdToCid.get? id = some cid)
    (htracked : (s.advanceOrder hash trade).orders.get? cid ≠ none) :
    (s.advanceOrder hash trade).exchangeIdToCid.get? id = some cid := by
  revert htracked
  refine advanceOrder_cases (P := fun s' => s'.orders.get? cid ≠ none →
    s'.exchangeIdToCid.get? id = some cid) (fun _ => hindex) (fun _ _ _ _ _ => hindex) ?_
  intro c reported _ _ htracked
  exact get?_exchangeIdToCid_cleanupRoutingTables.2
    ⟨hindex, IndexMap.contains_iff.2 (Option.ne_none_iff_exists'.1 htracked)⟩

/-! ## A fill -/

section Fill

variable [DecimalRange] [DecidableEq AssetKey] [DecidableEq InstrumentKey]

/-- A fill that moves no position leaves the tables alone. -/
theorem tables_replayTrade_of_unplaced
    (h : (s.destination hash trade).positionId? = none) :
    (s.replayTrade hash trade reduceOnlyFills).1.tables = s.tables := by
  cases hdest : s.destination hash trade with
  | queued =>
    obtain ⟨noted, hnoted, heq⟩ := replayTrade_queued reduceOnlyFills hdest
    rw [heq]
    exact (hnoted .netting).tables
  | unallocated =>
    exact ((replayTrade_unallocated reduceOnlyFills hdest).1 .netting).tables
  | _ => rw [hdest] at h; exact absurd h (by simp [Destination.positionId?])

/-- A fill, by what it does to the tables: nothing, or the prune of a position it closed and the
    advance of its order. -/
theorem replayTrade_tables_cases
    {P : InstrumentState Data ExchangeKey AssetKey InstrumentKey → Prop}
    (unplaced : ∀ s' : InstrumentState Data ExchangeKey AssetKey InstrumentKey,
      s'.tables = s.tables → P s')
    (placed : ∀ (booked : InstrumentState Data ExchangeKey AssetKey InstrumentKey)
      (trade' : Trade AssetKey InstrumentKey), booked.tables = s.tables →
      P (booked.advanceOrder hash trade'))
    (closed : ∀ (booked : InstrumentState Data ExchangeKey AssetKey InstrumentKey)
      (trade' : Trade AssetKey InstrumentKey) (exited : PositionExited AssetKey InstrumentKey),
      booked.tables = s.tables →
      (s.replayTrade hash trade reduceOnlyFills).2.exited = some exited →
      P ((booked.prunePositionIds exited.positionId).advanceOrder hash trade')) :
    P (s.replayTrade hash trade reduceOnlyFills).1 := by
  cases hd : (s.destination hash trade).positionId? with
  | none => exact unplaced _ (tables_replayTrade_of_unplaced hd)
  | some positionId =>
    obtain ⟨booked, trade', hbooked, -, heq, hexited⟩ :=
      placedAt_replayTrade reduceOnlyFills hd
    rw [heq]
    split
    · rename_i hsome
      obtain ⟨exited, hsome⟩ := Option.isSome_iff_exists.1 hsome
      have hposition : exited.positionId = positionId := hexited exited hsome
      rw [← hposition]
      exact closed booked trade' exited hbooked.tables hsome
    · exact placed booked trade' hbooked.tables

theorem ends_replayTrade (hk : s.orders.Keyed) (hd : s.orders.Separated) :
    Orders.Ends s.orders (s.replayTrade hash trade reduceOnlyFills).1.orders := by
  have horders : ∀ s' : InstrumentState Data ExchangeKey AssetKey InstrumentKey,
      s'.tables = s.tables → s'.orders = s.orders := fun s' h => congrArg Tables.orders h
  refine replayTrade_tables_cases (P := fun s' => Orders.Ends s.orders s'.orders) ?_ ?_ ?_
  · intro s' hs'
    rw [horders s' hs']; exact .refl hk hd
  · intro booked trade' hbooked
    rw [← horders booked hbooked] at hk hd ⊢
    exact ends_advanceOrder hk hd
  · intro booked trade' exited hbooked _
    rw [← horders booked hbooked] at hk hd ⊢
    exact ends_advanceOrder (s := booked.prunePositionIds exited.positionId) hk hd

theorem get?_exchangeIdToCid_replayTrade {id : OrderId} {cid : ClientOrderId}
    (hindex : s.exchangeIdToCid.get? id = some cid)
    (htracked : (s.replayTrade hash trade reduceOnlyFills).1.orders.get? cid ≠ none) :
    (s.replayTrade hash trade reduceOnlyFills).1.exchangeIdToCid.get? id = some cid := by
  have hindex' : ∀ s' : InstrumentState Data ExchangeKey AssetKey InstrumentKey,
      s'.tables = s.tables → s'.exchangeIdToCid.get? id = some cid := fun s' h =>
    (congrArg (fun t => t.exchangeIdToCid.get? id) h).trans hindex
  revert htracked
  refine replayTrade_tables_cases (P := fun s' => s'.orders.get? cid ≠ none →
    s'.exchangeIdToCid.get? id = some cid) (fun s' hs' _ => hindex' s' hs') ?_ ?_
  · intro booked trade' hbooked htracked
    exact get?_exchangeIdToCid_advanceOrder (hindex' booked hbooked) htracked
  · intro booked trade' exited hbooked _ htracked
    exact get?_exchangeIdToCid_advanceOrder (s := booked.prunePositionIds exited.positionId)
      (hindex' booked hbooked) htracked

theorem consistent_replayTrade (h : s.tables.Consistent names) :
    (s.replayTrade hash trade reduceOnlyFills).1.tables.Consistent names := by
  refine replayTrade_tables_cases (P := fun s' => s'.tables.Consistent names)
    (fun s' hs' => by rw [hs']; exact h)
    (fun booked trade' hbooked => consistent_advanceOrder (by rw [hbooked]; exact h)) ?_
  intro booked trade' exited hbooked _
  have hpruned : (booked.prunePositionIds exited.positionId).tables.Consistent names := by
    have hbooked : booked.tables.Consistent names := by rw [hbooked]; exact h
    exact hbooked.setPositionIds
  exact consistent_advanceOrder hpruned

/-- A firm chain stays firm over any fill. -/
theorem firm_replayTrade (h : k.Firm names N s.tables) (hnames : UsedOnce names)
    (hchain : (k.cid, k.orderId) ∈ names)
    (hindexed : s.orders.get? k.cid ≠ none →
      (s.replayTrade hash trade reduceOnlyFills).1.orders.get? k.cid = none →
      s.exchangeIdToCid.get? k.orderId = some k.cid) :
    k.Firm names (N ∪ s.orders.departed (s.replayTrade hash trade reduceOnlyFills).1.orders)
      (s.replayTrade hash trade reduceOnlyFills).1.tables := by
  revert hindexed
  refine replayTrade_tables_cases (P := fun s' =>
    (s.orders.get? k.cid ≠ none → s'.orders.get? k.cid = none →
      s.exchangeIdToCid.get? k.orderId = some k.cid) →
    k.Firm names (N ∪ s.orders.departed s'.orders) s'.tables) ?_ ?_ ?_
  · intro s' hs' _
    rw [hs']; exact h.mono Finset.subset_union_left
  · intro booked trade' hbooked hindexed
    have horders : booked.orders = s.orders := congrArg Tables.orders hbooked
    have hindex : booked.exchangeIdToCid = s.exchangeIdToCid :=
      congrArg Tables.exchangeIdToCid hbooked
    rw [← horders, ← hindex] at hindexed
    rw [← horders]
    exact firm_advanceOrder (hbooked ▸ h) hnames hchain hindexed
  · intro booked trade' exited hbooked _ hindexed
    have horders : booked.orders = s.orders := congrArg Tables.orders hbooked
    have hindex : booked.exchangeIdToCid = s.exchangeIdToCid :=
      congrArg Tables.exchangeIdToCid hbooked
    rw [← horders, ← hindex] at hindexed
    rw [← horders]
    exact firm_advanceOrder (s := booked.prunePositionIds exited.positionId)
      (firm_prunePositionIds (hbooked ▸ h)) hnames hchain hindexed

/-- A chain holds over a fill that does not close its position while the chain is in the two
    tables alone. -/
theorem holds_replayTrade (h : k.Holds names N s.tables) (hnames : UsedOnce names)
    (hchain : (k.cid, k.orderId) ∈ names)
    (hcloses : s.orders.get? k.cid = none → s.retiredRouting.get? k.orderId = none →
      ∀ exited, (s.replayTrade hash trade reduceOnlyFills).2.exited = some exited →
      exited.positionId ≠ k.positionId)
    (hindexed : s.orders.get? k.cid ≠ none →
      (s.replayTrade hash trade reduceOnlyFills).1.orders.get? k.cid = none →
      s.exchangeIdToCid.get? k.orderId = some k.cid) :
    k.Holds names (N ∪ s.orders.departed (s.replayTrade hash trade reduceOnlyFills).1.orders)
      (s.replayTrade hash trade reduceOnlyFills).1.tables := by
  by_cases hlive : s.orders.get? k.cid = none ∧ k.Live s.tables
  · revert hindexed
    refine replayTrade_tables_cases (P := fun s' =>
      (s.orders.get? k.cid ≠ none → s'.orders.get? k.cid = none →
        s.exchangeIdToCid.get? k.orderId = some k.cid) →
      k.Holds names (N ∪ s.orders.departed s'.orders) s'.tables) ?_ ?_ ?_
    · intro s' hs' _
      rw [hs']; exact h.mono Finset.subset_union_left
    · intro booked trade' hbooked hindexed
      have horders : booked.orders = s.orders := congrArg Tables.orders hbooked
      have hindex : booked.exchangeIdToCid = s.exchangeIdToCid :=
        congrArg Tables.exchangeIdToCid hbooked
      rw [← horders, ← hindex] at hindexed
      rw [← horders]
      exact holds_advanceOrder (hbooked ▸ h) hnames hchain hindexed
    · intro booked trade' exited hbooked hexited hindexed
      have horders : booked.orders = s.orders := congrArg Tables.orders hbooked
      have hindex : booked.exchangeIdToCid = s.exchangeIdToCid :=
        congrArg Tables.exchangeIdToCid hbooked
      rw [← horders, ← hindex] at hindexed
      rw [← horders]
      exact holds_advanceOrder (s := booked.prunePositionIds exited.positionId)
        (holds_prunePositionIds (hbooked ▸ h)
          (hcloses hlive.1 hlive.2.unmoved exited hexited)) hnames hchain hindexed
  · refine (firm_replayTrade ⟨h.1, h.2.imp_right fun hover => ⟨hover.1, ?_⟩⟩ hnames hchain
      hindexed).holds
    exact hover.2.resolve_left fun hl => hlive ⟨hover.1.untracked, hl⟩

/-! ## A run of fills -/

variable {fills : List (Trade AssetKey InstrumentKey)} {applied : FillsApplied AssetKey InstrumentKey}

theorem consistent_replayTrades (h : s.tables.Consistent names) :
    (replayTrades hash reduceOnlyFills s applied fills).1.tables.Consistent names := by
  induction fills generalizing s applied with
  | nil => exact h
  | cons fill fills ih => exact ih (consistent_replayTrade h)

theorem ends_replayTrades (hk : s.orders.Keyed) (hd : s.orders.Separated) :
    Orders.Ends s.orders (replayTrades hash reduceOnlyFills s applied fills).1.orders := by
  induction fills generalizing s applied with
  | nil => exact .refl hk hd
  | cons fill fills ih =>
    have hfirst : Orders.Ends s.orders (s.replayTrade hash fill reduceOnlyFills).1.orders :=
      ends_replayTrade hk hd
    exact hfirst.trans (ih hfirst.keyed hfirst.separated)

variable (hash reduceOnlyFills applied fills) in
theorem firm_replayTrades (h : k.Firm names N s.tables) (hnames : UsedOnce names)
    (hchain : (k.cid, k.orderId) ∈ names)
    (hindexed : s.orders.get? k.cid ≠ none →
      (replayTrades hash reduceOnlyFills s applied fills).1.orders.get? k.cid = none →
      s.exchangeIdToCid.get? k.orderId = some k.cid) :
    k.Firm names
      (N ∪ s.orders.departed (replayTrades hash reduceOnlyFills s applied fills).1.orders)
      (replayTrades hash reduceOnlyFills s applied fills).1.tables := by
  induction fills generalizing s N applied with
  | nil => exact h.mono Finset.subset_union_left
  | cons fill fills ih =>
    have hfirst : Orders.Ends s.orders (s.replayTrade hash fill reduceOnlyFills).1.orders :=
      ends_replayTrade h.1.consistent.keyed h.1.consistent.separated
    have hrest : Orders.Ends (s.replayTrade hash fill reduceOnlyFills).1.orders
        (replayTrades hash reduceOnlyFills s applied (fill :: fills)).1.orders :=
      ends_replayTrades hfirst.keyed hfirst.separated
    have hstep : k.Firm names _ (s.replayTrade hash fill reduceOnlyFills).1.tables :=
      firm_replayTrade h hnames hchain fun htracked hleaves =>
        hindexed htracked (hrest.back k.cid hleaves)
    refine (ih _ hstep ?_).mono ?_
    · intro htracked hleaves
      exact get?_exchangeIdToCid_replayTrade
        (hindexed (fun hnone => htracked (hfirst.back k.cid hnone)) hleaves) htracked
    · rw [Finset.union_assoc]
      exact Finset.union_subset_union_right
        (Orders.departed_union_subset hfirst.back hrest.back)

/-- The fills of an ended order whose chain is in the tables leave them alone, if none closes its
    position. -/
theorem tables_replayTrades_of_live (h : k.Sound names N s.tables)
    (hended : s.orders.get? k.cid = none) (hlive : k.Live s.tables)
    (hfills : ∀ fill ∈ fills, fill.orderId = k.orderId)
    (hcloses : closesAt hash k.positionId s fills = false) :
    (replayTrades hash [] s applied fills).1.tables = s.tables := by
  induction fills generalizing s applied with
  | nil => rfl
  | cons fill fills ih =>
    have hfill : fill.orderId = k.orderId := hfills fill (List.mem_cons_self ..)
    have hslot : s.destination hash fill = .slot k.positionId :=
      destination_of_indexed h.consistent.mode (hfill ▸ hlive.indexed) hlive.sent
    rw [closesAt, Bool.or_eq_false_iff] at hcloses
    have hbooks : BooksAt k.positionId s (s.bookAt hash fill k.positionId []).1 := booksAt_bookAt
    have horders : (s.bookAt hash fill k.positionId []).1.orders = s.orders := hbooks.orders
    -- No order is left to advance.
    have hstill : (s.bookAt hash fill k.positionId []).1.advanceOrder hash fill =
        (s.bookAt hash fill k.positionId []).1 := by
      refine advanceOrder_eq_self fun c hc => ?_
      have hindex : (s.bookAt hash fill k.positionId []).1.exchangeIdToCid.get? fill.orderId =
          some k.cid := by
        rw [hbooks.exchangeIdToCid, hfill]; exact hlive.indexed
      rw [trackedOrderCid_of_indexed hindex] at hc
      cases hc
      rw [horders]; exact hended
    rw [replayTrades, replayTrade_of_slot hslot, if_neg (by rw [hcloses.1]; simp), hstill]
    have htables : (s.bookAt hash fill k.positionId []).1.tables = s.tables := hbooks.tables
    exact (ih (htables ▸ h) (by rw [horders]; exact hended) (htables ▸ hlive)
      (fun f hf => hfills f (List.mem_cons_of_mem _ hf)) hcloses.2).trans htables

end Fill

end InstrumentState

end Rustrade
