import Mathlib.Data.Finset.Image
import Rustrade.InstrumentState.Routing
import Rustrade.Orders.Departures

/-!
# The chain from a fill to its position

In hedging mode a fill finds its position by a chain: the venue order id, the client order id it is
indexed under, the position that order was sent with. While the order is tracked the chain can also
start at the working state the order carries (`Working`); once the order has ended it lives on in
the two tables (`Live`) until the next cleanup, and then as one row of the memory of ended orders
(`Moved`), for as long as that remembers it. The lemmas here are what each single write to the
tables does to these, with `N` the orders counted as ended since.
-/

set_option autoImplicit false

namespace Rustrade

/-! ## Names -/

/-- The venue order id a report carries. -/
def namedId? {ExchangeKey InstrumentKey : Type}
    (order : Order ExchangeKey InstrumentKey OrderState) : Option OrderId :=
  match order.state with
  | .active state => state.openMeta.bind fun open_ => open_.id.assigned?
  | .inactive (.fullyFilled filled) => some filled.id
  | .inactive (.cancelled cancelled) => some cancelled.id
  | .inactive (.expired expired) => some expired.id
  | .inactive (.openFailed _) => none

/-- Each client order id is told of under one venue order id, and each venue order id of one
    client order id. -/
def UsedOnce (names : List (ClientOrderId × OrderId)) : Prop :=
  ∀ e ∈ names, ∀ e' ∈ names, e.1 = e'.1 ↔ e.2 = e'.2

instance (names : List (ClientOrderId × OrderId)) : Decidable (UsedOnce names) := by
  unfold UsedOnce; exact inferInstance

/-- The venue order ids told of the orders in `N`. -/
def idsOf (names : List (ClientOrderId × OrderId)) (N : Finset ClientOrderId) : Finset OrderId :=
  ((names.filter fun e => e.1 ∈ N).map Prod.snd).toFinset

section Names

variable {names : List (ClientOrderId × OrderId)} {N N' : Finset ClientOrderId} {id : OrderId}
  {cid : ClientOrderId}

theorem mem_idsOf : id ∈ idsOf names N ↔ ∃ cid ∈ N, (cid, id) ∈ names := by
  simp only [idsOf, List.mem_toFinset, List.mem_map, List.mem_filter, decide_eq_true_eq,
    Prod.exists, exists_eq_right]
  exact exists_congr fun _ => and_comm

theorem idsOf_mono (h : N ⊆ N') : idsOf names N ⊆ idsOf names N' := by
  intro id hid
  obtain ⟨cid, hcid, hname⟩ := mem_idsOf.1 hid
  exact mem_idsOf.2 ⟨cid, h hcid, hname⟩

/-- There are no more ids than orders. -/
theorem card_idsOf_erase_le (hnames : UsedOnce names) (hname : (cid, id) ∈ names) :
    ((idsOf names N).erase id).card ≤ (N.erase cid).card := by
  have howner : ∀ w ∈ (idsOf names N).erase id, ∃ c ∈ N.erase cid, (c, w) ∈ names := by
    intro w hw
    obtain ⟨hne, hw⟩ := Finset.mem_erase.1 hw
    obtain ⟨c, hc, hcw⟩ := mem_idsOf.1 hw
    refine ⟨c, Finset.mem_erase.2 ⟨?_, hc⟩, hcw⟩
    rintro rfl
    exact hne ((hnames _ hcw _ hname).1 rfl)
  have : Nonempty ClientOrderId := ⟨cid⟩
  choose! owner howner using howner
  refine Finset.card_le_card_of_injOn owner (fun w hw => (howner w hw).1) ?_
  intro w hw w' hw' heq
  exact (hnames _ (howner w hw).2 _ (howner w' hw').2).1 heq

end Names

namespace Orders

variable {ExchangeKey InstrumentKey : Type}

theorem carries_iff_carried {orders : Orders ExchangeKey InstrumentKey} {cid : ClientOrderId}
    {id : OrderId} : orders.carries cid id = true ↔
      ∃ open_, orders.carried cid = some open_ ∧ open_.id.assigned? = some id := by
  unfold carries carried ActiveOrderState.carries
  simp only [Option.any_eq_true, Option.bind_eq_some_iff, decide_eq_true_eq]
  constructor
  · rintro ⟨order, hget, open_, hopen, hid⟩; exact ⟨open_, ⟨order, hget, hopen⟩, hid⟩
  · rintro ⟨open_, ⟨order, hget, hopen⟩, hid⟩; exact ⟨order, hget, open_, hopen, hid⟩

end Orders

/-! ## The tables -/

/-- What routing reads and writes of an instrument. -/
structure Tables (ExchangeKey InstrumentKey : Type) where
  mode : OmsMode
  orders : Orders ExchangeKey InstrumentKey
  positionIds : IndexMap ClientOrderId PositionId
  exchangeIdToCid : IndexMap OrderId ClientOrderId
  retiredRouting : BoundedMap OrderId PositionId maxRetiredRouting

/-- A chain: the venue order id of an order, the id it was sent under, and its position. -/
structure Chain where
  cid : ClientOrderId
  orderId : OrderId
  positionId : PositionId

namespace Tables

variable {ExchangeKey InstrumentKey : Type}

/-- The tables of a hedging instrument, whose every id has been told of. -/
structure Consistent (names : List (ClientOrderId × OrderId))
    (t : Tables ExchangeKey InstrumentKey) : Prop where
  mode : t.mode = .hedging
  keyed : t.orders.Keyed
  separated : t.orders.Separated
  indexed : ∀ id cid, t.exchangeIdToCid.get? id = some cid → (cid, id) ∈ names
  carried : ∀ id cid, t.orders.carries cid id = true → (cid, id) ∈ names
  retired : ∀ id positionId, t.retiredRouting.get? id = some positionId → ∃ cid, (cid, id) ∈ names

theorem Consistent.setOrders {names : List (ClientOrderId × OrderId)}
    {t : Tables ExchangeKey InstrumentKey} {orders' : Orders ExchangeKey InstrumentKey}
    (h : t.Consistent names) (hk : orders'.Keyed) (hd : orders'.Separated)
    (hnamed : ∀ id cid, orders'.carries cid id = true → (cid, id) ∈ names) :
    Consistent names { t with orders := orders' } where
  mode := h.mode
  keyed := hk
  separated := hd
  indexed := h.indexed
  carried := hnamed
  retired := h.retired

/-- The positions orders were sent with are keyed by no venue order id. -/
theorem Consistent.setPositionIds {names : List (ClientOrderId × OrderId)}
    {t : Tables ExchangeKey InstrumentKey} {positionIds : IndexMap ClientOrderId PositionId}
    (h : t.Consistent names) : Consistent names { t with positionIds := positionIds } :=
  ⟨h.mode, h.keyed, h.separated, h.indexed, h.carried, h.retired⟩

end Tables

namespace Chain

variable {ExchangeKey InstrumentKey : Type}

/-- What holds of the chain's order whether it is tracked or has ended: no table routes it
    elsewhere, and every ended order still indexed is in `N`. -/
structure Sound (k : Chain) (names : List (ClientOrderId × OrderId)) (N : Finset ClientOrderId)
    (t : Tables ExchangeKey InstrumentKey) : Prop where
  consistent : t.Consistent names
  sent : ∀ positionId, t.positionIds.get? k.cid = some positionId → positionId = k.positionId
  moved : ∀ positionId, t.retiredRouting.get? k.orderId = some positionId →
    positionId = k.positionId
  unmoved : ∀ id cid, t.exchangeIdToCid.get? id = some cid → t.orders.get? cid = none →
    cid ≠ k.cid → cid ∈ N

/-- The order is tracked, with its position. -/
structure Working (k : Chain) (t : Tables ExchangeKey InstrumentKey) : Prop where
  tracked : t.orders.get? k.cid ≠ none
  sent : t.positionIds.get? k.cid = some k.positionId
  unmoved : t.retiredRouting.get? k.orderId = none

/-- The order has ended, and is covered by `N` in the memory of the orders. -/
structure Over (k : Chain) (N : Finset ClientOrderId) (t : Tables ExchangeKey InstrumentKey) :
    Prop where
  untracked : t.orders.get? k.cid = none
  covered : t.orders.retired.Covered k.cid N

/-- The chain is in the two tables alone. -/
structure Live (k : Chain) (t : Tables ExchangeKey InstrumentKey) : Prop where
  indexed : t.exchangeIdToCid.get? k.orderId = some k.cid
  sent : t.positionIds.get? k.cid = some k.positionId
  unmoved : t.retiredRouting.get? k.orderId = none

/-- The chain is a row of the memory of ended orders, or `N` has displaced it. -/
def Moved (k : Chain) (names : List (ClientOrderId × OrderId)) (N : Finset ClientOrderId)
    (t : Tables ExchangeKey InstrumentKey) : Prop :=
  t.retiredRouting.keyFifo.Covered k.orderId (idsOf names N)

/-- The chain holds, and survives any close of its position. -/
def Firm (k : Chain) (names : List (ClientOrderId × OrderId)) (N : Finset ClientOrderId)
    (t : Tables ExchangeKey InstrumentKey) : Prop :=
  k.Sound names N t ∧ (k.Working t ∨ k.Over N t ∧ k.Moved names N t)

/-- The chain holds. -/
def Holds (k : Chain) (names : List (ClientOrderId × OrderId)) (N : Finset ClientOrderId)
    (t : Tables ExchangeKey InstrumentKey) : Prop :=
  k.Sound names N t ∧ (k.Working t ∨ k.Over N t ∧ (k.Live t ∨ k.Moved names N t))

variable {k : Chain} {names : List (ClientOrderId × OrderId)} {N N' : Finset ClientOrderId}
  {t : Tables ExchangeKey InstrumentKey}

theorem Firm.holds (h : k.Firm names N t) : k.Holds names N t :=
  ⟨h.1, h.2.imp_right fun h => ⟨h.1, Or.inr h.2⟩⟩

/-! ## A larger count -/

theorem Sound.mono (h : k.Sound names N t) (hsub : N ⊆ N') : k.Sound names N' t :=
  { h with unmoved := fun id cid hindex hnone hne => hsub (h.unmoved id cid hindex hnone hne) }

theorem Over.mono (h : k.Over N t) (hsub : N ⊆ N') : k.Over N' t :=
  ⟨h.untracked, h.covered.mono hsub⟩

theorem Moved.mono (h : k.Moved names N t) (hsub : N ⊆ N') : k.Moved names N' t :=
  BoundedFifo.Covered.mono h (idsOf_mono hsub)

theorem Firm.mono (h : k.Firm names N t) (hsub : N ⊆ N') : k.Firm names N' t :=
  ⟨h.1.mono hsub, h.2.imp_right fun h => ⟨h.1.mono hsub, h.2.mono hsub⟩⟩

theorem Holds.mono (h : k.Holds names N t) (hsub : N ⊆ N') : k.Holds names N' t :=
  ⟨h.1.mono hsub, h.2.imp_right fun h => ⟨h.1.mono hsub, h.2.imp_right fun h => h.mono hsub⟩⟩

/-! ## A call on the orders -/

section OrdersCall

variable {orders' : Orders ExchangeKey InstrumentKey}

/-- What the orders after a call must keep of the chain's order, with `G` those that left. -/
structure Kept (k : Chain) (names : List (ClientOrderId × OrderId)) (G : Finset ClientOrderId)
    (orders orders' : Orders ExchangeKey InstrumentKey) : Prop where
  keyed : orders'.Keyed
  separated : orders'.Separated
  named : ∀ id cid, orders'.carries cid id = true → (cid, id) ∈ names
  departs : ∀ cid, orders.get? cid ≠ none → orders'.get? cid = none → cid ∈ G
  stays : orders.get? k.cid = none → orders'.get? k.cid = none
  covered : ∀ newer, orders.get? k.cid = none → orders.retired.Covered k.cid newer →
    orders'.retired.Covered k.cid (newer ∪ G)
  leaves : orders.get? k.cid ≠ none → orders'.get? k.cid = none →
    orders'.retired.Covered k.cid G

variable {G : Finset ClientOrderId}

theorem Sound.setOrders (h : k.Sound names N t) (hkept : k.Kept names G t.orders orders') :
    k.Sound names (N ∪ G) { t with orders := orders' } where
  consistent := h.consistent.setOrders hkept.keyed hkept.separated hkept.named
  sent := h.sent
  moved := h.moved
  unmoved id cid hindex hnone hne := by
    by_cases hbefore : t.orders.get? cid = none
    · exact Finset.mem_union_left _ (h.unmoved id cid hindex hbefore hne)
    · exact Finset.mem_union_right _ (hkept.departs cid hbefore hnone)

theorem Over.setOrders (h : k.Over N t) (hkept : k.Kept names G t.orders orders') :
    k.Over (N ∪ G) { t with orders := orders' } :=
  ⟨hkept.stays h.untracked, hkept.covered N h.untracked h.covered⟩

/-- An order that leaves is over. -/
theorem Working.over (h : k.Working t) (hkept : k.Kept names G t.orders orders')
    (hleaves : orders'.get? k.cid = none) : k.Over (N ∪ G) { t with orders := orders' } :=
  ⟨hleaves, (hkept.leaves h.tracked hleaves).mono Finset.subset_union_right⟩

/-- A chain holds over a call on the orders, if its order is indexed where it leaves. -/
theorem Holds.setOrders (h : k.Holds names N t) (hkept : k.Kept names G t.orders orders')
    (hindexed : t.orders.get? k.cid ≠ none → orders'.get? k.cid = none →
      t.exchangeIdToCid.get? k.orderId = some k.cid) :
    k.Holds names (N ∪ G) { t with orders := orders' } := by
  refine ⟨h.1.setOrders hkept, ?_⟩
  rcases h.2 with hworking | ⟨hover, hroute⟩
  · by_cases hleaves : orders'.get? k.cid = none
    · have hlive : k.Live { t with orders := orders' } :=
        ⟨hindexed hworking.tracked hleaves, hworking.sent, hworking.unmoved⟩
      exact Or.inr ⟨hworking.over hkept hleaves, Or.inl hlive⟩
    · exact Or.inl ⟨hleaves, hworking.sent, hworking.unmoved⟩
  · refine Or.inr ⟨hover.setOrders hkept, hroute.imp (fun hlive => ?_) fun hmoved => ?_⟩
    · exact ⟨hlive.indexed, hlive.sent, hlive.unmoved⟩
    · exact Moved.mono (t := { t with orders := orders' }) hmoved Finset.subset_union_left

/-- A chain whose order stays tracked is as firm as before. -/
theorem Firm.setOrders (h : k.Firm names N t) (hkept : k.Kept names G t.orders orders')
    (hstays : t.orders.get? k.cid ≠ none → orders'.get? k.cid ≠ none) :
    k.Firm names (N ∪ G) { t with orders := orders' } := by
  refine ⟨h.1.setOrders hkept, h.2.imp (fun hworking => ?_) fun h => ?_⟩
  · exact ⟨hstays hworking.tracked, hworking.sent, hworking.unmoved⟩
  · exact ⟨h.1.setOrders hkept,
      Moved.mono (t := { t with orders := orders' }) h.2 Finset.subset_union_left⟩

end OrdersCall

/-- Another order's position is no part of the chain. -/
theorem Holds.setPositionIds {positionIds : IndexMap ClientOrderId PositionId}
    (h : k.Holds names N t) (heq : positionIds.get? k.cid = t.positionIds.get? k.cid) :
    k.Holds names N { t with positionIds := positionIds } := by
  refine ⟨{ h.1 with
    consistent := h.1.consistent.setPositionIds
    sent := fun p hsent => h.1.sent p (heq.symm.trans hsent) }, ?_⟩
  refine h.2.imp (fun hworking => ?_) fun h => ⟨⟨h.1.untracked, h.1.covered⟩, ?_⟩
  · exact ⟨hworking.tracked, heq.trans hworking.sent, hworking.unmoved⟩
  · exact h.2.imp_left fun hlive => ⟨hlive.indexed, heq.trans hlive.sent, hlive.unmoved⟩

end Chain

/-! ## The writes of an instrument -/

namespace InstrumentState

variable {Data ExchangeKey AssetKey InstrumentKey : Type} {hash : HashOrder}
  {s s' : InstrumentState Data ExchangeKey AssetKey InstrumentKey}
  {names : List (ClientOrderId × OrderId)} {k : Chain} {N : Finset ClientOrderId}
  {positionId : PositionId}

def tables (s : InstrumentState Data ExchangeKey AssetKey InstrumentKey) :
    Tables ExchangeKey InstrumentKey :=
  ⟨s.position.mode, s.orders, s.positionIds, s.exchangeIdToCid, s.retiredRouting⟩

theorem BooksAt.tables (h : BooksAt positionId s s') : s'.tables = s.tables := by
  unfold InstrumentState.tables
  rw [h.mode, h.orders, h.positionIds, h.exchangeIdToCid, h.retiredRouting]

/-! ### Cleanup -/

theorem consistent_cleanupRoutingTables (h : s.tables.Consistent names) :
    (s.cleanupRoutingTables hash).tables.Consistent names where
  mode := h.mode
  keyed := h.keyed
  separated := h.separated
  indexed id cid hindex := by
    have hindex : (s.cleanupRoutingTables hash).exchangeIdToCid.get? id = some cid := hindex
    exact h.indexed id cid (get?_exchangeIdToCid_cleanupRoutingTables.1 hindex).1
  carried := h.carried
  retired id positionId hretired := by
    have hretired : (s.cleanupRoutingTables hash).retiredRouting.get? id = some positionId :=
      hretired
    rw [retiredRouting_cleanupRoutingTables h.mode] at hretired
    rcases BoundedMap.get?_foldl_insert hretired with hretired | hdemoted
    · exact h.retired id positionId hretired
    · obtain ⟨cid, hindex, -, -⟩ := mem_demoted.1 hdemoted
      exact ⟨cid, h.indexed id cid hindex⟩

theorem sound_cleanupRoutingTables (h : k.Sound names N s.tables) (hnames : UsedOnce names)
    (hchain : (k.cid, k.orderId) ∈ names) :
    k.Sound names N (s.cleanupRoutingTables hash).tables where
  consistent := consistent_cleanupRoutingTables h.consistent
  sent positionId hsent := by
    have hsent : (s.cleanupRoutingTables hash).positionIds.get? k.cid = some positionId := hsent
    rw [get?_positionIds_cleanupRoutingTables, Option.ite_none_right_eq_some] at hsent
    exact h.sent positionId hsent.2
  moved positionId hretired := by
    have hretired : (s.cleanupRoutingTables hash).retiredRouting.get? k.orderId =
        some positionId := hretired
    rw [retiredRouting_cleanupRoutingTables h.consistent.mode] at hretired
    rcases BoundedMap.get?_foldl_insert hretired with hretired | hdemoted
    · exact h.moved positionId hretired
    · obtain ⟨cid, hindex, -, hsent⟩ := mem_demoted.1 hdemoted
      have hcid : cid = k.cid := (hnames _ (h.consistent.indexed _ _ hindex) _ hchain).2 rfl
      exact h.sent positionId (hcid ▸ hsent)
  unmoved id cid hindex hnone hne := by
    have hindex : (s.cleanupRoutingTables hash).exchangeIdToCid.get? id = some cid := hindex
    exact h.unmoved id cid (get?_exchangeIdToCid_cleanupRoutingTables.1 hindex).1 hnone hne

/-- A cleanup moves the chain only if its order is indexed and untracked. -/
theorem get?_retiredRouting_cleanupRoutingTables (h : k.Sound names N s.tables)
    (hnames : UsedOnce names) (hchain : (k.cid, k.orderId) ∈ names)
    (hunmoved : s.retiredRouting.get? k.orderId = none)
    (hkept : s.exchangeIdToCid.get? k.orderId = some k.cid → s.orders.get? k.cid ≠ none) :
    (s.cleanupRoutingTables hash).retiredRouting.get? k.orderId = none := by
  refine Option.eq_none_iff_forall_not_mem.2 fun positionId hretired => ?_
  have hretired : (s.cleanupRoutingTables hash).retiredRouting.get? k.orderId =
      some positionId := hretired
  rw [retiredRouting_cleanupRoutingTables h.consistent.mode] at hretired
  rcases BoundedMap.get?_foldl_insert hretired with hretired | hdemoted
  · exact absurd (hunmoved.symm.trans hretired) (by simp)
  · obtain ⟨cid, hindex, hnone, -⟩ := mem_demoted.1 hdemoted
    have hcid : cid = k.cid := (hnames _ (h.consistent.indexed _ _ hindex) _ hchain).2 rfl
    exact hkept (hcid ▸ hindex) (hcid ▸ hnone)

theorem working_cleanupRoutingTables (h : k.Sound names N s.tables) (hnames : UsedOnce names)
    (hchain : (k.cid, k.orderId) ∈ names) (hworking : k.Working s.tables) :
    k.Working (s.cleanupRoutingTables hash).tables where
  tracked := hworking.tracked
  sent := by
    have htracked : s.orders.tracked.contains k.cid = true :=
      IndexMap.contains_iff.2 (Option.ne_none_iff_exists'.1 hworking.tracked)
    change (s.cleanupRoutingTables hash).positionIds.get? k.cid = _
    rw [get?_positionIds_cleanupRoutingTables, if_pos htracked]
    exact hworking.sent
  unmoved := get?_retiredRouting_cleanupRoutingTables h hnames hchain hworking.unmoved
    fun _ => hworking.tracked

/-- **The next cleanup moves the chain of an ended order to the memory**, and counts with it only
    the orders in `N`. -/
theorem moved_cleanupRoutingTables (h : k.Sound names N s.tables) (hnames : UsedOnce names)
    (hchain : (k.cid, k.orderId) ∈ names) (hover : k.Over N s.tables)
    (hroute : k.Live s.tables ∨ k.Moved names N s.tables) :
    k.Moved names N (s.cleanupRoutingTables hash).tables := by
  have hall : ∀ id ∈ (s.demoted hash).map Prod.fst, id = k.orderId ∨ id ∈ idsOf names N := by
    intro id hid
    obtain ⟨⟨id, positionId⟩, hmem, rfl⟩ := List.mem_map.1 hid
    obtain ⟨cid, hindex, hnone, -⟩ := mem_demoted.1 hmem
    have hname : (cid, id) ∈ names := h.consistent.indexed id cid hindex
    by_cases hne : cid = k.cid
    · exact Or.inl ((hnames _ hname _ hchain).1 hne)
    · exact Or.inr (mem_idsOf.2 ⟨cid, h.unmoved id cid hindex hnone hne, hname⟩)
  change (s.cleanupRoutingTables hash).retiredRouting.keyFifo.Covered k.orderId (idsOf names N)
  rw [retiredRouting_cleanupRoutingTables h.consistent.mode, BoundedMap.keyFifo_foldl_insert]
  rcases hroute with hlive | hmoved
  · refine BoundedFifo.covered_insertAll_of_mem ?_ ?_ hall
    · have hmem : (k.orderId, k.positionId) ∈ s.demoted hash :=
        mem_demoted.2 ⟨k.cid, hlive.indexed, hover.untracked, hlive.sent⟩
      exact List.mem_map_of_mem (f := Prod.fst) hmem
    · intro hmem
      obtain ⟨positionId, hget⟩ := BoundedMap.mem_keyFifo_iff.1 hmem
      exact absurd (hlive.unmoved.symm.trans hget) (by simp)
  · exact BoundedFifo.Covered.insertAll_of_mem hmoved hall

theorem firm_cleanupRoutingTables (h : k.Holds names N s.tables) (hnames : UsedOnce names)
    (hchain : (k.cid, k.orderId) ∈ names) :
    k.Firm names N (s.cleanupRoutingTables hash).tables := by
  refine ⟨sound_cleanupRoutingTables h.1 hnames hchain, ?_⟩
  rcases h.2 with hworking | ⟨hover, hroute⟩
  · exact Or.inl (working_cleanupRoutingTables h.1 hnames hchain hworking)
  · exact Or.inr ⟨⟨hover.untracked, hover.covered⟩,
      moved_cleanupRoutingTables h.1 hnames hchain hover hroute⟩

/-! ### Settling -/

section Settle

variable {cid : ClientOrderId} {orderId : OrderId} {sentWith : Option PositionId}

theorem get?_positionIds_settleRouting {c : ClientOrderId} :
    (s.settleRouting cid orderId sentWith).positionIds.get? c =
      if c = cid then (s.positionIds.get? c).or sentWith else s.positionIds.get? c := by
  unfold settleRouting
  cases sentWith with
  | none => simp
  | some positionId =>
    simp only [IndexMap.get?_insertIfAbsent]
    by_cases hc : c = cid
    · subst hc; simp only [if_pos]; cases s.positionIds.get? c <;> rfl
    · simp [hc]

theorem consistent_settleRouting (h : s.tables.Consistent names)
    (hname : (cid, orderId) ∈ names) :
    (s.settleRouting cid orderId sentWith).tables.Consistent names where
  mode := h.mode
  keyed := h.keyed
  separated := h.separated
  indexed id c hindex := by
    have hindex : (s.exchangeIdToCid.insert orderId cid).get? id = some c := hindex
    rw [IndexMap.get?_insert] at hindex
    split at hindex
    · rename_i hid; cases hindex; rw [hid]; exact hname
    · exact h.indexed id c hindex
  carried := h.carried
  retired := h.retired

theorem sound_settleRouting (h : k.Sound names N s.tables) (hname : (cid, orderId) ∈ names)
    (hsent : cid = k.cid → ∀ positionId, sentWith = some positionId → positionId = k.positionId)
    (hunmoved : s.orders.get? cid = none → cid ≠ k.cid → cid ∈ N) :
    k.Sound names N (s.settleRouting cid orderId sentWith).tables where
  consistent := consistent_settleRouting h.consistent hname
  sent positionId hget := by
    have hget : (s.settleRouting cid orderId sentWith).positionIds.get? k.cid =
      some positionId := hget
    rw [get?_positionIds_settleRouting] at hget
    split at hget
    · rename_i hc
      rcases Option.or_eq_some_iff.1 hget with hget | ⟨-, hget⟩
      · exact h.sent positionId hget
      · exact hsent hc.symm positionId hget
    · exact h.sent positionId hget
  moved := h.moved
  unmoved id c hindex hnone hne := by
    have hindex : (s.exchangeIdToCid.insert orderId cid).get? id = some c := hindex
    rw [IndexMap.get?_insert] at hindex
    split at hindex
    · cases hindex; exact hunmoved hnone hne
    · exact h.unmoved id c hindex hnone hne

theorem working_settleRouting (h : k.Working s.tables) :
    k.Working (s.settleRouting cid orderId sentWith).tables where
  tracked := h.tracked
  sent := by
    have hsent : s.positionIds.get? k.cid = some k.positionId := h.sent
    change (s.settleRouting cid orderId sentWith).positionIds.get? k.cid = _
    rw [get?_positionIds_settleRouting, hsent]
    split <;> rfl
  unmoved := h.unmoved

theorem firm_settleRouting (h : k.Firm names N s.tables) (hname : (cid, orderId) ∈ names)
    (hsent : cid = k.cid → ∀ positionId, sentWith = some positionId → positionId = k.positionId)
    (hunmoved : s.orders.get? cid = none → cid ≠ k.cid → cid ∈ N) :
    k.Firm names N (s.settleRouting cid orderId sentWith).tables :=
  ⟨sound_settleRouting h.1 hname hsent hunmoved, h.2.imp working_settleRouting
    fun h => ⟨⟨h.1.untracked, h.1.covered⟩, h.2⟩⟩

end Settle

/-! ### A position that closes -/

theorem sound_prunePositionIds (h : k.Sound names N s.tables) :
    k.Sound names N (s.prunePositionIds positionId).tables :=
  { h with
    sent := fun p hsent => by
      have hsent : (s.positionIds.retain _).get? k.cid = some p := hsent
      rw [IndexMap.get?_retain, Option.filter_eq_some_iff] at hsent
      exact h.sent p hsent.1
    consistent := h.consistent.setPositionIds }

theorem working_prunePositionIds (h : k.Working s.tables) :
    k.Working (s.prunePositionIds positionId).tables :=
  { h with
    sent := by
      have hsent : s.positionIds.get? k.cid = some k.positionId := h.sent
      have htracked : s.orders.tracked.contains k.cid = true :=
        IndexMap.contains_iff.2 (Option.ne_none_iff_exists'.1 h.tracked)
      change (s.positionIds.retain _).get? k.cid = _
      rw [IndexMap.get?_retain, hsent]
      simp [Option.filter, htracked] }

theorem firm_prunePositionIds (h : k.Firm names N s.tables) :
    k.Firm names N (s.prunePositionIds positionId).tables :=
  ⟨sound_prunePositionIds h.1, h.2.imp working_prunePositionIds
    fun h => ⟨⟨h.1.untracked, h.1.covered⟩, h.2⟩⟩

/-- A close of another position leaves the chain where it is. -/
theorem holds_prunePositionIds (h : k.Holds names N s.tables) (hne : positionId ≠ k.positionId) :
    k.Holds names N (s.prunePositionIds positionId).tables := by
  refine ⟨sound_prunePositionIds h.1, h.2.imp working_prunePositionIds
    fun h => ⟨⟨h.1.untracked, h.1.covered⟩, h.2.imp_left fun hlive => ?_⟩⟩
  refine ⟨hlive.indexed, ?_, hlive.unmoved⟩
  have hsent : s.positionIds.get? k.cid = some k.positionId := hlive.sent
  change (s.positionIds.retain _).get? k.cid = _
  rw [IndexMap.get?_retain, hsent]
  simp [Option.filter, Ne.symm hne]

end InstrumentState

end Rustrade
