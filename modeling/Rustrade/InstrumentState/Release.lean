import Rustrade.InstrumentState.PendingFills
import Rustrade.InstrumentState.Routing

/-!
# Where the released fills go

A report of the venue order id some buffered fills carry releases them one after another, and each
of them finds its position by the routing the fills before it left. Two things take that routing
away halfway: a fill that closes the position of an order the report has just ended
(`closesAt`), and one that fills the order up (`endsBeforeLast`), where the memory of ended
orders must then answer for it alone.
-/

set_option autoImplicit false

namespace Rustrade

namespace Orders

variable {ExchangeKey InstrumentKey : Type}

/-- Some fill but the last reports the order filled. -/
def endsBeforeLast {AssetKey : Type} (cid : ClientOrderId) (orderId : OrderId) :
    Orders ExchangeKey InstrumentKey → List (Trade AssetKey InstrumentKey) → Bool
  | orders, fill :: next :: fills =>
      match fill.orderFilledQuantity with
      | none => endsBeforeLast cid orderId orders (next :: fills)
      | some reported =>
          let advanced := orders.updateFromFill cid orderId reported
          advanced.2 || endsBeforeLast cid orderId advanced.1 (next :: fills)
  | _, _ => false

theorem get?_updateFromFill_of_ne {orders : Orders ExchangeKey InstrumentKey}
    {cid c : ClientOrderId} {orderId : OrderId} {filledQuantity : Decimal} (hne : c ≠ cid) :
    (orders.updateFromFill cid orderId filledQuantity).1.get? c = orders.get? c := by
  unfold updateFromFill
  split
  · rfl
  · split
    · split
      · rfl
      · split
        · rfl
        · simp only
          split
          · exact IndexMap.get?_remove_of_ne hne
          · rw [get?_setState, if_neg hne]
    · rfl

/-- A fill untracks its order exactly if it says so. -/
theorem get?_updateFromFill_self {orders : Orders ExchangeKey InstrumentKey}
    {cid : ClientOrderId} {orderId : OrderId} {filledQuantity : Decimal} :
    ((orders.updateFromFill cid orderId filledQuantity).1.get? cid = none ↔
      (orders.updateFromFill cid orderId filledQuantity).2 = true ∨ orders.get? cid = none) := by
  unfold updateFromFill
  cases hget : orders.get? cid with
  | none => simp [hget]
  | some order =>
    cases hs : order.state with
    | openInFlight _ => simp [hget, hs]
    | cancelInFlight _ => simp [hget, hs]
    | «open» open_ =>
      simp only [hs]
      split
      · simp [hget]
      · split
        · simp [hget]
        · split
          · have hgone : (orders.tracked.remove cid).get? cid = none := IndexMap.get?_remove_self
            exact ⟨fun _ => Or.inl rfl, fun _ => hgone⟩
          · simp [get?_setState]

end Orders

namespace InstrumentState

variable {Data ExchangeKey AssetKey InstrumentKey : Type} {hash : HashOrder}
  {s : InstrumentState Data ExchangeKey AssetKey InstrumentKey} {positionId : PositionId}
  {cid : ClientOrderId} {orderId : OrderId}

section Checked

variable [DecimalRange] [DecidableEq AssetKey] [DecidableEq InstrumentKey]

/-! ## Booking at a slot -/

/-- A fill booked at the position `positionId`, wherever it would go by itself. -/
def bookAt (hash : HashOrder) (s : InstrumentState Data ExchangeKey AssetKey InstrumentKey)
    (trade : Trade AssetKey InstrumentKey) (positionId : PositionId)
    (reduceOnlyFills : List (TradeId × ReduceOnly)) :
    InstrumentState Data ExchangeKey AssetKey InstrumentKey ×
      FillsApplied AssetKey InstrumentKey :=
  (if trade.origin.isForced then s.noteForcedFill else s).bookFill hash trade false positionId
    reduceOnlyFills

/-- Some of the fills, booked one after another at the position `positionId`, closes it. -/
def closesAt (hash : HashOrder) (positionId : PositionId) :
    InstrumentState Data ExchangeKey AssetKey InstrumentKey →
      List (Trade AssetKey InstrumentKey) → Bool
  | _, [] => false
  | s, fill :: fills =>
      (s.bookAt hash fill positionId []).2.exited.isSome ||
        closesAt hash positionId (s.bookAt hash fill positionId []).1 fills

/-- The fills go to the position at `positionId`, each by the routing the ones before it left. -/
def FillsReach (hash : HashOrder) (positionId : PositionId) :
    InstrumentState Data ExchangeKey AssetKey InstrumentKey →
      List (Trade AssetKey InstrumentKey) → Prop
  | _, [] => True
  | s, fill :: fills =>
      s.destination hash fill = .slot positionId ∧
        FillsReach hash positionId (s.replayTrade hash fill []).1 fills

theorem booksAt_bookAt {trade : Trade AssetKey InstrumentKey}
    {reduceOnlyFills : List (TradeId × ReduceOnly)} :
    BooksAt positionId s (s.bookAt hash trade positionId reduceOnlyFills).1 := by
  unfold bookAt
  split
  · have hnoted : BooksAt positionId s s.noteForcedFill := .tearSheet rfl
    exact hnoted.trans booksAt_bookFill
  · exact booksAt_bookFill

/-- A fill that goes to a slot is booked there, the positions of ended orders are pruned if it
    closed the one there, and its order advances. -/
theorem replayTrade_of_slot {trade : Trade AssetKey InstrumentKey}
    {reduceOnlyFills : List (TradeId × ReduceOnly)}
    (h : s.destination hash trade = .slot positionId) :
    s.replayTrade hash trade reduceOnlyFills =
      ((if (s.bookAt hash trade positionId reduceOnlyFills).2.exited.isSome then
          (s.bookAt hash trade positionId reduceOnlyFills).1.prunePositionIds positionId
        else (s.bookAt hash trade positionId reduceOnlyFills).1).advanceOrder hash trade,
        (s.bookAt hash trade positionId reduceOnlyFills).2) := by
  have hnoted : s.noteForcedFill.destination hash trade = .slot positionId := h
  unfold replayTrade bookAt
  by_cases hforced : trade.origin.isForced = true
  · simp only [if_pos hforced, hnoted]; rfl
  · simp only [if_neg hforced, h]; rfl

omit [DecimalRange] [DecidableEq AssetKey] [DecidableEq InstrumentKey] in
/-- Pruning at a closed position keeps what the tracked orders were sent with. -/
theorem get?_positionIds_prunePositionIds (h : s.orders.tracked.contains cid = true) :
    (s.prunePositionIds positionId).positionIds.get? cid = s.positionIds.get? cid := by
  change (s.positionIds.retain _).get? cid = _
  rw [IndexMap.get?_retain]
  cases s.positionIds.get? cid with
  | none => rfl
  | some _ => simp [Option.filter, h]

/-! ## An order the report has ended -/

/-- The fills of an ended order reach its position up to the first that closes it. -/
theorem fillsReach_of_ended {fills : List (Trade AssetKey InstrumentKey)}
    (hmode : s.position.mode = .hedging) (hindex : s.exchangeIdToCid.get? orderId = some cid)
    (hsent : s.positionIds.get? cid = some positionId) (hended : s.orders.get? cid = none)
    (hfills : ∀ fill ∈ fills, fill.orderId = orderId)
    (hcloses : closesAt hash positionId s fills.dropLast = false) :
    FillsReach hash positionId s fills := by
  induction fills generalizing s with
  | nil => trivial
  | cons fill fills ih =>
    have hfill : fill.orderId = orderId := hfills fill (List.mem_cons_self ..)
    have hslot : s.destination hash fill = .slot positionId :=
      destination_of_indexed hmode (hfill ▸ hindex) hsent
    refine ⟨hslot, ?_⟩
    cases fills with
    | nil => trivial
    | cons next fills =>
      rw [List.dropLast_cons_cons, closesAt, Bool.or_eq_false_iff] at hcloses
      have hbooks : BooksAt positionId s (s.bookAt hash fill positionId []).1 := booksAt_bookAt
      -- No order is left to advance, so the routing is the same for the next fill.
      have hstill : (s.bookAt hash fill positionId []).1.advanceOrder hash fill =
          (s.bookAt hash fill positionId []).1 := by
        refine advanceOrder_eq_self fun c hc => ?_
        rw [trackedOrderCid_of_indexed (by rw [hbooks.exchangeIdToCid, hfill, hindex])] at hc
        cases hc
        exact (congrArg (fun orders => orders.get? cid) hbooks.orders).trans hended
      rw [replayTrade_of_slot hslot, if_neg (by rw [hcloses.1]; simp), hstill]
      exact ih (hbooks.mode.trans hmode) (by rw [hbooks.exchangeIdToCid, hindex])
        (by rw [hbooks.positionIds, hsent])
        ((congrArg (fun orders => orders.get? cid) hbooks.orders).trans hended)
        (fun f hf => hfills f (List.mem_cons_of_mem _ hf)) hcloses.2

/-! ## An order the memory of ended orders answers for -/

theorem fillsReach_of_retired {fills : List (Trade AssetKey InstrumentKey)}
    (hmode : s.position.mode = .hedging) (hindex : s.exchangeIdToCid.get? orderId = none)
    (hcarries : ∀ c, s.orders.carries c orderId = false)
    (hretired : s.retiredRouting.get? orderId = some positionId)
    (hfills : ∀ fill ∈ fills, fill.orderId = orderId) :
    FillsReach hash positionId s fills := by
  induction fills generalizing s with
  | nil => trivial
  | cons fill fills ih =>
    have hfill : fill.orderId = orderId := hfills fill (List.mem_cons_self ..)
    have hslot : s.destination hash fill = .slot positionId :=
      destination_of_retired hmode (by simp [indexedPositionId, hfill, hindex])
        (matchedOrder_eq_none (hfill ▸ hcarries)) (hfill ▸ hretired)
    refine ⟨hslot, ?_⟩
    have hbooks : BooksAt positionId s (s.bookAt hash fill positionId []).1 := booksAt_bookAt
    rw [replayTrade_of_slot hslot]
    set booked := (s.bookAt hash fill positionId []).1
    -- Pruning drops rows of ended orders, which the memory of them does not read.
    have hpruned : ∀ s' : InstrumentState Data ExchangeKey AssetKey InstrumentKey,
        s'.orders = s.orders → s'.exchangeIdToCid = s.exchangeIdToCid →
        s'.retiredRouting = s.retiredRouting → s'.position.mode = .hedging →
        FillsReach hash positionId (s'.advanceOrder hash fill) fills := by
      intro s' horders hindex' hretired' hmode'
      have hstill : s'.advanceOrder hash fill = s' := by
        refine advanceOrder_eq_self fun c hc => ?_
        rcases trackedOrderCid_cases hc with hc | hc
        · rw [hindex', hfill, hindex] at hc; exact absurd hc (by simp)
        · rw [horders, hfill, hcarries c] at hc; exact absurd hc (by simp)
      rw [hstill]
      exact ih hmode' (by rw [hindex', hindex]) (fun c => by rw [horders, hcarries c])
        (by rw [hretired', hretired]) fun f hf => hfills f (List.mem_cons_of_mem _ hf)
    split
    · exact hpruned _ hbooks.orders hbooks.exchangeIdToCid hbooks.retiredRouting
        (hbooks.mode.trans hmode)
    · exact hpruned _ hbooks.orders hbooks.exchangeIdToCid hbooks.retiredRouting
        (hbooks.mode.trans hmode)

/-! ## An order the report leaves tracked -/

/-- `orderId` is the one id indexed for `cid`, no other tracked order carries it, and every order
    indexed is tracked. -/
structure Sole (s : InstrumentState Data ExchangeKey AssetKey InstrumentKey)
    (cid : ClientOrderId) (orderId : OrderId) : Prop where
  indexed : ∀ id, s.exchangeIdToCid.get? id = some cid → id = orderId
  carried : ∀ other, other ≠ cid → s.orders.carries other orderId = false
  tracked : ∀ id c, s.exchangeIdToCid.get? id = some c → c ≠ cid →
    s.orders.tracked.contains c = true

omit [DecimalRange] [DecidableEq AssetKey] [DecidableEq InstrumentKey] in
theorem Sole.congr {s' : InstrumentState Data ExchangeKey AssetKey InstrumentKey}
    (h : s.Sole cid orderId) (hindex : s'.exchangeIdToCid = s.exchangeIdToCid)
    (horders : ∀ c, c ≠ cid → s'.orders.get? c = s.orders.get? c) : s'.Sole cid orderId where
  indexed id hid := h.indexed id (hindex ▸ hid)
  carried other hne := (Orders.carries_congr (horders other hne)).trans (h.carried other hne)
  tracked id c hid hne := by
    have htracked := h.tracked id c (hindex ▸ hid) hne
    have hget : s'.orders.tracked.get? c = s.orders.tracked.get? c := horders c hne
    rw [IndexMap.contains] at htracked ⊢
    rwa [hget]

omit [DecimalRange] [DecidableEq AssetKey] [DecidableEq InstrumentKey] in
variable (hash) in
/-- The one chain that leaves the tables when the order ends goes to the memory. -/
theorem retired_of_sole (h : s.Sole cid orderId) (hmode : s.position.mode = .hedging)
    (hindex : s.exchangeIdToCid.get? orderId = some cid)
    (hsent : s.positionIds.get? cid = some positionId) (hended : s.orders.get? cid = none) :
    (s.cleanupRoutingTables hash).exchangeIdToCid.get? orderId = none ∧
      (s.cleanupRoutingTables hash).retiredRouting.get? orderId = some positionId := by
  constructor
  · refine Option.eq_none_iff_forall_not_mem.2 fun c hc => ?_
    obtain ⟨hc, htracked⟩ := get?_exchangeIdToCid_cleanupRoutingTables.1 hc
    rw [hindex] at hc
    cases hc
    obtain ⟨order, hget⟩ := IndexMap.contains_iff.1 htracked
    exact absurd (hended.symm.trans hget) (by simp)
  · rw [retiredRouting_cleanupRoutingTables hmode]
    have hmem : (orderId, positionId) ∈ s.demoted hash :=
      mem_demoted.2 ⟨cid, hindex, hended, hsent⟩
    refine BoundedMap.get?_foldl_insert_of_all (List.ne_nil_of_mem hmem) ?_
    rintro ⟨id, p⟩ he
    obtain ⟨c, hc, huntracked, hp⟩ := mem_demoted.1 he
    by_cases hne : c = cid
    · subst hne
      rw [h.indexed id hc, Option.some.inj (hp.symm.trans hsent)]
    · obtain ⟨order, hget⟩ := IndexMap.contains_iff.1 (h.tracked id c hc hne)
      exact absurd (huntracked.symm.trans hget) (by simp)

/-- The fills of a tracked order reach its position, whether or not one of them fills it up. -/
theorem fillsReach_of_tracked {fills : List (Trade AssetKey InstrumentKey)}
    (hmode : s.position.mode = .hedging) (hindex : s.exchangeIdToCid.get? orderId = some cid)
    (hsent : s.positionIds.get? cid = some positionId)
    (htracked : s.orders.tracked.contains cid = true)
    (hfills : ∀ fill ∈ fills, fill.orderId = orderId)
    (hends : s.orders.endsBeforeLast cid orderId fills = false ∨ s.Sole cid orderId) :
    FillsReach hash positionId s fills := by
  induction fills generalizing s with
  | nil => trivial
  | cons fill fills ih =>
    have hfill : fill.orderId = orderId := hfills fill (List.mem_cons_self ..)
    have hslot : s.destination hash fill = .slot positionId :=
      destination_of_indexed hmode (hfill ▸ hindex) hsent
    refine ⟨hslot, ?_⟩
    cases fills with
    | nil => trivial
    | cons next fills =>
      have hbooks : BooksAt positionId s (s.bookAt hash fill positionId []).1 := booksAt_bookAt
      have hrest : ∀ f ∈ next :: fills, f.orderId = orderId :=
        fun f hf => hfills f (List.mem_cons_of_mem _ hf)
      rw [replayTrade_of_slot hslot]
      set booked := (s.bookAt hash fill positionId []).1
      have hadvance : ∀ s' : InstrumentState Data ExchangeKey AssetKey InstrumentKey,
          s'.orders = s.orders → s'.exchangeIdToCid = s.exchangeIdToCid →
          s'.positionIds.get? cid = some positionId → s'.position.mode = .hedging →
          FillsReach hash positionId (s'.advanceOrder hash fill) (next :: fills) := by
        intro s' horders hindex' hsent' hmode'
        have hcid : s'.trackedOrderCid hash fill.orderId = some cid :=
          trackedOrderCid_of_indexed (by rw [hindex', hfill, hindex])
        unfold advanceOrder
        cases hreported : fill.orderFilledQuantity with
        | none =>
          refine ih hmode' (hindex' ▸ hindex) hsent' (horders ▸ htracked) hrest ?_
          refine hends.imp (fun hends => ?_) fun hsole => hsole.congr hindex' fun c _ => by
            rw [horders]
          rw [Orders.endsBeforeLast, hreported] at hends
          rw [horders]; exact hends
        | some reported =>
          simp only [hcid]
          have hself : (s.orders.updateFromFill cid orderId reported).1.get? cid = none ↔
              (s.orders.updateFromFill cid orderId reported).2 = true ∨ s.orders.get? cid = none :=
            Orders.get?_updateFromFill_self
          obtain ⟨order, hget⟩ := IndexMap.contains_iff.1 htracked
          have hget : s.orders.get? cid = some order := hget
          rw [horders, hfill]
          split
          · -- The fill ends the order, and the memory answers for those after it.
            rename_i hended
            have hsole : s.Sole cid orderId := by
              refine hends.resolve_left fun hends => ?_
              rw [Orders.endsBeforeLast, hreported, Bool.or_eq_false_iff] at hends
              exact absurd (hends.1.symm.trans hended) (by simp)
            set s'' : InstrumentState Data ExchangeKey AssetKey InstrumentKey :=
              { s' with orders := (s.orders.updateFromFill cid orderId reported).1 }
            have hsole' : s''.Sole cid orderId := hsole.congr hindex' fun c hne =>
              Orders.get?_updateFromFill_of_ne hne
            have hgone : s''.orders.get? cid = none := hself.2 (Or.inl hended)
            obtain ⟨hpruned, hretired⟩ := retired_of_sole hash hsole' hmode'
              (hindex' ▸ hindex) hsent' hgone
            refine fillsReach_of_retired hmode' hpruned (fun c => ?_) hretired hrest
            by_cases hne : c = cid
            · subst hne; exact Orders.carries_of_untracked hgone
            · exact hsole'.carried c hne
          · rename_i hnot
            have hnot : (s.orders.updateFromFill cid orderId reported).2 = false := by
              simpa using hnot
            refine ih hmode' (hindex' ▸ hindex) hsent' ?_ hrest ?_
            · rw [IndexMap.contains, Option.isSome_iff_ne_none]
              intro hnone
              rcases hself.1 hnone with h | h
              · exact absurd (hnot.symm.trans h) (by simp)
              · exact absurd (hget.symm.trans h) (by simp)
            · refine hends.imp (fun hends => ?_) fun hsole => hsole.congr hindex' fun c hne =>
                Orders.get?_updateFromFill_of_ne hne
              rw [Orders.endsBeforeLast, hreported, Bool.or_eq_false_iff] at hends
              exact hends.2
      split
      · refine hadvance _ hbooks.orders hbooks.exchangeIdToCid ?_ (hbooks.mode.trans hmode)
        rw [get?_positionIds_prunePositionIds (by rw [hbooks.orders]; exact htracked),
          hbooks.positionIds, hsent]
      · exact hadvance _ hbooks.orders hbooks.exchangeIdToCid
          (by rw [hbooks.positionIds, hsent]) (hbooks.mode.trans hmode)

/-! ## What a report releases -/

section Report

variable {order : Order ExchangeKey InstrumentKey OrderState}

omit [DecimalRange] [DecidableEq AssetKey] [DecidableEq InstrumentKey] in
theorem mode_releasing : (s.releasing hash order orderId).position.mode = s.position.mode :=
  (booksAt_noteOpenRejected .netting).mode

omit [DecimalRange] [DecidableEq AssetKey] [DecidableEq InstrumentKey] in
theorem orders_releasing :
    (s.releasing hash order orderId).orders = s.orders.updateFromOrderSnapshot order :=
  orders_updated hash

omit [DecimalRange] [DecidableEq AssetKey] [DecidableEq InstrumentKey] in
theorem get?_exchangeIdToCid_releasing :
    (s.releasing hash order orderId).exchangeIdToCid.get? orderId = some order.key.cid :=
  IndexMap.get?_insert_self

omit [DecimalRange] [DecidableEq AssetKey] [DecidableEq InstrumentKey] in
/-- An id the release finds indexed for another order was, and that order is tracked. -/
theorem get?_exchangeIdToCid_releasing_of_ne (orderId) {id : OrderId} {c : ClientOrderId}
    (hne : id ≠ orderId)
    (h : (s.releasing hash order orderId).exchangeIdToCid.get? id = some c) :
    s.exchangeIdToCid.get? id = some c ∧
      (s.orders.updateFromOrderSnapshot order).tracked.contains c = true := by
  have h : (s.updated hash order).exchangeIdToCid.get? id = some c :=
    (IndexMap.get?_insert_of_ne hne).symm.trans h
  have hbooks : BooksAt .netting s (s.noteOpenRejected order) := booksAt_noteOpenRejected _
  obtain ⟨hindex, htracked⟩ := get?_exchangeIdToCid_cleanupRoutingTables.1 h
  rw [← orders_updated (s := s) hash]
  exact ⟨by rw [← hindex, ← hbooks.exchangeIdToCid], htracked⟩

omit [DecimalRange] [DecidableEq AssetKey] [DecidableEq InstrumentKey] in
/-- The release finds the position its order was sent with, whether the report keeps or ends it. -/
theorem get?_positionIds_releasing
    (hsent : s.positionIds.get? order.key.cid = some positionId) :
    (s.releasing hash order orderId).positionIds.get? order.key.cid = some positionId := by
  have hbooks : BooksAt .netting s (s.noteOpenRejected order) := booksAt_noteOpenRejected _
  have hupdated : (s.updated hash order).positionIds.get? order.key.cid =
      if (s.orders.updateFromOrderSnapshot order).tracked.contains order.key.cid then
        some positionId else none := by
    rw [← orders_updated (s := s) hash, ← hsent, ← hbooks.positionIds]
    exact get?_positionIds_cleanupRoutingTables
  change ((s.updated hash order).settleRouting order.key.cid orderId
    (s.positionIds.get? order.key.cid)).positionIds.get? order.key.cid = _
  rw [hsent]
  change ((s.updated hash order).positionIds.insertIfAbsent order.key.cid positionId).get?
    order.key.cid = _
  simp only [IndexMap.get?_insertIfAbsent, if_pos, hupdated]
  split <;> rfl

/-- Only `orderId` is indexed for `cid`, and only it can carry that id. -/
def soleId (s : InstrumentState Data ExchangeKey AssetKey InstrumentKey) (cid : ClientOrderId)
    (orderId : OrderId) : Bool :=
  (s.exchangeIdToCid.entries.all fun e => e.2 ≠ cid || e.1 = orderId) &&
    s.orders.tracked.keys.all fun other => other = cid || !s.orders.carries other orderId

omit [DecimalRange] [DecidableEq AssetKey] [DecidableEq InstrumentKey] in
theorem sole_releasing (h : s.soleId order.key.cid orderId = true) :
    (s.releasing hash order orderId).Sole order.key.cid orderId := by
  simp only [soleId, Bool.and_eq_true, List.all_eq_true, Bool.or_eq_true, decide_eq_true_eq,
    Bool.not_eq_true', Prod.forall] at h
  have hchange : Orders.Change s.orders (.updateFromOrderSnapshot order)
      (s.orders.updateFromOrderSnapshot order) := Orders.updateFromOrderSnapshot_change
  constructor
  · intro id hid
    by_cases hne : id = orderId
    · exact hne
    · have hindexed := (get?_exchangeIdToCid_releasing_of_ne _ hne hid).1
      exact (h.1 id _ (IndexMap.get?_eq_some_iff.1 hindexed)).resolve_left (by simp)
  · intro other hne
    rw [orders_releasing, Orders.carries_congr (hchange.get?_of_ne rfl hne)]
    by_cases htracked : other ∈ s.orders.tracked.keys
    · exact (h.2 other htracked).resolve_left hne
    · refine Orders.carries_of_untracked ?_
      exact IndexMap.not_contains_iff.1 (by
        rw [← Bool.not_eq_true, ← IndexMap.mem_keys_iff_contains]; exact htracked)
  · intro id c hid hne
    rw [orders_releasing]
    refine (get?_exchangeIdToCid_releasing_of_ne orderId ?_ hid).2
    rintro rfl
    exact hne (Option.some.inj (hid.symm.trans get?_exchangeIdToCid_releasing))

/-- The routing of the fills a report releases lasts to the last of them. -/
def RoutingLasts (hash : HashOrder)
    (s : InstrumentState Data ExchangeKey AssetKey InstrumentKey)
    (order : Order ExchangeKey InstrumentKey OrderState) (orderId : OrderId)
    (positionId : PositionId) : Prop :=
  let fills := s.pendingFills.filter fun fill => fill.orderId = orderId
  let orders := s.orders.updateFromOrderSnapshot order
  if orders.tracked.contains order.key.cid then
    orders.endsBeforeLast order.key.cid orderId fills = false ∨
      s.soleId order.key.cid orderId = true
  else closesAt hash positionId (s.releasing hash order orderId) fills.dropLast = false

instance {order : Order ExchangeKey InstrumentKey OrderState} :
    Decidable (RoutingLasts hash s order orderId positionId) := by
  unfold RoutingLasts; exact inferInstance

/-- **The fills a report releases reach the position its order was sent with**, if their routing
    lasts. -/
theorem fillsReach_releasing (hmode : s.position.mode = .hedging)
    (hsent : s.positionIds.get? order.key.cid = some positionId)
    (hlasts : RoutingLasts hash s order orderId positionId) :
    FillsReach hash positionId (s.releasing hash order orderId)
      (s.pendingFills.filter fun fill => fill.orderId = orderId) := by
  have hfills : ∀ fill ∈ s.pendingFills.filter fun fill => fill.orderId = orderId,
      fill.orderId = orderId := fun fill hfill => by simpa using (List.mem_filter.1 hfill).2
  unfold RoutingLasts at hlasts
  simp only at hlasts
  split at hlasts
  · rename_i htracked
    refine fillsReach_of_tracked (mode_releasing.trans hmode) get?_exchangeIdToCid_releasing
      (get?_positionIds_releasing hsent) (by rwa [orders_releasing]) hfills ?_
    rw [orders_releasing]
    exact hlasts.imp_right sole_releasing
  · rename_i hended
    refine fillsReach_of_ended (mode_releasing.trans hmode) get?_exchangeIdToCid_releasing
      (get?_positionIds_releasing hsent) ?_ hfills hlasts
    rw [orders_releasing]
    exact IndexMap.not_contains_iff.1 (by simpa using hended)

end Report

/-! ## What leaves the buffer -/

section Buffer

variable {trade : Trade AssetKey InstrumentKey} {reduceOnlyFills : List (TradeId × ReduceOnly)}

theorem pendingFills_replayTrade :
    (s.replayTrade hash trade reduceOnlyFills).1.pendingFills =
      if s.destination hash trade = .queued then s.pendingFills ++ [trade]
      else s.pendingFills := by
  cases hdest : s.destination hash trade with
  | queued =>
    obtain ⟨noted, hnoted, heq⟩ := replayTrade_queued reduceOnlyFills hdest
    rw [heq, if_pos rfl]
  | unallocated =>
    rw [if_neg (by simp)]
    exact ((replayTrade_unallocated reduceOnlyFills hdest).1
      .netting).pendingFills
  | slot q | fallback q | unmatched q | settles q held =>
    rw [if_neg (by simp)]
    have hplaced : PlacedAt hash q trade.orderId s (s.replayTrade hash trade reduceOnlyFills) :=
      placedAt_replayTrade _ (by rw [hdest]; rfl)
    exact hplaced.leaves.1

/-- Fills that reach a position leave the buffer as it is. -/
theorem pendingFills_of_fillsReach {fills : List (Trade AssetKey InstrumentKey)}
    {applied : FillsApplied AssetKey InstrumentKey} (h : FillsReach hash positionId s fills) :
    (replayTrades hash [] s applied fills).1.pendingFills = s.pendingFills := by
  induction fills generalizing s applied with
  | nil => rfl
  | cons fill fills ih =>
    refine (ih h.2).trans ?_
    rw [pendingFills_replayTrade, h.1, if_neg (by simp)]

theorem mem_pendingFills_replayTrades {fills : List (Trade AssetKey InstrumentKey)}
    {applied : FillsApplied AssetKey InstrumentKey}
    (h : trade ∈ (replayTrades hash reduceOnlyFills s applied fills).1.pendingFills) :
    trade ∈ s.pendingFills ∨ trade ∈ fills := by
  induction fills generalizing s applied with
  | nil => exact Or.inl h
  | cons fill fills ih =>
    rcases ih h with h | h
    · rw [pendingFills_replayTrade] at h
      split at h
      · rcases List.mem_append.1 h with h | h
        · exact Or.inl h
        · exact Or.inr (by simp [List.mem_singleton.1 h])
      · exact Or.inl h
    · exact Or.inr (List.mem_cons_of_mem _ h)

/-- A report buffers nothing. -/
theorem mem_pendingFills_updateFromOrderSnapshot
    {order : Order ExchangeKey InstrumentKey OrderState}
    (h : trade ∈ (s.updateFromOrderSnapshot hash order).1.pendingFills) :
    trade ∈ s.pendingFills := by
  cases hack : s.ackExchangeId order with
  | none =>
    rwa [updateFromOrderSnapshot_of_no_ack hack, pendingFills_updated] at h
  | some exchangeId =>
    by_cases hpending : s.pendingFills = []
    · rw [updateFromOrderSnapshot_of_ack hack hpending] at h
      exact pendingFills_updated (s := s) hash ▸ h
    · rw [updateFromOrderSnapshot_releases _ hack hpending] at h
      rcases mem_pendingFills_replayTrades h with h | h
      · exact List.mem_of_mem_filter h
      · exact List.mem_of_mem_filter h

end Buffer

end Checked

end InstrumentState

end Rustrade
