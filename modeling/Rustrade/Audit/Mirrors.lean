import Rustrade.Audit.StateReplica
import Rustrade.Execution.HoldingMove
import Rustrade.InstrumentState.Sized

/-!
# An instrument and its copy in the replica

A request in flight is on the engine's orders and in its data, and on neither of the replica's. So
the two copies of an instrument differ in their orders, their routing and what their data makes of
requests; they agree on the position and on all that moves one, as long as the data's price is none
of what a request changes. The routing is read for where a fill goes, which in netting mode is the
one slot whatever it holds; in hedging mode the copies agree on a fill the two routings take to one
place.
-/

set_option autoImplicit false

namespace Rustrade

/-! ## Data and requests in flight -/

section Reports

variable (Data : Type) {ExchangeKey AssetKey InstrumentKey : Type}
  [InstrumentDataState Data ExchangeKey AssetKey InstrumentKey]

/-- What reaches an instrument's data from outside. -/
inductive Report (Data : Type) {ExchangeKey AssetKey InstrumentKey : Type}
    [InstrumentDataState Data ExchangeKey AssetKey InstrumentKey] where
  | market (event : MarketEvent InstrumentKey (InstrumentDataState.MarketEventKind Data))
  | account (event : AccountEvent ExchangeKey AssetKey InstrumentKey)

variable {Data}

def Report.process (data : Data) : Report Data → Data
  | .market event => InstrumentDataState.processMarket data event
  | .account event => InstrumentDataState.processAccount data event

/-- The two give the same price, now and after any reports. -/
def SamePrices (data data' : Data) : Prop :=
  ∀ reports : List (Report Data),
    InstrumentDataState.price (reports.foldl Report.process data) =
      InstrumentDataState.price (reports.foldl Report.process data')

variable (Data) in
/-- The price is of the market and the account: a request in flight does not move it. -/
structure PricedByReports : Prop where
  recordInFlightOpen : ∀ (data : Data) (request : OrderRequestOpen ExchangeKey InstrumentKey)
    (timeSent : DateTime),
    SamePrices (InstrumentDataState.recordInFlightOpen data request timeSent) data
  recordInFlightCancel : ∀ (data : Data) (request : OrderRequestCancel ExchangeKey InstrumentKey)
    (timeSent : DateTime),
    SamePrices (InstrumentDataState.recordInFlightCancel data request timeSent) data

variable {data data' data'' : Data}

theorem SamePrices.refl (data : Data) : SamePrices data data := fun _ => rfl

theorem SamePrices.trans (h : SamePrices data data') (h' : SamePrices data' data'') :
    SamePrices data data'' := fun reports => (h reports).trans (h' reports)

theorem SamePrices.price (h : SamePrices data data') :
    InstrumentDataState.price data = InstrumentDataState.price data' := h []

theorem SamePrices.process (h : SamePrices data data') (report : Report Data) :
    SamePrices (report.process data) (report.process data') := fun reports => h (report :: reports)

end Reports

namespace InstrumentState

variable {Data ExchangeKey AssetKey InstrumentKey : Type} {hash hash' : HashOrder}
  {s s' s'' r r' : InstrumentState Data ExchangeKey AssetKey InstrumentKey}

/-! ## What moves no position -/

/-- Nothing but the position, the orders and their routing has changed; no fill has begun to wait,
    and no order was noted as reduce-only. -/
structure Steady (s s' : InstrumentState Data ExchangeKey AssetKey InstrumentKey) : Prop where
  frame : s'.frame = s.frame
  data : s'.data = s.data
  waiting : s.pendingFills = [] → s'.pendingFills = []
  unmarked : s.reduceOnly = .empty → s'.reduceOnly = .empty

/-- The position is as it was, too. -/
structure Quiet (s s' : InstrumentState Data ExchangeKey AssetKey InstrumentKey) : Prop
    extends Steady s s' where
  position : s'.position = s.position

theorem Steady.refl : Steady s s := ⟨rfl, rfl, id, id⟩

theorem Steady.trans (h : Steady s s') (h' : Steady s' s'') : Steady s s'' :=
  ⟨h'.frame.trans h.frame, h'.data.trans h.data, h'.waiting ∘ h.waiting, h'.unmarked ∘ h.unmarked⟩

theorem Quiet.refl : Quiet s s := ⟨.refl, rfl⟩

theorem Quiet.trans (h : Quiet s s') (h' : Quiet s' s'') : Quiet s s'' :=
  ⟨h.toSteady.trans h'.toSteady, h'.position.trans h.position⟩

theorem BooksAt.steady {positionId : PositionId} (h : BooksAt positionId s s') : Steady s s' :=
  ⟨congrArg Prod.fst h.unwritten, h.data, fun hs => h.pendingFills.trans hs,
    fun hs => h.reduceOnly.trans hs⟩

variable (hash) in
/-- No book of reduce-only orders comes of none. -/
theorem quiet_cleanupRoutingTables : Quiet s (s.cleanupRoutingTables hash) := by
  refine ⟨⟨rfl, rfl, id, fun h => ?_⟩, rfl⟩
  show s.reduceOnly.retireUntracked s.orders.tracked.contains = _
  rw [h]
  rfl

theorem quiet_orders (orders : Orders ExchangeKey InstrumentKey) :
    Quiet s { s with orders := orders } := ⟨⟨rfl, rfl, id, id⟩, rfl⟩

theorem quiet_noteOpenRejected (order : Order ExchangeKey InstrumentKey OrderState) :
    Quiet s (s.noteOpenRejected order) := by
  refine ⟨(booksAt_noteOpenRejected .netting).steady, ?_⟩
  unfold noteOpenRejected
  split
  · split <;> rfl
  · rfl

theorem quiet_settleRouting (cid : ClientOrderId) (exchangeId : OrderId)
    (sentWith : Option PositionId) : Quiet s (s.settleRouting cid exchangeId sentWith) := by
  refine ⟨⟨rfl, rfl, id, fun h => ?_⟩, rfl⟩
  show s.reduceOnly.acknowledge cid exchangeId = _
  rw [h]
  rfl

theorem quiet_updateFromCancelResponse (response : OrderResponseCancel ExchangeKey InstrumentKey) :
    Quiet s (s.updateFromCancelResponse hash response) := by
  have hcleaned : Quiet s ({ s with
      orders := s.orders.updateFromCancelResponse response }.cleanupRoutingTables hash) :=
    (quiet_orders _).trans (quiet_cleanupRoutingTables hash)
  refine hcleaned.trans ?_
  show Quiet _ (drainPendingFills _)
  unfold drainPendingFills
  split
  · exact .refl
  · exact ⟨⟨rfl, rfl, fun _ => rfl, id⟩, rfl⟩

theorem quiet_beginAccountResync : Quiet s s.beginAccountResync := ⟨⟨rfl, rfl, id, id⟩, rfl⟩

theorem quiet_retireUnlisted (listed : List ClientOrderId) (ordersComplete : Bool) :
    Quiet s (s.retireUnlisted hash listed ordersComplete) := by
  have hunlisted (orders : Orders ExchangeKey InstrumentKey) :
      Quiet s { s with ordersOpenAtResync := .empty, orders := orders } :=
    ⟨⟨rfl, rfl, id, id⟩, rfl⟩
  exact (hunlisted _).trans (quiet_cleanupRoutingTables hash)

section Checked

variable [DecimalRange] [DecidableEq AssetKey] [DecidableEq InstrumentKey]
  {trade : Trade AssetKey InstrumentKey} {reduceOnlyFills : List (TradeId × ReduceOnly)}

theorem releaseFills_of_none (hwaiting : s.pendingFills = []) (exchangeId : OrderId) :
    s.releaseFills hash exchangeId reduceOnlyFills = (s, .none) := by
  unfold releaseFills
  rw [hwaiting]
  rfl

/-- A report releases no fill where none waits. -/
theorem replayOrderSnapshot_quiet (hwaiting : s.pendingFills = [])
    (order : Order ExchangeKey InstrumentKey OrderState) :
    Quiet s (s.replayOrderSnapshot hash order reduceOnlyFills).1 ∧
      (s.replayOrderSnapshot hash order reduceOnlyFills).2 = .none := by
  have hupdated : Quiet s ({ s.noteOpenRejected order with
      orders := (s.noteOpenRejected order).orders.updateFromOrderSnapshot order
      }.cleanupRoutingTables hash) :=
    ((quiet_noteOpenRejected order).trans (quiet_orders _)).trans (quiet_cleanupRoutingTables hash)
  unfold replayOrderSnapshot
  simp only
  cases s.ackExchangeId order with
  | none => exact ⟨hupdated, rfl⟩
  | some exchangeId =>
    have hsettled := hupdated.trans (quiet_settleRouting order.key.cid exchangeId
      (s.positionIds.get? order.key.cid))
    show Quiet s (releaseFills hash _ _ _).1 ∧ (releaseFills hash _ _ _).2 = .none
    rw [releaseFills_of_none (hsettled.waiting hwaiting)]
    exact ⟨hsettled, rfl⟩

theorem quiet_updateFromAccountSnapshot (hwaiting : s.pendingFills = [])
    (snapshot : InstrumentAccountSnapshot ExchangeKey InstrumentKey) :
    Quiet s (s.updateFromAccountSnapshot hash snapshot) := by
  have hreported : ∀ orders : List (Order ExchangeKey InstrumentKey OrderState),
      Quiet s (orders.foldl (fun self order => (self.updateFromOrderSnapshot hash order).1) s) := by
    intro orders
    induction orders generalizing s with
    | nil => exact .refl
    | cons order orders ih =>
      have hfirst : Quiet s (s.updateFromOrderSnapshot hash order).1 :=
        (replayOrderSnapshot_quiet hwaiting order).1
      exact hfirst.trans (ih (hfirst.waiting hwaiting))
  exact (hreported snapshot.orders).trans (quiet_retireUnlisted _ _)

/-! ## Where a fill goes -/

/-- The place, whatever a fill is counted as there: a settlement that takes no more than is held is
    a fill of that position like any other. -/
def Destination.plain (quantity : Decimal) : Destination → Destination
  | .slot positionId | .fallback positionId | .unmatched positionId => .slot positionId
  | .settles positionId held =>
      if held < |quantity| then .settles positionId held else .slot positionId
  | .unallocated => .unallocated
  | .queued => .queued

variable (hash trade reduceOnlyFills) in
/-- But for what is counted of it, a fill does at its place what it does at the plain one. -/
theorem deliver_plain (s : InstrumentState Data ExchangeKey AssetKey InstrumentKey)
    (place : Destination) : ∃ s', Quiet s s' ∧ s.deliver hash trade place reduceOnlyFills =
      s'.deliver hash trade (place.plain trade.quantity) reduceOnlyFills := by
  cases place with
  | slot | unallocated | queued => exact ⟨s, .refl, rfl⟩
  | fallback positionId =>
    exact ⟨{ s with
      tearSheet := s.tearSheet.recordFillRoutedByFallback positionId
        ("no PositionId mapping for order " ++ trade.orderId.val) }, ⟨⟨rfl, rfl, id, id⟩, rfl⟩, rfl⟩
  | unmatched positionId =>
    exact ⟨{ s with
      tearSheet := s.tearSheet.recordFillUnmatched positionId
        ("no order matched " ++ trade.orderId.val) }, ⟨⟨rfl, rfl, id, id⟩, rfl⟩, rfl⟩
  | settles positionId held =>
    refine ⟨s, .refl, ?_⟩
    by_cases hcut : held < |trade.quantity|
    · rw [Destination.plain, if_pos hcut]
    · rw [Destination.plain, if_neg hcut]
      simp [deliver, hcut]

variable (hash trade s hash' r) in
/-- The routings of the two take the fill to the same place, and it waits in neither. -/
def RoutesAlike : Prop :=
  (s.destination hash trade).plain trade.quantity =
      (r.destination hash' trade).plain trade.quantity ∧
    s.destination hash trade ≠ .queued ∧ r.destination hash' trade ≠ .queued

instance : Decidable (RoutesAlike hash hash' s r trade) :=
  inferInstanceAs (Decidable (_ ∧ _ ∧ _))

/-! ## Fills -/

/-- A fill's move, and whether it was cut. -/
def moveOf (moved : Trade AssetKey InstrumentKey × Option (ReduceOnlyCapped InstrumentKey)) :
    Trade AssetKey InstrumentKey × Bool := (moved.1, moved.2.isSome)

section Move

variable {effective : Trade AssetKey InstrumentKey} {positionId : PositionId}
  {reduceOnly : ReduceOnly} {move : HoldingMove}

omit [DecidableEq InstrumentKey]

theorem moveHolding_none
    (h : trade.holdingMove s.instrument (s.heldAt positionId) reduceOnly = none) :
    (s.moveHolding hash trade effective positionId reduceOnly).2 = none := by
  unfold moveHolding
  simp only [h]

theorem moveHolding_whole
    (h : trade.holdingMove s.instrument (s.heldAt positionId) reduceOnly = some move)
    (hexcess : move.excess = 0) :
    (s.moveHolding hash trade effective positionId reduceOnly).2 =
      some ({ effective with side := move.side, quantity := move.quantity }, none) := by
  unfold moveHolding
  simp only [h, hexcess, ne_eq, not_true_eq_false, if_false]
  split <;> rfl

theorem moveHolding_cut
    (h : trade.holdingMove s.instrument (s.heldAt positionId) reduceOnly = some move)
    (hexcess : move.excess ≠ 0) :
    let cut := s.bookReduceOnlyCut hash trade
      { effective with side := move.side, quantity := move.quantity } positionId
      (s.heldAt positionId) move.excess reduceOnly
    (s.moveHolding hash trade effective positionId reduceOnly).2 =
      some (cut.2.1, some cut.2.2) := by
  intro cut
  unfold moveHolding
  simp only [h, hexcess, ne_eq, not_false_eq_true, if_true]
  rfl

/-- What is held and the instrument decide a fill's move. -/
theorem moveHolding_congr (hinstrument : r.instrument = s.instrument)
    (hposition : r.position = s.position) :
    (r.moveHolding hash' trade effective positionId reduceOnly).2.map moveOf =
      (s.moveHolding hash trade effective positionId reduceOnly).2.map moveOf := by
  have hheld : r.heldAt positionId = s.heldAt positionId := by rw [heldAt, hposition, heldAt]
  have hmove : trade.holdingMove r.instrument (r.heldAt positionId) reduceOnly =
      trade.holdingMove s.instrument (s.heldAt positionId) reduceOnly := by
    rw [hinstrument, hheld]
  cases hmoved : trade.holdingMove s.instrument (s.heldAt positionId) reduceOnly with
  | none => rw [moveHolding_none hmoved, moveHolding_none (hmove.trans hmoved)]
  | some move =>
    by_cases hexcess : move.excess = 0
    · rw [moveHolding_whole hmoved hexcess, moveHolding_whole (hmove.trans hmoved) hexcess]
    · rw [moveHolding_cut hmoved hexcess, moveHolding_cut (hmove.trans hmoved) hexcess]
      rfl

/-- A fill that was not cut is moved as if it were not reduce-only, and one that was is reported
with what its order was sent as. -/
theorem moveHolding_cut_or (effective : Trade AssetKey InstrumentKey) (positionId : PositionId)
    (reduceOnly : ReduceOnly) :
    let moved := (s.moveHolding hash trade effective positionId reduceOnly).2
    (moved.bind Prod.snd = none ∧ moved.map moveOf =
      (s.moveHolding hash trade effective positionId .no).2.map moveOf) ∨
    ∃ capped, moved.bind Prod.snd = some capped ∧ capped.tradeId = trade.id ∧
      capped.reduceOnly = reduceOnly := by
  intro moved
  show ((s.moveHolding hash trade effective positionId reduceOnly).2.bind Prod.snd = none ∧
      (s.moveHolding hash trade effective positionId reduceOnly).2.map moveOf = _) ∨
    ∃ capped, (s.moveHolding hash trade effective positionId reduceOnly).2.bind Prod.snd =
      some capped ∧ _
  rcases Trade.holdingMove_cases trade s.instrument (s.heldAt positionId) reduceOnly with
    ⟨cut, taken, hcut, htaken, -, -, hexcess⟩ | ⟨hwhole, -⟩
  · have hcutOff : cut.excess ≠ 0 := by
      rw [hexcess]
      exact Trade.netted_ne_taken htaken
    rw [moveHolding_cut hcut hcutOff]
    exact .inr ⟨_, rfl, rfl, rfl⟩
  · have hplain : trade.holdingMove s.instrument (s.heldAt positionId) .no =
        trade.wholeMove s.instrument (s.heldAt positionId) := rfl
    refine .inl ?_
    rcases Trade.wholeMove_leaves trade s.instrument (s.heldAt positionId) with
      ⟨hnone, -⟩ | ⟨move, hsome, -, hexcess, -⟩
    · rw [moveHolding_none (hwhole.trans hnone), moveHolding_none (hplain.trans hnone)]
      exact ⟨rfl, rfl⟩
    · rw [moveHolding_whole (hwhole.trans hsome) hexcess,
        moveHolding_whole (hplain.trans hsome) hexcess]
      exact ⟨rfl, rfl⟩

end Move

omit [DecidableEq AssetKey] in
theorem position_applyToPosition {positionId : PositionId} {contractSize : Decimal} :
    (s.applyToPosition trade positionId contractSize).1.position =
      (s.position.updateFromTradeWithId trade positionId contractSize).1 := by
  unfold applyToPosition
  simp only
  split
  · rfl
  · rfl
  · unfold recordFeeUnattributed
    split <;> rfl

/-- The position a fill leaves, by its move. -/
theorem position_bookFill {capped : Bool} {positionId : PositionId} :
    (s.bookFill hash trade capped positionId reduceOnlyFills).1.position =
      match (s.moveFill hash trade capped positionId reduceOnlyFills).2.map moveOf with
      | none => (s.position.updateFromTradeWithId (s.withComputedFee trade) positionId
          s.instrument.kind.contractSize).1
      | some moved =>
          if moved.2 && moved.1.quantity = 0 then s.position
          else (s.position.updateFromTradeWithId moved.1 positionId
            s.instrument.kind.contractSize).1 := by
  have hkept : (s.moveFill hash trade capped positionId reduceOnlyFills).1.position = s.position :=
    moveFill_cases.1
  unfold bookFill
  generalize s.moveFill hash trade capped positionId reduceOnlyFills = moved at hkept ⊢
  obtain ⟨kept, move⟩ := moved
  have hkept : kept.position = s.position := hkept
  cases move with
  | none => exact position_applyToPosition.trans (by rw [hkept]; rfl)
  | some move =>
    obtain ⟨effective, capped⟩ := move
    simp only [Option.map_some, Option.getD_some, Option.bind_some, moveOf]
    split
    · exact hkept
    · rw [position_applyToPosition, hkept]

/-- The fills that were cut, and what their orders were sent as. -/
def cutFills (capped : List (ReduceOnlyCapped InstrumentKey)) : List (TradeId × ReduceOnly) :=
  capped.map fun cut => (cut.tradeId, cut.reduceOnly)

omit [DecidableEq AssetKey] [DecimalRange] [DecidableEq InstrumentKey] in
theorem reduceOnlyOf_unmarked (h : r.reduceOnly = .empty) : r.reduceOnlyOf hash trade
    reduceOnlyFills = ((reduceOnlyFills.find? fun e => e.1 = trade.id).map Prod.snd).getD .no := by
  have hnone : r.reduceOnlyOrder hash trade = none := by
    unfold reduceOnlyOrder
    rw [h]
    rfl
  unfold reduceOnlyOf
  rw [hnone]
  simp

omit [DecidableEq InstrumentKey] in
/-- Told of the fills that were cut, a copy that marks no order moves a fill as the engine does. -/
theorem moveFill_agrees (hframe : r.frame = s.frame) (hposition : r.position = s.position)
    (hunmarked : r.reduceOnly = .empty) {cappedSettlement : Bool} {positionId : PositionId} :
    (r.moveFill hash' trade cappedSettlement positionId (cutFills
      ((s.moveFill hash trade cappedSettlement positionId []).2.bind Prod.snd).toList)).2.map moveOf =
      (s.moveFill hash trade cappedSettlement positionId []).2.map moveOf := by
  have hinstrument : r.instrument = s.instrument := congrArg Frame.instrument hframe
  have hfeeModel : r.feeModel = s.feeModel := congrArg Frame.feeModel hframe
  have hfee : r.withComputedFee trade = s.withComputedFee trade := by
    unfold withComputedFee
    rw [hinstrument, hfeeModel]
  have hmove (reduceOnly : ReduceOnly) :
      (r.moveHolding hash' trade (s.withComputedFee trade) positionId reduceOnly).2.map moveOf =
        (s.moveHolding hash trade (s.withComputedFee trade) positionId reduceOnly).2.map moveOf :=
    moveHolding_congr hinstrument hposition
  cases cappedSettlement with
  | true => rfl
  | false =>
  unfold moveFill
  simp only [Bool.false_eq_true, if_false]
  rw [reduceOnlyOf_unmarked hunmarked, hfee, hmove]
  rcases moveHolding_cut_or (s.withComputedFee trade) positionId (s.reduceOnlyOf hash trade []) with
    ⟨hnone, hplain⟩ | ⟨capped, hcapped, hid, hreduceOnly⟩
  · rw [hnone, hplain]
    rfl
  · rw [hcapped]
    simp [cutFills, hid, hreduceOnly]

end Checked

/-! ## The copies -/

section Mirrors

variable [InstrumentDataState Data ExchangeKey AssetKey InstrumentKey] {mode : OmsMode}

/-- The engine's instrument and the replica's: the same but for orders, their routing and what the
    data makes of requests in flight. -/
structure Mirrors (mode : OmsMode)
    (s r : InstrumentState Data ExchangeKey AssetKey InstrumentKey) : Prop where
  frame : r.frame = s.frame
  position : r.position = s.position
  data : SamePrices s.data r.data
  mode : s.position.mode = mode
  waiting : s.pendingFills = []
  waitingCopy : r.pendingFills = []
  unmarked : r.reduceOnly = .empty

theorem Mirrors.of_steady (h : Mirrors mode s r) (hs : Steady s s') (hr : Steady r r')
    (hposition : r'.position = s'.position) : Mirrors mode s' r' where
  frame := by rw [hr.frame, h.frame, hs.frame]
  position := hposition
  data := by rw [hs.data, hr.data]; exact h.data
  mode := (congrArg Frame.mode hs.frame).trans h.mode
  waiting := hs.waiting h.waiting
  waitingCopy := hr.waiting h.waitingCopy
  unmarked := hr.unmarked h.unmarked

theorem Mirrors.of_quiet (h : Mirrors mode s r) (hs : Quiet s s') (hr : Quiet r r') :
    Mirrors mode s' r' :=
  h.of_steady hs.toSteady hr.toSteady (by rw [hr.position, h.position, hs.position])

theorem Mirrors.instrument (h : Mirrors mode s r) : r.instrument = s.instrument :=
  congrArg Frame.instrument h.frame

theorem Mirrors.lastPrice (h : Mirrors mode s r) : r.lastPrice = s.lastPrice := h.data.price.symm

/-- Moved to the same position, with data of the same prices, they stay copies. -/
theorem Mirrors.moved (h : Mirrors mode s r) {position : PositionManager AssetKey InstrumentKey}
    {data data' : Data} (hmode : position.mode = mode) (hdata : SamePrices data data') :
    Mirrors mode { s with position := position, data := data }
      { r with position := position, data := data' } := by
  refine ⟨?_, rfl, hdata, hmode, h.waiting, h.waitingCopy, h.unmarked⟩
  have hframe := h.frame
  simp only [InstrumentState.frame, Frame.mk.injEq] at hframe ⊢
  obtain ⟨hinstrument, hfee, hexpiry, hexpired, hactions, -, hstart⟩ := hframe
  exact ⟨hinstrument, hfee, hexpiry, hexpired, hactions, trivial, hstart⟩

/-! ### Requests in flight -/

theorem Mirrors.recordInFlightOpen (hdata : PricedByReports Data) (h : Mirrors mode s r)
    (request : OrderRequestOpen ExchangeKey InstrumentKey) (timeSent : DateTime) :
    Mirrors mode (s.recordInFlightOpen request timeSent) r := by
  unfold InstrumentState.recordInFlightOpen
  split
  · exact h
  · exact ⟨h.frame, h.position,
      (hdata.recordInFlightOpen s.data request timeSent).trans h.data, h.mode, h.waiting,
      h.waitingCopy, h.unmarked⟩

theorem Mirrors.recordInFlightCancel (hdata : PricedByReports Data) (h : Mirrors mode s r)
    (request : OrderRequestCancel ExchangeKey InstrumentKey) (timeSent : DateTime) :
    Mirrors mode (s.recordInFlightCancel request timeSent) r :=
  ⟨h.frame, h.position, (hdata.recordInFlightCancel s.data request timeSent).trans h.data,
    h.mode, h.waiting, h.waitingCopy, h.unmarked⟩

/-! ### Reports -/

theorem Mirrors.processAccount (h : Mirrors mode s r)
    (event : AccountEvent ExchangeKey AssetKey InstrumentKey) :
    Mirrors mode (s.processAccount event) (r.processAccount event) :=
  ⟨h.frame, h.position, h.data.process (.account event), h.mode, h.waiting, h.waitingCopy,
    h.unmarked⟩

variable [DecimalRange]

theorem Mirrors.updateFromMarket (h : Mirrors mode s r)
    (event : MarketEvent InstrumentKey (InstrumentDataState.MarketEventKind Data)) :
    Mirrors mode (s.updateFromMarket event) (r.updateFromMarket event) := by
  have hdata : SamePrices (InstrumentDataState.processMarket s.data event)
      (InstrumentDataState.processMarket r.data event) := h.data.process (.market event)
  have hprice := hdata.price
  unfold InstrumentState.updateFromMarket InstrumentState.lastPrice
  simp only [← hprice, h.position]
  split <;> exact h.moved h.mode hdata

variable [DecidableEq AssetKey]

theorem Mirrors.updateFromCashFlow (h : Mirrors mode s r) (flow : CashFlow AssetKey InstrumentKey) :
    Mirrors mode (s.updateFromCashFlow flow).1 (r.updateFromCashFlow flow).1 := by
  have hstart : r.tearSheet.timeEngineStart = s.tearSheet.timeEngineStart :=
    congrArg Frame.sessionStart h.frame
  have hcandidates : r.carryCandidates flow = s.carryCandidates flow := by
    unfold carryCandidates
    rw [h.position]
  have hbefore (position : Position AssetKey InstrumentKey) :
      r.beforeEntry flow position = s.beforeEntry flow position := by
    unfold beforeEntry
    rw [hstart, h.position]
  have hslot : r.carrySlot flow.asset = s.carrySlot flow.asset := by
    unfold carrySlot
    rw [h.instrument]
  unfold InstrumentState.updateFromCashFlow
  rw [h.position, hcandidates]
  split
  · exact h
  · split
    · exact h
    · rw [hbefore]
      split
      · exact h
      · rw [hslot]
        exact h.moved h.mode h.data
    · exact h

/-! ### Fills -/

variable [DecidableEq InstrumentKey] {trade : Trade AssetKey InstrumentKey}
  {reduceOnlyFills : List (TradeId × ReduceOnly)}

omit [InstrumentDataState Data ExchangeKey AssetKey InstrumentKey] in
theorem steady_applyFill {capped : Bool} {positionId : PositionId} :
    Steady s (s.applyFill hash trade capped positionId reduceOnlyFills).1 := by
  have hbooked : Steady s (s.bookFill hash trade capped positionId reduceOnlyFills).1 :=
    booksAt_bookFill.steady
  unfold applyFill
  simp only
  refine hbooked.trans ?_
  generalize (s.bookFill hash trade capped positionId reduceOnlyFills).1 = booked
  generalize (s.bookFill hash trade capped positionId reduceOnlyFills).2.exited.isSome = exited
  have hpruned : Steady booked
      (if exited = true then booked.prunePositionIds positionId else booked) := by
    cases exited
    · exact .refl
    · exact ⟨rfl, rfl, id, id⟩
  refine hpruned.trans ?_
  exact advanceOrder_cases (P := fun s' => Steady _ s') .refl
    (fun _ _ _ _ => (quiet_orders _).toSteady)
    fun _ _ _ _ => ((quiet_orders _).trans (quiet_cleanupRoutingTables hash)).toSteady

omit [InstrumentDataState Data ExchangeKey AssetKey InstrumentKey] in
theorem position_applyFill_eq {capped : Bool} {positionId : PositionId} :
    (s.applyFill hash trade capped positionId reduceOnlyFills).1.position =
      (s.bookFill hash trade capped positionId reduceOnlyFills).1.position := by
  unfold applyFill
  simp only [position_advanceOrder]
  split <;> rfl

/-- A fill moves both positions alike, the copy's told of what the engine's was cut. -/
theorem Mirrors.applyFill (h : Mirrors mode s r) (capped : Bool) (positionId : PositionId) :
    Mirrors mode (s.applyFill hash trade capped positionId []).1
      (r.applyFill hash' trade capped positionId
        (cutFills (s.applyFill hash trade capped positionId []).2.capped)).1 := by
  refine h.of_steady steady_applyFill steady_applyFill ?_
  rw [position_applyFill_eq, position_applyFill_eq, position_bookFill, position_bookFill]
  have hcapped : (s.applyFill hash trade capped positionId []).2.capped =
      ((s.moveFill hash trade capped positionId []).2.bind Prod.snd).toList := rfl
  have hfee : r.withComputedFee trade = s.withComputedFee trade := by
    unfold withComputedFee
    rw [h.instrument, show r.feeModel = s.feeModel from congrArg Frame.feeModel h.frame]
  rw [hcapped, moveFill_agrees h.frame h.position h.unmarked, h.position, h.instrument, hfee]

/-- Taken to the same place, a fill moves both positions alike. -/
theorem Mirrors.deliver (h : Mirrors mode s r) {place : Destination} (hplace : place ≠ .queued) :
    Mirrors mode (s.deliver hash trade (place.plain trade.quantity) []).1
      (r.deliver hash' trade (place.plain trade.quantity)
        (cutFills (s.deliver hash trade (place.plain trade.quantity) []).2.capped)).1 := by
  cases place with
  | slot positionId | fallback positionId | unmatched positionId =>
    exact h.applyFill false positionId
  | settles positionId held =>
    unfold Destination.plain
    simp only
    by_cases hcut : held < |trade.quantity|
    · have hcounted : Mirrors mode { s with tearSheet := s.tearSheet.recordFillUnallocated }
          { r with tearSheet := r.tearSheet.recordFillUnallocated } :=
        h.of_quiet ⟨⟨rfl, rfl, id, id⟩, rfl⟩ ⟨⟨rfl, rfl, id, id⟩, rfl⟩
      simp only [if_pos hcut, InstrumentState.deliver]
      exact hcounted.applyFill true positionId
    · rw [if_neg hcut]
      exact h.applyFill false positionId
  | unallocated => exact h.of_quiet ⟨⟨rfl, rfl, id, id⟩, rfl⟩ ⟨⟨rfl, rfl, id, id⟩, rfl⟩
  | queued => exact absurd rfl hplace

omit [DecimalRange] [DecidableEq AssetKey] [DecidableEq InstrumentKey]
  [InstrumentDataState Data ExchangeKey AssetKey InstrumentKey] in
theorem destination_noteForcedFill :
    s.noteForcedFill.destination hash trade = s.destination hash trade := rfl

/-- A fill the two routings take to the same place moves both positions alike. -/
theorem Mirrors.replayTrade (h : Mirrors mode s r) (hroutes : RoutesAlike hash hash' s r trade) :
    Mirrors mode (s.updateFromTrade hash trade).1 (r.replayTrade hash' trade
      (cutFills (s.updateFromTrade hash trade).2.capped)).1 := by
  obtain ⟨hsame, hwaits, -⟩ := hroutes
  have hdelivered {s r : InstrumentState Data ExchangeKey AssetKey InstrumentKey}
      (h : Mirrors mode s r) (place place' : Destination)
      (hsame : place.plain trade.quantity = place'.plain trade.quantity)
      (hplace : place ≠ .queued) :
      Mirrors mode (s.deliver hash trade place []).1
        (r.deliver hash' trade place' (cutFills (s.deliver hash trade place []).2.capped)).1 := by
    obtain ⟨s', hs, hmoved⟩ := deliver_plain hash trade [] s place
    rw [hmoved]
    obtain ⟨r', hr, hmovedCopy⟩ := deliver_plain hash' trade (cutFills
      (s'.deliver hash trade (place.plain trade.quantity) []).2.capped) r place'
    rw [hmovedCopy, ← hsame]
    exact (h.of_quiet hs hr).deliver hplace
  unfold updateFromTrade InstrumentState.replayTrade
  simp only
  split
  · have hnoted : Mirrors mode s.noteForcedFill r.noteForcedFill :=
      h.of_quiet ⟨⟨rfl, rfl, id, id⟩, rfl⟩ ⟨⟨rfl, rfl, id, id⟩, rfl⟩
    rw [destination_noteForcedFill, destination_noteForcedFill]
    exact hdelivered hnoted _ _ hsame hwaits
  · exact hdelivered h _ _ hsame hwaits

omit [DecimalRange] [DecidableEq AssetKey] [DecidableEq InstrumentKey] in
/-- In netting mode every fill goes to the one slot. -/
theorem Mirrors.routesAlike (h : Mirrors .netting s r) : RoutesAlike hash hash' s r trade := by
  have hcopy : r.position.mode = .netting := by rw [h.position]; exact h.mode
  unfold RoutesAlike destination
  rw [h.mode, hcopy]
  exact ⟨rfl, by simp, by simp⟩

end Mirrors

end InstrumentState

end Rustrade
