import Rustrade.InstrumentState.Events

/-!
# Runs of an instrument

One call on an `InstrumentState` as data, the run of a list of them, and what each part of a call
leaves alone. A fill is booked on one position and on the tear sheet and touches nothing else;
the tables are written only where an order starts, is acknowledged, ends, or where a position
closes.
-/

set_option autoImplicit false

namespace Rustrade

namespace InstrumentState

variable {Data ExchangeKey AssetKey InstrumentKey : Type}

/-- One call on an `InstrumentState`. -/
inductive Op (Data ExchangeKey AssetKey InstrumentKey : Type)
    [InstrumentDataState Data ExchangeKey AssetKey InstrumentKey] where
  | recordInFlightOpen (request : OrderRequestOpen ExchangeKey InstrumentKey) (timeSent : DateTime)
  | recordInFlightCancel (request : OrderRequestCancel ExchangeKey InstrumentKey)
      (timeSent : DateTime)
  | updateFromOrderSnapshot (hash : HashOrder) (order : Order ExchangeKey InstrumentKey OrderState)
  | updateFromCancelResponse (hash : HashOrder)
      (response : OrderResponseCancel ExchangeKey InstrumentKey)
  | updateFromTrade (hash : HashOrder) (trade : Trade AssetKey InstrumentKey)
  | beginAccountResync
  | retireUnlisted (hash : HashOrder) (listed : List ClientOrderId) (ordersComplete : Bool)
  | updateFromCashFlow (flow : CashFlow AssetKey InstrumentKey)
  | updateFromMarket
      (event : MarketEvent InstrumentKey (InstrumentDataState.MarketEventKind Data))

section Step

variable [InstrumentDataState Data ExchangeKey AssetKey InstrumentKey] [DecimalRange]
  [DecidableEq AssetKey] [DecidableEq InstrumentKey]

def step (self : InstrumentState Data ExchangeKey AssetKey InstrumentKey) :
    Op Data ExchangeKey AssetKey InstrumentKey →
      InstrumentState Data ExchangeKey AssetKey InstrumentKey
  | .recordInFlightOpen request timeSent => self.recordInFlightOpen request timeSent
  | .recordInFlightCancel request timeSent => self.recordInFlightCancel request timeSent
  | .updateFromOrderSnapshot hash order => (self.updateFromOrderSnapshot hash order).1
  | .updateFromCancelResponse hash response => self.updateFromCancelResponse hash response
  | .updateFromTrade hash trade => (self.updateFromTrade hash trade).1
  | .beginAccountResync => self.beginAccountResync
  | .retireUnlisted hash listed ordersComplete => self.retireUnlisted hash listed ordersComplete
  | .updateFromCashFlow flow => (self.updateFromCashFlow flow).1
  | .updateFromMarket event => self.updateFromMarket event

/-- The state after `ops`. -/
abbrev run (self : InstrumentState Data ExchangeKey AssetKey InstrumentKey)
    (ops : List (Op Data ExchangeKey AssetKey InstrumentKey)) :
    InstrumentState Data ExchangeKey AssetKey InstrumentKey := Transition.run step self ops

/-- An account snapshot is a run: a snapshot of each order it lists, and then the retirement of
    those it leaves out. -/
theorem updateFromAccountSnapshot_eq_run (hash : HashOrder)
    (self : InstrumentState Data ExchangeKey AssetKey InstrumentKey)
    (snapshot : InstrumentAccountSnapshot ExchangeKey InstrumentKey) :
    self.updateFromAccountSnapshot hash snapshot =
      self.run (snapshot.orders.map (Op.updateFromOrderSnapshot hash) ++
        [.retireUnlisted hash (snapshot.orders.map fun order => order.key.cid)
          snapshot.ordersComplete]) := by
  rw [run, Transition.run_concat, Transition.run, List.foldl_map]
  rfl

end Step

/-! ## A small instrument -/

namespace Sample

inductive Asset where
  | btc
  | usdt
  deriving DecidableEq

/-- Data that follows nothing and prices nothing. -/
inductive NoData where
  | noData

instance : InstrumentDataState NoData Unit Asset Unit where
  MarketEventKind := Unit
  processMarket data _ := data
  processAccount data _ := data
  recordInFlightOpen data _ _ := data
  recordInFlightCancel data _ _ := data
  price _ := none

/-- Spot, in hedging mode, with nothing sent. -/
def fresh : InstrumentState NoData Unit Asset Unit :=
  .init ⟨(), ⟨.btc, .usdt⟩, .spot, none⟩ 0 (.new .hedging) .noData

def key : OrderKey Unit Unit := ⟨(), (), ⟨"trend"⟩, ⟨"c-1"⟩⟩

/-- An order for two is sent with the position `p-1`. -/
def sends : Op NoData Unit Asset Unit :=
  .recordInFlightOpen
    ⟨key, ⟨.buy, some 100, 2, .limit, .goodUntilCancelled false, some ⟨"p-1"⟩, .no⟩⟩ 0

def sendsCancel : Op NoData Unit Asset Unit := .recordInFlightCancel ⟨key, ⟨none⟩⟩ 1

/-- The venue reports it in a given state. -/
def reports (state : OrderState) : Op NoData Unit Asset Unit :=
  .updateFromOrderSnapshot .insertion
    ⟨key, .buy, some 100, 2, .limit, .goodUntilCancelled false, state⟩

/-- The venue reports it working under `v-1`. -/
def reportsOpen : Op NoData Unit Asset Unit :=
  reports (.active (.open ⟨.assigned ⟨"v-1"⟩, 2, 0⟩))

/-- A fill of one under `v-1`. -/
def trade : Trade Asset Unit :=
  ⟨⟨"t-1"⟩, ⟨"v-1"⟩, (), ⟨"trend"⟩, 1, .buy, 100, 1, none, ⟨.usdt, 0, none⟩, .order, none, none⟩

def fill : Op NoData Unit Asset Unit := .updateFromTrade .insertion trade

end Sample

/-! ## What booking a fill leaves alone -/

/-- Two states that differ in positions and tear sheet alone, and in the positions at no slot but
    `positionId`. -/
structure BooksAt (positionId : PositionId)
    (s s' : InstrumentState Data ExchangeKey AssetKey InstrumentKey) : Prop where
  instrument : s'.instrument = s.instrument
  orders : s'.orders = s.orders
  data : s'.data = s.data
  feeModel : s'.feeModel = s.feeModel
  expiryHandling : s'.expiryHandling = s.expiryHandling
  expirationProcessed : s'.expirationProcessed = s.expirationProcessed
  corporateActionsProcessed : s'.corporateActionsProcessed = s.corporateActionsProcessed
  positionIds : s'.positionIds = s.positionIds
  pendingFills : s'.pendingFills = s.pendingFills
  exchangeIdToCid : s'.exchangeIdToCid = s.exchangeIdToCid
  retiredRouting : s'.retiredRouting = s.retiredRouting
  reduceOnly : s'.reduceOnly = s.reduceOnly
  ordersOpenAtResync : s'.ordersOpenAtResync = s.ordersOpenAtResync
  mode : s'.position.mode = s.position.mode
  sessionStart : s'.tearSheet.timeEngineStart = s.tearSheet.timeEngineStart
  elsewhere : ∀ other, other ≠ positionId →
    s'.position.positions.get? other = s.position.positions.get? other

theorem BooksAt.refl {positionId : PositionId}
    {s : InstrumentState Data ExchangeKey AssetKey InstrumentKey} : BooksAt positionId s s :=
  ⟨rfl, rfl, rfl, rfl, rfl, rfl, rfl, rfl, rfl, rfl, rfl, rfl, rfl, rfl, rfl, fun _ _ => rfl⟩

theorem BooksAt.trans {positionId : PositionId}
    {s s' s'' : InstrumentState Data ExchangeKey AssetKey InstrumentKey}
    (h : BooksAt positionId s s') (h' : BooksAt positionId s' s'') : BooksAt positionId s s'' :=
  ⟨h'.instrument.trans h.instrument, h'.orders.trans h.orders, h'.data.trans h.data,
    h'.feeModel.trans h.feeModel, h'.expiryHandling.trans h.expiryHandling,
    h'.expirationProcessed.trans h.expirationProcessed,
    h'.corporateActionsProcessed.trans h.corporateActionsProcessed,
    h'.positionIds.trans h.positionIds, h'.pendingFills.trans h.pendingFills,
    h'.exchangeIdToCid.trans h.exchangeIdToCid, h'.retiredRouting.trans h.retiredRouting,
    h'.reduceOnly.trans h.reduceOnly, h'.ordersOpenAtResync.trans h.ordersOpenAtResync,
    h'.mode.trans h.mode, h'.sessionStart.trans h.sessionStart,
    fun other hne => (h'.elsewhere other hne).trans (h.elsewhere other hne)⟩

/-- Writing the tear sheet books at every slot. -/
theorem BooksAt.tearSheet {positionId : PositionId}
    {s : InstrumentState Data ExchangeKey AssetKey InstrumentKey}
    {tearSheet : TearSheetGenerator AssetKey InstrumentKey}
    (h : tearSheet.timeEngineStart = s.tearSheet.timeEngineStart) :
    BooksAt positionId s { s with tearSheet := tearSheet } :=
  ⟨rfl, rfl, rfl, rfl, rfl, rfl, rfl, rfl, rfl, rfl, rfl, rfl, rfl, rfl, h, fun _ _ => rfl⟩

variable {Data ExchangeKey AssetKey InstrumentKey : Type} {hash : HashOrder}
  {self : InstrumentState Data ExchangeKey AssetKey InstrumentKey}
  {trade effective : Trade AssetKey InstrumentKey} {positionId : PositionId}
  {reduceOnlyFills : List (TradeId × ReduceOnly)}

section Checked

variable [DecimalRange]

variable (hash) in
theorem booksAt_bookReduceOnlyCut {held excess : Decimal} {reduceOnly : ReduceOnly} :
    BooksAt positionId self
      (self.bookReduceOnlyCut hash trade effective positionId held excess reduceOnly).1 := by
  refine .tearSheet ?_
  split_ifs <;> rfl

theorem booksAt_moveHolding [DecidableEq AssetKey] {reduceOnly : ReduceOnly} :
    BooksAt positionId self
      (self.moveHolding hash trade effective positionId reduceOnly).1 := by
  unfold moveHolding
  simp only
  split
  · exact .refl
  · split
    · exact booksAt_bookReduceOnlyCut hash
    · split
      · exact .refl
      · exact .tearSheet TearSheetGenerator.timeEngineStart_recordFillDust

theorem booksAt_applyToPosition [DecidableEq InstrumentKey] {contractSize : Decimal} :
    BooksAt positionId self (self.applyToPosition trade positionId contractSize).1 := by
  have hmoved : BooksAt positionId self
      { self with
        position := (self.position.updateFromTradeWithId trade positionId contractSize).1 } :=
    ⟨rfl, rfl, rfl, rfl, rfl, rfl, rfl, rfl, rfl, rfl, rfl, rfl, rfl,
      PositionManager.mode_updateFromTradeWithId, rfl,
      fun _ hne => PositionManager.get?_updateFromTradeWithId_of_ne hne⟩
  unfold applyToPosition
  simp only
  split
  · exact hmoved
  · exact hmoved.trans (.tearSheet rfl)
  · refine hmoved.trans ?_
    unfold recordFeeUnattributed
    split
    · exact .refl
    · exact .tearSheet rfl

theorem exited_applyToPosition [DecidableEq InstrumentKey] {contractSize : Decimal}
    {exited : PositionExited AssetKey InstrumentKey}
    (h : (self.applyToPosition trade positionId contractSize).2 = some exited) :
    exited.positionId = positionId := by
  unfold applyToPosition at h
  simp only at h
  split at h
  · exact absurd h (by simp)
  · rename_i closed hclosed
    cases h
    exact PositionManager.exited_updateFromTradeWithId hclosed
  · exact absurd h (by simp)

variable [DecidableEq AssetKey] [DecidableEq InstrumentKey] {cappedSettlement : Bool}

omit [DecidableEq InstrumentKey] in
theorem booksAt_moveFill :
    BooksAt positionId self
      (self.moveFill hash trade cappedSettlement positionId reduceOnlyFills).1 := by
  unfold moveFill
  split
  · exact .refl
  · exact booksAt_moveHolding

/-- **A fill is booked on one position and the tear sheet.** -/
theorem booksAt_bookFill :
    BooksAt positionId self
      (self.bookFill hash trade cappedSettlement positionId reduceOnlyFills).1 := by
  unfold bookFill
  simp only
  split
  · exact booksAt_moveFill
  · exact booksAt_moveFill.trans booksAt_applyToPosition

theorem exited_bookFill {exited : PositionExited AssetKey InstrumentKey}
    (h : (self.bookFill hash trade cappedSettlement positionId reduceOnlyFills).2.exited =
      some exited) : exited.positionId = positionId := by
  unfold bookFill at h
  simp only at h
  split at h
  · exact absurd h (by simp)
  · exact exited_applyToPosition h

/-! ## One fill, in cases -/

/-- The slot a destination books at. -/
def Destination.positionId? : Destination → Option PositionId
  | .slot positionId | .fallback positionId | .unmatched positionId | .settles positionId _ =>
      some positionId
  | .unallocated | .queued => none

omit [DecidableEq AssetKey] [DecidableEq InstrumentKey] [DecimalRange] in
theorem advanceOrder_cases {P : InstrumentState Data ExchangeKey AssetKey InstrumentKey → Prop}
    (same : P self)
    (advanced : ∀ cid reported, self.trackedOrderCid hash trade.orderId = some cid →
      (self.orders.updateFromFill cid trade.orderId reported).2 = false →
      P { self with orders := (self.orders.updateFromFill cid trade.orderId reported).1 })
    (retired : ∀ cid reported, self.trackedOrderCid hash trade.orderId = some cid →
      (self.orders.updateFromFill cid trade.orderId reported).2 = true →
      P ({ self with
        orders := (self.orders.updateFromFill cid trade.orderId reported).1 }.cleanupRoutingTables
          hash)) :
    P (self.advanceOrder hash trade) := by
  unfold advanceOrder
  cases trade.orderFilledQuantity with
  | none => exact same
  | some reported =>
    cases hcid : self.trackedOrderCid hash trade.orderId with
    | none => exact same
    | some cid =>
      simp only
      split
      · rename_i h; exact retired cid reported hcid h
      · rename_i h; exact advanced cid reported hcid (by simpa using h)

/-- `result` is what booking a fill of `orderId` at one slot makes of `s`: the table of positions
    pruned if it closed one, and its order advanced. -/
def PlacedAt (hash : HashOrder) (positionId : PositionId) (orderId : OrderId)
    (s : InstrumentState Data ExchangeKey AssetKey InstrumentKey)
    (result : InstrumentState Data ExchangeKey AssetKey InstrumentKey ×
      FillsApplied AssetKey InstrumentKey) : Prop :=
  ∃ booked trade, BooksAt positionId s booked ∧ trade.orderId = orderId ∧
    result.1 = (if result.2.exited.isSome then booked.prunePositionIds positionId
      else booked).advanceOrder hash trade ∧
    ∀ exited, result.2.exited = some exited → exited.positionId = positionId

theorem placedAt_applyFill {s : InstrumentState Data ExchangeKey AssetKey InstrumentKey}
    (h : BooksAt positionId s self) :
    PlacedAt hash positionId trade.orderId s
      (self.applyFill hash trade cappedSettlement positionId reduceOnlyFills) :=
  ⟨_, trade, h.trans booksAt_bookFill, rfl, rfl, fun _ h => exited_bookFill h⟩

theorem placedAt_deliver {s : InstrumentState Data ExchangeKey AssetKey InstrumentKey}
    (h : BooksAt positionId s self) {destination : Destination}
    (hd : destination.positionId? = some positionId) :
    PlacedAt hash positionId trade.orderId s
      (self.deliver hash trade destination reduceOnlyFills) := by
  cases destination with
  | slot q => cases hd; exact placedAt_applyFill h
  | fallback q => cases hd; exact placedAt_applyFill (h.trans (.tearSheet rfl))
  | unmatched q => cases hd; exact placedAt_applyFill (h.trans (.tearSheet rfl))
  | settles q held =>
    cases hd
    simp only [deliver]
    split
    · have hcapped : (cappedTo trade held).orderId = trade.orderId := rfl
      rw [← hcapped]
      exact placedAt_applyFill (h.trans (.tearSheet rfl))
    · exact placedAt_applyFill h
  | unallocated => exact absurd hd (by simp [Destination.positionId?])
  | queued => exact absurd hd (by simp [Destination.positionId?])

variable (self hash trade reduceOnlyFills) in
/-- Counting a forced fill changes only the tear sheet, which routing does not read. -/
theorem replayTrade_eq_deliver :
    ∃ noted, (∀ q, BooksAt q self noted) ∧
      self.replayTrade hash trade reduceOnlyFills =
        noted.deliver hash trade (self.destination hash trade) reduceOnlyFills := by
  unfold replayTrade
  simp only
  split
  · exact ⟨self.noteForcedFill, fun _ => .tearSheet rfl, rfl⟩
  · exact ⟨_, fun _ => .refl, rfl⟩

variable (reduceOnlyFills) in
theorem placedAt_replayTrade (h : (self.destination hash trade).positionId? = some positionId) :
    PlacedAt hash positionId trade.orderId self
      (self.replayTrade hash trade reduceOnlyFills) := by
  obtain ⟨noted, hnoted, heq⟩ := replayTrade_eq_deliver hash self trade reduceOnlyFills
  rw [heq]
  exact placedAt_deliver (hnoted _) h

variable (reduceOnlyFills) in
theorem replayTrade_queued (h : self.destination hash trade = .queued) :
    ∃ noted, (∀ q, BooksAt q self noted) ∧
      self.replayTrade hash trade reduceOnlyFills =
        ({ noted with pendingFills := self.pendingFills ++ [trade] }, .none) := by
  obtain ⟨noted, hnoted, heq⟩ := replayTrade_eq_deliver hash self trade reduceOnlyFills
  refine ⟨noted, hnoted, ?_⟩
  rw [heq, h, deliver, (hnoted .netting).pendingFills]

variable (reduceOnlyFills) in
theorem replayTrade_unallocated (h : self.destination hash trade = .unallocated) :
    (∀ q, BooksAt q self (self.replayTrade hash trade reduceOnlyFills).1) ∧
      (self.replayTrade hash trade reduceOnlyFills).2 = .none := by
  obtain ⟨noted, hnoted, heq⟩ := replayTrade_eq_deliver hash self trade reduceOnlyFills
  rw [heq, h, deliver]
  exact ⟨fun q => (hnoted q).trans (.tearSheet rfl), rfl⟩

end Checked

/-! ## What no call writes -/

/-- What an instrument is, apart from what has happened on it. No call on it writes any of this;
expiry and corporate actions do, which are the engine's own. -/
structure Frame (ExchangeKey AssetKey : Type) where
  instrument : Instrument ExchangeKey AssetKey
  feeModel : FeeModelConfig
  expiryHandling : ExpiryHandling
  expirationProcessed : Bool
  corporateActionsProcessed : Finset CorporateActionId
  mode : OmsMode
  sessionStart : DateTime

def frame (s : InstrumentState Data ExchangeKey AssetKey InstrumentKey) :
    Frame ExchangeKey AssetKey :=
  ⟨s.instrument, s.feeModel, s.expiryHandling, s.expirationProcessed,
    s.corporateActionsProcessed, s.position.mode, s.tearSheet.timeEngineStart⟩

/-- What no fill and no report writes: the frame, and the record of the last resync. -/
def unwritten (s : InstrumentState Data ExchangeKey AssetKey InstrumentKey) :
    Frame ExchangeKey AssetKey × IndexMap ClientOrderId VenueOrderId :=
  (s.frame, s.ordersOpenAtResync)

theorem BooksAt.unwritten {s s' : InstrumentState Data ExchangeKey AssetKey InstrumentKey}
    (h : BooksAt positionId s s') : s'.unwritten = s.unwritten := by
  unfold InstrumentState.unwritten InstrumentState.frame
  rw [h.instrument, h.feeModel, h.expiryHandling, h.expirationProcessed,
    h.corporateActionsProcessed, h.mode, h.sessionStart, h.ordersOpenAtResync]

theorem position_advanceOrder : (self.advanceOrder hash trade).position = self.position :=
  advanceOrder_cases (P := fun s => s.position = self.position) rfl
    (fun _ _ _ _ => rfl) fun _ _ _ _ => rfl

theorem unwritten_advanceOrder : (self.advanceOrder hash trade).unwritten = self.unwritten :=
  advanceOrder_cases (P := fun s => s.unwritten = self.unwritten) rfl
    (fun _ _ _ _ => rfl) fun _ _ _ _ => rfl

theorem PlacedAt.unwritten {orderId : OrderId}
    {result : InstrumentState Data ExchangeKey AssetKey InstrumentKey ×
      FillsApplied AssetKey InstrumentKey} (h : PlacedAt hash positionId orderId self result) :
    result.1.unwritten = self.unwritten := by
  obtain ⟨booked, trade, hbooked, -, heq, -⟩ := h
  rw [heq, unwritten_advanceOrder]
  split <;> exact hbooked.unwritten

/-- Counting a refused open writes the tear sheet alone. -/
theorem booksAt_noteOpenRejected {order : Order ExchangeKey InstrumentKey OrderState}
    (positionId : PositionId) : BooksAt positionId self (self.noteOpenRejected order) := by
  unfold noteOpenRejected
  split
  · split
    · exact .tearSheet rfl
    · exact .refl
  · exact .refl

theorem unwritten_drainPendingFills :
    self.drainPendingFills.unwritten = self.unwritten := by
  unfold drainPendingFills
  split <;> rfl

theorem unwritten_updateFromCashFlow [DecimalRange] [DecidableEq AssetKey]
    {flow : CashFlow AssetKey InstrumentKey} :
    (self.updateFromCashFlow flow).1.unwritten = self.unwritten := by
  unfold updateFromCashFlow
  split
  · rfl
  · split
    · rfl
    · split <;> rfl
    · rfl

theorem unwritten_updateFromMarket [DecimalRange]
    [InstrumentDataState Data ExchangeKey AssetKey InstrumentKey]
    {event : MarketEvent InstrumentKey (InstrumentDataState.MarketEventKind Data)} :
    (self.updateFromMarket event).unwritten = self.unwritten := by
  unfold updateFromMarket
  simp only
  split <;> rfl

section Frame

variable [DecimalRange] [DecidableEq AssetKey] [DecidableEq InstrumentKey]

theorem unwritten_replayTrade :
    (self.replayTrade hash trade reduceOnlyFills).1.unwritten = self.unwritten := by
  cases hdest : self.destination hash trade with
  | queued =>
    obtain ⟨noted, hnoted, heq⟩ := replayTrade_queued reduceOnlyFills hdest
    rw [heq]; exact (hnoted .netting).unwritten
  | unallocated => exact ((replayTrade_unallocated reduceOnlyFills hdest).1 .netting).unwritten
  | slot q | fallback q | unmatched q | settles q held =>
    have hplaced : PlacedAt hash q trade.orderId self
        (self.replayTrade hash trade reduceOnlyFills) :=
      placedAt_replayTrade _ (by rw [hdest]; rfl)
    exact hplaced.unwritten

theorem unwritten_replayTrades {applied : FillsApplied AssetKey InstrumentKey}
    {fills : List (Trade AssetKey InstrumentKey)} :
    (replayTrades hash reduceOnlyFills self applied fills).1.unwritten = self.unwritten := by
  induction fills generalizing self applied with
  | nil => rfl
  | cons fill fills ih => exact ih.trans unwritten_replayTrade

theorem unwritten_replayOrderSnapshot {order : Order ExchangeKey InstrumentKey OrderState} :
    (self.replayOrderSnapshot hash order reduceOnlyFills).1.unwritten = self.unwritten := by
  have hnoted : (self.noteOpenRejected order).unwritten = self.unwritten :=
    (booksAt_noteOpenRejected .netting).unwritten
  unfold replayOrderSnapshot
  simp only
  split
  · exact hnoted
  · unfold releaseFills
    split
    · exact hnoted
    · exact unwritten_replayTrades.trans hnoted

/-- The call begins a resync, or ends one with what a snapshot lists. -/
def Op.isResync [InstrumentDataState Data ExchangeKey AssetKey InstrumentKey] :
    Op Data ExchangeKey AssetKey InstrumentKey → Bool
  | .beginAccountResync | .retireUnlisted .. => true
  | _ => false

theorem unwritten_step [InstrumentDataState Data ExchangeKey AssetKey InstrumentKey]
    {op : Op Data ExchangeKey AssetKey InstrumentKey} (h : op.isResync = false) :
    (self.step op).unwritten = self.unwritten := by
  cases op with
  | recordInFlightOpen request timeSent =>
    change (self.recordInFlightOpen request timeSent).unwritten = _
    unfold recordInFlightOpen
    split <;> rfl
  | recordInFlightCancel request timeSent => rfl
  | updateFromOrderSnapshot hash order => exact unwritten_replayOrderSnapshot
  | updateFromCancelResponse hash response => exact unwritten_drainPendingFills
  | updateFromTrade hash trade => exact unwritten_replayTrade
  | beginAccountResync => exact absurd h (by simp [Op.isResync])
  | retireUnlisted hash listed ordersComplete => exact absurd h (by simp [Op.isResync])
  | updateFromCashFlow flow => exact unwritten_updateFromCashFlow
  | updateFromMarket event => exact unwritten_updateFromMarket

/-- **A call on an instrument leaves its frame as it is.** -/
theorem frame_step [InstrumentDataState Data ExchangeKey AssetKey InstrumentKey]
    (op : Op Data ExchangeKey AssetKey InstrumentKey) : (self.step op).frame = self.frame := by
  cases h : op.isResync with
  | false => exact congrArg Prod.fst (unwritten_step h)
  | true =>
    cases op with
    | beginAccountResync => rfl
    | retireUnlisted hash listed ordersComplete => rfl
    | _ => exact absurd h (by simp [Op.isResync])

theorem frame_run [InstrumentDataState Data ExchangeKey AssetKey InstrumentKey]
    (ops : List (Op Data ExchangeKey AssetKey InstrumentKey)) :
    (self.run ops).frame = self.frame :=
  Transition.run_invariant
    (fun s : InstrumentState Data ExchangeKey AssetKey InstrumentKey => s.frame = self.frame)
    (fun _ op h => (frame_step op).trans h) ops rfl

end Frame

end InstrumentState

end Rustrade
