import Rustrade.InstrumentState.Attribution
import Rustrade.InstrumentState.PendingFills
import Rustrade.InstrumentState.Settlement

/-!
# Positions of one instrument

Where every fill names the instrument, every open position is on it and holds something, whatever
the calls. A fill that waits for an ack is kept as it came, and a report releases only fills that
waited.
-/

set_option autoImplicit false

namespace Rustrade

namespace PositionManager

variable {AssetKey InstrumentKey : Type}

/-- Every open position is on `instrument`, and holds something. -/
structure SizedOn (instrument : InstrumentKey) (manager : PositionManager AssetKey InstrumentKey) :
    Prop where
  represented : manager.Represented
  on : ∀ positionId position, manager.positions.get? positionId = some position →
    position.instrument = instrument

variable [DecimalRange] [DecidableEq AssetKey] [DecidableEq InstrumentKey]
  {self : PositionManager AssetKey InstrumentKey} {instrument : InstrumentKey}
  {positionId : PositionId} {trade : Trade AssetKey InstrumentKey} {contractSize : Decimal}

theorem SizedOn.updateFromTradeWithId (h : self.SizedOn instrument)
    (hinstrument : trade.instrument = instrument) :
    (self.updateFromTradeWithId trade positionId contractSize).1.SizedOn instrument where
  represented := by
    have hstep : (self.step (.updateFromTradeWithId trade positionId contractSize)).1.Represented :=
      represented_step h.represented
    exact hstep
  on := by
    intro otherId next hnext
    by_cases hslot : otherId = positionId
    · subst hslot
      unfold PositionManager.updateFromTradeWithId at hnext
      cases hget : self.positions.get? otherId with
      | some position =>
        rw [hget] at hnext
        simp only [get?_settle] at hnext
        rw [Position.instrument_updateFromTrade hnext]
        exact h.on otherId position hget
      | none =>
        rw [hget] at hnext
        simp only at hnext
        split at hnext
        · rw [hget] at hnext
          cases hnext
        · rw [get?_settle] at hnext
          cases hnext
          exact hinstrument
    · rw [get?_updateFromTradeWithId_of_ne hslot] at hnext
      exact h.on otherId next hnext

omit [DecimalRange] [DecidableEq AssetKey] [DecidableEq InstrumentKey] in
/-- A change of each position that keeps what it holds and its instrument. -/
theorem SizedOn.mapValues (h : self.SizedOn instrument)
    {change : PositionId → Position AssetKey InstrumentKey → Position AssetKey InstrumentKey}
    (hchange : ∀ otherId position, self.positions.get? otherId = some position →
      (change otherId position).WellSized ∧
        (change otherId position).instrument = position.instrument) :
    { self with positions := self.positions.mapValues change }.SizedOn instrument := by
  have hfound : ∀ otherId next,
      (self.positions.mapValues change).get? otherId = some next →
        ∃ position, self.positions.get? otherId = some position ∧ change otherId position = next := by
    intro otherId next hnext
    rw [IndexMap.get?_mapValues] at hnext
    exact Option.map_eq_some_iff.1 hnext
  constructor
  · intro otherId next hnext
    obtain ⟨position, hget, rfl⟩ := hfound otherId next hnext
    exact (hchange otherId position hget).1
  · intro otherId next hnext
    obtain ⟨position, hget, rfl⟩ := hfound otherId next hnext
    rw [(hchange otherId position hget).2]
    exact h.on otherId position hget

omit [DecimalRange] [DecidableEq AssetKey] [DecidableEq InstrumentKey] in
/-- A change of one position that keeps what it holds and its instrument. -/
theorem SizedOn.modify (h : self.SizedOn instrument)
    {change : Position AssetKey InstrumentKey → Position AssetKey InstrumentKey}
    (hchange : ∀ position, self.positions.get? positionId = some position →
      (change position).WellSized ∧ (change position).instrument = position.instrument) :
    { self with positions := self.positions.modify positionId change }.SizedOn instrument := by
  apply h.mapValues
  intro otherId position hget
  by_cases hslot : otherId = positionId
  · subst hslot
    rw [if_pos rfl]
    exact hchange position hget
  · rw [if_neg hslot]
    exact ⟨h.represented otherId position hget, rfl⟩

omit [DecimalRange] [DecidableEq AssetKey] [DecidableEq InstrumentKey] in
/-- A position that is removed leaves the others. -/
theorem SizedOn.removeEnded (h : self.SizedOn instrument) {time : DateTime} :
    (self.removeEnded positionId time).1.SizedOn instrument := by
  have hkept : ∀ otherId next,
      (self.removeEnded positionId time).1.positions.get? otherId = some next →
        self.positions.get? otherId = some next := by
    intro otherId next hnext
    unfold PositionManager.removeEnded at hnext
    split at hnext
    · exact hnext
    · rw [positions_recordPositionEnd, IndexMap.get?_remove] at hnext
      split at hnext
      · cases hnext
      · exact hnext
  exact ⟨fun otherId next hnext => h.represented otherId next (hkept otherId next hnext),
    fun otherId next hnext => h.on otherId next (hkept otherId next hnext)⟩

omit [DecimalRange] [DecidableEq AssetKey] [DecidableEq InstrumentKey] in
theorem sizedOn_seeded {mode : OmsMode} {quote : AssetKey} {seeds : List PositionSeed}
    (h : seeded mode instrument quote contractSize seeds = .ok self) : self.SizedOn instrument := by
  refine ⟨(seededAs_seeded h).represented, ?_⟩
  apply seeded_induction (P := fun manager => ∀ positionId position,
    manager.positions.get? positionId = some position → position.instrument = instrument) ?_ ?_ h
  · intro positionId position hget
    exact absurd hget (by simp [new])
  · intro manager manager' seed hon hseed
    unfold PositionSeed.seedInto at hseed
    split at hseed
    · cases hseed
    · split at hseed
      · cases hseed
      · split at hseed
        · cases hseed
        · cases hseed
          intro otherId position hget
          rw [positions_recordPositionEnd, IndexMap.get?_insert] at hget
          split at hget
          · cases hget
            rfl
          · exact hon otherId position hget

end PositionManager

namespace InstrumentState

variable {Data ExchangeKey AssetKey InstrumentKey : Type} {hash : HashOrder}
  {s s' : InstrumentState Data ExchangeKey AssetKey InstrumentKey} {instrument : InstrumentKey}

/-- Every position and every fill that waits is on `instrument`, and every position holds
    something. -/
structure SizedOn (instrument : InstrumentKey)
    (s : InstrumentState Data ExchangeKey AssetKey InstrumentKey) : Prop where
  position : s.position.SizedOn instrument
  waiting : ∀ fill ∈ s.pendingFills, fill.instrument = instrument

theorem SizedOn.congr (h : s.SizedOn instrument) (hposition : s'.position = s.position)
    (hwaiting : ∀ fill ∈ s'.pendingFills, fill ∈ s.pendingFills) : s'.SizedOn instrument where
  position := hposition ▸ h.position
  waiting fill hfill := h.waiting fill (hwaiting fill hfill)

/-- What the tear sheet records is no position. -/
theorem SizedOn.noted (h : s.SizedOn instrument)
    (tearSheet : TearSheetGenerator AssetKey InstrumentKey) :
    { s with tearSheet := tearSheet }.SizedOn instrument := ⟨h.position, h.waiting⟩

section Checked

variable [DecimalRange] [DecidableEq AssetKey] [DecidableEq InstrumentKey]
  {trade : Trade AssetKey InstrumentKey} {reduceOnlyFills : List (TradeId × ReduceOnly)}

/-! ## Fills -/

omit [DecidableEq InstrumentKey] in
/-- What moves a position is a fill of the same instrument. -/
theorem moveFill_cases {capped : Bool} {positionId : PositionId} :
    (s.moveFill hash trade capped positionId reduceOnlyFills).1.position = s.position ∧
      (s.moveFill hash trade capped positionId reduceOnlyFills).1.pendingFills = s.pendingFills ∧
      ∀ netted, (s.moveFill hash trade capped positionId reduceOnlyFills).2 = some netted →
        netted.1.instrument = trade.instrument := by
  unfold moveFill moveHolding
  split
  · exact ⟨rfl, rfl, fun _ h => by cases h⟩
  · simp only
    split
    · exact ⟨rfl, rfl, fun _ h => by cases h⟩
    · split
      · refine ⟨rfl, rfl, fun netted h => ?_⟩
        cases h
        exact withComputedFee_moves.1
      · split
        · refine ⟨rfl, rfl, fun netted h => ?_⟩
          cases h
          exact withComputedFee_moves.1
        · refine ⟨rfl, rfl, fun netted h => ?_⟩
          cases h
          exact withComputedFee_moves.1

theorem SizedOn.applyToPosition {positionId : PositionId} {contractSize : Decimal}
    (h : s.SizedOn instrument) (hinstrument : trade.instrument = instrument) :
    (s.applyToPosition trade positionId contractSize).1.SizedOn instrument := by
  have hbooks : BooksAt positionId s (s.applyToPosition trade positionId contractSize).1 :=
    booksAt_applyToPosition
  refine ⟨?_, by rw [hbooks.pendingFills]; exact h.waiting⟩
  have hmanager : (s.position.updateFromTradeWithId trade positionId contractSize).1.SizedOn
      instrument := h.position.updateFromTradeWithId hinstrument
  unfold InstrumentState.applyToPosition
  simp only
  split
  · exact hmanager
  · exact hmanager
  · unfold recordFeeUnattributed
    split <;> exact hmanager

theorem SizedOn.bookFill {capped : Bool} {positionId : PositionId} (h : s.SizedOn instrument)
    (hinstrument : trade.instrument = instrument) :
    (s.bookFill hash trade capped positionId reduceOnlyFills).1.SizedOn instrument := by
  obtain ⟨hposition, hwaiting, hnetted⟩ :
      (s.moveFill hash trade capped positionId reduceOnlyFills).1.position = s.position ∧
        (s.moveFill hash trade capped positionId reduceOnlyFills).1.pendingFills = s.pendingFills ∧
        ∀ netted, (s.moveFill hash trade capped positionId reduceOnlyFills).2 = some netted →
          netted.1.instrument = trade.instrument := moveFill_cases
  unfold InstrumentState.bookFill
  generalize s.moveFill hash trade capped positionId reduceOnlyFills = moved
    at hposition hwaiting hnetted ⊢
  obtain ⟨moved, netted⟩ := moved
  have hmoved : moved.SizedOn instrument :=
    h.congr hposition fun fill hfill => hwaiting ▸ hfill
  simp only
  split
  · exact hmoved
  · apply hmoved.applyToPosition
    cases netted with
    | none => exact withComputedFee_moves.1.trans hinstrument
    | some netted => exact (hnetted netted rfl).trans hinstrument

theorem SizedOn.applyFill {capped : Bool} {positionId : PositionId} (h : s.SizedOn instrument)
    (hinstrument : trade.instrument = instrument) :
    (s.applyFill hash trade capped positionId reduceOnlyFills).1.SizedOn instrument := by
  have hbooked : (s.bookFill hash trade capped positionId reduceOnlyFills).1.SizedOn instrument :=
    h.bookFill hinstrument
  unfold InstrumentState.applyFill
  refine ⟨?_, ?_⟩
  · simp only [position_advanceOrder]
    split <;> exact hbooked.position
  · simp only [pendingFills_advanceOrder]
    split <;> exact hbooked.waiting

theorem SizedOn.deliver {destination : Destination} (h : s.SizedOn instrument)
    (hinstrument : trade.instrument = instrument) :
    (s.deliver hash trade destination reduceOnlyFills).1.SizedOn instrument := by
  unfold InstrumentState.deliver
  split
  · exact h.applyFill hinstrument
  · exact (h.noted _).applyFill hinstrument
  · exact (h.noted _).applyFill hinstrument
  · split
    · exact (h.noted _).applyFill hinstrument
    · exact h.applyFill hinstrument
  · exact h.noted _
  · refine ⟨h.position, fun fill hfill => ?_⟩
    rcases List.mem_append.1 hfill with hfill | hfill
    · exact h.waiting fill hfill
    · cases List.mem_singleton.1 hfill
      exact hinstrument

theorem SizedOn.replayTrade (h : s.SizedOn instrument) (hinstrument : trade.instrument = instrument) :
    (s.replayTrade hash trade reduceOnlyFills).1.SizedOn instrument := by
  have hforced : s.noteForcedFill.SizedOn instrument := h.congr rfl fun _ => id
  unfold InstrumentState.replayTrade
  simp only
  split
  · exact hforced.deliver hinstrument
  · exact h.deliver hinstrument

theorem SizedOn.replayTrades {applied : FillsApplied AssetKey InstrumentKey}
    {fills : List (Trade AssetKey InstrumentKey)} (h : s.SizedOn instrument)
    (hfills : ∀ fill ∈ fills, fill.instrument = instrument) :
    (InstrumentState.replayTrades hash reduceOnlyFills s applied fills).1.SizedOn instrument := by
  induction fills generalizing s applied with
  | nil => exact h
  | cons fill fills ih =>
    exact ih (h.replayTrade (hfills fill (List.mem_cons_self ..)))
      fun fill' hfill => hfills fill' (List.mem_cons_of_mem _ hfill)

/-! ## Reports -/

omit [DecimalRange] [DecidableEq AssetKey] [DecidableEq InstrumentKey] in
theorem SizedOn.updated {order : Order ExchangeKey InstrumentKey OrderState}
    (h : s.SizedOn instrument) : (s.updated hash order).SizedOn instrument := by
  have hnoted : (s.noteOpenRejected order).position = s.position := by
    unfold noteOpenRejected
    split
    · split <;> rfl
    · rfl
  refine h.congr hnoted fun fill hfill => ?_
  rwa [pendingFills_updated hash] at hfill

theorem SizedOn.updateFromOrderSnapshot {order : Order ExchangeKey InstrumentKey OrderState}
    (h : s.SizedOn instrument) : (s.updateFromOrderSnapshot hash order).1.SizedOn instrument := by
  have hupdated : (s.updated hash order).SizedOn instrument := h.updated
  cases hack : s.ackExchangeId order with
  | none =>
    rw [updateFromOrderSnapshot_of_no_ack hack]
    exact hupdated
  | some exchangeId =>
    by_cases hpending : s.pendingFills = []
    · rw [updateFromOrderSnapshot_of_ack hack hpending]
      exact hupdated.congr rfl fun _ => id
    · rw [updateFromOrderSnapshot_releases hash hack hpending]
      have hreleasing : (s.releasing hash order exchangeId).SizedOn instrument :=
        ⟨hupdated.position, fun fill hfill => h.waiting fill (List.mem_of_mem_filter hfill)⟩
      have hreleased : ∀ fill ∈ s.pendingFills.filter fun fill => fill.orderId = exchangeId,
          fill.instrument = instrument :=
        fun fill hfill => h.waiting fill (List.mem_of_mem_filter hfill)
      exact (hreleasing.replayTrades hreleased).congr rfl fun _ => id

/-! ## Every call -/

variable [InstrumentDataState Data ExchangeKey AssetKey InstrumentKey]

/-- The call is no fill of another instrument. -/
def Op.FillsOn (instrument : InstrumentKey) : Op Data ExchangeKey AssetKey InstrumentKey → Prop
  | .updateFromTrade _ trade => trade.instrument = instrument
  | _ => True

theorem SizedOn.step {op : Op Data ExchangeKey AssetKey InstrumentKey} (h : s.SizedOn instrument)
    (hfills : op.FillsOn instrument) : (s.step op).SizedOn instrument := by
  cases op with
  | recordInFlightOpen request timeSent =>
    show (s.recordInFlightOpen request timeSent).SizedOn instrument
    unfold recordInFlightOpen
    split <;> exact h.congr rfl fun _ => id
  | recordInFlightCancel request timeSent => exact h.congr rfl fun _ => id
  | updateFromOrderSnapshot hash order => exact h.updateFromOrderSnapshot
  | updateFromCancelResponse hash response =>
    refine h.congr ?_ ?_
    · show (drainPendingFills _).position = _
      unfold drainPendingFills
      split <;> rfl
    · show ∀ fill ∈ (drainPendingFills _).pendingFills, _
      unfold drainPendingFills
      split
      · exact fun _ => id
      · exact fun _ hfill => absurd hfill List.not_mem_nil
  | updateFromTrade hash trade => exact h.replayTrade hfills
  | beginAccountResync => exact h.congr rfl fun _ => id
  | retireUnlisted hash listed ordersComplete => exact h.congr rfl fun _ => id
  | updateFromCashFlow flow =>
    show (s.updateFromCashFlow flow).1.SizedOn instrument
    rcases s.updateFromCashFlow_cases flow with ⟨update, -, heq⟩ |
      ⟨positionId, position, carried, hbelongs, hcarries, heq⟩
    · rw [heq]
      exact h
    · rw [heq]
      refine ⟨h.position.modify fun held hheld => ?_, h.waiting⟩
      have hsame := Option.some.inj (hbelongs.isOpen.symm.trans hheld)
      subst hsame
      have hsized := h.position.represented positionId position hheld
      rw [hcarries.same]
      exact ⟨⟨hsized.pos, hsized.le_max⟩, rfl⟩
  | updateFromMarket event =>
    show (s.updateFromMarket event).SizedOn instrument
    unfold updateFromMarket
    simp only
    split
    · exact h.congr rfl fun _ => id
    · refine ⟨h.position.mapValues fun otherId position hget => ?_, h.waiting⟩
      have hsized := h.position.represented otherId position hget
      exact ⟨⟨hsized.pos, hsized.le_max⟩, rfl⟩

end Checked

end InstrumentState

end Rustrade
