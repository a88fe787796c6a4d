import Rustrade.Execution.HoldingMove
import Rustrade.InstrumentState.Run
import Rustrade.Position.Represented

/-!
# Settlement fills of hedged positions

A venue settlement that is of no order of the engine's reduces the one open position on the side
opposite the fill's, if there is one. A fill larger than the position is cut to it; any other is
netted of a fee taken in base, and rounded to the quantity step, like the fill of an order, and may
then take more than the position holds, or add to it.
-/

set_option autoImplicit false

namespace Rustrade

namespace Position

variable {AssetKey InstrumentKey : Type} [DecimalRange] [DecidableEq InstrumentKey]
  {self : Position AssetKey InstrumentKey} {trade : Trade AssetKey InstrumentKey}

/-- A fill leaves a position on its own instrument. -/
theorem instrument_updateFromTrade {next : Position AssetKey InstrumentKey}
    (h : (self.updateFromTrade trade).1 = some next) : next.instrument = self.instrument := by
  unfold updateFromTrade at h
  split at h
  · cases h
    rfl
  · rename_i hinstrument
    unfold moveBy at h
    split at h
    · cases h
      rfl
    · split at h
      · cases h
        rfl
      · split at h
        · cases h
        · cases h
          exact (not_not.1 hinstrument).symm

/-- A fill is listed on the position it leaves, unless it turned it. -/
theorem trades_updateFromTrade {next : Position AssetKey InstrumentKey}
    (hinstrument : self.instrument = trade.instrument)
    (h : (self.updateFromTrade trade).1 = some next) (hside : next.side = self.side) :
    next.trades = self.trades ++ [trade.id] := by
  unfold updateFromTrade at h
  rw [if_neg (not_not.2 hinstrument)] at h
  unfold moveBy at h
  split at h
  · cases h
    rfl
  · rename_i hopposite
    split at h
    · cases h
      rfl
    · split at h
      · cases h
      · cases h
        exact absurd hside.symm hopposite

end Position

namespace InstrumentState

variable {Data ExchangeKey AssetKey InstrumentKey : Type}

/-! ## What a settlement may do -/

/-- The fill is of no order, tracked or ended, that this state knows. -/
structure OfNoOrder (hash : HashOrder)
    (state : InstrumentState Data ExchangeKey AssetKey InstrumentKey)
    (trade : Trade AssetKey InstrumentKey) : Prop where
  unindexed : state.indexedPositionId trade.orderId = none
  unmatched : state.matchedOrder hash trade.orderId = none
  unretired : state.retiredRouting.get? trade.orderId = none
  unbooked : state.reduceOnlyOrder hash trade = none

/-- The one open position on the side opposite the fill's, where the venue names no other side. -/
structure Settles (state : InstrumentState Data ExchangeKey AssetKey InstrumentKey)
    (trade : Trade AssetKey InstrumentKey) (positionId : PositionId)
    (position : Position AssetKey InstrumentKey) : Prop where
  isOpen : state.position.positions.get? positionId = some position
  opposite : position.side ≠ trade.side
  only : ∀ otherId other, state.position.positions.get? otherId = some other →
    other.side ≠ trade.side → otherId = positionId
  named : ∀ side, trade.positionSide = some side → side ≠ trade.side

/-- What a settlement fill takes off a position: all of it, or what the fill moves it by. -/
def settledOff [DecidableEq AssetKey]
    (self : InstrumentState Data ExchangeKey AssetKey InstrumentKey)
    (trade : Trade AssetKey InstrumentKey) (position : Position AssetKey InstrumentKey) : Decimal :=
  if position.quantityAbs < |trade.quantity| then min |trade.quantity| position.quantityAbs
  else |trade.appliedMove self.instrument position.held .no|

/-- A settlement fill that made `after` of `before` opens nothing, grows nothing and turns nothing;
    it reduces the one position it settles, if there is one, and otherwise changes none. -/
structure OnlyReduces [DecidableEq AssetKey]
    (before : InstrumentState Data ExchangeKey AssetKey InstrumentKey)
    (trade : Trade AssetKey InstrumentKey)
    (after : InstrumentState Data ExchangeKey AssetKey InstrumentKey) : Prop where
  opens : ∀ positionId, before.position.positions.get? positionId = none →
    after.position.positions.get? positionId = none
  shrinks : ∀ positionId position next, before.position.positions.get? positionId = some position →
    after.position.positions.get? positionId = some next →
      next.quantityAbs ≤ position.quantityAbs ∧ next.side = position.side
  settles : ∀ positionId position, before.Settles trade positionId position →
    after.position.positions.get? positionId ≠ some position ∧
      ((after.position.positions.get? positionId).elim 0 Position.quantityAbs =
        position.quantityAbs - before.settledOff trade position) ∧
      ∀ otherId, otherId ≠ positionId →
        after.position.positions.get? otherId = before.position.positions.get? otherId
  otherwise : (∀ positionId position, ¬ before.Settles trade positionId position) →
    after.position.positions = before.position.positions

/-! ## The condition -/

/-- What a fill whose fee the venue took in base leaves of a position of `quantityAbs` opposite it,
    before it is rounded. -/
def leftByFee (trade : Trade AssetKey InstrumentKey) (quantityAbs : Decimal) : Decimal :=
  quantityAbs - |trade.quantity| + signed trade.side trade.fees.fees

/-- What is left once rounded to the instrument's quantity step. -/
def roundedToStep [DecidableEq AssetKey]
    (self : InstrumentState Data ExchangeKey AssetKey InstrumentKey)
    (quantity : Decimal) : Decimal :=
  (self.instrument.quantityStep.map (roundTowardZeroToStep quantity)).getD quantity

/-- A fee taken in base on a fill no larger than the position it settles leaves, once rounded,
    neither less than nothing of it nor more than it held. -/
def FeeLeavesWithin [DecidableEq AssetKey]
    (self : InstrumentState Data ExchangeKey AssetKey InstrumentKey)
    (trade : Trade AssetKey InstrumentKey) : Prop :=
  ∀ positionId position, self.Settles trade positionId position →
    |trade.quantity| ≤ position.quantityAbs → trade.TakesBase self.instrument →
      0 ≤ self.roundedToStep (leftByFee trade position.quantityAbs) ∧
        self.roundedToStep (leftByFee trade position.quantityAbs) ≤ position.quantityAbs

variable {self : InstrumentState Data ExchangeKey AssetKey InstrumentKey}
  {trade : Trade AssetKey InstrumentKey} {hash : HashOrder} {positionId : PositionId}
  {position : Position AssetKey InstrumentKey}

/-! ## Where it goes -/

theorem ne_iff_eq_reduced {side side' : Side} :
    side' ≠ side ↔ side' = match side with
      | .buy => Side.sell
      | .sell => .buy := by
  cases side <;> cases side' <;> simp

/-- The position the source finds is the one the fill settles. -/
theorem settles_of_settlementFillPosition {held : Decimal}
    (h : self.settlementFillPosition trade = .ok (positionId, held)) :
    ∃ position, self.Settles trade positionId position ∧ held = position.quantityAbs := by
  unfold settlementFillPosition at h
  extract_lets reduces at h
  have hreduces (side : Side) : side ≠ trade.side ↔ side = reduces := ne_iff_eq_reduced
  by_cases hnames : (trade.positionSide.any fun named => named ≠ reduces) = true
  · rw [if_pos hnames] at h
    cases h
  rw [if_neg hnames] at h
  split at h
  · rename_i e honly
    cases h
    have hmem : e ∈ self.position.positions.entries.filter fun e => e.2.side = reduces := by
      rw [honly]
      exact List.mem_singleton_self _
    obtain ⟨hopen, hside⟩ := List.mem_filter.1 hmem
    refine ⟨e.2, ⟨IndexMap.get?_eq_some_iff.2 hopen, (hreduces _).2 (of_decide_eq_true hside), ?_, ?_⟩,
      rfl⟩
    · intro otherId other hother hopposite
      have : (otherId, other) ∈ self.position.positions.entries.filter
          fun e => e.2.side = reduces :=
        List.mem_filter.2 ⟨IndexMap.get?_eq_some_iff.1 hother,
          decide_eq_true ((hreduces _).1 hopposite)⟩
      rw [honly, List.mem_singleton] at this
      exact congrArg Prod.fst this
    · intro side hsome
      rw [hsome] at hnames
      exact (hreduces _).2 (by simpa using hnames)
  · cases h

/-- Where the source finds none, the fill settles none. -/
theorem not_settles_of_settlementFillPosition {reason : SettlementFillUnplaced}
    (h : self.settlementFillPosition trade = .error reason) :
    ∀ positionId position, ¬ self.Settles trade positionId position := by
  intro positionId position hsettles
  unfold settlementFillPosition at h
  extract_lets reduces at h
  have hreduces (side : Side) : side ≠ trade.side ↔ side = reduces := ne_iff_eq_reduced
  have hnames : ¬ (trade.positionSide.any fun named => named ≠ reduces) = true := by
    cases hside : trade.positionSide with
    | none => simp
    | some side => simpa using (hreduces _).1 (hsettles.named side hside)
  rw [if_neg hnames] at h
  set onSide := self.position.positions.entries.filter fun e => e.2.side = reduces with honSide
  have hmem : (positionId, position) ∈ onSide := List.mem_filter.2
    ⟨IndexMap.get?_eq_some_iff.1 hsettles.isOpen, decide_eq_true ((hreduces _).1 hsettles.opposite)⟩
  have hall : ∀ e ∈ onSide, e = (positionId, position) := by
    rintro ⟨otherId, other⟩ he
    obtain ⟨hopen, hside⟩ := List.mem_filter.1 he
    have hget := IndexMap.get?_eq_some_iff.2 hopen
    have hsame := hsettles.only otherId other hget ((hreduces _).2 (of_decide_eq_true hside))
    subst hsame
    rw [Option.some.inj (hget.symm.trans hsettles.isOpen)]
  have hnodup : onSide.Nodup :=
    (List.Nodup.of_map _ self.position.positions.nodup).filter _
  have hsingle : onSide = [(positionId, position)] := by
    have hcopies := List.eq_replicate_of_mem hall
    have hone : onSide.length ≤ 1 := List.nodup_replicate.1 (hcopies ▸ hnodup)
    have hsome : 0 < onSide.length := List.length_pos_of_mem hmem
    rw [hcopies, show onSide.length = 1 by omega]
    rfl
  rw [hsingle] at h
  cases h

/-- A fill that settles is sent to the position it settles, and any other to none. -/
theorem destination_settlement (hmode : self.position.mode = .hedging)
    (hcontract : self.settlementLeg trade.origin = some .contract)
    (hnone : self.OfNoOrder hash trade) :
    (∃ positionId position, self.Settles trade positionId position ∧
        self.destination hash trade = .settles positionId position.quantityAbs) ∨
      ((∀ positionId position, ¬ self.Settles trade positionId position) ∧
        self.destination hash trade = .unallocated) := by
  have horigin : trade.origin ≠ .order := by
    intro horder
    rw [horder] at hcontract
    cases hcontract
  have hunrouted : self.destination hash trade = self.unroutedDestination trade := by
    unfold destination
    rw [hmode]
    simp [hnone.unindexed, hnone.unmatched, hnone.unretired, horigin]
  rw [hunrouted]
  unfold unroutedDestination
  rw [hcontract]
  cases hplaced : self.settlementFillPosition trade with
  | ok placed =>
    obtain ⟨position, hsettles, hheld⟩ := settles_of_settlementFillPosition hplaced
    exact .inl ⟨placed.1, position, hsettles, by rw [← hheld]⟩
  | error reason =>
    refine .inr ⟨not_settles_of_settlementFillPosition hplaced, ?_⟩
    cases reason with
    | namesTheSideItWouldGrow => rfl
    | positionsOnSide count => cases count <;> rfl

/-! ## What it leaves -/

variable [DecidableEq AssetKey]

/-- What a settlement fill leaves of a position, on the position's own side. -/
def settledLeft (self : InstrumentState Data ExchangeKey AssetKey InstrumentKey)
    (trade : Trade AssetKey InstrumentKey) (position : Position AssetKey InstrumentKey) : Decimal :=
  if position.quantityAbs < |trade.quantity| then 0
  else if decide (self.instrument.kind = .spot) &&
      decide (trade.fees.asset = self.instrument.underlying.base) && decide (trade.fees.fees ≠ 0) then
    self.roundedToStep (leftByFee trade position.quantityAbs)
  else position.quantityAbs - |trade.quantity|

theorem takesBase_iff : trade.TakesBase self.instrument ↔
    (decide (self.instrument.kind = .spot) &&
      decide (trade.fees.asset = self.instrument.underlying.base) &&
        decide (trade.fees.fees ≠ 0)) = true := by
  simp only [Bool.and_eq_true, decide_eq_true_eq]
  exact ⟨fun h => ⟨⟨h.spot, h.asset⟩, h.fee⟩, fun h => ⟨h.1.1, h.1.2, h.2⟩⟩

/-- A fill that is not cut leaves of a position opposite it what its holding move says. -/
theorem leaves_eq_settledLeft (hside : position.side ≠ trade.side)
    (hwhole : ¬ position.quantityAbs < |trade.quantity|) :
    trade.leaves self.instrument position.held .no =
      signed position.side (self.settledLeft trade position) := by
  unfold settledLeft
  rw [if_neg hwhole]
  have hopposite (x : Decimal) : signed trade.side x = -signed position.side x := signed_of_ne hside x
  by_cases hbase : trade.TakesBase self.instrument
  · rw [if_pos (takesBase_iff.1 hbase), Trade.leaves_of_takesBase hbase,
      Trade.nettedMove_of_takesBase hbase]
    have hfee : trade.fees.fees = signed position.side (signed position.side trade.fees.fees) := by
      cases position.side <;> simp [signed]
    have hleft : position.held + (signed trade.side |trade.quantity| - trade.fees.fees) =
        signed position.side (leftByFee trade position.quantityAbs) := by
      unfold leftByFee Position.held
      rw [hopposite, hopposite, signed_add, signed_sub]
      nth_rewrite 1 [hfee]
      cases position.side <;> simp [signed] <;> ring
    rw [hleft]
    unfold roundedToStep
    cases self.instrument.quantityStep with
    | none => rfl
    | some step => exact roundTowardZeroToStep_signed _ _ _
  · rw [if_neg (fun h => hbase (takesBase_iff.2 h)), Trade.leaves_of_not_takesBase hbase, hopposite,
      signed_sub]
    exact (sub_eq_add_neg _ _).symm

section Fills

variable [DecimalRange] [DecidableEq InstrumentKey]

omit [DecidableEq AssetKey] [DecimalRange] [DecidableEq InstrumentKey] in
/-- The engine's commission moves nothing. -/
theorem withComputedFee_moves : (self.withComputedFee trade).instrument = trade.instrument ∧
    (self.withComputedFee trade).id = trade.id ∧
    Position.moveOf (self.withComputedFee trade) = Position.moveOf trade := by
  unfold withComputedFee
  simp only
  split <;> exact ⟨rfl, rfl, rfl⟩

/-- A fill booked at a position moves it as one fill does. -/
theorem position_applyFill (positionId : PositionId) (capped : Bool)
    (hbooked : self.reduceOnlyOrder hash trade = none) :
    ∃ booked : Trade AssetKey InstrumentKey, booked.instrument = trade.instrument ∧
      booked.id = trade.id ∧
      Position.moveOf booked = (if capped then Position.moveOf trade
        else trade.appliedMove self.instrument (self.heldAt positionId) .no) ∧
      (self.applyFill hash trade capped positionId []).1.position =
        (self.position.updateFromTradeWithId booked positionId
          self.instrument.kind.contractSize).1 := by
  have hno : self.reduceOnlyOf hash trade [] = .no := by
    unfold reduceOnlyOf
    rw [hbooked]
    rfl
  obtain ⟨hinstrument, hid, hmove⟩ : (self.withComputedFee trade).instrument = trade.instrument ∧
      (self.withComputedFee trade).id = trade.id ∧
      Position.moveOf (self.withComputedFee trade) = Position.moveOf trade := withComputedFee_moves
  have happlied (state : InstrumentState Data ExchangeKey AssetKey InstrumentKey)
      (booked : Trade AssetKey InstrumentKey) (h : state.position = self.position) :
      (state.applyToPosition booked positionId self.instrument.kind.contractSize).1.position =
        (self.position.updateFromTradeWithId booked positionId
          self.instrument.kind.contractSize).1 := by
    unfold applyToPosition
    rw [← h]
    simp only
    split
    · rfl
    · rfl
    · unfold recordFeeUnattributed
      split <;> rfl
  have hpruned (state : InstrumentState Data ExchangeKey AssetKey InstrumentKey) (prune : Bool) :
      ((if prune then state.prunePositionIds positionId else state).advanceOrder hash
        trade).position = state.position := by
    rw [position_advanceOrder]
    cases prune <;> rfl
  cases capped with
  | true =>
    refine ⟨self.withComputedFee trade, hinstrument, hid, hmove, ?_⟩
    unfold applyFill
    simp only
    rw [hpruned]
    exact happlied self _ rfl
  | false =>
    unfold applyFill
    simp only [hpruned]
    unfold bookFill moveFill moveHolding Trade.appliedMove
    rw [hno]
    simp only [Bool.false_eq_true, if_false]
    cases hmoved : trade.holdingMove self.instrument (self.heldAt positionId) .no with
    | none => exact ⟨self.withComputedFee trade, hinstrument, hid, hmove, happlied self _ rfl⟩
    | some moved =>
      have hexcess : moved.excess = 0 := by
        have hwhole : trade.wholeMove self.instrument (self.heldAt positionId) = some moved := hmoved
        rcases Trade.wholeMove_leaves trade self.instrument (self.heldAt positionId) with
          ⟨hnone, -⟩ | ⟨whole, hsome, -, hexcess, -⟩
        · rw [hnone] at hwhole
          cases hwhole
        · rw [hsome] at hwhole
          cases hwhole
          exact hexcess
      refine ⟨{ self.withComputedFee trade with side := moved.side, quantity := moved.quantity },
        hinstrument, hid, rfl, ?_⟩
      by_cases hdust : moved.dust = 0
      · simp only [hexcess, hdust, ne_eq, not_true_eq_false, if_false, if_true]
        exact happlied self _ rfl
      · simp only [hexcess, hdust, ne_eq, not_true_eq_false, if_false]
        exact happlied _ _ rfl

/-- What becomes of the position a fill settles, and of the others. -/
structure Settled (before : InstrumentState Data ExchangeKey AssetKey InstrumentKey)
    (trade : Trade AssetKey InstrumentKey) (positionId : PositionId)
    (position : Position AssetKey InstrumentKey)
    (after : InstrumentState Data ExchangeKey AssetKey InstrumentKey) : Prop where
  gone : after.position.positions.get? positionId = none ↔ before.settledLeft trade position = 0
  stays : ∀ next, after.position.positions.get? positionId = some next →
    next.held = signed position.side (before.settledLeft trade position) ∧ next.WellSized
  listed : ∀ next, after.position.positions.get? positionId = some next →
    next.side = position.side → next.trades = position.trades ++ [trade.id]
  elsewhere : ∀ otherId, otherId ≠ positionId →
    after.position.positions.get? otherId = before.position.positions.get? otherId

omit [DecidableEq AssetKey] [DecimalRange] in
theorem trades_updateFromTradeWithId [DecimalRange] {contractSize : Decimal}
    {next : Position AssetKey InstrumentKey}
    (hget : self.position.positions.get? positionId = some position)
    (hinstrument : position.instrument = trade.instrument)
    (hnext : (self.position.updateFromTradeWithId trade positionId contractSize).1.positions.get?
      positionId = some next) (hside : next.side = position.side) :
    next.trades = position.trades ++ [trade.id] := by
  unfold PositionManager.updateFromTradeWithId at hnext
  rw [hget] at hnext
  simp only [PositionManager.get?_settle] at hnext
  have hlisted : ∀ held : Position AssetKey InstrumentKey, held.instrument = trade.instrument →
      (held.updateFromTrade trade).1 = some next → next.side = held.side →
        next.trades = held.trades ++ [trade.id] := fun _ => Position.trades_updateFromTrade
  exact hlisted { position with contractSize } hinstrument hnext hside

/-- The position a fill settles is moved by it, as the fill or its cut says. -/
theorem settled_updateFromTrade (hmode : self.position.mode = .hedging)
    (hcontract : self.settlementLeg trade.origin = some .contract)
    (hnone : self.OfNoOrder hash trade) (hsettles : self.Settles trade positionId position)
    (hsized : position.WellSized) (hinstrument : position.instrument = trade.instrument) :
    self.Settled trade positionId position (self.updateFromTrade hash trade).1 := by
  have hdestination : self.destination hash trade = .settles positionId position.quantityAbs := by
    rcases destination_settlement hmode hcontract hnone with
      ⟨otherId, other, hother, hto⟩ | ⟨hnot, -⟩
    · have hsame := hsettles.only otherId other hother.isOpen hother.opposite
      subst hsame
      rw [Option.some.inj (hsettles.isOpen.symm.trans hother.isOpen)]
      exact hto
    · exact absurd hsettles (hnot positionId position)
  obtain ⟨noted, hposition, hterms, hbook, hreplay⟩ :
      ∃ noted : InstrumentState Data ExchangeKey AssetKey InstrumentKey,
      noted.position = self.position ∧ noted.instrument = self.instrument ∧
      noted.reduceOnlyOrder hash trade = none ∧ self.updateFromTrade hash trade =
        noted.deliver hash trade (.settles positionId position.quantityAbs) [] := by
    rw [← hdestination]
    unfold updateFromTrade replayTrade
    simp only
    split
    · exact ⟨self.noteForcedFill, rfl, rfl, hnone.unbooked, rfl⟩
    · exact ⟨self, rfl, rfl, hnone.unbooked, rfl⟩
  have hheld : noted.heldAt positionId = position.held := by
    unfold heldAt
    rw [hposition, hsettles.isOpen]
    rfl
  have hopposite (x : Decimal) : signed trade.side x = -signed position.side x :=
    signed_of_ne hsettles.opposite x
  -- One booked fill, whichever branch is taken.
  obtain ⟨booked, hon, hid, hleft, hafter⟩ : ∃ booked : Trade AssetKey InstrumentKey,
      booked.instrument = trade.instrument ∧ booked.id = trade.id ∧
      position.held + Position.moveOf booked =
        signed position.side (self.settledLeft trade position) ∧
      (self.updateFromTrade hash trade).1.position =
        (self.position.updateFromTradeWithId booked positionId
          self.instrument.kind.contractSize).1 := by
    rw [hreplay]
    unfold deliver
    dsimp only
    by_cases hcut : position.quantityAbs < |trade.quantity|
    · rw [if_pos hcut]
      have hcutBook : reduceOnlyOrder hash { noted with
          tearSheet := noted.tearSheet.recordFillUnallocated }
          (cappedTo trade position.quantityAbs) = none := hbook
      obtain ⟨booked, hon, hid, hmove, hafter⟩ := position_applyFill positionId true hcutBook
      refine ⟨booked, hon, hid, ?_, ?_⟩
      · have hsize : |(cappedTo trade position.quantityAbs).quantity| = position.quantityAbs := by
          show |if trade.quantity < 0 then -position.quantityAbs else position.quantityAbs| = _
          split
          · rw [abs_neg, abs_of_pos hsized.pos]
          · exact abs_of_pos hsized.pos
        rw [hmove, if_pos rfl, Position.moveOf, hsize]
        show signed position.side position.quantityAbs + signed trade.side position.quantityAbs = _
        unfold settledLeft
        rw [if_pos hcut, hopposite, signed_zero]
        ring
      · rw [hafter]
        show (noted.position.updateFromTradeWithId booked positionId
          noted.instrument.kind.contractSize).1 = _
        rw [hposition, hterms]
    · rw [if_neg hcut]
      obtain ⟨booked, hon, hid, hmove, hafter⟩ := position_applyFill positionId false hbook
      refine ⟨booked, hon, hid, ?_, ?_⟩
      · rw [hmove, if_neg (by simp), hterms, hheld, ← Trade.leaves_eq]
        exact leaves_eq_settledLeft hsettles.opposite hcut
      · rw [hafter, hposition, hterms]
  have hmoves : PositionManager.Moves self.position (.updateFromTradeWithId booked positionId
      self.instrument.kind.contractSize) position :=
    PositionManager.moves_updateFromTradeWithId hsettles.isOpen hsized
  have hleaves : PositionManager.Op.leaves (.updateFromTradeWithId booked positionId
      self.instrument.kind.contractSize) position =
        signed position.side (self.settledLeft trade position) := by
    rw [← hleft]
    show position.held + (if position.instrument = booked.instrument then Position.moveOf booked
      else 0) = _
    rw [if_pos (hinstrument.trans hon.symm)]
  constructor
  · rw [hafter]
    refine hmoves.gone.trans ?_
    rw [hleaves, signed_eq_zero]
  · intro next hnext
    rw [hafter] at hnext
    rw [← hleaves]
    exact hmoves.stays next hnext
  · intro next hnext hside
    rw [hafter] at hnext
    rw [← hid]
    exact trades_updateFromTradeWithId hsettles.isOpen (hinstrument.trans hon.symm) hnext hside
  · intro otherId hne
    rw [hafter]
    exact PositionManager.get?_updateFromTradeWithId_of_ne hne

/-- A fill that settles no position changes none. -/
theorem positions_of_not_settles (hmode : self.position.mode = .hedging)
    (hcontract : self.settlementLeg trade.origin = some .contract)
    (hnone : self.OfNoOrder hash trade)
    (hnot : ∀ positionId position, ¬ self.Settles trade positionId position) :
    (self.updateFromTrade hash trade).1.position.positions = self.position.positions := by
  rcases destination_settlement hmode hcontract hnone with
    ⟨positionId, position, hsettles, -⟩ | ⟨-, hdestination⟩
  · exact absurd hsettles (hnot positionId position)
  · unfold updateFromTrade replayTrade
    simp only
    split
    · have hnoted : self.noteForcedFill.destination hash trade = .unallocated := hdestination
      rw [hnoted]
      rfl
    · rw [hdestination]
      rfl

omit [DecimalRange] [DecidableEq InstrumentKey] in
/-- The condition, and what it says of the position a fill settles. -/
theorem feeLeavesWithin_iff (hsettles : self.Settles trade positionId position)
    (hsized : position.WellSized) :
    self.FeeLeavesWithin trade ↔ 0 ≤ self.settledLeft trade position ∧
      self.settledLeft trade position ≤ position.quantityAbs := by
  unfold settledLeft
  by_cases hcut : position.quantityAbs < |trade.quantity|
  · rw [if_pos hcut]
    refine ⟨fun _ => ⟨le_rfl, hsized.pos.le⟩, fun _ otherId other hother hwhole => ?_⟩
    have hsame := hsettles.only otherId other hother.isOpen hother.opposite
    subst hsame
    rw [← Option.some.inj (hsettles.isOpen.symm.trans hother.isOpen)] at hwhole
    exact absurd hcut (not_lt.2 hwhole)
  rw [if_neg hcut]
  by_cases hbase : trade.TakesBase self.instrument
  · rw [if_pos (takesBase_iff.1 hbase)]
    refine ⟨fun h => h positionId position hsettles (not_lt.1 hcut) hbase, ?_⟩
    intro h otherId other hother _ _
    have hsame := hsettles.only otherId other hother.isOpen hother.opposite
    subst hsame
    rw [← Option.some.inj (hsettles.isOpen.symm.trans hother.isOpen)]
    exact h
  · rw [if_neg (fun h => hbase (takesBase_iff.2 h))]
    refine ⟨fun _ => ⟨sub_nonneg.2 (not_lt.1 hcut), ?_⟩, fun _ _ _ _ _ h => absurd h hbase⟩
    have := abs_nonneg trade.quantity
    linarith

omit [DecidableEq AssetKey] [DecimalRange] [DecidableEq InstrumentKey] in
/-- A position that holds what is left of another is on its side, or turned. -/
theorem quantityAbs_of_held {next : Position AssetKey InstrumentKey} {left : Decimal}
    (hsized : next.WellSized) (hheld : next.held = signed position.side left) :
    (0 < left → next.side = position.side ∧ next.quantityAbs = left) ∧
      (left < 0 → next.side ≠ position.side) := by
  have hpos := hsized.pos
  unfold Position.held at hheld
  cases hnext : next.side <;> cases hside : position.side <;>
    rw [hnext, hside] at hheld <;> simp only [signed] at hheld
  · exact ⟨fun _ => ⟨rfl, hheld⟩, fun hneg => by linarith⟩
  · exact ⟨fun hleft => by linarith, fun _ => by simp⟩
  · exact ⟨fun hleft => by linarith, fun _ => by simp⟩
  · exact ⟨fun _ => ⟨rfl, by linarith⟩, fun hneg => by linarith⟩

/-- **A settlement fill only reduces just where its base fee leaves its position within bounds.** -/
theorem onlyReduces_iff (hmode : self.position.mode = .hedging)
    (hcontract : self.settlementLeg trade.origin = some .contract)
    (hnone : self.OfNoOrder hash trade) (hsized : self.position.Represented)
    (hon : ∀ positionId position, self.position.positions.get? positionId = some position →
      position.instrument = trade.instrument) :
    self.OnlyReduces trade (self.updateFromTrade hash trade).1 ↔ self.FeeLeavesWithin trade := by
  by_cases hsome : ∃ positionId position, self.Settles trade positionId position
  · obtain ⟨positionId, position, hsettles⟩ := hsome
    have hpositive := hsized positionId position hsettles.isOpen
    have hsettled := settled_updateFromTrade hmode hcontract hnone hsettles hpositive
      (hon positionId position hsettles.isOpen)
    rw [feeLeavesWithin_iff hsettles hpositive]
    set left := self.settledLeft trade position with hleft
    constructor
    · -- What is left on the other side turns the position, and what is left beyond it grows it.
      intro hreduces
      cases hafter : (self.updateFromTrade hash trade).1.position.positions.get? positionId with
      | none =>
        have hzero : left = 0 := hsettled.gone.1 hafter
        rw [hzero]
        exact ⟨le_rfl, hpositive.pos.le⟩
      | some next =>
        obtain ⟨hheld, hnext⟩ := hsettled.stays next hafter
        obtain ⟨hshrinks, hside⟩ := hreduces.shrinks positionId position next hsettles.isOpen hafter
        obtain ⟨hsame, hturned⟩ := quantityAbs_of_held hnext hheld
        have hnonneg : 0 ≤ left := not_lt.1 fun hneg => hturned hneg hside
        refine ⟨hnonneg, ?_⟩
        rcases hnonneg.eq_or_lt with hzero | hpos
        · rw [← hzero]
          exact hpositive.pos.le
        · have hquantity : next.quantityAbs = left := (hsame hpos).2
          rw [← hquantity]
          exact hshrinks
    · intro ⟨hnonneg, hle⟩
      have hstays : ∀ next,
          (self.updateFromTrade hash trade).1.position.positions.get? positionId = some next →
            next.side = position.side ∧ next.quantityAbs = left := by
        intro next hafter
        obtain ⟨hheld, hnext⟩ := hsettled.stays next hafter
        have hne : left ≠ 0 := by
          intro hzero
          rw [hsettled.gone.2 hzero] at hafter
          cases hafter
        exact (quantityAbs_of_held hnext hheld).1 (lt_of_le_of_ne hnonneg hne.symm)
      have hoff : self.settledOff trade position = position.quantityAbs - left := by
        unfold settledOff
        by_cases hcut : position.quantityAbs < |trade.quantity|
        · rw [if_pos hcut, min_eq_right hcut.le, hleft, settledLeft, if_pos hcut, sub_zero]
        · rw [if_neg hcut]
          have hmove : trade.appliedMove self.instrument position.held .no =
              signed position.side (left - position.quantityAbs) := by
            have hleaves : trade.leaves self.instrument position.held .no =
                signed position.side (self.settledLeft trade position) :=
              leaves_eq_settledLeft hsettles.opposite hcut
            rw [Trade.leaves_eq, ← hleft] at hleaves
            rw [signed_sub, ← hleaves]
            show _ = position.held + _ - position.held
            ring
          rw [hmove]
          cases position.side
          · show |left - position.quantityAbs| = _
            rw [abs_of_nonpos (by linarith)]
            ring
          · show |-(left - position.quantityAbs)| = _
            rw [abs_neg, abs_of_nonpos (by linarith)]
            ring
      constructor
      · intro otherId hclosed
        have hne : otherId ≠ positionId := by
          intro hsame
          rw [hsame, hsettles.isOpen] at hclosed
          cases hclosed
        rw [hsettled.elsewhere otherId hne]
        exact hclosed
      · intro otherId other next hother hafter
        by_cases hsame : otherId = positionId
        · subst hsame
          obtain ⟨hside, hquantity⟩ := hstays next hafter
          rw [← Option.some.inj (hsettles.isOpen.symm.trans hother), hside, hquantity]
          exact ⟨hle, rfl⟩
        · rw [hsettled.elsewhere otherId hsame, hother] at hafter
          cases hafter
          exact ⟨le_rfl, rfl⟩
      · intro otherId other hother
        have hsame := hsettles.only otherId other hother.isOpen hother.opposite
        subst hsame
        rw [← Option.some.inj (hsettles.isOpen.symm.trans hother.isOpen)]
        refine ⟨?_, ?_, hsettled.elsewhere⟩
        · intro hafter
          have hlisted := hsettled.listed position hafter rfl
          simp at hlisted
        · rw [hoff, sub_sub_cancel]
          cases hafter : (self.updateFromTrade hash trade).1.position.positions.get? otherId with
          | none => exact (hsettled.gone.1 hafter).symm
          | some next => exact (hstays next hafter).2
      · intro hnot
        exact absurd hsettles (hnot positionId position)
  · have hnot : ∀ positionId position, ¬ self.Settles trade positionId position := by
      intro positionId position hsettles
      exact hsome ⟨positionId, position, hsettles⟩
    have hsame := positions_of_not_settles hmode hcontract hnone hnot
    refine ⟨fun _ positionId position hsettles => absurd hsettles (hnot positionId position), ?_⟩
    intro _
    constructor
    · intro positionId hclosed
      rw [hsame]
      exact hclosed
    · intro positionId position next hopen hafter
      rw [hsame, hopen] at hafter
      cases hafter
      exact ⟨le_rfl, rfl⟩
    · exact fun positionId position hsettles => absurd hsettles (hnot positionId position)
    · exact fun _ => hsame

end Fills

end InstrumentState

end Rustrade
