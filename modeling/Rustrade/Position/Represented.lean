import Mathlib.Tactic.Linarith
import Rustrade.Lib.Transition
import Rustrade.Position.Seed

/-!
# What a position manager represents

An open position holds something, and has held at most its recorded maximum. Fills, splits and
carry keep this, whatever they are; a position leaves its slot where one of them brings it to
nothing, and is reported ended there or where a fill carries it over to the other side.
-/

set_option autoImplicit false

namespace Rustrade

theorem signed_mul_signed {side : Side} {x y : Decimal} :
    signed side x * signed side y = x * y := by
  cases side <;> simp [signed]

namespace Position

variable {AssetKey InstrumentKey : Type}

/-- What the position holds, positive for a long. -/
def held (self : Position AssetKey InstrumentKey) : Decimal := signed self.side self.quantityAbs

/-- The position holds something, and no more than its recorded maximum. -/
structure WellSized (position : Position AssetKey InstrumentKey) : Prop where
  pos : 0 < position.quantityAbs
  le_max : position.quantityAbs ≤ position.quantityAbsMax

/-- `moved` ends a position that holds `held`: it is nothing, or on the other side. -/
def Ends (held moved : Decimal) : Prop := moved = 0 ∨ moved * held < 0

theorem ends_signed_iff {side : Side} {quantity moved : Decimal} (hpos : 0 < quantity) :
    Ends (signed side quantity) (signed side moved) ↔ moved ≤ 0 := by
  unfold Ends
  rw [signed_mul_signed, signed_eq_zero]
  constructor
  · rintro (rfl | hneg)
    · exact le_rfl
    · by_contra hmoved
      have : 0 < moved * quantity := mul_pos (not_le.1 hmoved) hpos
      linarith
  · intro hmoved
    rcases hmoved.eq_or_lt with hzero | hneg
    · exact Or.inl hzero
    · exact Or.inr (mul_neg_of_neg_of_pos hneg hpos)

section Checked

variable [DecimalRange] {self : Position AssetKey InstrumentKey}
  {trade : Trade AssetKey InstrumentKey}

/-! ## Fills -/

/-- What a fill moves a position by. -/
def moveOf (trade : Trade AssetKey InstrumentKey) : Decimal := signed trade.side |trade.quantity|

omit [DecimalRange] in
theorem wellSized_fromTrade (h : trade.quantity ≠ 0) : (fromTrade trade).WellSized where
  pos := abs_pos.2 h
  le_max := le_rfl

theorem wellSized_increase (h : self.WellSized) : (self.increase trade).WellSized where
  pos := by
    change 0 < self.quantityAbs + |trade.quantity|
    have := abs_nonneg trade.quantity
    linarith [h.pos]
  le_max := by
    change self.quantityAbs + |trade.quantity| ≤
      if self.quantityAbsMax < self.quantityAbs + |trade.quantity| then
        self.quantityAbs + |trade.quantity|
      else self.quantityAbsMax
    split
    · exact le_rfl
    · rename_i hle; exact not_lt.1 hle

theorem wellSized_reduce (h : self.WellSized) (hless : |trade.quantity| < self.quantityAbs) :
    (self.reduce trade).WellSized where
  pos := sub_pos.2 hless
  le_max := by
    change self.quantityAbs - |trade.quantity| ≤ self.quantityAbsMax
    have := abs_nonneg trade.quantity
    linarith [h.le_max]

theorem wellSized_flip (hmore : self.quantityAbs < |trade.quantity|) :
    (self.flip trade).1.WellSized := by
  have hnext : (self.nextPositionTrade trade).quantity ≠ 0 := (sub_pos.2 hmore).ne'
  exact ⟨(wellSized_fromTrade hnext).pos, (wellSized_fromTrade hnext).le_max⟩

/-- What a fill leaves of a position, in the four branches: the quantities add up, the position
    that stays is well sized, and one is reported closed where the first one ends. -/
theorem moveBy_spec (h : self.WellSized) :
    let moved := self.held + moveOf trade
    ((self.moveBy trade).1 = none ↔ moved = 0) ∧
      (∀ next, (self.moveBy trade).1 = some next → next.held = moved ∧ next.WellSized) ∧
      ((self.moveBy trade).2.isSome = true ↔ Ends self.held moved) := by
  intro moved
  have habs := abs_nonneg trade.quantity
  unfold moveBy
  by_cases hside : self.side = trade.side
  · have hmoved : moved = signed self.side (self.quantityAbs + |trade.quantity|) := by
      simp only [moved, held, moveOf, ← hside, signed_add]
    have hgrown : 0 < self.quantityAbs + |trade.quantity| := by linarith [h.pos]
    rw [if_pos hside]
    refine ⟨?_, ?_, ?_⟩
    · rw [hmoved, signed_eq_zero]
      simp [hgrown.ne']
    · intro next hnext
      cases hnext
      exact ⟨hmoved.symm, wellSized_increase h⟩
    · rw [hmoved, held, ends_signed_iff h.pos]
      simp [hgrown]
  · have hmoved : moved = signed self.side (self.quantityAbs - |trade.quantity|) := by
      simp only [moved, held, moveOf, signed_of_ne hside, signed_sub, ← sub_eq_add_neg]
    rw [if_neg hside, hmoved, held, ends_signed_iff h.pos, signed_eq_zero]
    by_cases hless : |trade.quantity| < self.quantityAbs
    · rw [if_pos hless]
      refine ⟨?_, ?_, ?_⟩
      · simp [(sub_pos.2 hless).ne']
      · intro next hnext
        cases hnext
        exact ⟨rfl, wellSized_reduce h hless⟩
      · simp [hless]
    · by_cases hsize : self.quantityAbs = |trade.quantity|
      · rw [if_neg hless, if_pos hsize]
        simp [hsize]
      · have hmore : self.quantityAbs < |trade.quantity| :=
          lt_of_le_of_ne (not_lt.1 hless) hsize
        rw [if_neg hless, if_neg hsize]
        refine ⟨?_, ?_, ?_⟩
        · simp [(sub_neg.2 hmore).ne]
        · intro next hnext
          cases hnext
          refine ⟨?_, wellSized_flip hmore⟩
          -- The next position holds the rest of the fill, on the fill's side.
          have hrest : (self.flip trade).1.quantityAbs = |trade.quantity| - self.quantityAbs :=
            abs_of_pos (sub_pos.2 hmore)
          have hother : (self.flip trade).1.side = trade.side := rfl
          rw [held, hrest, hother, signed_of_ne hside, ← neg_sub]
          cases self.side <;> simp [signed]
        · simp [hmore.le]

theorem updateFromTrade_spec [DecidableEq InstrumentKey] (h : self.WellSized) :
    let moved := self.held + if self.instrument = trade.instrument then moveOf trade else 0
    ((self.updateFromTrade trade).1 = none ↔ moved = 0) ∧
      (∀ next, (self.updateFromTrade trade).1 = some next → next.held = moved ∧ next.WellSized) ∧
      ((self.updateFromTrade trade).2.isSome = true ↔ Ends self.held moved) := by
  unfold updateFromTrade
  by_cases hinstrument : self.instrument = trade.instrument
  · have hlisted : WellSized { self with trades := self.trades ++ [trade.id] } := ⟨h.pos, h.le_max⟩
    rw [if_neg (not_not.2 hinstrument), if_pos hinstrument]
    exact moveBy_spec hlisted
  · rw [if_pos hinstrument, if_neg hinstrument, add_zero]
    refine ⟨?_, ?_, ?_⟩
    · rw [held, signed_eq_zero]
      simp [h.pos.ne']
    · intro next hnext
      cases hnext
      exact ⟨rfl, h⟩
    · rw [held, ends_signed_iff h.pos]
      simp [h.pos]

/-! ## Splits and carry -/

theorem prepareSplit_spec (h : self.WellSized) {ratio : SplitRatio} {policy : SplitRoundingPolicy}
    {prepared : PreparedSplit} (hprepared : self.prepareSplit ratio policy = some prepared) :
    0 ≤ prepared.quantityAbs ∧ prepared.quantityAbs ≤ prepared.quantityAbsMax := by
  unfold prepareSplit at hprepared
  simp only [Option.bind_eq_bind, Option.bind_eq_some_iff, Option.pure_def,
    Option.some.injEq] at hprepared
  obtain ⟨scaled, hscaled, average, -, quantityMax, hmax, rfl⟩ := hprepared
  have hscaled := Decimal.ofExact_eq_some hscaled
  have hmax := Decimal.ofExact_eq_some hmax
  have hpos : 0 < scaled := hscaled ▸ mul_pos h.pos ratio.pos
  have hle : scaled ≤ quantityMax := by
    rw [← hscaled, ← hmax]
    exact mul_le_mul_of_nonneg_right h.le_max ratio.pos.le
  cases policy with
  | floor =>
    have hfloor : (0 : ℚ) ≤ (⌊scaled⌋ : ℚ) := by exact_mod_cast Int.floor_nonneg.2 hpos.le
    exact ⟨hfloor, (Int.floor_le scaled).trans hle⟩
  | fractional => exact ⟨hpos.le, hle⟩

variable (self) in
/-- A split committed leaves the prepared quantity, on the position's side. -/
theorem commitSplit_spec (prepared : PreparedSplit) (lastPrice : Option Decimal) :
    (self.commitSplit prepared lastPrice).1.quantityAbs = prepared.quantityAbs ∧
      (self.commitSplit prepared lastPrice).1.quantityAbsMax = prepared.quantityAbsMax ∧
      (self.commitSplit prepared lastPrice).1.side = self.side := by
  unfold commitSplit
  cases lastPrice <;> exact ⟨rfl, rfl, rfl⟩

theorem applyCarry_spec [DecidableEq AssetKey] (slot : CarrySlot AssetKey) (amount : Decimal)
    (time : DateTime) (h : self.WellSized) :
    (self.applyCarry slot amount time).1.side = self.side ∧
      (self.applyCarry slot amount time).1.held = self.held ∧
      (self.applyCarry slot amount time).1.WellSized := by
  unfold applyCarry
  simp only
  split
  · exact ⟨rfl, rfl, h⟩
  · cases slot <;> exact ⟨rfl, rfl, h.pos, h.le_max⟩

end Checked

end Position

/-! ## Runs of a manager -/

namespace PositionManager

variable {AssetKey InstrumentKey : Type}

/-- A call that moves positions. The settlement of an expired contract is a fill of its own. -/
inductive Op (AssetKey InstrumentKey : Type) where
  | updateFromTradeWithId (trade : Trade AssetKey InstrumentKey) (positionId : PositionId)
      (contractSize : Decimal)
  /-- A split prepared and committed, and the position dropped if it rounds to nothing. -/
  | commitSplit (positionId : PositionId) (ratio : SplitRatio) (policy : SplitRoundingPolicy)
      (lastPrice : Option Decimal) (time : DateTime)
  | applyCarry (positionId : PositionId) (slot : CarrySlot AssetKey) (amount : Decimal)
      (timeExchange : DateTime)

namespace Op

/-- The slot the call is about. -/
def positionId : Op AssetKey InstrumentKey → PositionId
  | .updateFromTradeWithId _ positionId _ | .commitSplit positionId .. | .applyCarry positionId .. =>
      positionId

/-- In netting mode fills go to the one netting slot. -/
def IsRouted (mode : OmsMode) : Op AssetKey InstrumentKey → Prop
  | .updateFromTradeWithId _ positionId _ => mode = .netting → positionId = .netting
  | .commitSplit .. | .applyCarry .. => True

end Op

section Checked

variable [DecimalRange] [DecidableEq AssetKey] [DecidableEq InstrumentKey]

/-- Prepare and commit the split of one position: it is dropped if nothing is left of it, and stays
    as it is if the split cannot be prepared. -/
def commitSplit (self : PositionManager AssetKey InstrumentKey) (positionId : PositionId)
    (ratio : SplitRatio) (policy : SplitRoundingPolicy) (lastPrice : Option Decimal)
    (time : DateTime) : PositionManager AssetKey InstrumentKey × Bool :=
  match self.positions.get? positionId with
  | none => (self, false)
  | some position =>
      match position.prepareSplit ratio policy with
      | none => (self, false)
      | some prepared =>
          let committed := { self with
            positions := self.positions.modify positionId fun position =>
              (position.commitSplit prepared lastPrice).1 }
          if prepared.quantityAbs = 0 then ((committed.removeEnded positionId time).1, true)
          else (committed, false)

/-- The manager after a call, and whether the call reports the position at its slot ended. -/
def step (self : PositionManager AssetKey InstrumentKey) :
    Op AssetKey InstrumentKey → PositionManager AssetKey InstrumentKey × Bool
  | .updateFromTradeWithId trade positionId contractSize =>
      let updated := self.updateFromTradeWithId trade positionId contractSize
      (updated.1, match updated.2 with
        | .applied exited => exited.isSome
        | .unapplied _ => false)
  | .commitSplit positionId ratio policy lastPrice time =>
      self.commitSplit positionId ratio policy lastPrice time
  | .applyCarry positionId slot amount timeExchange =>
      ({ self with
        positions := self.positions.modify positionId fun position =>
          (position.applyCarry slot amount timeExchange).1 }, false)

/-- What a call leaves a position at its slot holding. -/
def Op.leaves (op : Op AssetKey InstrumentKey) (position : Position AssetKey InstrumentKey) :
    Decimal :=
  match op with
  | .updateFromTradeWithId trade _ _ =>
      position.held +
        if position.instrument = trade.instrument then Position.moveOf trade else 0
  | .commitSplit _ ratio policy _ _ =>
      match position.prepareSplit ratio policy with
      | some prepared => signed position.side prepared.quantityAbs
      | none => position.held
  | .applyCarry .. => position.held

/-! ### One call -/

/-- What a call makes of the position at its slot: it is gone just where nothing is left of it,
    what stays holds what is left, and it is reported ended just where it ends. -/
structure Moves (manager : PositionManager AssetKey InstrumentKey) (op : Op AssetKey InstrumentKey)
    (position : Position AssetKey InstrumentKey) : Prop where
  gone : (manager.step op).1.positions.get? op.positionId = none ↔ op.leaves position = 0
  stays : ∀ next, (manager.step op).1.positions.get? op.positionId = some next →
    next.held = op.leaves position ∧ next.WellSized
  reports : (manager.step op).2 = true ↔ Position.Ends position.held (op.leaves position)

variable {self : PositionManager AssetKey InstrumentKey} {op : Op AssetKey InstrumentKey}
  {position : Position AssetKey InstrumentKey}

omit [DecimalRange] [DecidableEq AssetKey] [DecidableEq InstrumentKey] in
theorem get?_settle {positionId : PositionId} {updated : Option (Position AssetKey InstrumentKey)}
    {closed : Option (PositionExited AssetKey InstrumentKey)} :
    (self.settle positionId updated closed).1.positions.get? positionId = updated := by
  cases updated <;> cases closed <;> simp [settle]

theorem moves_updateFromTradeWithId {trade : Trade AssetKey InstrumentKey} {positionId : PositionId}
    {contractSize : Decimal} (hget : self.positions.get? positionId = some position)
    (h : position.WellSized) :
    Moves self (.updateFromTradeWithId trade positionId contractSize) position := by
  have hsized : Position.WellSized { position with contractSize := contractSize } :=
    ⟨h.pos, h.le_max⟩
  obtain ⟨hgone, hstays, hreports⟩ := Position.updateFromTrade_spec hsized
  have hstep : self.updateFromTradeWithId trade positionId contractSize =
      self.settle positionId
        ({ position with contractSize := contractSize }.updateFromTrade trade).1
        ({ position with contractSize := contractSize }.updateFromTrade trade).2 := by
    unfold updateFromTradeWithId
    rw [hget]
  refine ⟨?_, ?_, ?_⟩
  · change (self.updateFromTradeWithId trade positionId contractSize).1.positions.get?
      positionId = none ↔ _
    rw [hstep, get?_settle]
    exact hgone
  · intro next hnext
    change (self.updateFromTradeWithId trade positionId contractSize).1.positions.get?
      positionId = some next at hnext
    rw [hstep, get?_settle] at hnext
    exact hstays next hnext
  · refine Iff.trans ?_ hreports
    change (match (self.updateFromTradeWithId trade positionId contractSize).2 with
      | .applied exited => exited.isSome
      | .unapplied _ => false) = true ↔ _
    rw [hstep]
    simp [settle]

/-- A call that leaves a position on its side, and reports no end, moves it so. -/
theorem moves_of_stays {next : Position AssetKey InstrumentKey} (h : position.WellSized)
    (hnext : (self.step op).1.positions.get? op.positionId = some next)
    (hside : next.side = position.side) (hheld : next.held = op.leaves position)
    (hsized : next.WellSized) (hreport : (self.step op).2 = false) : Moves self op position where
  gone := by
    rw [hnext, ← hheld, Position.held, signed_eq_zero]
    simp [hsized.pos.ne']
  stays other hother := by
    cases Option.some.inj (hnext.symm.trans hother)
    exact ⟨hheld, hsized⟩
  reports := by
    rw [hreport, ← hheld, Position.held, Position.held, hside, Position.ends_signed_iff h.pos]
    simp [hsized.pos]

theorem moves_commitSplit {positionId : PositionId} {ratio : SplitRatio}
    {policy : SplitRoundingPolicy} {lastPrice : Option Decimal} {time : DateTime}
    (hget : self.positions.get? positionId = some position) (h : position.WellSized) :
    Moves self (.commitSplit positionId ratio policy lastPrice time) position := by
  cases hprepared : position.prepareSplit ratio policy with
  | none =>
    have hstep : self.step (.commitSplit positionId ratio policy lastPrice time) =
        (self, false) := by simp [step, commitSplit, hget, hprepared]
    refine moves_of_stays h (hstep ▸ hget) rfl ?_ h (by rw [hstep])
    simp only [Op.leaves, hprepared]
  | some prepared =>
    obtain ⟨hnonneg, hmax⟩ := Position.prepareSplit_spec h hprepared
    obtain ⟨hquantity, hquantityMax, hside⟩ :=
      position.commitSplit_spec prepared lastPrice
    set committed : PositionManager AssetKey InstrumentKey := { self with
      positions := self.positions.modify positionId fun position =>
        (position.commitSplit prepared lastPrice).1 } with hcommitted
    have hcommit : committed.positions.get? positionId =
        some (position.commitSplit prepared lastPrice).1 := by
      simp [hcommitted, IndexMap.get?_modify, hget]
    have hstep : self.step (.commitSplit positionId ratio policy lastPrice time) =
        if prepared.quantityAbs = 0 then ((committed.removeEnded positionId time).1, true)
        else (committed, false) := by simp [step, commitSplit, hget, hprepared, hcommitted]
    have hleaves : Op.leaves (.commitSplit positionId ratio policy lastPrice time) position =
        signed position.side prepared.quantityAbs := by simp only [Op.leaves, hprepared]
    by_cases hzero : prepared.quantityAbs = 0
    · rw [if_pos hzero] at hstep
      have hremoved : (committed.removeEnded positionId time).1.positions.get? positionId =
          none := by
        unfold removeEnded
        rw [hcommit]
        simp
      refine ⟨?_, ?_, ?_⟩
      · rw [hstep, hleaves, hzero]
        simpa [Op.positionId] using hremoved
      · intro next hnext
        rw [hstep] at hnext
        exact absurd (hremoved.symm.trans hnext) (by simp)
      · rw [hstep, hleaves, Position.held, Position.ends_signed_iff h.pos, hzero]
        simp
    · rw [if_neg hzero] at hstep
      refine moves_of_stays h (hstep ▸ hcommit) hside ?_ ?_ (by rw [hstep])
      · rw [hleaves, Position.held, hside, hquantity]
      · refine ⟨hquantity ▸ lt_of_le_of_ne hnonneg (Ne.symm hzero), ?_⟩
        rw [hquantity, hquantityMax]
        exact hmax

theorem moves_applyCarry {positionId : PositionId} {slot : CarrySlot AssetKey} {amount : Decimal}
    {time : DateTime} (hget : self.positions.get? positionId = some position)
    (h : position.WellSized) : Moves self (.applyCarry positionId slot amount time) position := by
  obtain ⟨hside, hheld, hsized⟩ := Position.applyCarry_spec slot amount time h
  refine moves_of_stays h ?_ hside hheld hsized rfl
  change (self.positions.modify positionId _).get? positionId = _
  rw [IndexMap.get?_modify, if_pos rfl, hget]
  rfl

/-- **What a call makes of a position is what it leaves of it.** -/
theorem moves_step (hget : self.positions.get? op.positionId = some position)
    (h : position.WellSized) : Moves self op position := by
  cases op with
  | updateFromTradeWithId trade positionId contractSize => exact moves_updateFromTradeWithId hget h
  | commitSplit positionId ratio policy lastPrice time => exact moves_commitSplit hget h
  | applyCarry positionId slot amount time => exact moves_applyCarry hget h

/-- A call leaves the other slots as they are. -/
theorem get?_step_of_ne {other : PositionId} (hne : other ≠ op.positionId) :
    (self.step op).1.positions.get? other = self.positions.get? other := by
  cases op with
  | updateFromTradeWithId trade positionId contractSize =>
    exact get?_updateFromTradeWithId_of_ne hne
  | commitSplit positionId ratio policy lastPrice time =>
    have hmodified : ∀ f : Position AssetKey InstrumentKey → Position AssetKey InstrumentKey,
        (self.positions.modify positionId f).get? other = self.positions.get? other :=
      fun f => by rw [IndexMap.get?_modify]; exact if_neg hne
    change (self.commitSplit positionId ratio policy lastPrice time).1.positions.get? other = _
    unfold commitSplit
    split
    · rfl
    · split
      · rfl
      · simp only
        split
        · unfold removeEnded
          split
          · exact hmodified _
          · rw [positions_recordPositionEnd]
            exact (IndexMap.get?_remove_of_ne hne).trans (hmodified _)
        · exact hmodified _
  | applyCarry positionId slot amount time =>
    change (self.positions.modify positionId _).get? other = _
    rw [IndexMap.get?_modify]
    exact if_neg hne

/-- At an empty slot a fill may open a position, and nothing else opens one or ends one. -/
theorem step_of_empty (hget : self.positions.get? op.positionId = none) :
    (self.step op).2 = false ∧
      ∀ next, (self.step op).1.positions.get? op.positionId = some next →
        next.WellSized ∧ ∃ trade positionId contractSize,
          op = .updateFromTradeWithId trade positionId contractSize := by
  cases op with
  | updateFromTradeWithId trade positionId contractSize =>
    have hget : self.positions.get? positionId = none := hget
    have hstep : self.updateFromTradeWithId trade positionId contractSize =
        if trade.quantity = 0 then (self, .unapplied trade.fees)
        else self.settle positionId
          (some { Position.fromTrade trade with contractSize := contractSize }) none := by
      unfold updateFromTradeWithId
      rw [hget]
    change (match (self.updateFromTradeWithId trade positionId contractSize).2 with
      | .applied exited => exited.isSome
      | .unapplied _ => false) = false ∧ ∀ next,
        (self.updateFromTradeWithId trade positionId contractSize).1.positions.get? positionId =
          some next → next.WellSized ∧ _
    rw [hstep]
    by_cases hzero : trade.quantity = 0
    · rw [if_pos hzero]
      exact ⟨rfl, fun next hnext => absurd (hget.symm.trans hnext) (by simp)⟩
    · rw [if_neg hzero]
      refine ⟨rfl, fun next hnext => ?_⟩
      rw [get?_settle] at hnext
      cases hnext
      exact ⟨⟨(Position.wellSized_fromTrade hzero).pos,
        (Position.wellSized_fromTrade hzero).le_max⟩, trade, positionId, contractSize, rfl⟩
  | commitSplit positionId ratio policy lastPrice time =>
    have hstep : self.step (.commitSplit positionId ratio policy lastPrice time) =
        (self, false) := by
      have hget : self.positions.get? positionId = none := hget
      simp [step, commitSplit, hget]
    rw [hstep]
    exact ⟨rfl, fun next hnext => absurd (hget.symm.trans hnext) (by simp)⟩
  | applyCarry positionId slot amount time =>
    refine ⟨rfl, fun next hnext => ?_⟩
    change (self.positions.modify positionId _).get? positionId = some next at hnext
    have hget : self.positions.get? positionId = none := hget
    rw [IndexMap.get?_modify, if_pos rfl, hget] at hnext
    exact absurd hnext (by simp)

/-! ### Runs -/

/-- Every open position holds something, and no more than its recorded maximum. -/
def Represented (self : PositionManager AssetKey InstrumentKey) : Prop :=
  ∀ positionId position, self.positions.get? positionId = some position → position.WellSized

theorem represented_step (h : self.Represented) : (self.step op).1.Represented := by
  intro positionId next hnext
  by_cases hslot : positionId = op.positionId
  · subst hslot
    cases hget : self.positions.get? op.positionId with
    | none => exact ((step_of_empty hget).2 next hnext).1
    | some position => exact ((moves_step hget (h _ position hget)).stays next hnext).2
  · rw [get?_step_of_ne hslot] at hnext
    exact h positionId next hnext

/-- A netting manager holds nothing but in the netting slot. -/
def OnlyNetting (self : PositionManager AssetKey InstrumentKey) : Prop :=
  ∀ positionId position, self.positions.get? positionId = some position → positionId = .netting

theorem onlyNetting_step (h : self.OnlyNetting) (hrouted : op.IsRouted .netting) :
    (self.step op).1.OnlyNetting := by
  intro positionId next hnext
  by_cases hslot : positionId = op.positionId
  · subst hslot
    cases hget : self.positions.get? op.positionId with
    | some position => exact h op.positionId position hget
    | none =>
      obtain ⟨-, trade, positionId, contractSize, rfl⟩ := (step_of_empty hget).2 next hnext
      exact hrouted rfl
  · rw [get?_step_of_ne hslot] at hnext
    exact h positionId next hnext

/-! ### Seeds -/

omit [DecimalRange] [DecidableEq AssetKey] [DecidableEq InstrumentKey] in
/-- A manager with `seeds` placed in it, one after another. -/
def seeded (mode : OmsMode) (instrument : InstrumentKey) (quote : AssetKey)
    (contractSize : Decimal) (seeds : List PositionSeed) :
    Except PositionSeedError (PositionManager AssetKey InstrumentKey) :=
  seeds.foldlM (fun manager seed => seed.seedInto manager instrument quote contractSize) (.new mode)

section Seeds

omit [DecimalRange] [DecidableEq AssetKey] [DecidableEq InstrumentKey]

variable {mode : OmsMode} {instrument : InstrumentKey} {quote : AssetKey} {contractSize : Decimal}
  {manager manager' : PositionManager AssetKey InstrumentKey}

/-- What seeding keeps of a manager of `mode`. -/
structure SeededAs (mode : OmsMode) (manager : PositionManager AssetKey InstrumentKey) : Prop where
  mode_eq : manager.mode = mode
  represented : manager.Represented
  onlyNetting : mode = .netting → manager.OnlyNetting

theorem seededAs_new : SeededAs mode (.new mode : PositionManager AssetKey InstrumentKey) where
  mode_eq := rfl
  represented _ _ h := absurd h (by simp [new])
  onlyNetting _ _ _ h := absurd h (by simp [new])

theorem seededAs_seedInto {seed : PositionSeed} (h : SeededAs mode manager)
    (hseed : seed.seedInto manager instrument quote contractSize = .ok manager') :
    SeededAs mode manager' := by
  unfold PositionSeed.seedInto at hseed
  rw [h.mode_eq] at hseed
  by_cases hpos : seed.quantityAbs ≤ 0
  · rw [if_pos hpos] at hseed
    exact absurd hseed (by simp)
  · rw [if_neg hpos] at hseed
    cases hslot : seed.slot mode with
    | error refused => rw [hslot] at hseed; exact absurd hseed (by simp)
    | ok positionId =>
      simp only [hslot] at hseed
      split at hseed
      · exact absurd hseed (by simp)
      · cases hseed
        refine ⟨rfl, fun other position hget => ?_, fun hnetting other position hget => ?_⟩
        all_goals rw [positions_recordPositionEnd, IndexMap.get?_insert] at hget
        · split at hget
          · cases hget
            exact ⟨not_le.1 hpos, le_rfl⟩
          · exact h.represented other position hget
        · split at hget
          · rename_i hother
            rw [hother]
            exact PositionSeed.slot_netting (hnetting ▸ hslot)
          · exact h.onlyNetting hnetting other position hget

/-- What an empty manager has, and each seed keeps, a seeded manager has. -/
theorem seeded_induction {P : PositionManager AssetKey InstrumentKey → Prop}
    {seeds : List PositionSeed} (hnew : P (.new mode))
    (hseedInto : ∀ (manager manager' : PositionManager AssetKey InstrumentKey)
      (seed : PositionSeed), P manager →
        seed.seedInto manager instrument quote contractSize = .ok manager' → P manager')
    (h : seeded mode instrument quote contractSize seeds = .ok manager) : P manager := by
  have hall : ∀ start : PositionManager AssetKey InstrumentKey, P start →
      seeds.foldlM (fun manager seed => seed.seedInto manager instrument quote contractSize) start =
        .ok manager → P manager := by
    clear h
    induction seeds with
    | nil =>
      intro start hstart hrun
      cases hrun
      exact hstart
    | cons seed seeds ih =>
      intro start hstart hrun
      rw [List.foldlM_cons] at hrun
      cases hseed : seed.seedInto start instrument quote contractSize with
      | error refused => rw [hseed] at hrun; exact absurd hrun (by simp [bind, Except.bind])
      | ok next =>
        rw [hseed] at hrun
        exact ih next (hseedInto start next seed hstart hseed) hrun
  exact hall _ hnew h

theorem seededAs_seeded {seeds : List PositionSeed}
    (h : seeded mode instrument quote contractSize seeds = .ok manager) :
    SeededAs mode manager :=
  seeded_induction seededAs_new (fun _ _ _ => seededAs_seedInto) h

end Seeds

end Checked

section Sample

attribute [local instance] DecimalRange.exact

namespace Sample

/-- Three held long at ten. -/
def seed : PositionSeed := ⟨⟨"abc"⟩, .buy, 3, 10, 0, none, 0, 0, 0⟩

def manager : PositionManager Unit Unit :=
  { mode := .netting
    positions := (IndexMap.empty).insert .netting (seed.position () () 1)
    timeHistoryStart := some 0 }

/-- Five are sold, which leaves two short. -/
def sells : Op Unit Unit :=
  .updateFromTradeWithId
    ⟨⟨"t-1"⟩, ⟨"v-1"⟩, (), ⟨"trend"⟩, 1, .sell, 12, 5, none, ⟨(), 0, none⟩, .order, none, none⟩
    .netting 1

def short : Position Unit Unit :=
  ⟨(), .sell, 12, 2, 2, 0, 0, 0, .zero, ⟨(), 0, none⟩, ⟨(), 0, some 0⟩, 1, 1, [⟨"t-1"⟩],
    [⟨"v-1"⟩], 1⟩

/-- One for four leaves half a share, which is rounded to none. -/
def splits : Op Unit Unit := .commitSplit .netting ⟨1 / 4, by decide +kernel⟩ .floor none 2

end Sample

end Sample

end PositionManager

end Rustrade
