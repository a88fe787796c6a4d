import Rustrade.Position.Adjust

/-!
# Seeded positions

A position held from before the engine starts is placed by a seed: checked against the manager's
mode and its slots, and inserted as a position no fill has touched.
-/

set_option autoImplicit false

namespace Rustrade

/-- `InstrumentNameInternal`. -/
structure InstrumentNameInternal where
  val : String
  deriving DecidableEq, Repr

/-- `AssetNameInternal`. -/
structure AssetNameInternal where
  val : String
  deriving DecidableEq, Repr

/-- An open position to place before the engine starts. -/
structure PositionSeed where
  instrument : InstrumentNameInternal
  side : Side
  quantityAbs : Decimal
  priceEntryAverage : Decimal
  timeEnter : DateTime
  positionId : Option PositionId
  feesEnter : Decimal
  carry : Decimal
  carryBase : Decimal

/-- Why a seed or a restored position was refused. -/
inductive PositionSeedError where
  | nonPositiveQuantity (instrument : InstrumentNameInternal) (quantityAbs : Decimal)
  | duplicateSlot (instrument : InstrumentNameInternal) (positionId : PositionId)
  | positionIdInNetting (instrument : InstrumentNameInternal) (positionId : PositionId)
  | missingPositionIdInHedging (instrument : InstrumentNameInternal)
  | unknownInstrument (instrument : InstrumentNameInternal)
  | unknownAsset (instrument : InstrumentNameInternal) (asset : AssetNameInternal)
  deriving DecidableEq

namespace PositionSeed

variable {AssetKey InstrumentKey : Type}

/-- The slot the seed goes to in a manager of `mode`. -/
def slot (self : PositionSeed) (mode : OmsMode) : Except PositionSeedError PositionId :=
  match mode, self.positionId with
  | .netting, none => .ok .netting
  | .netting, some positionId =>
      if positionId = .netting then .ok positionId
      else .error (.positionIdInNetting self.instrument positionId)
  | .hedging, some positionId => .ok positionId
  | .hedging, none => .error (.missingPositionIdInHedging self.instrument)

/-- A netting manager has the one slot. -/
theorem slot_netting {self : PositionSeed} {positionId : PositionId}
    (h : self.slot .netting = .ok positionId) : positionId = .netting := by
  unfold slot at h
  cases hid : self.positionId with
  | none => rw [hid] at h; exact (Except.ok.inj h).symm
  | some named =>
    rw [hid] at h
    simp only at h
    split at h
    · rename_i hnetting; rw [← Except.ok.inj h]; exact hnetting
    · exact absurd h (by simp)

/-- The position the seed opens. -/
def position (self : PositionSeed) (instrument : InstrumentKey) (quote : AssetKey)
    (contractSize : Decimal) : Position AssetKey InstrumentKey :=
  { instrument := instrument
    side := self.side
    priceEntryAverage := self.priceEntryAverage
    quantityAbs := self.quantityAbs
    quantityAbsMax := self.quantityAbs
    pnlUnrealised := 0
    pnlRealised := -self.feesEnter
    carry := self.carry
    carryAssets := ⟨self.carryBase, []⟩
    feesEnter := ⟨quote, self.feesEnter, some self.feesEnter⟩
    feesExit := ⟨quote, 0, some 0⟩
    timeEnter := self.timeEnter
    timeExchangeUpdate := self.timeEnter
    trades := []
    ordersEnter := []
    contractSize := contractSize }

def seedInto (self : PositionSeed) (manager : PositionManager AssetKey InstrumentKey)
    (instrument : InstrumentKey) (quote : AssetKey) (contractSize : Decimal) :
    Except PositionSeedError (PositionManager AssetKey InstrumentKey) :=
  if self.quantityAbs ≤ 0 then
    .error (.nonPositiveQuantity self.instrument self.quantityAbs)
  else
    match self.slot manager.mode with
    | .error refused => .error refused
    | .ok positionId =>
        if manager.positions.contains positionId then
          .error (.duplicateSlot self.instrument positionId)
        else
          .ok ({ manager with
            positions := manager.positions.insert positionId
              (self.position instrument quote contractSize) }.recordPositionEnd self.timeEnter)

end PositionSeed

end Rustrade
