import Rustrade.Position.Ledger

/-!
# The fees of a netting position

The ledger's other column: a fill's fee is charged once, to the position the fill moves or in two
shares to the one it closes and the one it opens, and a fill that is left unapplied has its fee
answered as charged to none.
-/

set_option autoImplicit false

namespace Rustrade

namespace Ledger

variable {AssetKey InstrumentKey : Type}

local instance exactFees : DecimalRange := DecimalRange.exact

/-- The fees charged to a position, entering and leaving it. -/
def positionFees (position : Position AssetKey InstrumentKey) : Decimal :=
  feeInQuote position.feesEnter + feeInQuote position.feesExit

/-- The fees charged to the position that was exited. -/
def exitedFees : TradeOutcome AssetKey InstrumentKey → Decimal
  | .applied (some exited) => feeInQuote exited.feesEnter + feeInQuote exited.feesExit
  | .applied none => 0
  | .unapplied _ => 0

def openFees (slot : Option (Position AssetKey InstrumentKey)) : Decimal :=
  slot.elim 0 positionFees

theorem feeInQuote_addFees {total fees : AssetFees AssetKey} :
    feeInQuote (Position.addFees total fees) = feeInQuote total + feeInQuote fees := by
  unfold feeInQuote Position.addFees sumQuoteFees
  cases total.feesQuote <;> cases fees.feesQuote <;> simp

variable {position : Position AssetKey InstrumentKey} {trade : Trade AssetKey InstrumentKey}

/-- A fill's fee is charged once, to the position it moves or split over the two it touches. -/
theorem moveBy_fees (hpos : 0 < position.quantityAbs) :
    openFees (position.moveBy trade).1 + exitedFees (.applied (position.moveBy trade).2) =
      positionFees position + feeInQuote trade.fees := by
  unfold Position.moveBy
  by_cases hside : position.side = trade.side
  · rw [if_pos hside]
    show feeInQuote (Position.addFees position.feesEnter trade.fees) +
      feeInQuote position.feesExit + 0 = _
    rw [feeInQuote_addFees, positionFees]
    ring
  · rw [if_neg hside]
    by_cases hless : |trade.quantity| < position.quantityAbs
    · rw [if_pos hless]
      show feeInQuote position.feesEnter +
        feeInQuote (Position.addFees position.feesExit trade.fees) + 0 = _
      rw [feeInQuote_addFees, positionFees]
      ring
    · rw [if_neg hless]
      by_cases heq : position.quantityAbs = |trade.quantity|
      · rw [if_pos heq]
        show 0 + (feeInQuote position.feesEnter +
          feeInQuote (Position.addFees position.feesExit trade.fees)) = _
        rw [feeInQuote_addFees, positionFees]
        ring
      · rw [if_neg heq]
        have hsize : |trade.quantity| ≠ 0 := (hpos.trans_le (not_lt.1 hless)).ne'
        have hshares := feeShare_add trade position.quantityAbs hsize
        show feeInQuote (Position.feeShare trade (|trade.quantity| - position.quantityAbs)) +
            feeInQuote (⟨trade.fees.asset, 0, some 0⟩ : AssetFees AssetKey) +
          (feeInQuote position.feesEnter + feeInQuote (Position.addFees position.feesExit
            (Position.feeShare trade position.quantityAbs))) = _
        have hnone : feeInQuote (⟨trade.fees.asset, 0, some 0⟩ : AssetFees AssetKey) = 0 := rfl
        rw [feeInQuote_addFees, positionFees, hnone]
        linear_combination hshares

/-- What `settle` answers for the fees of the position that closed. -/
theorem exitedFees_settle {manager : PositionManager AssetKey InstrumentKey}
    {updated : Option (Position AssetKey InstrumentKey)}
    {closed : Option (PositionExited AssetKey InstrumentKey)} :
    exitedFees (manager.settle .netting updated closed).2 = exitedFees (.applied closed) := by
  cases updated <;> cases closed <;> rfl

variable [DecidableEq InstrumentKey] {manager : PositionManager AssetKey InstrumentKey}

/-- **A fill's fee is charged to positions, or answered as charged to none.** -/
theorem updateFromTrade_fees {instrument : InstrumentKey} {contractSize : Decimal}
    (h : Netting instrument contractSize manager) (hins : trade.instrument = instrument) :
    (isApplied (manager.updateFromTrade trade contractSize).2 = true →
      openFees (slot (manager.updateFromTrade trade contractSize).1) +
          exitedFees (manager.updateFromTrade trade contractSize).2 =
        openFees (slot manager) + feeInQuote trade.fees) := by
  subst hins
  simp only [PositionManager.updateFromTrade, h.mode_eq, PositionManager.updateFromTradeWithId]
  cases hslot : manager.positions.get? .netting with
  | some position =>
    have hslot' : slot manager = some position := hslot
    obtain ⟨hins, hpos, -⟩ := h.sound position hslot'
    intro _
    have hmoved : ({ position with contractSize := contractSize } :
        Position AssetKey InstrumentKey).updateFromTrade trade =
        { position with contractSize := contractSize, trades := position.trades ++
          [trade.id] }.moveBy trade := by
      simp [Position.updateFromTrade, hins]
    simp only [hmoved]
    rw [(slot_settle manager _ _).1, exitedFees_settle, hslot']
    exact moveBy_fees hpos
  | none =>
    have hslot' : slot manager = none := hslot
    by_cases hzero : trade.quantity = 0
    · rw [if_pos hzero]
      intro happlied
      cases happlied
    · rw [if_neg hzero]
      intro _
      rw [(slot_settle manager _ _).1, exitedFees_settle, hslot']
      show feeInQuote trade.fees + 0 + 0 = 0 + feeInQuote trade.fees
      ring

end Ledger

end Rustrade
