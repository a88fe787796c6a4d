import Rustrade.Position
import Rustrade.Lib.Transition
import Mathlib.Algebra.Group.Prod
import Mathlib.Tactic.LinearCombination
import Mathlib.Tactic.FieldSimp

/-!
# The ledger of a netting position

In exact arithmetic a netting position manager is a ledger. `basis` is what a slot is worth on
the books: the PnL realised so far less the open quantity at its entry price. A fill changes the
books by its cash flow and its fee, whichever of the four branches it takes
(`updateFromTrade_balances`); over a run the open quantity is the sum of the fills and the PnL,
realised and exited, is the cash flow plus the open quantity at entry less the fees
(`netting_ledger_conserved`).
-/

set_option autoImplicit false

namespace Rustrade

namespace Ledger

variable {AssetKey InstrumentKey : Type}

/-- Every value is representable throughout this module. -/
local instance exactRange : DecimalRange := DecimalRange.exact

/-! ## The entries of the ledger -/

/-- The quantity a fill trades, positive for a buy. -/
def signedQuantity (trade : Trade AssetKey InstrumentKey) : Decimal :=
  signed trade.side |trade.quantity|

/-- The value a fill trades at `contractSize`, positive for a buy. -/
def tradedValue (contractSize : Decimal) (trade : Trade AssetKey InstrumentKey) : Decimal :=
  signedQuantity trade * trade.price * contractSize

/-- The PnL a fill's answer reports as exited. -/
def exitedPnl : TradeOutcome AssetKey InstrumentKey → Decimal
  | .applied (some exited) => exited.pnlRealised
  | .applied none => 0
  | .unapplied _ => 0

def isApplied : TradeOutcome AssetKey InstrumentKey → Bool
  | .applied _ => true
  | .unapplied _ => false

/-- The open quantity of a slot, positive for a long. -/
def openQuantity (slot : Option (Position AssetKey InstrumentKey)) : Decimal :=
  slot.elim 0 fun position => signed position.side position.quantityAbs

/-- The open quantity of a slot at its entry price. -/
def openValue (contractSize : Decimal) (slot : Option (Position AssetKey InstrumentKey)) :
    Decimal :=
  slot.elim 0 fun position =>
    signed position.side position.quantityAbs * position.priceEntryAverage * contractSize

/-- The PnL the open position has realised. -/
def openPnl (slot : Option (Position AssetKey InstrumentKey)) : Decimal :=
  slot.elim 0 fun position => position.pnlRealised

/-- What a slot is worth on the books. -/
def basis (contractSize : Decimal) (slot : Option (Position AssetKey InstrumentKey)) : Decimal :=
  openPnl slot - openValue contractSize slot

/-! ## The arithmetic of one fill -/

/-- The PnL of a closed quantity is the price moved times the signed quantity, less the fee. -/
theorem updatePnlRealised_exact (position : Position AssetKey InstrumentKey)
    (closedQuantity closedPrice closedFee : Decimal) :
    position.updatePnlRealised closedQuantity closedPrice closedFee =
      { position with pnlRealised := position.pnlRealised +
          (signed position.side |closedQuantity| * (closedPrice - position.priceEntryAverage) *
            position.contractSize - closedFee) } := by
  unfold Position.updatePnlRealised calculatePnlRealised
  cases hs : position.side <;> simp [signed] <;> ring

/-- The new average prices the old and the added quantity together. -/
theorem average_mul (average price : Decimal) {quantity added : Decimal} (h : 0 < quantity)
    (hadded : 0 ≤ added) :
    calculatePriceEntryAverage average quantity price added * (quantity + added) =
      average * quantity + price * added := by
  have hsum : quantity + added ≠ 0 := by positivity
  simp only [calculatePriceEntryAverage, h.ne', false_and, if_false]
  exact div_mul_cancel₀ _ hsum

/-- The shares of a fee on the two parts of a fill make up the fee. -/
theorem feeShare_add (trade : Trade AssetKey InstrumentKey) (part : Decimal)
    (h : |trade.quantity| ≠ 0) :
    feeInQuote (Position.feeShare trade part) +
      feeInQuote (Position.feeShare trade (|trade.quantity| - part)) = feeInQuote trade.fees := by
  unfold feeInQuote Position.feeShare
  cases trade.fees.feesQuote with
  | none => simp
  | some fee => simp; field_simp; ring

/-! ## The balance of one fill, branch by branch -/

section Branches

variable {position : Position AssetKey InstrumentKey} {trade : Trade AssetKey InstrumentKey}

theorem increase_balances (hside : position.side = trade.side) (hpos : 0 < position.quantityAbs) :
    openQuantity (some (position.increase trade)) =
      openQuantity (some position) + signedQuantity trade ∧
    basis position.contractSize (some (position.increase trade)) =
      basis position.contractSize (some position) - tradedValue position.contractSize trade -
        feeInQuote trade.fees := by
  have havg := average_mul position.priceEntryAverage trade.price hpos (abs_nonneg trade.quantity)
  refine ⟨by simp [openQuantity, Position.increase, Position.updatePnlUnrealisedPostTrade,
    signedQuantity, hside], ?_⟩
  simp only [basis, openPnl, openValue, Option.elim, Position.increase,
    Position.updatePnlUnrealisedPostTrade, Decimal.checkedSub_exact, Option.getD_some, tradedValue,
    signedQuantity, hside]
  cases trade.side <;> simp only [signed]
  · linear_combination (-position.contractSize) * havg
  · linear_combination position.contractSize * havg

theorem reduce_balances (hside : position.side ≠ trade.side) :
    openQuantity (some (position.reduce trade)) =
      openQuantity (some position) + signedQuantity trade ∧
    basis position.contractSize (some (position.reduce trade)) =
      basis position.contractSize (some position) - tradedValue position.contractSize trade -
        feeInQuote trade.fees := by
  simp only [basis, openPnl, openValue, openQuantity, Option.elim, Position.reduce,
    Position.updatePnlUnrealisedPostTrade, updatePnlRealised_exact, tradedValue, signedQuantity,
    signed_of_ne hside, signed_sub]
  constructor <;> ring

theorem close_balances (hside : position.side ≠ trade.side)
    (hsize : position.quantityAbs = |trade.quantity|) :
    0 = openQuantity (some position) + signedQuantity trade ∧
    (position.close trade).pnlRealised =
      basis position.contractSize (some position) - tradedValue position.contractSize trade -
        feeInQuote trade.fees := by
  simp only [basis, openPnl, openValue, openQuantity, Option.elim, Position.close,
    Position.updatePnlUnrealisedPostTrade, Position.intoExited, updatePnlRealised_exact,
    tradedValue, signedQuantity, signed_of_ne hside, hsize]
  constructor <;> ring

theorem flip_balances (hside : position.side ≠ trade.side)
    (hsize : position.quantityAbs < |trade.quantity|) (hpos : 0 < position.quantityAbs) :
    openQuantity (some (position.flip trade).1) =
      openQuantity (some position) + signedQuantity trade ∧
    basis position.contractSize (some (position.flip trade).1) +
        (position.flip trade).2.pnlRealised =
      basis position.contractSize (some position) - tradedValue position.contractSize trade -
        feeInQuote trade.fees := by
  have hnext : |(|trade.quantity| - position.quantityAbs)| = |trade.quantity| - position.quantityAbs :=
    abs_of_pos (sub_pos.2 hsize)
  have hheld : |position.quantityAbs| = position.quantityAbs := abs_of_pos hpos
  have hfee := feeShare_add trade position.quantityAbs (hpos.trans hsize).ne'
  simp only [basis, openPnl, openValue, openQuantity, Option.elim, Position.flip,
    Position.nextPositionTrade, Position.fromTrade, Position.updatePnlUnrealisedPostTrade,
    Position.intoExited, updatePnlRealised_exact, tradedValue, signedQuantity,
    signed_of_ne hside, signed_sub, hnext, hheld]
  constructor
  · ring
  · linear_combination (-1 : ℚ) * hfee

end Branches

/-! ## The balance of one fill -/

/-- What every position of the manager has: the instrument of its fills, a positive size and the
    contract size of the run. -/
structure Sound (instrument : InstrumentKey) (contractSize : Decimal)
    (position : Position AssetKey InstrumentKey) : Prop where
  instrument_eq : position.instrument = instrument
  quantity_pos : 0 < position.quantityAbs
  contractSize_eq : position.contractSize = contractSize

/-- A fill on an open position changes its quantity by the fill's, and the books by the fill's
    cash flow and fee, whatever branch it takes. -/
theorem moveBy_balances {position : Position AssetKey InstrumentKey}
    {trade : Trade AssetKey InstrumentKey} {contractSize : Decimal}
    (hsound : Sound trade.instrument contractSize position) :
    (∀ next, (position.moveBy trade).1 = some next →
      Sound trade.instrument contractSize next) ∧
    openQuantity (position.moveBy trade).1 =
      openQuantity (some position) + signedQuantity trade ∧
    basis contractSize (position.moveBy trade).1 + exitedPnl (.applied (position.moveBy trade).2) =
      basis contractSize (some position) - tradedValue contractSize trade -
        feeInQuote trade.fees := by
  obtain ⟨hins, hpos, rfl⟩ := hsound
  unfold Position.moveBy
  by_cases hside : position.side = trade.side
  · obtain ⟨hq, hb⟩ := increase_balances hside hpos
    rw [if_pos hside]
    refine ⟨?_, hq, by simpa [exitedPnl] using hb⟩
    rintro next ⟨⟩
    exact ⟨hins, add_pos_of_pos_of_nonneg hpos (abs_nonneg _), rfl⟩
  · rw [if_neg hside]
    by_cases hless : |trade.quantity| < position.quantityAbs
    · obtain ⟨hq, hb⟩ := reduce_balances hside
      rw [if_pos hless]
      refine ⟨?_, hq, by simpa [exitedPnl] using hb⟩
      rintro next ⟨⟩
      exact ⟨hins, sub_pos.2 hless, rfl⟩
    · rw [if_neg hless]
      by_cases heq : position.quantityAbs = |trade.quantity|
      · obtain ⟨hq, hb⟩ := close_balances hside heq
        rw [if_pos heq]
        exact ⟨by simp, hq, by simpa [exitedPnl, basis, openPnl, openValue] using hb⟩
      · have hmore : position.quantityAbs < |trade.quantity| :=
          lt_of_le_of_ne (not_lt.1 hless) heq
        obtain ⟨hq, hb⟩ := flip_balances hside hmore hpos
        rw [if_neg heq]
        refine ⟨?_, hq, by simpa [exitedPnl] using hb⟩
        rintro next ⟨⟩
        exact ⟨rfl, abs_pos.2 (sub_pos.2 hmore).ne', rfl⟩

/-! ## The balance of the manager -/

section Manager

/-- The one slot of a netting manager. -/
def slot (manager : PositionManager AssetKey InstrumentKey) :
    Option (Position AssetKey InstrumentKey) := manager.positions.get? .netting

/-- A netting manager whose position, if any, is in the netting slot and sound. -/
structure Netting (instrument : InstrumentKey) (contractSize : Decimal)
    (manager : PositionManager AssetKey InstrumentKey) : Prop where
  mode_eq : manager.mode = .netting
  only : ∀ id position, manager.positions.get? id = some position → id = .netting
  sound : ∀ position, slot manager = some position → Sound instrument contractSize position

/-- What `settle` leaves in the slot is the position the fill left. -/
theorem slot_settle (manager : PositionManager AssetKey InstrumentKey)
    (updated : Option (Position AssetKey InstrumentKey))
    (closed : Option (PositionExited AssetKey InstrumentKey)) :
    slot (manager.settle .netting updated closed).1 = updated ∧
    (manager.settle .netting updated closed).1.mode = manager.mode ∧
    (∀ id, id ≠ .netting → (manager.settle .netting updated closed).1.positions.get? id =
      manager.positions.get? id) ∧
    exitedPnl (manager.settle .netting updated closed).2 = exitedPnl (.applied closed) ∧
    isApplied (manager.settle .netting updated closed).2 = true := by
  cases updated <;> cases closed <;>
    simp +contextual [PositionManager.settle, slot, PositionManager.recordPositionEnd, exitedPnl,
      isApplied, IndexMap.get?_insert, IndexMap.get?_remove]

theorem netting_new {instrument : InstrumentKey} {contractSize : Decimal} :
    Netting instrument contractSize
      (PositionManager.new .netting : PositionManager AssetKey InstrumentKey) :=
  ⟨rfl, by intro id position h; exact absurd h (by simp [PositionManager.new]),
    by intro position h; exact absurd h (by simp [slot, PositionManager.new])⟩

/-- The entry a fill makes: its quantity, and its cash flow, fee and exited PnL. A fill that was
    not applied makes none. -/
def flow (contractSize : Decimal)
    (entry : Trade AssetKey InstrumentKey × TradeOutcome AssetKey InstrumentKey) :
    Decimal × Decimal :=
  (signedQuantity entry.1,
    if isApplied entry.2 then
      -tradedValue contractSize entry.1 - feeInQuote entry.1.fees - exitedPnl entry.2
    else 0)

/-- The books of a manager: its open quantity and what its slot is worth. -/
def books (contractSize : Decimal) (manager : PositionManager AssetKey InstrumentKey) :
    Decimal × Decimal :=
  (openQuantity (slot manager), basis contractSize (slot manager))

/-- The fills of a log that were applied. -/
def applied (log : List (Trade AssetKey InstrumentKey × TradeOutcome AssetKey InstrumentKey)) :
    List (Trade AssetKey InstrumentKey) :=
  (log.filter fun entry => isApplied entry.2).map Prod.fst

theorem sum_flow (contractSize : Decimal)
    (log : List (Trade AssetKey InstrumentKey × TradeOutcome AssetKey InstrumentKey)) :
    (log.map (flow contractSize)).sum =
      ((log.map fun entry => signedQuantity entry.1).sum,
        -((applied log).map (tradedValue contractSize)).sum -
          ((applied log).map fun trade => feeInQuote trade.fees).sum -
          (log.map fun entry => exitedPnl entry.2).sum) := by
  induction log with
  | nil => simp [applied, Prod.ext_iff]
  | cons entry log ih =>
    obtain ⟨trade, outcome⟩ := entry
    rw [List.map_cons, List.sum_cons, ih]
    cases outcome with
    | applied exited =>
      simp only [flow, applied, isApplied, if_true, List.filter_cons_of_pos, List.map_cons,
        List.sum_cons, Prod.mk_add_mk, Prod.mk.injEq, true_and]
      ring
    | unapplied fees =>
      simp [flow, applied, isApplied, exitedPnl]

variable [DecidableEq InstrumentKey]

/-- A fill is left unapplied exactly if it has no quantity and its slot no position, and then
    changes nothing. -/
theorem updateFromTrade_unapplied {manager : PositionManager AssetKey InstrumentKey}
    (hmode : manager.mode = .netting) (trade : Trade AssetKey InstrumentKey)
    (contractSize : Decimal) :
    (isApplied (manager.updateFromTrade trade contractSize).2 = false ↔
      trade.quantity = 0 ∧ slot manager = none) ∧
    (isApplied (manager.updateFromTrade trade contractSize).2 = false →
      manager.updateFromTrade trade contractSize = (manager, .unapplied trade.fees)) := by
  simp only [PositionManager.updateFromTrade, hmode, PositionManager.updateFromTradeWithId]
  cases hslot : manager.positions.get? .netting with
  | some position =>
    have hset := slot_settle manager
      ({ position with contractSize := contractSize }.updateFromTrade trade).1
      ({ position with contractSize := contractSize }.updateFromTrade trade).2
    simp [hset.2.2.2.2, slot, hslot]
  | none =>
    by_cases hzero : trade.quantity = 0
    · simp [hzero, isApplied, slot, hslot]
    · have hset := slot_settle manager
        (some { Position.fromTrade trade with contractSize := contractSize }) none
      simp [hzero, hset.2.2.2.2]

theorem updateFromTrade_books {manager : PositionManager AssetKey InstrumentKey}
    {trade : Trade AssetKey InstrumentKey} {instrument : InstrumentKey} {contractSize : Decimal}
    (h : Netting instrument contractSize manager) (hins : trade.instrument = instrument) :
    Netting instrument contractSize (manager.updateFromTrade trade contractSize).1 ∧
    books contractSize (manager.updateFromTrade trade contractSize).1 =
      books contractSize manager +
        flow contractSize (trade, (manager.updateFromTrade trade contractSize).2) := by
  subst hins
  simp only [PositionManager.updateFromTrade, h.mode_eq, PositionManager.updateFromTradeWithId]
  have settled : ∀ {updated : Option (Position AssetKey InstrumentKey)}
      {closed : Option (PositionExited AssetKey InstrumentKey)},
      (∀ next, updated = some next → Sound trade.instrument contractSize next) →
      openQuantity updated = openQuantity (slot manager) + signedQuantity trade →
      basis contractSize updated + exitedPnl (.applied closed) =
        basis contractSize (slot manager) - tradedValue contractSize trade -
          feeInQuote trade.fees →
      Netting trade.instrument contractSize (manager.settle .netting updated closed).1 ∧
      books contractSize (manager.settle .netting updated closed).1 =
        books contractSize manager +
          flow contractSize (trade, (manager.settle .netting updated closed).2) := by
    intro updated closed hsound hq hb
    obtain ⟨hslot, hmode, hother, hexit, happlied⟩ :=
      slot_settle manager updated closed
    refine ⟨⟨hmode.trans h.mode_eq, fun id position hget => ?_, fun position hget => ?_⟩, ?_⟩
    · by_contra hne
      rw [hother id hne] at hget
      exact hne (h.only id position hget)
    · rw [hslot] at hget; exact hsound position hget
    · simp only [books, flow, hslot, hexit, happlied, if_true, Prod.mk_add_mk, Prod.mk.injEq]
      exact ⟨hq, by linear_combination hb⟩
  cases hslot : manager.positions.get? .netting with
  | some position =>
    have hslot' : slot manager = some position := hslot
    obtain ⟨hins, hpos, hsize⟩ := h.sound position hslot'
    have hsame : ({ position with contractSize := contractSize } : Position _ _) = position := by
      rw [← hsize]
    have hnoted : position.updateFromTrade trade =
        { position with trades := position.trades ++ [trade.id] }.moveBy trade := by
      simp [Position.updateFromTrade, hins]
    have hnotedSound : Sound trade.instrument contractSize
        { position with trades := position.trades ++ [trade.id] } := ⟨hins, hpos, hsize⟩
    obtain ⟨hsound, hq, hb⟩ := moveBy_balances hnotedSound
    simp only [hsame, hnoted]
    refine settled hsound ?_ ?_
    · rw [hslot']; exact hq
    · rw [hslot']; exact hb
  | none =>
    have hslot' : slot manager = none := hslot
    by_cases hzero : trade.quantity = 0
    · rw [if_pos hzero]
      refine ⟨h, ?_⟩
      cases hside : trade.side <;>
        simp [books, flow, isApplied, signedQuantity, hzero]
    · rw [if_neg hzero]
      refine settled ?_ ?_ ?_
      · rintro next ⟨⟩
        exact ⟨rfl, abs_pos.2 hzero, rfl⟩
      · rw [hslot']
        simp [openQuantity, Position.fromTrade, signedQuantity]
      · rw [hslot']
        simp only [basis, openPnl, openValue, Option.elim, Position.fromTrade, exitedPnl,
          tradedValue, signedQuantity]
        ring

/-! ## The ledger of a run -/

/-- One fill at a fixed contract size, as a step with an answer. -/
abbrev fill (contractSize : Decimal) (manager : PositionManager AssetKey InstrumentKey)
    (trade : Trade AssetKey InstrumentKey) :
    PositionManager AssetKey InstrumentKey × TradeOutcome AssetKey InstrumentKey :=
  manager.updateFromTrade trade contractSize

/-- **Ledger conservation.** Over any run of fills on one instrument, from no position: the open
    quantity is the sum of the signed fills; the PnL exited and realised is the cash flow of the
    applied fills, plus the open quantity at entry, less their fees; and the fills left unapplied
    are those without quantity on an empty slot, which change nothing. -/
theorem netting_ledger_conserved (instrument : InstrumentKey) (contractSize : Decimal)
    (trades : List (Trade AssetKey InstrumentKey))
    (h : ∀ trade ∈ trades, trade.instrument = instrument) :
    let log := Transition.log (fill contractSize) (.new .netting) trades
    let manager := Transition.final (fill contractSize) (.new .netting) trades
    openQuantity (slot manager) = (trades.map signedQuantity).sum ∧
    (log.map fun entry => exitedPnl entry.2).sum + openPnl (slot manager) =
      -((applied log).map (tradedValue contractSize)).sum + openValue contractSize (slot manager) -
        ((applied log).map fun trade => feeInQuote trade.fees).sum ∧
    (∀ id position, manager.positions.get? id = some position → id = .netting) ∧
    ∀ pre trade post, trades = pre ++ trade :: post →
      let found := Transition.final (fill contractSize) (.new .netting) pre
      (isApplied (fill contractSize found trade).2 = false ↔
        trade.quantity = 0 ∧ slot found = none) ∧
      (isApplied (fill contractSize found trade).2 = false →
        fill contractSize found trade = (found, .unapplied trade.fees)) := by
  have step : ∀ (manager : PositionManager AssetKey InstrumentKey) trade,
      Netting instrument contractSize manager → trade.instrument = instrument →
      Netting instrument contractSize (fill contractSize manager trade).1 ∧
      books contractSize (fill contractSize manager trade).1 =
        books contractSize manager +
          flow contractSize (trade, (fill contractSize manager trade).2) :=
    fun manager trade hm ht => updateFromTrade_books hm ht
  have netting : ∀ {fills : List (Trade AssetKey InstrumentKey)},
      (∀ trade ∈ fills, trade.instrument = instrument) →
      Netting instrument contractSize
        (Transition.final (fill contractSize) (.new .netting) fills) := fun hfills =>
    Transition.run_invariant_of _ (fun manager trade ht hm => (step manager trade hm ht).1) hfills
      netting_new
  intro log manager
  have hbooks := Transition.value_final (fun trade => trade.instrument = instrument)
    (flow contractSize) step netting_new h
  have hfst : (log.map fun entry => signedQuantity entry.1).sum =
      (trades.map signedQuantity).sum := by
    rw [← Transition.map_fst_log (fill contractSize) (.new .netting) trades,
      List.map_map]
    rfl
  rw [sum_flow] at hbooks
  simp only [books, Prod.mk_add_mk, Prod.mk.injEq] at hbooks
  obtain ⟨hquantity, hbasis⟩ := hbooks
  have hempty : slot (.new .netting : PositionManager AssetKey InstrumentKey) = none := rfl
  rw [hempty] at hquantity hbasis
  refine ⟨?_, ?_, (netting h).only, ?_⟩
  · rw [hquantity, hfst]; simp [openQuantity]
  · simp only [basis, openPnl, openValue, Option.elim] at hbasis ⊢
    linear_combination hbasis
  · rintro pre trade post rfl
    exact updateFromTrade_unapplied
      (netting fun t ht => h t (List.mem_append_left _ ht)).mode_eq trade contractSize

/-- A long of two, then a sale of three: the position flips to a short of one. -/
def flipRun : List (Trade Unit Unit) :=
  [ ⟨⟨"t-1"⟩, ⟨"o-1"⟩, (), ⟨"trend"⟩, 1, .buy, 10, 2, none, ⟨(), 1, some 1⟩, .order, none, none⟩,
    ⟨⟨"t-2"⟩, ⟨"o-2"⟩, (), ⟨"trend"⟩, 2, .sell, 12, 3, none, ⟨(), 3, some 3⟩, .order, none, none⟩ ]

theorem netting_ledger_conserved_flip :
    openQuantity (slot (Transition.final (fill 1) (.new .netting) flipRun)) =
      (flipRun.map signedQuantity).sum :=
  (netting_ledger_conserved () 1 flipRun (by decide)).1

end Manager

end Ledger

end Rustrade
