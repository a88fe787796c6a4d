import Rustrade.Execution.HoldingMove
import Rustrade.InstrumentState.PendingFills
import Rustrade.Position.Fees

/-!
# Where a fee goes

In netting mode and exact arithmetic an instrument's books are three numbers: the open quantity,
the PnL that has been realised less the open quantity at its entry price and the fees no position
carries, and the fees charged so far, to positions and to none. A fill moves the first by the move
it is booked as, the second by that move's cash flow and the fill's fee, and the third by the fee,
through every branch between the venue and the position; no other call moves any of them.
-/

set_option autoImplicit false

namespace Rustrade

/-! ## What the tear sheet books -/

/-- The position a booking closes. -/
def Booking.closed? {AssetKey InstrumentKey : Type} :
    Booking AssetKey InstrumentKey → Option (PositionExited AssetKey InstrumentKey)
  | .closed exited => some exited
  | .feeUnattributed _ _ => none

/-- The fee a booking charges to no position. -/
def Booking.unattributed {AssetKey InstrumentKey : Type} :
    Booking AssetKey InstrumentKey → Decimal
  | .closed _ => 0
  | .feeUnattributed fee _ => fee

namespace TearSheetGenerator

variable {AssetKey InstrumentKey : Type}

/-- Every position that closed. -/
def exited (self : TearSheetGenerator AssetKey InstrumentKey) :
    List (PositionExited AssetKey InstrumentKey) := self.booked.filterMap Booking.closed?

/-- The fees no position carries. -/
def feesUnattributed (self : TearSheetGenerator AssetKey InstrumentKey) : Decimal :=
  (self.booked.map Booking.unattributed).sum

@[simp] theorem exited_updateFromPosition {self : TearSheetGenerator AssetKey InstrumentKey}
    {position : PositionExited AssetKey InstrumentKey} :
    (self.updateFromPosition position).exited = self.exited ++ [position] := by
  simp [exited, updateFromPosition, Booking.closed?]

@[simp] theorem feesUnattributed_updateFromPosition
    {self : TearSheetGenerator AssetKey InstrumentKey}
    {position : PositionExited AssetKey InstrumentKey} :
    (self.updateFromPosition position).feesUnattributed = self.feesUnattributed := by
  simp [feesUnattributed, updateFromPosition, Booking.unattributed]

@[simp] theorem exited_recordFeeUnattributed {self : TearSheetGenerator AssetKey InstrumentKey}
    {fee : Decimal} {time : DateTime} :
    (self.recordFeeUnattributed fee time).exited = self.exited := by
  simp [exited, recordFeeUnattributed, Booking.closed?]

@[simp] theorem feesUnattributed_recordFeeUnattributed
    {self : TearSheetGenerator AssetKey InstrumentKey} {fee : Decimal} {time : DateTime} :
    (self.recordFeeUnattributed fee time).feesUnattributed = self.feesUnattributed + fee := by
  simp [feesUnattributed, recordFeeUnattributed, Booking.unattributed]

end TearSheetGenerator

/-! ## The books of an instrument -/

namespace InstrumentState

open Ledger

variable {Data ExchangeKey AssetKey InstrumentKey : Type}

local instance exactBooks : DecimalRange := DecimalRange.exact

/-- The books of a netting position and a tear sheet: the open quantity; the PnL exited and
    realised, less the open quantity at entry and the fees no position carries; and the fees
    charged. -/
def booksOf (contractSize : Decimal) (position : PositionManager AssetKey InstrumentKey)
    (tearSheet : TearSheetGenerator AssetKey InstrumentKey) : Decimal × Decimal × Decimal :=
  (openQuantity (slot position),
    (tearSheet.exited.map PositionExited.pnlRealised).sum + basis contractSize (slot position) -
      tearSheet.feesUnattributed,
    (tearSheet.exited.map fun exited =>
        feeInQuote exited.feesEnter + feeInQuote exited.feesExit).sum +
      openFees (slot position) + tearSheet.feesUnattributed)

/-- The books of an instrument. -/
def books (s : InstrumentState Data ExchangeKey AssetKey InstrumentKey) :
    Decimal × Decimal × Decimal :=
  booksOf s.instrument.kind.contractSize s.position s.tearSheet

/-- What a fee no position carries adds to them. -/
def unattributedEntry (fee : Decimal) : Decimal × Decimal × Decimal := (0, -fee, fee)

/-- What a fill adds to them, as it is booked. -/
def entry (contractSize fee : Decimal) (booked : Trade AssetKey InstrumentKey) :
    Decimal × Decimal × Decimal :=
  (signedQuantity booked, -tradedValue contractSize booked - fee, fee)

theorem booksOf_congr {contractSize : Decimal} {position : PositionManager AssetKey InstrumentKey}
    {tearSheet tearSheet' : TearSheetGenerator AssetKey InstrumentKey}
    (h : tearSheet'.booked = tearSheet.booked) :
    booksOf contractSize position tearSheet' = booksOf contractSize position tearSheet := by
  unfold booksOf TearSheetGenerator.exited TearSheetGenerator.feesUnattributed
  rw [h]

theorem booksOf_recordFeeUnattributed {contractSize fee : Decimal} {time : DateTime}
    {position : PositionManager AssetKey InstrumentKey}
    {tearSheet : TearSheetGenerator AssetKey InstrumentKey} :
    booksOf contractSize position (tearSheet.recordFeeUnattributed fee time) =
      booksOf contractSize position tearSheet + unattributedEntry fee := by
  simp only [booksOf, unattributedEntry, TearSheetGenerator.exited_recordFeeUnattributed,
    TearSheetGenerator.feesUnattributed_recordFeeUnattributed, Prod.mk_add_mk, Prod.mk.injEq]
  refine ⟨?_, ?_, ?_⟩ <;> ring

variable {hash : HashOrder} {s : InstrumentState Data ExchangeKey AssetKey InstrumentKey}
  {trade : Trade AssetKey InstrumentKey}

/-- The fees of a fill, in quote: the venue's and the engine's own commission. -/
def feeCharged (s : InstrumentState Data ExchangeKey AssetKey InstrumentKey)
    (trade : Trade AssetKey InstrumentKey) : Decimal :=
  feeInQuote trade.fees + s.feeModel.computeFee trade.price trade.quantity
    s.instrument.kind.contractSize .taker

theorem feeInQuote_withComputedFee : feeInQuote (s.withComputedFee trade).fees = s.feeCharged trade := by
  unfold withComputedFee feeCharged
  simp only
  split
  · rename_i hzero
    rw [hzero, add_zero]
  · unfold feeInQuote
    rfl

theorem books_recordFeeUnattributed {fees : AssetFees AssetKey} :
    (s.recordFeeUnattributed trade fees).books = s.books + unattributedEntry (feeInQuote fees) := by
  unfold recordFeeUnattributed
  split
  · rename_i hzero
    have hnone : unattributedEntry 0 = 0 := by simp [unattributedEntry]
    rw [hzero, hnone, add_zero]
  · exact booksOf_recordFeeUnattributed

section Fills

variable [DecidableEq InstrumentKey] {instrument : InstrumentKey}

/-- The instrument's netting position is sound at its own contract size. -/
def NetsOn (instrument : InstrumentKey)
    (s : InstrumentState Data ExchangeKey AssetKey InstrumentKey) : Prop :=
  Netting instrument s.instrument.kind.contractSize s.position

omit [DecidableEq InstrumentKey] in
theorem netsOn_recordFeeUnattributed {fees : AssetFees AssetKey} (h : s.NetsOn instrument) :
    (s.recordFeeUnattributed trade fees).NetsOn instrument := by
  unfold recordFeeUnattributed
  split <;> exact h

theorem books_applyToPosition (h : s.NetsOn instrument) (hins : trade.instrument = instrument) :
    let applied := (s.applyToPosition trade .netting s.instrument.kind.contractSize).1
    applied.NetsOn instrument ∧ applied.books =
      s.books + entry s.instrument.kind.contractSize (feeInQuote trade.fees) trade := by
  intro applied
  set contractSize := s.instrument.kind.contractSize with hsize
  have hmode : s.position.mode = .netting := h.mode_eq
  have hmove : s.position.updateFromTradeWithId trade .netting contractSize =
      s.position.updateFromTrade trade contractSize := by
    simp only [PositionManager.updateFromTrade, hmode]
  obtain ⟨hnets, hbooks⟩ := updateFromTrade_books h hins
  have hfees := updateFromTrade_fees h hins
  have hunapplied := updateFromTrade_unapplied hmode trade contractSize
  have happlied : applied = (s.applyToPosition trade .netting contractSize).1 := rfl
  unfold applyToPosition at happlied
  rw [hmove] at happlied
  dsimp only at happlied
  clear_value applied
  simp only [Ledger.books, flow, Prod.mk_add_mk, Prod.mk.injEq] at hbooks
  obtain ⟨hquantity, hbasis⟩ := hbooks
  cases houtcome : (s.position.updateFromTrade trade contractSize).2 with
  | applied exited =>
    rw [houtcome] at hfees hbasis happlied
    have hcharged := hfees rfl
    rw [show isApplied (.applied exited : TradeOutcome AssetKey InstrumentKey) = true from rfl,
      if_pos rfl] at hbasis
    cases exited with
    | none =>
      subst happlied
      refine ⟨hnets, ?_⟩
      simp only [InstrumentState.books, booksOf, entry, ← hsize, Prod.mk_add_mk, Prod.mk.injEq]
      simp only [exitedPnl, exitedFees] at hbasis hcharged
      refine ⟨hquantity, ?_, ?_⟩
      · linear_combination hbasis
      · linear_combination hcharged
    | some closed =>
      subst happlied
      refine ⟨hnets, ?_⟩
      simp only [InstrumentState.books, booksOf, entry, ← hsize, Prod.mk_add_mk, Prod.mk.injEq,
        TearSheetGenerator.exited_updateFromPosition, List.map_append, List.sum_append,
        List.map_cons, List.map_nil, List.sum_cons, List.sum_nil,
        TearSheetGenerator.feesUnattributed_updateFromPosition]
      simp only [exitedPnl, exitedFees] at hbasis hcharged
      refine ⟨hquantity, ?_, ?_⟩
      · linear_combination hbasis
      · linear_combination hcharged
  | unapplied fees =>
    have hnot : isApplied (s.position.updateFromTrade trade contractSize).2 = false := by
      rw [houtcome]; rfl
    obtain ⟨hzero, -⟩ := hunapplied.1.1 hnot
    have hsame := hunapplied.2 hnot
    rw [houtcome] at happlied
    subst happlied
    rw [hsame] at houtcome
    cases houtcome
    -- A fill of nothing on an empty slot: its fee is all it adds.
    have hnothing : entry contractSize (feeInQuote trade.fees) trade =
        unattributedEntry (feeInQuote trade.fees) := by
      cases hside : trade.side <;>
        simp [entry, unattributedEntry, tradedValue, signedQuantity, signed, hzero, hside]
    rw [hnothing, hsame]
    exact ⟨netsOn_recordFeeUnattributed h, books_recordFeeUnattributed⟩

variable [DecidableEq AssetKey]

/-- A fill as it is booked: with the engine's commission, netted, and cut. -/
def asBooked (hash : HashOrder)
    (s : InstrumentState Data ExchangeKey AssetKey InstrumentKey)
    (trade : Trade AssetKey InstrumentKey) : Trade AssetKey InstrumentKey :=
  ((s.moveFill hash trade false .netting []).2.map Prod.fst).getD (s.withComputedFee trade)

omit [DecidableEq InstrumentKey] [DecidableEq AssetKey] in
/-- A cut books no more than the fee it takes off the fill. -/
theorem booked_bookReduceOnlyCut {netted : Trade AssetKey InstrumentKey} {held excess : Decimal}
    {reduceOnly : ReduceOnly} :
    let cut := s.bookReduceOnlyCut hash trade netted .netting held excess reduceOnly
    let unattributed := feeInQuote netted.fees - feeInQuote cut.2.1.fees
    cut.1.tearSheet.booked = (if unattributed = 0 then s.tearSheet
      else s.tearSheet.recordFeeUnattributed unattributed trade.timeExchange).booked := by
  have hcounted : ∀ (free : Prop) [Decidable free]
      (tearSheet : TearSheetGenerator AssetKey InstrumentKey) (value : Decimal),
      (if free then tearSheet.recordFillFreeBaseTraded value
        else tearSheet.recordFillReduceOnlyCapped value).booked = tearSheet.booked := by
    intro free _ tearSheet value
    split <;> rfl
  exact hcounted _ _ _

variable (hash) in
omit [DecidableEq InstrumentKey] [DecidableEq AssetKey] in
theorem exited_bookReduceOnlyCut {netted : Trade AssetKey InstrumentKey} {held excess : Decimal}
    {reduceOnly : ReduceOnly} :
    (s.bookReduceOnlyCut hash trade netted .netting held excess reduceOnly).1.tearSheet.exited =
      s.tearSheet.exited := by
  unfold TearSheetGenerator.exited
  rw [booked_bookReduceOnlyCut]
  split
  · rfl
  · exact TearSheetGenerator.exited_recordFeeUnattributed

omit [DecidableEq InstrumentKey] [DecidableEq AssetKey] in
/-- What a cut leaves on the fill and what it charges to the tear sheet are its whole fee. -/
theorem books_bookReduceOnlyCut {netted : Trade AssetKey InstrumentKey} {held excess : Decimal}
    {reduceOnly : ReduceOnly} :
    let cut := s.bookReduceOnlyCut hash trade netted .netting held excess reduceOnly
    cut.1.books = s.books +
      unattributedEntry (feeInQuote netted.fees - feeInQuote cut.2.1.fees) := by
  intro cut
  set unattributed := feeInQuote netted.fees - feeInQuote cut.2.1.fees with hunattributed
  set charged := if unattributed = 0 then s.tearSheet
    else s.tearSheet.recordFeeUnattributed unattributed trade.timeExchange with hcharged
  have hbooked : cut.1.tearSheet.booked = charged.booked := booked_bookReduceOnlyCut
  have hposition : cut.1.position = s.position := rfl
  have hinstrument : cut.1.instrument = s.instrument := rfl
  unfold books
  rw [hposition, hinstrument, booksOf_congr hbooked, hcharged]
  split
  · rename_i hzero
    have hnone : unattributedEntry 0 = 0 := by simp [unattributedEntry]
    rw [hzero, hnone, add_zero]
  · exact booksOf_recordFeeUnattributed

omit [DecidableEq InstrumentKey] [DecidableEq AssetKey] in
theorem booked_recordFillDust {tearSheet : TearSheetGenerator AssetKey InstrumentKey}
    {quantity value : Decimal} : (tearSheet.recordFillDust quantity value).booked =
      tearSheet.booked := by
  unfold TearSheetGenerator.recordFillDust
  simp only
  split <;> rfl

omit [DecidableEq InstrumentKey] in
/-- Between the venue and the position only a cut takes any of the fee off a fill. -/
theorem books_moveFill :
    (s.moveFill hash trade false .netting []).1.books =
      s.books + unattributedEntry (s.feeCharged trade - feeInQuote (s.asBooked hash trade).fees) := by
  have hnone : unattributedEntry 0 = 0 := by simp [unattributedEntry]
  unfold asBooked moveFill moveHolding
  rw [← feeInQuote_withComputedFee]
  simp only
  cases trade.holdingMove s.instrument (s.heldAt .netting) (s.reduceOnlyOf hash trade []) with
  | none => simp [hnone]
  | some moved =>
    by_cases hcut : moved.excess ≠ 0
    · simp only [Bool.false_eq_true, if_false, if_pos hcut]
      exact books_bookReduceOnlyCut
    · by_cases hdust : moved.dust = 0
      · simp [if_neg hcut, hdust, hnone]
      · simp only [Bool.false_eq_true, if_false, if_neg hcut, if_neg hdust, Option.map_some,
          Option.getD_some, sub_self, hnone, add_zero]
        exact booksOf_congr booked_recordFillDust

/-! ## A fill -/

omit [DecidableEq InstrumentKey] in
theorem position_moveFill :
    (s.moveFill hash trade false .netting []).1.position = s.position := by
  unfold moveFill moveHolding
  simp only [Bool.false_eq_true, if_false]
  split
  · rfl
  · split
    · rfl
    · split <;> rfl

omit [DecidableEq InstrumentKey] [DecidableEq AssetKey] in
@[simp] theorem instrument_withComputedFee :
    (s.withComputedFee trade).instrument = trade.instrument := by
  unfold withComputedFee
  simp only
  split <;> rfl

omit [DecidableEq InstrumentKey] [DecidableEq AssetKey] in
@[simp] theorem signedQuantity_withComputedFee :
    signedQuantity (s.withComputedFee trade) = signed trade.side |trade.quantity| := by
  unfold withComputedFee
  simp only
  split <;> rfl

omit [DecidableEq InstrumentKey] in
theorem instrument_asBooked : (s.asBooked hash trade).instrument = trade.instrument := by
  unfold asBooked moveFill moveHolding
  simp only [Bool.false_eq_true, if_false]
  split
  · exact instrument_withComputedFee
  · split
    · exact instrument_withComputedFee
    · split <;> exact instrument_withComputedFee

omit [DecidableEq InstrumentKey] in
/-- A fill is booked as the move `holdingMove` gives it. -/
theorem signedQuantity_asBooked : signedQuantity (s.asBooked hash trade) =
    trade.appliedMove s.instrument (s.heldAt .netting) (s.reduceOnlyOf hash trade []) := by
  unfold asBooked moveFill moveHolding Trade.appliedMove
  simp only [Bool.false_eq_true, if_false]
  cases trade.holdingMove s.instrument (s.heldAt .netting) (s.reduceOnlyOf hash trade []) with
  | none => exact signedQuantity_withComputedFee
  | some moved =>
    simp only
    split
    · rfl
    · split <;> rfl

omit [DecidableEq InstrumentKey] in
/-- A fill cut to nothing keeps nothing of its fee. -/
theorem feeInQuote_asBooked_of_cut
    (hcut : ((s.moveFill hash trade false .netting []).2.bind Prod.snd).isSome = true)
    (hzero : (s.asBooked hash trade).quantity = 0) :
    feeInQuote (s.asBooked hash trade).fees = 0 := by
  unfold asBooked moveFill moveHolding at hzero ⊢
  unfold moveFill moveHolding at hcut
  simp only [Bool.false_eq_true, if_false] at hcut hzero ⊢
  cases hmove : trade.holdingMove s.instrument (s.heldAt .netting)
      (s.reduceOnlyOf hash trade []) with
  | none =>
    rw [hmove] at hcut
    cases hcut
  | some moved =>
    rw [hmove] at hcut hzero
    by_cases hexcess : moved.excess ≠ 0
    · simp only [if_pos hexcess, Option.map_some, Option.getD_some] at hzero ⊢
      have hquantity : moved.quantity = 0 := hzero
      unfold bookReduceOnlyCut feeInQuote
      cases (s.withComputedFee trade).fees.feesQuote <;> simp [hquantity]
    · simp only [if_neg hexcess] at hcut
      split at hcut <;> cases hcut

/-- A fill that a cut leaves nothing of is applied to no position. -/
theorem bookFill_fst : (s.bookFill hash trade false .netting []).1 =
    if ((s.moveFill hash trade false .netting []).2.bind Prod.snd).isSome &&
        (s.asBooked hash trade).quantity = 0 then
      (s.moveFill hash trade false .netting []).1
    else ((s.moveFill hash trade false .netting []).1.applyToPosition (s.asBooked hash trade)
      .netting s.instrument.kind.contractSize).1 := by
  unfold bookFill
  exact apply_ite Prod.fst _ _ _

variable (hash) in
/-- **A fill moves the books by its move, the move's cash flow and its whole fee**, wherever the
    fee ends. -/
theorem books_bookFill (h : s.NetsOn instrument) (hins : trade.instrument = instrument) :
    let booked := (s.bookFill hash trade false .netting []).1
    booked.NetsOn instrument ∧ booked.books =
      s.books + entry s.instrument.kind.contractSize (s.feeCharged trade)
        (s.asBooked hash trade) := by
  intro booked
  set moved := (s.moveFill hash trade false .netting []).1 with hmoved
  have hmovedAt : BooksAt .netting s moved := booksAt_moveFill
  have hinstrument : moved.instrument = s.instrument := hmovedAt.instrument
  have hnets : moved.NetsOn instrument := by
    show Netting _ _ _
    rw [hinstrument, position_moveFill]
    exact h
  have hbooks : moved.books = s.books +
      unattributedEntry (s.feeCharged trade - feeInQuote (s.asBooked hash trade).fees) :=
    books_moveFill
  have hcharged : ∀ fee rest : Decimal, unattributedEntry (fee - rest) +
      entry s.instrument.kind.contractSize rest (s.asBooked hash trade) =
      entry s.instrument.kind.contractSize fee (s.asBooked hash trade) := by
    intro fee rest
    simp only [unattributedEntry, entry, Prod.mk_add_mk, Prod.mk.injEq]
    refine ⟨?_, ?_, ?_⟩ <;> ring
  have hfst : booked = _ := bookFill_fst
  rw [hfst]
  split
  · rename_i hnothing
    rw [Bool.and_eq_true, decide_eq_true_eq] at hnothing
    have hkept := feeInQuote_asBooked_of_cut hnothing.1 hnothing.2
    refine ⟨hnets, ?_⟩
    have hempty : entry s.instrument.kind.contractSize 0 (s.asBooked hash trade) = 0 := by
      cases hside : (s.asBooked hash trade).side <;>
        simp [entry, tradedValue, signedQuantity, signed, hnothing.2, hside]
    rw [hbooks, ← hcharged (s.feeCharged trade) 0, hkept, hempty, add_zero]
  · have hbookedOn : (s.asBooked hash trade).instrument = instrument :=
      instrument_asBooked.trans hins
    have happlied := books_applyToPosition hnets hbookedOn
    rw [hinstrument] at happlied
    refine ⟨happlied.1, happlied.2.trans ?_⟩
    rw [hbooks, add_assoc, hcharged]

omit [DecidableEq AssetKey] in
/-- The position a fill closes is booked and answered. -/
theorem exited_applyToPosition_booked {contractSize : Decimal} :
    (s.applyToPosition trade .netting contractSize).1.tearSheet.exited =
      s.tearSheet.exited ++ (s.applyToPosition trade .netting contractSize).2.toList := by
  unfold applyToPosition
  simp only
  split
  · exact (List.append_nil _).symm
  · exact TearSheetGenerator.exited_updateFromPosition
  · unfold recordFeeUnattributed
    split
    · exact (List.append_nil _).symm
    · rw [TearSheetGenerator.exited_recordFeeUnattributed]
      exact (List.append_nil _).symm

omit [DecidableEq InstrumentKey] in
theorem exited_moveFill :
    (s.moveFill hash trade false .netting []).1.tearSheet.exited = s.tearSheet.exited := by
  unfold moveFill moveHolding
  simp only [Bool.false_eq_true, if_false]
  split
  · rfl
  · split
    · exact exited_bookReduceOnlyCut hash
    · split
      · rfl
      · exact congrArg (List.filterMap Booking.closed?) booked_recordFillDust

theorem exited_bookFill_booked :
    (s.bookFill hash trade false .netting []).1.tearSheet.exited =
      s.tearSheet.exited ++ (s.bookFill hash trade false .netting []).2.exited.toList := by
  unfold bookFill
  simp only
  split
  · rw [exited_moveFill]
    exact (List.append_nil _).symm
  · rw [exited_applyToPosition_booked, exited_moveFill]

/-! ## A call -/

omit [DecidableEq InstrumentKey] in
/-- What is booked of a fill does not depend on the tear sheet. -/
theorem asBooked_noteForcedFill :
    s.noteForcedFill.asBooked hash trade = s.asBooked hash trade := by
  unfold asBooked moveFill moveHolding
  simp only [Bool.false_eq_true, if_false]
  have hmove : trade.holdingMove s.noteForcedFill.instrument (s.noteForcedFill.heldAt .netting)
      (s.noteForcedFill.reduceOnlyOf hash trade []) =
    trade.holdingMove s.instrument (s.heldAt .netting) (s.reduceOnlyOf hash trade []) := rfl
  rw [hmove]
  cases trade.holdingMove s.instrument (s.heldAt .netting) (s.reduceOnlyOf hash trade []) with
  | none => rfl
  | some moved =>
    simp only
    split
    · rfl
    · split <;> rfl

variable (instrument) in
omit [DecidableEq InstrumentKey] [DecidableEq AssetKey] in
/-- A call that leaves the position and the bookings alone leaves the books alone. -/
theorem books_congr {s' : InstrumentState Data ExchangeKey AssetKey InstrumentKey}
    (hinstrument : s'.instrument = s.instrument) (hposition : s'.position = s.position)
    (hbooked : s'.tearSheet.booked = s.tearSheet.booked) :
    s'.books = s.books ∧ (s.NetsOn instrument → s'.NetsOn instrument) := by
  refine ⟨?_, fun h => ?_⟩
  · unfold books
    rw [hinstrument, hposition, booksOf_congr hbooked]
  · unfold NetsOn
    rw [hinstrument, hposition]
    exact h

omit [DecidableEq InstrumentKey] [DecidableEq AssetKey] in
/-- Advancing its order, a fill writes the orders and the tables alone. -/
theorem advanceOrder_keeps (hash : HashOrder)
    (s : InstrumentState Data ExchangeKey AssetKey InstrumentKey)
    (trade : Trade AssetKey InstrumentKey) :
    (s.advanceOrder hash trade).instrument = s.instrument ∧
      (s.advanceOrder hash trade).position = s.position ∧
      (s.advanceOrder hash trade).tearSheet = s.tearSheet ∧
      (s.advanceOrder hash trade).pendingFills = s.pendingFills :=
  advanceOrder_cases (P := fun s' => s'.instrument = s.instrument ∧ s'.position = s.position ∧
    s'.tearSheet = s.tearSheet ∧ s'.pendingFills = s.pendingFills) ⟨rfl, rfl, rfl, rfl⟩
    (fun _ _ _ _ => ⟨rfl, rfl, rfl, rfl⟩) fun _ _ _ _ => ⟨rfl, rfl, rfl, rfl⟩

variable (hash) in
/-- A fill in netting mode, as a call. -/
theorem books_updateFromTrade (h : s.NetsOn instrument) (hins : trade.instrument = instrument) :
    let after := (s.updateFromTrade hash trade).1
    after.NetsOn instrument ∧ after.pendingFills = s.pendingFills ∧
      after.books = s.books + entry s.instrument.kind.contractSize (s.feeCharged trade)
        (s.asBooked hash trade) ∧
      after.tearSheet.exited =
        s.tearSheet.exited ++ (s.updateFromTrade hash trade).2.exited.toList := by
  intro after
  have hmode : s.position.mode = .netting := h.mode_eq
  set noted := if trade.origin.isForced then s.noteForcedFill else s with hnoted
  have hbefore : noted.NetsOn instrument ∧ noted.books = s.books ∧
      noted.asBooked hash trade = s.asBooked hash trade ∧
      noted.instrument = s.instrument ∧ noted.feeCharged trade = s.feeCharged trade ∧
      noted.pendingFills = s.pendingFills ∧ noted.tearSheet.exited = s.tearSheet.exited := by
    rw [hnoted]
    split
    · exact ⟨h, rfl, asBooked_noteForcedFill, rfl, rfl, rfl, rfl⟩
    · exact ⟨h, rfl, rfl, rfl, rfl, rfl, rfl⟩
  obtain ⟨hnets, hbooks, hasBooked, hinstrument, hfee, hpending, hexited⟩ := hbefore
  have hslot : noted.destination hash trade = .slot .netting := by
    have hnotedMode : noted.position.mode = .netting := hnets.mode_eq
    unfold destination
    rw [hnotedMode]
  have happlied : s.updateFromTrade hash trade = noted.applyFill hash trade false .netting [] := by
    show noted.deliver hash trade (noted.destination hash trade) [] = _
    rw [hslot]
    rfl
  have hafter : after = (noted.applyFill hash trade false .netting []).1 :=
    congrArg Prod.fst happlied
  have hfill := books_bookFill hash hnets hins
  set booked := (noted.bookFill hash trade false .netting []).1 with hbooked
  have hrest : after.instrument = booked.instrument ∧ after.position = booked.position ∧
      after.tearSheet.booked = booked.tearSheet.booked ∧
      after.pendingFills = booked.pendingFills := by
    rw [hafter]
    unfold applyFill
    simp only
    split
    · obtain ⟨hinstrument, hposition, htearSheet, hpending⟩ :=
        advanceOrder_keeps hash (booked.prunePositionIds .netting) trade
      exact ⟨hinstrument, hposition, congrArg TearSheetGenerator.booked htearSheet, hpending⟩
    · obtain ⟨hinstrument, hposition, htearSheet, hpending⟩ := advanceOrder_keeps hash booked trade
      exact ⟨hinstrument, hposition, congrArg TearSheetGenerator.booked htearSheet, hpending⟩
  obtain ⟨hafterInstrument, hafterPosition, hafterBooked, hafterPending⟩ := hrest
  have hcongr := books_congr instrument hafterInstrument hafterPosition hafterBooked
  refine ⟨hcongr.2 hfill.1, ?_, ?_, ?_⟩
  · rw [hafterPending, ← hpending]
    have hat : BooksAt .netting noted booked := booksAt_bookFill
    exact hat.pendingFills
  · rw [hcongr.1, hfill.2, hbooks, hinstrument, hfee, hasBooked]
  · have hbookings : after.tearSheet.exited = booked.tearSheet.exited :=
      congrArg (List.filterMap Booking.closed?) hafterBooked
    rw [hbookings, exited_bookFill_booked, hexited, happlied]
    rfl

variable [InstrumentDataState Data ExchangeKey AssetKey InstrumentKey]

/-- A fill of the instrument, or any other call but a cash flow. -/
def Op.BooksOn (instrument : InstrumentKey) : Op Data ExchangeKey AssetKey InstrumentKey → Prop
  | .updateFromTrade _ trade => trade.instrument = instrument
  | .updateFromCashFlow _ => False
  | _ => True

/-- The positions a call answers as exited. -/
def exitsOf (s : InstrumentState Data ExchangeKey AssetKey InstrumentKey) :
    Op Data ExchangeKey AssetKey InstrumentKey → List (PositionExited AssetKey InstrumentKey)
  | .updateFromTrade hash trade => (s.updateFromTrade hash trade).2.exited.toList
  | .updateFromOrderSnapshot hash order => (s.updateFromOrderSnapshot hash order).2.exited.toList
  | _ => []

/-- What a call adds to the books. -/
def entryOf (s : InstrumentState Data ExchangeKey AssetKey InstrumentKey) :
    Op Data ExchangeKey AssetKey InstrumentKey → Decimal × Decimal × Decimal
  | .updateFromTrade hash trade =>
      entry s.instrument.kind.contractSize (s.feeCharged trade) (s.asBooked hash trade)
  | _ => 0

omit [DecidableEq AssetKey] [DecidableEq InstrumentKey]
  [InstrumentDataState Data ExchangeKey AssetKey InstrumentKey] in
theorem noteOpenRejected_books (s : InstrumentState Data ExchangeKey AssetKey InstrumentKey)
    (order : Order ExchangeKey InstrumentKey OrderState) :
    (s.noteOpenRejected order).tearSheet.booked = s.tearSheet.booked ∧
      (s.noteOpenRejected order).position = s.position := by
  unfold noteOpenRejected
  split
  · split <;> exact ⟨rfl, rfl⟩
  · exact ⟨rfl, rfl⟩

variable (hash) in
omit [InstrumentDataState Data ExchangeKey AssetKey InstrumentKey] in
/-- With no fill waiting, a report releases none. -/
theorem updateFromOrderSnapshot_books (hpending : s.pendingFills = [])
    (order : Order ExchangeKey InstrumentKey OrderState) :
    let after := (s.updateFromOrderSnapshot hash order).1
    after.instrument = s.instrument ∧ after.position = s.position ∧
      after.tearSheet.booked = s.tearSheet.booked ∧ after.pendingFills = [] ∧
      (s.updateFromOrderSnapshot hash order).2 = .none := by
  intro after
  obtain ⟨hbooked, hposition⟩ := noteOpenRejected_books s order
  have hinstrument : (s.noteOpenRejected order).instrument = s.instrument :=
    (booksAt_noteOpenRejected .netting).instrument
  have hnone : (s.updated hash order).pendingFills = [] := (pendingFills_updated hash).trans hpending
  cases hack : s.ackExchangeId order with
  | none =>
    have hafter : after = s.updated hash order := updateFromOrderSnapshot_of_no_ack hack
    refine ⟨hafter ▸ hinstrument, hafter ▸ hposition, hafter ▸ hbooked, hafter ▸ hnone, ?_⟩
    unfold updateFromOrderSnapshot replayOrderSnapshot
    simp only [hack]
  | some exchangeId =>
    have hafter : after = (s.updated hash order).settleRouting order.key.cid exchangeId
        (s.positionIds.get? order.key.cid) := updateFromOrderSnapshot_of_ack hack hpending
    refine ⟨hafter ▸ hinstrument, hafter ▸ hposition, hafter ▸ hbooked, hafter ▸ hnone, ?_⟩
    have hempty : ((s.updated hash order).settleRouting order.key.cid exchangeId
        (s.positionIds.get? order.key.cid)).pendingFills.isEmpty = true := by
      show (s.updated hash order).pendingFills.isEmpty = true
      rw [hnone]
      rfl
    unfold updateFromOrderSnapshot replayOrderSnapshot
    simp only [hack]
    change (releaseFills hash ((s.updated hash order).settleRouting _ _ _) exchangeId []).2 = _
    rw [releaseFills, if_pos hempty]

omit [DecidableEq AssetKey] [DecidableEq InstrumentKey] in
/-- A market print moves no quantity, no realised PnL and no fee. -/
theorem updateFromMarket_books (h : s.NetsOn instrument)
    (event : MarketEvent InstrumentKey (InstrumentDataState.MarketEventKind Data)) :
    (s.updateFromMarket event).NetsOn instrument ∧ (s.updateFromMarket event).books = s.books ∧
      (s.updateFromMarket event).tearSheet = s.tearSheet := by
  unfold updateFromMarket
  simp only
  split
  · exact ⟨h, rfl, rfl⟩
  · rename_i price _
    set marked : Position AssetKey InstrumentKey → Position AssetKey InstrumentKey := fun position =>
      { position with timeExchangeUpdate := event.timeExchange }.updatePnlUnrealised price
    have hget : ∀ id, (s.position.positions.mapValues fun _ => marked).get? id =
        (s.position.positions.get? id).map marked := fun id => IndexMap.get?_mapValues
    refine ⟨⟨h.mode_eq, fun id position hposition => ?_, fun position hposition => ?_⟩, ?_, rfl⟩
    · have hposition := (hget id).symm.trans hposition
      obtain ⟨before, hbefore, -⟩ := Option.map_eq_some_iff.1 hposition
      exact h.only id before hbefore
    · have hposition := (hget .netting).symm.trans hposition
      obtain ⟨before, hbefore, heq⟩ := Option.map_eq_some_iff.1 hposition
      have hsound := h.sound before hbefore
      rw [← heq]
      exact ⟨hsound.instrument_eq, hsound.quantity_pos, hsound.contractSize_eq⟩
    · have hslot : slot { s.position with
          positions := s.position.positions.mapValues fun _ => marked } =
          (slot s.position).map marked := hget .netting
      show booksOf _ { s.position with
        positions := s.position.positions.mapValues fun _ => marked } s.tearSheet = _
      unfold books booksOf
      rw [hslot]
      cases slot s.position <;> rfl

/-- **A call changes the books by what it books**: a fill's move, cash flow and fee, and nothing
    otherwise. -/
theorem books_step (h : s.NetsOn instrument) (hpending : s.pendingFills = [])
    {op : Op Data ExchangeKey AssetKey InstrumentKey} (hop : op.BooksOn instrument) :
    ((s.step op).NetsOn instrument ∧ (s.step op).pendingFills = []) ∧
      (s.step op).books = s.books + s.entryOf op ∧
      (s.step op).tearSheet.exited = s.tearSheet.exited ++ s.exitsOf op := by
  have hquiet : (s.step op).instrument = s.instrument → (s.step op).position = s.position →
      (s.step op).tearSheet.booked = s.tearSheet.booked → (s.step op).pendingFills = [] →
      ((s.step op).NetsOn instrument ∧ (s.step op).pendingFills = []) ∧
        (s.step op).books = s.books + 0 ∧
        (s.step op).tearSheet.exited = s.tearSheet.exited ++ [] := by
    intro hinstrument hposition hbooked hnone
    obtain ⟨hbooks, hnets⟩ := books_congr instrument hinstrument hposition hbooked
    refine ⟨⟨hnets h, hnone⟩, by rw [hbooks, add_zero], ?_⟩
    rw [List.append_nil]
    exact congrArg (List.filterMap Booking.closed?) hbooked
  cases op with
  | recordInFlightOpen request timeSent =>
    have hframe : ∀ s' : InstrumentState Data ExchangeKey AssetKey InstrumentKey,
        s' = s.recordInFlightOpen request timeSent → s'.instrument = s.instrument ∧
          s'.position = s.position ∧ s'.tearSheet.booked = s.tearSheet.booked ∧
          s'.pendingFills = [] := by
      intro s' hs'
      unfold recordInFlightOpen at hs'
      split at hs' <;> rw [hs'] <;> exact ⟨rfl, rfl, rfl, hpending⟩
    obtain ⟨hinstrument, hposition, hbooked, hnone⟩ := hframe _ rfl
    exact hquiet hinstrument hposition hbooked hnone
  | recordInFlightCancel request timeSent => exact hquiet rfl rfl rfl hpending
  | updateFromOrderSnapshot hash order =>
    obtain ⟨hinstrument, hposition, hbooked, hnone, hanswer⟩ :=
      updateFromOrderSnapshot_books hash hpending order
    obtain ⟨hnets, hbooks, hexited⟩ := hquiet hinstrument hposition hbooked hnone
    refine ⟨hnets, hbooks, hexited.trans ?_⟩
    rw [exitsOf, hanswer]
    rfl
  | updateFromCancelResponse hash response =>
    have hdrained : ∀ s' : InstrumentState Data ExchangeKey AssetKey InstrumentKey,
        s'.instrument = s.instrument → s'.position = s.position →
        s'.tearSheet.booked = s.tearSheet.booked → s'.pendingFills = [] →
        s'.drainPendingFills.instrument = s.instrument ∧
          s'.drainPendingFills.position = s.position ∧
          s'.drainPendingFills.tearSheet.booked = s.tearSheet.booked ∧
          s'.drainPendingFills.pendingFills = [] := by
      intro s' hinstrument hposition hbooked hnone
      unfold drainPendingFills
      split
      · exact ⟨hinstrument, hposition, hbooked, hnone⟩
      · exact ⟨hinstrument, hposition, hbooked, rfl⟩
    obtain ⟨hinstrument, hposition, hbooked, hnone⟩ := hdrained
      ({ s with orders := s.orders.updateFromCancelResponse response }.cleanupRoutingTables hash)
      rfl rfl rfl hpending
    exact hquiet hinstrument hposition hbooked hnone
  | updateFromTrade hash trade =>
    obtain ⟨hnets, hnone, hbooks, hexited⟩ := books_updateFromTrade hash h hop
    exact ⟨⟨hnets, hnone.trans hpending⟩, hbooks, hexited⟩
  | beginAccountResync => exact hquiet rfl rfl rfl hpending
  | retireUnlisted hash listed ordersComplete => exact hquiet rfl rfl rfl hpending
  | updateFromCashFlow flow => exact absurd hop (by simp [Op.BooksOn])
  | updateFromMarket event =>
    obtain ⟨hnets, hbooks, htearSheet⟩ := updateFromMarket_books h event
    have hnone : (s.updateFromMarket event).pendingFills = [] := by
      unfold updateFromMarket
      simp only
      split <;> exact hpending
    refine ⟨⟨hnets, hnone⟩, hbooks.trans (add_zero _).symm, ?_⟩
    show (s.updateFromMarket event).tearSheet.exited = s.tearSheet.exited ++ []
    rw [htearSheet, List.append_nil]

/-! ## Reduce-only fills -/

omit [DecidableEq AssetKey] [DecidableEq InstrumentKey]
  [InstrumentDataState Data ExchangeKey AssetKey InstrumentKey] in
theorem heldAt_netting : s.heldAt .netting = openQuantity (slot s.position) := by
  unfold heldAt openQuantity slot
  cases s.position.positions.get? .netting <;> rfl

variable (hash) in
omit [InstrumentDataState Data ExchangeKey AssetKey InstrumentKey] in
/-- A fill moves the open quantity by the move it is booked as. -/
theorem openQuantity_updateFromTrade (h : s.NetsOn instrument)
    (hins : trade.instrument = instrument) :
    openQuantity (slot (s.updateFromTrade hash trade).1.position) =
      openQuantity (slot s.position) + trade.appliedMove s.instrument
        (openQuantity (slot s.position)) (s.reduceOnlyOf hash trade []) := by
  have hbooks := (books_updateFromTrade hash h hins).2.2.1
  have hquantity : (s.updateFromTrade hash trade).1.books.1 =
      s.books.1 + signedQuantity (s.asBooked hash trade) := congrArg Prod.fst hbooks
  rw [signedQuantity_asBooked, heldAt_netting] at hquantity
  exact hquantity

omit [DecidableEq AssetKey] [DecidableEq InstrumentKey]
  [InstrumentDataState Data ExchangeKey AssetKey InstrumentKey] in
/-- The order the book finds for a fill is one sent reduce-only. -/
theorem isReduceOnly_of_found (h : (s.reduceOnlyOrder hash trade).isSome = true) :
    (s.reduceOnlyOf hash trade []).isReduceOnly = true := by
  obtain ⟨order, hfound⟩ := Option.isSome_iff_exists.1 h
  have hreduceOnly : order.reduceOnly.isReduceOnly = true := by
    unfold reduceOnlyOrder at hfound
    split at hfound
    · cases hfound
    · exact (Option.filter_eq_some_iff.1 hfound).2
  unfold reduceOnlyOf
  rw [hfound]
  exact hreduceOnly

omit [DecidableEq InstrumentKey]
  [InstrumentDataState Data ExchangeKey AssetKey InstrumentKey] in
theorem capped_moveFill {capped : ReduceOnlyCapped InstrumentKey}
    (h : (s.moveFill hash trade false .netting []).2.bind Prod.snd = some capped) :
    ∃ moved, trade.holdingMove s.instrument (s.heldAt .netting) (s.reduceOnlyOf hash trade []) =
      some moved ∧ moved.excess ≠ 0 ∧ capped.excess = moved.excess := by
  unfold moveFill moveHolding at h
  simp only [Bool.false_eq_true, if_false] at h
  cases hmove : trade.holdingMove s.instrument (s.heldAt .netting)
      (s.reduceOnlyOf hash trade []) with
  | none =>
    rw [hmove] at h
    cases h
  | some moved =>
    rw [hmove] at h
    by_cases hexcess : moved.excess ≠ 0
    · simp only [if_pos hexcess, Option.bind_some] at h
      cases h
      exact ⟨moved, rfl, hexcess, rfl⟩
    · simp only [if_neg hexcess] at h
      split at h <;> cases h

omit [InstrumentDataState Data ExchangeKey AssetKey InstrumentKey] in
/-- A cut a fill answers is that of its move. -/
theorem capped_updateFromTrade (h : s.NetsOn instrument) {capped : ReduceOnlyCapped InstrumentKey}
    (hcapped : capped ∈ (s.updateFromTrade hash trade).2.capped) :
    trade.appliedMove s.instrument (openQuantity (slot s.position))
      (s.reduceOnlyOf hash trade []) + capped.excess = trade.nettedMove s.instrument := by
  have hmode : s.position.mode = .netting := h.mode_eq
  set noted := if trade.origin.isForced then s.noteForcedFill else s with hnoted
  have hsame : noted.instrument = s.instrument ∧ noted.heldAt .netting = s.heldAt .netting ∧
      noted.reduceOnlyOf hash trade [] = s.reduceOnlyOf hash trade [] ∧
      noted.position = s.position := by
    rw [hnoted]
    split <;> exact ⟨rfl, rfl, rfl, rfl⟩
  obtain ⟨hinstrument, hheld, hreduceOnly, hposition⟩ := hsame
  have hslot : noted.destination hash trade = .slot .netting := by
    unfold destination
    rw [hposition, hmode]
  have hanswer : (s.updateFromTrade hash trade).2.capped =
      ((noted.moveFill hash trade false .netting []).2.bind Prod.snd).toList := by
    show (noted.deliver hash trade (noted.destination hash trade) []).2.capped = _
    rw [hslot]
    rfl
  rw [hanswer, Option.mem_toList] at hcapped
  obtain ⟨moved, hmoved, hcut, hexcess⟩ := capped_moveFill hcapped
  rw [hinstrument, hheld, hreduceOnly, heldAt_netting] at hmoved
  rw [hexcess]
  exact Trade.appliedMove_add_excess hmoved hcut

/-! ## A run -/

/-- The fills of a run, each with what it is booked as. -/
def fillsBooked (s : InstrumentState Data ExchangeKey AssetKey InstrumentKey) :
    List (Op Data ExchangeKey AssetKey InstrumentKey) →
      List (Trade AssetKey InstrumentKey × Trade AssetKey InstrumentKey)
  | [] => []
  | .updateFromTrade hash trade :: ops =>
      (trade, s.asBooked hash trade) ::
        (s.step (.updateFromTrade hash trade)).fillsBooked ops
  | op :: ops => (s.step op).fillsBooked ops

/-- The positions a run answers as exited. -/
def exits (s : InstrumentState Data ExchangeKey AssetKey InstrumentKey) :
    List (Op Data ExchangeKey AssetKey InstrumentKey) →
      List (PositionExited AssetKey InstrumentKey)
  | [] => []
  | op :: ops => s.exitsOf op ++ (s.step op).exits ops

omit [DecidableEq AssetKey] [DecidableEq InstrumentKey]
  [InstrumentDataState Data ExchangeKey AssetKey InstrumentKey] in
theorem sum_entry {contractSize : Decimal} {fee : Trade AssetKey InstrumentKey → Decimal}
    {fills : List (Trade AssetKey InstrumentKey × Trade AssetKey InstrumentKey)} :
    (fills.map fun fill => entry contractSize (fee fill.1) fill.2).sum =
      ((fills.map fun fill => signedQuantity fill.2).sum,
        -(fills.map fun fill => tradedValue contractSize fill.2).sum -
          (fills.map fun fill => fee fill.1).sum,
        (fills.map fun fill => fee fill.1).sum) := by
  induction fills with
  | nil => simp [Prod.ext_iff]
  | cons fill fills ih =>
    rw [List.map_cons, List.sum_cons, ih]
    simp only [List.map_cons, List.sum_cons, entry, Prod.mk_add_mk, Prod.mk.injEq, true_and,
      and_true]
    ring

/-- The fills of a run, as they are booked, add up to what it adds to the books. -/
theorem books_run (h : s.NetsOn instrument) (hpending : s.pendingFills = [])
    {ops : List (Op Data ExchangeKey AssetKey InstrumentKey)}
    (hops : ∀ op ∈ ops, op.BooksOn instrument) :
    ((s.run ops).NetsOn instrument ∧ (s.run ops).pendingFills = []) ∧
      (s.run ops).books = s.books + ((s.fillsBooked ops).map fun fill =>
        entry s.instrument.kind.contractSize (s.feeCharged fill.1) fill.2).sum ∧
      (s.run ops).tearSheet.exited = s.tearSheet.exited ++ s.exits ops := by
  induction ops generalizing s with
  | nil => exact ⟨⟨h, hpending⟩, by simp [fillsBooked], by simp [exits]⟩
  | cons op ops ih =>
    obtain ⟨⟨hnets, hnone⟩, hbooks, hexited⟩ :=
      books_step h hpending (hops op List.mem_cons_self)
    obtain ⟨hafter, hrest, hexits⟩ :=
      ih hnets hnone fun op' hop' => hops op' (List.mem_cons_of_mem _ hop')
    refine ⟨hafter, ?_, by rw [run, Transition.run_cons, hexits, hexited, exits, List.append_assoc]⟩
    have hframe : (s.step op).frame = s.frame := frame_step op
    have hinstrument : (s.step op).instrument = s.instrument := congrArg Frame.instrument hframe
    have hfeeModel : (s.step op).feeModel = s.feeModel := congrArg Frame.feeModel hframe
    have hfee : ∀ trade, (s.step op).feeCharged trade = s.feeCharged trade := by
      intro trade
      unfold feeCharged
      rw [hfeeModel, hinstrument]
    rw [hinstrument] at hrest
    simp only [hfee] at hrest
    rw [run, Transition.run_cons, hrest, hbooks, add_assoc]
    congr 1
    cases op with
    | updateFromTrade hash trade => rw [fillsBooked, List.map_cons, List.sum_cons]; rfl
    | _ => exact zero_add _

/-- **Fees and reduce-only fills are conserved.** Over any run of requests, reports, fills and other
    calls but cash flows on a netting instrument: every fee is charged once, to a position that
    closed, to the one open, or to none; the PnL exited and realised, less the fees no position
    carries, is the cash flow of the moves as booked and the open quantity at entry, less every fee;
    and a reduce-only fill never grows the position or changes its sign, and its cut is what the
    venue moved past it. -/
theorem netting_fees_conserved (hposition : s.position = .new .netting)
    (hpending : s.pendingFills = []) (hbooked : s.tearSheet.booked = [])
    {ops : List (Op Data ExchangeKey AssetKey InstrumentKey)}
    (hops : ∀ op ∈ ops, op.BooksOn instrument) :
    let after := s.run ops
    let fills := s.fillsBooked ops
    let contractSize := s.instrument.kind.contractSize
    (fills.map fun fill => s.feeCharged fill.1).sum =
      ((s.exits ops).map fun exited =>
          feeInQuote exited.feesEnter + feeInQuote exited.feesExit).sum +
        openFees (slot after.position) + after.tearSheet.feesUnattributed ∧
    ((s.exits ops).map PositionExited.pnlRealised).sum + openPnl (slot after.position) -
        after.tearSheet.feesUnattributed =
      -(fills.map fun fill => tradedValue contractSize fill.2).sum +
        openValue contractSize (slot after.position) -
        (fills.map fun fill => s.feeCharged fill.1).sum ∧
    ∀ pre hash trade post, ops = pre ++ .updateFromTrade hash trade :: post →
      let before := s.run pre
      let held := openQuantity (slot before.position)
      let filled := before.updateFromTrade hash trade
      let holds := openQuantity (slot filled.1.position)
      ((before.reduceOnlyOrder hash trade).isSome = true → |holds| ≤ |held| ∧ 0 ≤ held * holds) ∧
      ∀ capped ∈ filled.2.capped, holds - held + capped.excess =
        trade.nettedMove s.instrument := by
  intro after fills contractSize
  have hslot : slot s.position = none := by rw [hposition]; rfl
  have hnets : s.NetsOn instrument := by
    unfold NetsOn
    rw [hposition]
    exact netting_new
  have hexited : s.tearSheet.exited = [] := by unfold TearSheetGenerator.exited; rw [hbooked]; rfl
  have hunattributed : s.tearSheet.feesUnattributed = 0 := by
    unfold TearSheetGenerator.feesUnattributed
    rw [hbooked]
    rfl
  have hbefore : s.books = 0 := by
    unfold books booksOf
    rw [hslot, hexited, hunattributed]
    simp [openQuantity, basis, openPnl, openValue, openFees]
  obtain ⟨-, hbooks, hexits⟩ := books_run hnets hpending hops
  rw [hexited, List.nil_append] at hexits
  rw [hbefore, zero_add, sum_entry] at hbooks
  have hinstrument : after.instrument = s.instrument :=
    congrArg Frame.instrument (frame_run ops)
  have hafter : after.books = booksOf contractSize after.position after.tearSheet := by
    unfold books
    rw [hinstrument]
  have hsum := hafter.symm.trans hbooks
  unfold booksOf at hsum
  rw [hexits] at hsum
  simp only [Prod.mk.injEq] at hsum
  obtain ⟨-, hpnl, hfees⟩ := hsum
  refine ⟨hfees.symm, ?_, ?_⟩
  · unfold basis at hpnl
    linear_combination hpnl
  · intro pre hash trade post hrun before held filled holds
    rw [hrun] at hops
    obtain ⟨⟨hbeforeNets, hnone⟩, -, -⟩ := books_run hnets hpending fun op hop =>
      hops op (List.mem_append_left _ hop)
    have hins : trade.instrument = instrument :=
      hops _ (List.mem_append_right _ List.mem_cons_self)
    have hmoved := openQuantity_updateFromTrade hash hbeforeNets hins
    have hbeforeInstrument : before.instrument = s.instrument :=
      congrArg Frame.instrument (frame_run pre)
    refine ⟨fun hfound => ?_, fun capped hcapped => ?_⟩
    · have hreduceOnly : (before.reduceOnlyOf hash trade []).isReduceOnly = true :=
        isReduceOnly_of_found hfound
      show |openQuantity (slot (before.updateFromTrade hash trade).1.position)| ≤ _ ∧
        0 ≤ held * openQuantity (slot (before.updateFromTrade hash trade).1.position)
      rw [hmoved]
      exact Trade.appliedMove_reduces hreduceOnly
    · have hcut := capped_updateFromTrade hbeforeNets hcapped
      rw [hbeforeInstrument] at hcut hmoved
      show openQuantity (slot (before.updateFromTrade hash trade).1.position) - held +
        capped.excess = _
      rw [hmoved, add_sub_cancel_left]
      exact hcut

end Fills

/-! ## A spot instrument -/

section Runs

namespace Sample

/-- The instrument in netting mode. -/
def netted : InstrumentState NoData Unit Asset Unit := { fresh with position := .new .netting }

/-- A sale of three under `v-2`, with a fee of three in quote. -/
def sellsThree : Op NoData Unit Asset Unit :=
  .updateFromTrade .insertion { Sample.trade with
    id := ⟨"t-2"⟩, orderId := ⟨"v-2"⟩, side := .sell, quantity := 3, price := 110
    fees := ⟨.usdt, 3, some 3⟩ }

end Sample

/-- A buy of one, and a sale of three that flips it. -/
theorem netting_fees_conserved_flip :
    let ops := [Sample.sends, Sample.reportsOpen, Sample.fill, Sample.sellsThree]
    let after := Sample.netted.run ops
    ((Sample.netted.fillsBooked ops).map fun fill => Sample.netted.feeCharged fill.1).sum =
      ((Sample.netted.exits ops).map fun exited =>
          feeInQuote exited.feesEnter + feeInQuote exited.feesExit).sum +
        openFees (slot after.position) + after.tearSheet.feesUnattributed := by
  intro ops
  have hops : ∀ op ∈ ops, op.BooksOn () := by
    intro op hop
    simp only [ops, List.mem_cons, List.not_mem_nil, or_false] at hop
    rcases hop with rfl | rfl | rfl | rfl <;> trivial
  exact (netting_fees_conserved rfl rfl rfl hops).1

/-- What is held is not cash: after a buy of one at a hundred nothing is realised. -/
theorem open_position_is_no_cash :
    let ops := [Sample.fill]
    let after := Sample.netted.run ops
    let fills := Sample.netted.fillsBooked ops
    ((Sample.netted.exits ops).map PositionExited.pnlRealised).sum +
        openPnl (slot after.position) - after.tearSheet.feesUnattributed ≠
      -(fills.map fun fill => tradedValue Sample.netted.instrument.kind.contractSize fill.2).sum -
        (fills.map fun fill => Sample.netted.feeCharged fill.1).sum := by
  decide +kernel

end Runs

end InstrumentState

end Rustrade
