import Mathlib.Tactic.Linarith
import Mathlib.Tactic.Ring
import Rustrade.Execution.Trade

/-!
# The move of a fill

What `Trade.holdingMove` moves a holding by, signed. A reduce-only fill takes nothing, all that is
held, or the whole of a move that leaves no more than was held and on the same side; the quantity
step of a fee taken in base only rounds that towards zero.
-/

set_option autoImplicit false

namespace Rustrade

/-- Rounding towards zero shrinks, and keeps the sign. -/
theorem roundTowardZeroToStep_spec (quantity step : Decimal) :
    |roundTowardZeroToStep quantity step| ≤ |quantity| ∧
      0 ≤ quantity * roundTowardZeroToStep quantity step := by
  unfold roundTowardZeroToStep
  split
  · exact ⟨le_rfl, mul_self_nonneg quantity⟩
  · rename_i hstep
    have hpos : 0 < step := not_le.1 hstep
    have hrounded : quantity - Decimal.rem quantity step =
        step * Decimal.trunc (quantity / step) := by
      unfold Decimal.rem
      ring
    have hquantity : quantity = step * (quantity / step) := (mul_div_cancel₀ _ hpos.ne').symm
    rw [hrounded]
    set whole := quantity / step
    rw [hquantity, abs_mul, abs_mul, abs_of_pos hpos]
    have htrunc : |Decimal.trunc whole| ≤ |whole| ∧ 0 ≤ whole * Decimal.trunc whole := by
      unfold Decimal.trunc
      split
      · rename_i hnonneg
        have hfloor : (0 : ℚ) ≤ ⌊whole⌋ := by exact_mod_cast Int.floor_nonneg.2 hnonneg
        rw [abs_of_nonneg hfloor, abs_of_nonneg hnonneg]
        exact ⟨Int.floor_le whole, mul_nonneg hnonneg hfloor⟩
      · rename_i hneg
        have hle : whole ≤ 0 := (not_le.1 hneg).le
        have hceil : ((⌈whole⌉ : ℤ) : ℚ) ≤ 0 := by exact_mod_cast Int.ceil_nonpos.2 hle
        rw [abs_of_nonpos hceil, abs_of_nonpos hle]
        exact ⟨neg_le_neg (Int.le_ceil whole), mul_nonneg_of_nonpos_of_nonpos hle hceil⟩
    refine ⟨mul_le_mul_of_nonneg_left htrunc.1 hpos.le, ?_⟩
    have hsquare : step * whole * (step * Decimal.trunc whole) =
        step * step * (whole * Decimal.trunc whole) := by ring
    rw [hsquare]
    exact mul_nonneg (mul_self_nonneg step) htrunc.2

/-- Rounding towards zero lands on a whole step, and what it takes off is less than one, with the
sign of what was rounded. -/
theorem roundTowardZeroToStep_step (quantity : Decimal) {step : Decimal} (hpos : 0 < step) :
    (∃ steps : ℤ, roundTowardZeroToStep quantity step = steps * step) ∧
      |quantity - roundTowardZeroToStep quantity step| < step ∧
      0 ≤ (quantity - roundTowardZeroToStep quantity step) * quantity := by
  have hrounded : roundTowardZeroToStep quantity step =
      Decimal.trunc (quantity / step) * step := by
    unfold roundTowardZeroToStep Decimal.rem
    rw [if_neg (not_le.2 hpos)]
    ring
  have hquantity : quantity = quantity / step * step := (div_mul_cancel₀ _ hpos.ne').symm
  set whole := quantity / step
  rw [hrounded]
  have htrunc : (∃ steps : ℤ, Decimal.trunc whole = steps) ∧ |whole - Decimal.trunc whole| < 1 ∧
      0 ≤ (whole - Decimal.trunc whole) * whole := by
    unfold Decimal.trunc
    split
    · rename_i hnonneg
      have hrest : 0 ≤ whole - ⌊whole⌋ := sub_nonneg.2 (Int.floor_le whole)
      refine ⟨⟨_, rfl⟩, ?_, mul_nonneg hrest hnonneg⟩
      rw [abs_of_nonneg hrest]
      exact Int.fract_lt_one whole
    · rename_i hneg
      have hle : whole ≤ 0 := (not_le.1 hneg).le
      have hrest : whole - ⌈whole⌉ ≤ 0 := sub_nonpos.2 (Int.le_ceil whole)
      refine ⟨⟨_, rfl⟩, ?_, mul_nonneg_of_nonpos_of_nonpos hrest hle⟩
      rw [abs_of_nonpos hrest, neg_sub, sub_lt_iff_lt_add']
      exact Int.ceil_lt_add_one whole
  obtain ⟨⟨steps, hsteps⟩, hless, hsign⟩ := htrunc
  have hdust : quantity - Decimal.trunc whole * step = (whole - Decimal.trunc whole) * step := by
    rw [hquantity]
    ring
  refine ⟨⟨steps, by rw [hsteps]⟩, ?_, ?_⟩
  · rw [hdust, abs_mul, abs_of_pos hpos]
    exact mul_lt_of_lt_one_left hpos hless
  · have hsquare : (quantity - Decimal.trunc whole * step) * quantity =
        (whole - Decimal.trunc whole) * whole * (step * step) := by
      rw [hdust]
      nth_rewrite 1 [hquantity]
      ring
    rw [hsquare]
    exact mul_nonneg hsign (mul_self_nonneg step)

/-- Rounding towards zero rounds the two signs alike. -/
theorem roundTowardZeroToStep_neg (quantity step : Decimal) :
    roundTowardZeroToStep (-quantity) step = -roundTowardZeroToStep quantity step := by
  have htrunc (whole : Decimal) : Decimal.trunc (-whole) = -Decimal.trunc whole := by
    unfold Decimal.trunc
    rcases lt_trichotomy whole 0 with hneg | rfl | hpos
    · rw [if_pos (by linarith), if_neg (not_le.2 hneg), Int.floor_neg]
      push_cast
      rfl
    · simp
    · rw [if_neg (by linarith), if_pos hpos.le, Int.ceil_neg]
      push_cast
      rfl
  unfold roundTowardZeroToStep
  split
  · rfl
  · unfold Decimal.rem
    rw [neg_div, htrunc]
    ring

theorem roundTowardZeroToStep_signed (side : Side) (quantity step : Decimal) :
    roundTowardZeroToStep (signed side quantity) step =
      signed side (roundTowardZeroToStep quantity step) := by
  cases side with
  | buy => rfl
  | sell => exact roundTowardZeroToStep_neg quantity step

theorem signed_unsigned (moved : Decimal) (atZero : Side) :
    signed (unsigned moved atZero).1 |(unsigned moved atZero).2| = moved := by
  unfold unsigned
  rcases lt_trichotomy moved 0 with hneg | rfl | hpos
  · simp [hneg, hneg.not_gt, signed, abs_of_neg hneg]
  · simp
  · simp [hpos, signed, abs_of_pos hpos]

theorem signed_unsigned_size (moved : Decimal) (atZero : Side) :
    signed (unsigned moved atZero).1 (unsigned moved atZero).2 = moved := by
  have hsize := signed_unsigned moved atZero
  rwa [show |(unsigned moved atZero).2| = (unsigned moved atZero).2 from abs_abs moved] at hsize

/-- A move that is left whole reduces what is held, and no further than flat. -/
theorem reduces_of_reducedBy_none {held moved : Decimal} (h : reducedBy held moved = none) :
    |held + moved| ≤ |held| ∧ 0 ≤ held * (held + moved) := by
  unfold reducedBy at h
  split at h
  · rename_i hopposite
    split at h
    · cases h
    · rename_i hmore
      have hle : |moved| ≤ |held| := not_lt.1 hmore
      rcases hopposite with ⟨hheld, hmoved⟩ | ⟨hheld, hmoved⟩ | ⟨hheld, hmoved⟩
      · rw [abs_of_neg hmoved, abs_of_pos hheld] at hle
        have hleft : 0 ≤ held + moved := by linarith
        rw [abs_of_nonneg hleft, abs_of_pos hheld]
        exact ⟨by linarith, mul_nonneg hheld.le hleft⟩
      · rw [abs_of_pos hmoved, abs_of_neg hheld] at hle
        have hleft : held + moved ≤ 0 := by linarith
        rw [abs_of_nonpos hleft, abs_of_neg hheld]
        exact ⟨by linarith, mul_nonneg_of_nonpos_of_nonpos hheld.le hleft⟩
      · simp [hheld, hmoved]
  · split at h
    · rename_i hzero
      rw [hzero, add_zero]
      exact ⟨le_rfl, mul_self_nonneg held⟩
    · cases h

/-- What a reduce-only move takes is nothing, or all that is held. -/
theorem reducedBy_eq_some {held moved taken : Decimal} (h : reducedBy held moved = some taken) :
    taken = 0 ∨ taken = -held := by
  unfold reducedBy at h
  split at h
  · split at h
    · exact Or.inr (Option.some.inj h).symm
    · cases h
  · split at h
    · cases h
    · exact Or.inl (Option.some.inj h).symm

namespace Trade

variable {ExchangeKey AssetKey InstrumentKey : Type} [DecidableEq AssetKey]

/-- The signed quantity of a fill, less a fee the venue took in base. -/
def nettedMove (self : Trade AssetKey InstrumentKey) (instrument : Instrument ExchangeKey AssetKey) :
    Decimal :=
  let baseFee : Bool := instrument.kind = .spot && self.fees.asset = instrument.underlying.base &&
    self.fees.fees ≠ 0
  signed self.side |self.quantity| - if baseFee then self.fees.fees else 0

/-- A fill in spot whose fee the venue took in base, left whole: rounded to the quantity step. -/
def wholeMove (self : Trade AssetKey InstrumentKey) (instrument : Instrument ExchangeKey AssetKey)
    (held : Decimal) : Option HoldingMove :=
  let baseFee : Bool := instrument.kind = .spot && self.fees.asset = instrument.underlying.base &&
    self.fees.fees ≠ 0
  if !baseFee then none
  else
    let holds := held + self.nettedMove instrument
    let rounded := (instrument.quantityStep.map (roundTowardZeroToStep holds)).getD holds
    let moved := unsigned (rounded - held) (unsigned (self.nettedMove instrument) self.side).1
    some ⟨moved.1, moved.2, holds - rounded, 0⟩

variable {trade : Trade AssetKey InstrumentKey} {instrument : Instrument ExchangeKey AssetKey}
  {held : Decimal} {reduceOnly : ReduceOnly}

theorem holdingMove_eq : trade.holdingMove instrument held reduceOnly =
    if reduceOnly.isReduceOnly then
      match reducedBy held (trade.nettedMove instrument) with
      | some moved =>
          let cut := unsigned moved (unsigned (trade.nettedMove instrument) trade.side).1
          some ⟨cut.1, cut.2, 0, trade.nettedMove instrument - moved⟩
      | none => trade.wholeMove instrument held
    else trade.wholeMove instrument held := rfl

/-- What a fill moves a holding by, signed. -/
def appliedMove (self : Trade AssetKey InstrumentKey) (instrument : Instrument ExchangeKey AssetKey)
    (held : Decimal) (reduceOnly : ReduceOnly) : Decimal :=
  match self.holdingMove instrument held reduceOnly with
  | none => signed self.side |self.quantity|
  | some moved => signed moved.side |moved.quantity|

/-- A fill left whole moves what is held to the netted holding, or short of it towards zero. -/
theorem wholeMove_reduces (hshrinks : |held + trade.nettedMove instrument| ≤ |held|)
    (hsign : 0 ≤ held * (held + trade.nettedMove instrument)) :
    let applied := match trade.wholeMove instrument held with
      | none => signed trade.side |trade.quantity|
      | some moved => signed moved.side |moved.quantity|
    |held + applied| ≤ |held| ∧ 0 ≤ held * (held + applied) := by
  unfold wholeMove
  simp only
  split
  · rename_i hnone
    split at hnone
    · rename_i hfee
      have hnetted : trade.nettedMove instrument = signed trade.side |trade.quantity| := by
        rw [Bool.not_eq_true'] at hfee
        unfold nettedMove
        simp only [hfee, Bool.false_eq_true, if_false, sub_zero]
      rw [← hnetted]
      exact ⟨hshrinks, hsign⟩
    · cases hnone
  · rename_i moved hsome
    split at hsome
    · cases hsome
    · cases hsome
      set holds := held + trade.nettedMove instrument
      set rounded := (instrument.quantityStep.map (roundTowardZeroToStep holds)).getD holds
        with hrounded
      have hround : |rounded| ≤ |holds| ∧ 0 ≤ holds * rounded := by
        rw [hrounded]
        cases instrument.quantityStep with
        | none => exact ⟨le_rfl, mul_self_nonneg holds⟩
        | some step => exact roundTowardZeroToStep_spec holds step
      simp only [signed_unsigned, add_sub_cancel]
      refine ⟨hround.1.trans hshrinks, ?_⟩
      by_cases hflat : holds = 0
      · have hzero : rounded = 0 := by
          have hle := hround.1
          rw [hflat, abs_zero] at hle
          exact abs_nonpos_iff.1 hle
        rw [hzero, mul_zero]
      · -- Both have the sign of the netted holding.
        have hboth : 0 ≤ holds * holds * (held * rounded) := by
          have hproduct : holds * holds * (held * rounded) =
              held * holds * (holds * rounded) := by ring
          rw [hproduct]
          exact mul_nonneg hsign hround.2
        exact nonneg_of_mul_nonneg_right hboth (mul_self_pos.2 hflat)

/-- **A reduce-only fill neither grows what is held nor changes its sign.** -/
theorem appliedMove_reduces (h : reduceOnly.isReduceOnly = true) :
    |held + trade.appliedMove instrument held reduceOnly| ≤ |held| ∧
      0 ≤ held * (held + trade.appliedMove instrument held reduceOnly) := by
  unfold appliedMove
  rw [holdingMove_eq, if_pos h]
  cases htaken : reducedBy held (trade.nettedMove instrument) with
  | some taken =>
    simp only [signed_unsigned]
    rcases reducedBy_eq_some htaken with rfl | rfl
    · rw [add_zero]
      exact ⟨le_rfl, mul_self_nonneg held⟩
    · rw [add_neg_cancel, abs_zero, mul_zero]
      exact ⟨abs_nonneg held, le_rfl⟩
  | none =>
    obtain ⟨hshrinks, hsign⟩ := reduces_of_reducedBy_none htaken
    exact wholeMove_reduces hshrinks hsign

/-- **A cut fill's move and its excess are the netted move.** -/
theorem appliedMove_add_excess {moved : HoldingMove}
    (hmoved : trade.holdingMove instrument held reduceOnly = some moved) (hcut : moved.excess ≠ 0) :
    trade.appliedMove instrument held reduceOnly + moved.excess = trade.nettedMove instrument := by
  have hwhole : ∀ moved, trade.wholeMove instrument held = some moved → moved.excess = 0 := by
    intro moved hwhole
    unfold wholeMove at hwhole
    simp only at hwhole
    split at hwhole
    · cases hwhole
    · cases hwhole
      rfl
  unfold appliedMove
  rw [hmoved]
  rw [holdingMove_eq] at hmoved
  split at hmoved
  · split at hmoved
    · cases hmoved
      simp only [signed_unsigned, add_sub_cancel]
    · exact absurd (hwhole moved hmoved) hcut
  · exact absurd (hwhole moved hmoved) hcut

/-! ## What is held once a fill is applied -/

/-- What is held once the fill is applied to `held`. -/
def leaves (self : Trade AssetKey InstrumentKey) (instrument : Instrument ExchangeKey AssetKey)
    (held : Decimal) (reduceOnly : ReduceOnly) : Decimal :=
  match self.holdingMove instrument held reduceOnly with
  | none => held + signed self.side |self.quantity|
  | some moved => held + signed moved.side moved.quantity

/-- A fill whose fee the venue took in the base asset of a spot instrument. -/
structure TakesBase (trade : Trade AssetKey InstrumentKey)
    (instrument : Instrument ExchangeKey AssetKey) : Prop where
  spot : instrument.kind = .spot
  asset : trade.fees.asset = instrument.underlying.base
  fee : trade.fees.fees ≠ 0

/-- A move is never of a negative size. -/
theorem holdingMove_quantity {moved : HoldingMove}
    (h : trade.holdingMove instrument held reduceOnly = some moved) : 0 ≤ moved.quantity := by
  have hwhole : ∀ moved, trade.wholeMove instrument held = some moved → 0 ≤ moved.quantity := by
    intro moved hmoved
    unfold wholeMove at hmoved
    simp only at hmoved
    split at hmoved
    · cases hmoved
    · cases hmoved
      exact abs_nonneg _
  rw [holdingMove_eq] at h
  split at h
  · split at h
    · cases h
      exact abs_nonneg _
    · exact hwhole moved h
  · exact hwhole moved h

theorem leaves_eq : trade.leaves instrument held reduceOnly =
    held + trade.appliedMove instrument held reduceOnly := by
  unfold leaves appliedMove
  cases hmoved : trade.holdingMove instrument held reduceOnly with
  | none => rfl
  | some moved => simp only [abs_of_nonneg (holdingMove_quantity hmoved)]

/-- Whether a reduce-only fill's move was cut, and what was cut off it if so. -/
theorem holdingMove_cases (trade : Trade AssetKey InstrumentKey)
    (instrument : Instrument ExchangeKey AssetKey) (held : Decimal) (reduceOnly : ReduceOnly) :
    (∃ moved taken, trade.holdingMove instrument held reduceOnly = some moved ∧
      reducedBy held (trade.nettedMove instrument) = some taken ∧
      signed moved.side moved.quantity = taken ∧ moved.dust = 0 ∧
      moved.excess = trade.nettedMove instrument - taken) ∨
    (trade.holdingMove instrument held reduceOnly = trade.wholeMove instrument held ∧
      (reduceOnly.isReduceOnly = true → reducedBy held (trade.nettedMove instrument) = none)) := by
  rw [holdingMove_eq]
  by_cases h : reduceOnly.isReduceOnly = true
  · rw [if_pos h]
    cases htaken : reducedBy held (trade.nettedMove instrument) with
    | some taken =>
      refine .inl ⟨_, taken, rfl, rfl, ?_, rfl, rfl⟩
      exact signed_unsigned_size taken _
    | none => exact .inr ⟨rfl, fun _ => rfl⟩
  · rw [if_neg h]
    exact .inr ⟨rfl, fun hreduce => absurd hreduce h⟩

/-- What is cut off a move is not nothing. -/
theorem netted_ne_taken {moved taken : Decimal} (h : reducedBy held moved = some taken) :
    moved - taken ≠ 0 := by
  unfold reducedBy at h
  split at h
  · split at h
    · rename_i hlarger
      cases h
      intro hzero
      rw [sub_eq_zero] at hzero
      rw [hzero, abs_neg] at hlarger
      exact lt_irrefl _ hlarger
    · cases h
  · split at h
    · cases h
    · rename_i hmoves
      cases h
      rw [sub_zero]
      exact hmoves

/-- What a fill left whole leaves, the dust rounded off it, and the step it is rounded to. -/
theorem wholeMove_leaves (trade : Trade AssetKey InstrumentKey)
    (instrument : Instrument ExchangeKey AssetKey) (held : Decimal) :
    let netted := trade.nettedMove instrument
    (trade.wholeMove instrument held = none ∧ ¬ trade.TakesBase instrument ∧
      netted = signed trade.side |trade.quantity|) ∨
    ∃ moved, trade.wholeMove instrument held = some moved ∧ trade.TakesBase instrument ∧
      moved.excess = 0 ∧ held + netted = held + signed moved.side moved.quantity + moved.dust ∧
      ∀ step, instrument.quantityStep = some step →
        moved.dust = held + netted - roundTowardZeroToStep (held + netted) step := by
  unfold wholeMove
  simp only
  split
  · rename_i hfee
    have hnot : ¬ trade.TakesBase instrument := by
      rintro ⟨hspot, hasset, hcharged⟩
      simp [hspot, hasset, hcharged] at hfee
    refine .inl ⟨rfl, hnot, ?_⟩
    rw [Bool.not_eq_true'] at hfee
    unfold nettedMove
    simp only [hfee, Bool.false_eq_true, if_false, sub_zero]
  · rename_i hfee
    have htakes : trade.TakesBase instrument := by
      simp only [Bool.not_eq_true', Bool.not_eq_false, Bool.and_eq_true, decide_eq_true_eq] at hfee
      exact ⟨hfee.1.1, hfee.1.2, hfee.2⟩
    refine .inr ⟨_, rfl, htakes, rfl, ?_, ?_⟩
    · set holds := held + trade.nettedMove instrument
      set rounded := (instrument.quantityStep.map (roundTowardZeroToStep holds)).getD holds
      rw [signed_unsigned_size]
      ring
    · intro step hstep
      rw [hstep]
      rfl

/-- A fill's move, the dust and the excess are all the netted fill is, and never both of the last
are something. The dust of a fee taken in base is what is rounded off the step; a reduce-only fill
only reduces; and a fill left whole is applied as if it were not reduce-only. -/
theorem holdingMove_algebra (trade : Trade AssetKey InstrumentKey)
    (instrument : Instrument ExchangeKey AssetKey) (held : Decimal) (reduceOnly : ReduceOnly) :
    let moved := trade.holdingMove instrument held reduceOnly
    let netted := trade.nettedMove instrument
    let held' := trade.leaves instrument held reduceOnly
    let dust := moved.elim 0 HoldingMove.dust
    let excess := moved.elim 0 HoldingMove.excess
    held + netted = held' + dust + excess ∧ (dust = 0 ∨ excess = 0) ∧
      (excess = 0 → trade.TakesBase instrument →
        ∀ step, instrument.quantityStep = some step → 0 < step →
          (∃ steps : ℤ, held' = steps * step) ∧ |dust| < step ∧
            (dust = 0 ∨ 0 < dust * (held + netted))) ∧
      (reduceOnly.isReduceOnly = true → |held'| ≤ |held| ∧ (held' = 0 ∨ 0 < held * held')) ∧
      (excess = 0 → moved = trade.holdingMove instrument held .no) := by
  intro moved netted held' dust excess
  have hreduces : reduceOnly.isReduceOnly = true →
      |held'| ≤ |held| ∧ (held' = 0 ∨ 0 < held * held') := by
    intro h
    have happlied : |held + trade.appliedMove instrument held reduceOnly| ≤ |held| ∧
        0 ≤ held * (held + trade.appliedMove instrument held reduceOnly) := appliedMove_reduces h
    rw [← leaves_eq] at happlied
    obtain ⟨hshrinks, hsign⟩ := happlied
    refine ⟨hshrinks, ?_⟩
    by_cases hflat : held' = 0
    · exact .inl hflat
    · have hheld : held ≠ 0 := by
        intro hzero
        have hnone : |held'| ≤ 0 := hshrinks.trans (abs_nonpos_iff.2 hzero)
        exact hflat (abs_nonpos_iff.1 hnone)
      exact .inr (lt_of_le_of_ne hsign (mul_ne_zero hheld hflat).symm)
  have hno : trade.holdingMove instrument held .no = trade.wholeMove instrument held := rfl
  rcases holdingMove_cases trade instrument held reduceOnly with
    ⟨cut, taken, hcut, htaken, hsize, hdust, hexcess⟩ | ⟨hwhole, -⟩
  · -- The move was cut: nothing is rounded, and something is cut off.
    have hheld' : held' = held + taken := by
      show trade.leaves instrument held reduceOnly = _
      unfold leaves
      rw [hcut, ← hsize]
    have hdust' : dust = 0 := by
      show moved.elim 0 HoldingMove.dust = 0
      rw [show moved = _ from hcut]
      exact hdust
    have hexcess' : excess = netted - taken := by
      show moved.elim 0 HoldingMove.excess = _
      rw [show moved = _ from hcut]
      exact hexcess
    have hcutOff : excess ≠ 0 := by
      rw [hexcess']
      exact netted_ne_taken htaken
    refine ⟨?_, .inl hdust', fun h => absurd h hcutOff, hreduces, fun h => absurd h hcutOff⟩
    rw [hheld', hdust', hexcess']
    ring
  · have hsame : moved = trade.holdingMove instrument held .no := hwhole.trans hno.symm
    rcases wholeMove_leaves trade instrument held with
      ⟨hnone, hnot, hnetted⟩ | ⟨whole, hsome, htakes, hexcess, hadds, hdust⟩
    · have hmoved : moved = none := hwhole.trans hnone
      have hheld' : held' = held + netted := by
        show trade.leaves instrument held reduceOnly = _
        unfold leaves
        rw [show trade.holdingMove instrument held reduceOnly = none from hmoved, ← hnetted]
      have hdust' : dust = 0 := by
        show moved.elim 0 HoldingMove.dust = 0
        rw [hmoved]
        rfl
      have hexcess' : excess = 0 := by
        show moved.elim 0 HoldingMove.excess = 0
        rw [hmoved]
        rfl
      refine ⟨?_, .inl hdust', fun _ htakes => absurd htakes hnot, hreduces, fun _ => hsame⟩
      rw [hheld', hdust', hexcess']
      ring
    · have hmoved : moved = some whole := hwhole.trans hsome
      have hheld' : held' = held + signed whole.side whole.quantity := by
        show trade.leaves instrument held reduceOnly = _
        unfold leaves
        rw [show trade.holdingMove instrument held reduceOnly = some whole from hmoved]
      have hdust' : dust = whole.dust := by
        show moved.elim 0 HoldingMove.dust = _
        rw [hmoved]
        rfl
      have hexcess' : excess = 0 := by
        show moved.elim 0 HoldingMove.excess = 0
        rw [hmoved]
        exact hexcess
      have hsum : held + netted = held' + dust := by
        rw [hheld', hdust']
        exact hadds
      refine ⟨?_, .inr hexcess', ?_, hreduces, fun _ => hsame⟩
      · rw [hexcess', add_zero]
        exact hsum
      · intro _ _ step hstep hpos
        obtain ⟨hsteps, hless, hsign⟩ := roundTowardZeroToStep_step (held + netted) hpos
        have hrounded : dust = held + netted - roundTowardZeroToStep (held + netted) step :=
          hdust'.trans (hdust step hstep)
        have hlands : held' = roundTowardZeroToStep (held + netted) step := by
          rw [hrounded] at hsum
          linarith
        rw [← hrounded] at hless hsign
        refine ⟨hlands ▸ hsteps, hless, ?_⟩
        by_cases hzero : dust = 0
        · exact .inl hzero
        · have hholds : held + netted ≠ 0 := by
            intro hflat
            rw [hrounded, hflat] at hzero
            have hle := (roundTowardZeroToStep_spec 0 step).1
            rw [abs_zero] at hle
            rw [abs_nonpos_iff.1 hle, sub_zero] at hzero
            exact hzero rfl
          exact .inr (lt_of_le_of_ne hsign (mul_ne_zero hzero hholds).symm)

/-- A fill that is neither cut nor netted leaves what is held moved by its own quantity. -/
theorem leaves_of_not_takesBase (h : ¬ trade.TakesBase instrument) :
    trade.leaves instrument held .no = held + signed trade.side |trade.quantity| := by
  have hno : trade.holdingMove instrument held .no = trade.wholeMove instrument held := rfl
  rcases wholeMove_leaves trade instrument held with ⟨hnone, -, -⟩ | ⟨_, -, htakes, -⟩
  · unfold leaves
    rw [hno, hnone]
  · exact absurd htakes h

/-- A fill whose fee is taken in base leaves the netted holding, rounded to the step. -/
theorem leaves_of_takesBase (h : trade.TakesBase instrument) :
    trade.leaves instrument held .no =
      (instrument.quantityStep.map (roundTowardZeroToStep (held + trade.nettedMove instrument))).getD
        (held + trade.nettedMove instrument) := by
  have hfee : (decide (instrument.kind = .spot) &&
      decide (trade.fees.asset = instrument.underlying.base) && decide (trade.fees.fees ≠ 0)) =
        true := by
    simp [h.spot, h.asset, h.fee]
  have hno : trade.holdingMove instrument held .no = trade.wholeMove instrument held := rfl
  unfold leaves
  rw [hno]
  unfold wholeMove
  simp only [hfee, Bool.not_true, Bool.false_eq_true, if_false]
  rw [signed_unsigned_size]
  ring

/-- What a fill whose fee is taken in base nets to. -/
theorem nettedMove_of_takesBase (h : trade.TakesBase instrument) :
    trade.nettedMove instrument = signed trade.side |trade.quantity| - trade.fees.fees := by
  unfold nettedMove
  simp [h.spot, h.asset, h.fee]

end Trade

end Rustrade
