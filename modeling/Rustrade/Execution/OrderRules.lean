import Mathlib.Algebra.GCDMonoid.Nat
import Rustrade.Execution.Order
import Rustrade.Hyperliquid.Precision
import Rustrade.Lib.DecimalArithmetic
import Rustrade.Lib.Ensures

/-!
# An instrument's order rules

A value must be a multiple of its rule's step. A market order's quantity has two steps, and is
rounded to the grid the two share, whose step is their least common multiple. It is taken in the
places of the finer of the two, where it may have more digits than a decimal has.
-/

set_option autoImplicit false

namespace Rustrade

open Hyperliquid (OrderField PrecisionLimit PrecisionViolation)

/-! ## The rules -/

inductive Bound where
  | min
  | max
  deriving DecidableEq

structure BoundsViolation where
  field : OrderField
  bound : Bound
  limit : Scaled
  value : Scaled
  deriving DecidableEq

inductive RuleViolation where
  | invalidPrecision (violation : PrecisionViolation)
  | outOfBounds (violation : BoundsViolation)
  deriving DecidableEq

structure ValueRule where
  min : Option Fitted
  max : Option Fitted
  step : Option Fitted
  deriving DecidableEq

namespace ValueRule

variable (arithmetic : DecimalArithmetic) (self : ValueRule)

/-- The step, when it makes a grid. -/
def grid : Option Fitted := self.step.filter fun step => 0 < step.mantissa

/-- The first rule a value breaks, grid before range. -/
def check (field : OrderField) (value : Fitted) : Except RuleViolation Unit :=
  match self.grid.filter fun step => !(arithmetic.rem value step).isZero with
  | some step =>
    .error (.invalidPrecision ⟨field, value.toScaled, .notOnGrid step.toScaled⟩)
  | none => match self.min.filter fun min => value.value < min.value with
    | some min => .error (.outOfBounds ⟨field, .min, min.toScaled, value.toScaled⟩)
    | none => match self.max.filter fun max => max.value < value.value with
      | some max => .error (.outOfBounds ⟨field, .max, max.toScaled, value.toScaled⟩)
      | none => .ok ()

end ValueRule

section

variable (arithmetic : DecimalArithmetic)

/-- `value` if it is a multiple of `step`. -/
def onGrid (value step : Fitted) : Option Fitted :=
  if (arithmetic.rem value step).isZero then some value else none

/-- The largest multiple of a step at or below a value. -/
def roundDownTo (value : Fitted) : Option Fitted → Option Fitted
  | none => some value
  | some step =>
    let remainder := arithmetic.rem value step
    if remainder.isZero then some value
    else do
      -- `-` would panic where this is none; a value's neighbour toward zero is in range.
      let towardZero ← arithmetic.checkedSub value remainder
      let rounded ← if remainder.isSignNegative then arithmetic.checkedSub towardZero step
        else some towardZero
      onGrid arithmetic rounded step

/-- The smallest multiple of a step at or above a value. -/
def roundUpTo (value : Fitted) : Option Fitted → Option Fitted
  | none => some value
  | some step =>
    let remainder := arithmetic.rem value step
    if remainder.isZero then some value
    else do
      let towardZero ← arithmetic.checkedSub value remainder
      let rounded ← if remainder.isSignNegative then some towardZero
        else arithmetic.checkedAdd towardZero step
      onGrid arithmetic rounded step

end

/-- A result that a signed integer of 128 bits holds. -/
def checkedI128 (n : ℤ) : Option ℤ := if -2 ^ 127 ≤ n ∧ n < 2 ^ 127 then some n else none

/-- Euclid's loop. -/
def euclid (x y : ℤ) : ℤ := if y = 0 then x else euclid y (x.tmod y)
termination_by y.natAbs
decreasing_by
  rw [Int.natAbs_tmod]
  exact Nat.mod_lt _ (Int.natAbs_pos.mpr ‹_›)

/-- A mantissa in so many places, if the type holds it. -/
def tryFromI128WithScale (mantissa : ℤ) (scale : ℕ) : Option Fitted :=
  if h : Scaled.Fits ⟨mantissa, scale⟩ then some ⟨⟨mantissa, scale⟩, h⟩ else none

/-- The smallest step whose grid lies on both, if the type holds it. -/
def commonStep (a b : Fitted) : Option Fitted := do
  let scale := max a.scale b.scale
  let whole (step : Fitted) : Option ℤ := do
    let factor ← checkedI128 (10 ^ (scale - step.scale))
    checkedI128 (step.mantissa * factor)
  let a ← whole a
  let b ← whole b
  let lcm ← checkedI128 (a.tdiv (euclid a b) * b)
  (tryFromI128WithScale lcm scale).map Fitted.normalize

/-- The rules of a quantity. -/
structure OrderRules where
  quantity : ValueRule
  marketQuantity : ValueRule
  deriving DecidableEq

namespace OrderRules

variable (arithmetic : DecimalArithmetic) (self : OrderRules) (kind : OrderKind)

/-- The step of the grid a quantity must sit on: `some none` when there is none. -/
def quantityGrid : Option (Option Fitted) :=
  let quantity := self.quantity.grid
  if kind ≠ .market then some quantity
  else match quantity, self.marketQuantity.grid with
  | some a, some b => (commonStep a b).map some
  | step, none | none, step => some step

def roundQuantityDown (quantity : Fitted) : Option Fitted := do
  let grid ← self.quantityGrid kind
  roundDownTo arithmetic quantity grid

def roundQuantityUp (quantity : Fitted) : Option Fitted := do
  let grid ← self.quantityGrid kind
  roundUpTo arithmetic quantity grid

/-- What `check` checks of a quantity. -/
def checkQuantity (quantity : Fitted) : Except RuleViolation Unit := do
  self.quantity.check arithmetic .quantity quantity
  if kind = .market then self.marketQuantity.check arithmetic .quantity quantity

/-- The rules it checks a quantity against. -/
def quantityRules : List ValueRule :=
  if kind = .market then [self.quantity, self.marketQuantity] else [self.quantity]

/-- A quantity passes every grid check. -/
def Passes (quantity : Fitted) : Prop :=
  ∀ rule ∈ self.quantityRules kind, ∀ violation,
    rule.check arithmetic .quantity quantity ≠ .error (.invalidPrecision violation)

end OrderRules

/-! ## One step -/

section

open Scaled

variable {arithmetic : DecimalArithmetic} {value step r : Fitted}

theorem grid_positive {rule : ValueRule} (h : rule.grid = some step) : 0 < step.value := by
  obtain ⟨-, hpositive⟩ := Option.filter_eq_some_iff.mp h
  have hcast : (0 : ℚ) < step.mantissa := by exact_mod_cast of_decide_eq_true hpositive
  unfold Scaled.value
  positivity

theorem rem_of_nonneg (arithmetic : DecimalArithmetic) (hstep : 0 < step.value) (hvalue : 0 ≤ value.value) :
    (arithmetic.rem value step).value = value.value - below step.value value.value := by
  have hquotient : 0 ≤ value.value / step.value := div_nonneg hvalue hstep.le
  rw [arithmetic.rem_value value step hstep]
  unfold RoundingStrategy.toInt below
  dsimp only
  rw [if_pos hquotient, mul_comm]

theorem rem_of_neg (arithmetic : DecimalArithmetic) (hstep : 0 < step.value) (hvalue : value.value < 0) :
    (arithmetic.rem value step).value = value.value - above step.value value.value := by
  have hquotient : ¬ 0 ≤ value.value / step.value := not_le.mpr (div_neg_of_neg_of_pos hvalue hstep)
  rw [arithmetic.rem_value value step hstep]
  unfold RoundingStrategy.toInt above
  dsimp only
  rw [if_neg hquotient, mul_comm]

theorem rem_isZero_iff (hstep : 0 < step.value) :
    (arithmetic.rem value step).isZero = true ↔ OnGrid step.value value.value := by
  rw [Fitted.isZero_iff]
  obtain hvalue | hvalue := le_or_gt 0 value.value
  · rw [rem_of_nonneg arithmetic hstep hvalue, sub_eq_zero]
    exact ⟨fun heq => heq ▸ below_onGrid, fun hgrid => (below_eq_self hstep hgrid).symm⟩
  · rw [rem_of_neg arithmetic hstep hvalue, sub_eq_zero]
    refine ⟨fun heq => heq ▸ above_onGrid, fun hgrid => ?_⟩
    have hneg := below_eq_self hstep hgrid.neg
    rw [below_neg] at hneg
    linarith

theorem onGrid_eq_some (hstep : 0 < step.value) :
    onGrid arithmetic value step = some r ↔ r = value ∧ OnGrid step.value r.value := by
  unfold onGrid
  rw [Option.ite_none_right_eq_some, rem_isZero_iff hstep, Option.some.injEq]
  constructor
  · rintro ⟨hgrid, rfl⟩
    exact ⟨rfl, hgrid⟩
  · rintro ⟨rfl, hgrid⟩
    exact ⟨hgrid, rfl⟩

theorem roundDownTo_of_onGrid (hstep : 0 < step.value) (hgrid : OnGrid step.value value.value) :
    roundDownTo arithmetic value (some step) = some value :=
  if_pos ((rem_isZero_iff hstep).mpr hgrid)

theorem roundUpTo_of_onGrid (hstep : 0 < step.value) (hgrid : OnGrid step.value value.value) :
    roundUpTo arithmetic value (some step) = some value :=
  if_pos ((rem_isZero_iff hstep).mpr hgrid)

/-- The neighbour toward zero is in range. -/
theorem checkedSub_rem {base : ℚ} (hrem : (arithmetic.rem value step).value = value.value - base)
    (hbase : |base| ≤ |value.value|) :
    ∃ towardZero, arithmetic.checkedSub value (arithmetic.rem value step) = some towardZero ∧
      RoundsTo base towardZero.value := by
  have hrounded := arithmetic.checkedSub_rounded value (arithmetic.rem value step)
  rw [hrem, sub_sub_cancel] at hrounded
  cases htoward : arithmetic.checkedSub value (arithmetic.rem value step) with
  | none =>
    rw [htoward] at hrounded
    exact absurd ((value.fits.fitsAt hbase).mono le_rfl (Nat.zero_le _)) hrounded
  | some towardZero =>
    rw [htoward] at hrounded
    exact ⟨towardZero, rfl, hrounded⟩

theorem above_le_zero {s v : ℚ} (hs : 0 < s) (hv : v ≤ 0) : above s v ≤ 0 := by
  have hneg := below_nonneg hs (neg_nonneg.mpr hv)
  rw [below_neg] at hneg
  linarith

theorem lt_above {s v : ℚ} (hs : 0 < s) (hoff : ¬ OnGrid s v) : v < above s v :=
  lt_of_le_of_ne (le_above hs) fun heq => hoff ⟨_, heq⟩

/-- Off the grid, a positive value is rounded from the multiple below it. -/
theorem round_of_pos (arithmetic : DecimalArithmetic) (hstep : 0 < step.value) (hoff : ¬ OnGrid step.value value.value)
    (hvalue : 0 < value.value) : ∃ towardZero : Fitted,
      RoundsTo (below step.value value.value) towardZero.value ∧
      roundDownTo arithmetic value (some step) = onGrid arithmetic towardZero step ∧
      roundUpTo arithmetic value (some step) =
        (arithmetic.checkedAdd towardZero step).bind (onGrid arithmetic · step) := by
  have hrem := rem_of_nonneg arithmetic hstep hvalue.le
  have hzero : ¬ (arithmetic.rem value step).isZero = true := by
    rwa [rem_isZero_iff hstep]
  have hsign : ¬ (arithmetic.rem value step).isSignNegative = true := by
    rw [Fitted.isSignNegative_iff, hrem]
    have hle := below_le (v := value.value) hstep
    linarith
  obtain ⟨towardZero, htoward, hrounded⟩ := checkedSub_rem hrem (by
    rw [abs_of_nonneg (below_nonneg hstep hvalue.le), abs_of_pos hvalue]
    exact below_le hstep)
  refine ⟨towardZero, hrounded, ?_, ?_⟩
  · unfold roundDownTo
    dsimp only
    rw [if_neg hzero, htoward]
    exact if_neg hsign
  · unfold roundUpTo
    dsimp only
    rw [if_neg hzero, htoward]
    exact if_neg hsign

/-- Off the grid, a negative value is rounded from the multiple above it. -/
theorem round_of_neg (arithmetic : DecimalArithmetic) (hstep : 0 < step.value) (hoff : ¬ OnGrid step.value value.value)
    (hvalue : value.value < 0) : ∃ towardZero : Fitted,
      RoundsTo (above step.value value.value) towardZero.value ∧
      roundUpTo arithmetic value (some step) = onGrid arithmetic towardZero step ∧
      roundDownTo arithmetic value (some step) =
        (arithmetic.checkedSub towardZero step).bind (onGrid arithmetic · step) := by
  have hrem := rem_of_neg arithmetic hstep hvalue
  have hzero : ¬ (arithmetic.rem value step).isZero = true := by
    rwa [rem_isZero_iff hstep]
  have hsign : (arithmetic.rem value step).isSignNegative = true := by
    rw [Fitted.isSignNegative_iff, hrem]
    have hlt := lt_above hstep hoff
    linarith
  obtain ⟨towardZero, htoward, hrounded⟩ := checkedSub_rem hrem (by
    rw [abs_of_nonpos (above_le_zero hstep hvalue.le), abs_of_neg hvalue]
    exact neg_le_neg (le_above hstep))
  refine ⟨towardZero, hrounded, ?_, ?_⟩
  · unfold roundUpTo
    dsimp only
    rw [if_neg hzero, htoward]
    exact if_pos hsign
  · unfold roundDownTo
    dsimp only
    rw [if_neg hzero, htoward]
    exact if_pos hsign

/-- The largest decimal that meets a condition, no more than a value. -/
def IsLargestBelow (Meets : Fitted → Prop) (value r : Fitted) : Prop :=
  r.value ≤ value.value ∧ Meets r ∧ ∀ y, Meets y → y.value ≤ value.value → y.value ≤ r.value

/-- The smallest, no less. -/
def IsSmallestAbove (Meets : Fitted → Prop) (value r : Fitted) : Prop :=
  value.value ≤ r.value ∧ Meets r ∧ ∀ y, Meets y → value.value ≤ y.value → r.value ≤ y.value

/-- A value that is held is no tie. -/
theorem not_oddTie_self {v next : ℚ} (hv : Holds v) : ¬ OddTie v next := by
  rintro ⟨places, -, -, hfiner, hfract, -⟩
  obtain ⟨n, hn⟩ := whole_of_holds hfiner hv le_rfl
  rw [hn, Int.fract_intCast] at hfract
  norm_num at hfract

/-- Rounding down to one step gives the largest multiple there is, unless it loses it: from the
negative multiple toward zero, halfway between two decimals, to an odd one. -/
theorem roundDownTo_iff (arithmetic : DecimalArithmetic) (hstep : 0 < step.value) :
    ((∀ r, roundDownTo arithmetic value (some step) = some r →
        IsLargestBelow (fun y => OnGrid step.value y.value) value r) ∧
      (Holds (below step.value value.value) →
        (roundDownTo arithmetic value (some step)).isSome = true)) ↔
    (value.value < 0 → Holds (below step.value value.value) →
      ¬ OddTie (above step.value value.value) (below step.value value.value)) := by
  by_cases hgrid : OnGrid step.value value.value
  · rw [roundDownTo_of_onGrid hstep hgrid]
    refine iff_of_true ⟨?_, fun _ => rfl⟩ fun _ _ => ?_
    · rintro r ⟨⟩
      exact ⟨le_rfl, hgrid, fun _ _ hle => hle⟩
    · have hneg := below_eq_self hstep hgrid.neg
      rw [below_neg, neg_inj] at hneg
      rw [hneg]
      exact not_oddTie_self value.holds
  have hzero : value.value ≠ 0 := fun heq => hgrid ⟨0, by rw [heq]; simp⟩
  obtain hvalue | hvalue := lt_or_gt_of_ne hzero
  · -- Away from zero.
    obtain ⟨towardZero, hrounded, -, hround⟩ :=
      round_of_neg arithmetic hstep hgrid hvalue
    have hresult := arithmetic.checkedSub_rounded towardZero step
    rw [hround]
    constructor
    · rintro ⟨hright, hsome⟩ - hheld htie
      obtain ⟨r, hr⟩ := Option.isSome_iff_exists.mp (hsome hheld)
      obtain ⟨hle, hrGrid, hmost⟩ := hright r hr
      obtain ⟨result, hchecked, hon⟩ := Option.bind_eq_some_iff.mp hr
      obtain ⟨rfl, -⟩ := (onGrid_eq_some hstep).mp hon
      rw [hchecked] at hresult
      obtain ⟨lowest, hlowest⟩ := Fitted.exists_of_holds hheld
      have hge := hmost lowest (show OnGrid step.value lowest.value from hlowest ▸ below_onGrid)
        (hlowest ▸ below_le hstep)
      rw [hlowest] at hge
      exact (away_below_exact hstep value.holds hvalue hgrid hrounded hresult hheld).mp
        (le_antisymm (le_below hstep hrGrid hle) hge) htie
    · intro hkept
      refine ⟨fun r hr => ?_, fun hheld => ?_⟩
      · obtain ⟨result, hchecked, hon⟩ := Option.bind_eq_some_iff.mp hr
        obtain ⟨rfl, hrGrid⟩ := (onGrid_eq_some hstep).mp hon
        rw [hchecked] at hresult
        by_cases hheld : Holds (below step.value value.value)
        · have hexact := (away_below_exact hstep value.holds hvalue hgrid hrounded hresult
            hheld).mpr (hkept hvalue hheld)
          refine ⟨?_, hrGrid, fun y hy hle => ?_⟩
          · rw [hexact]
            exact below_le hstep
          · rw [hexact]
            exact le_below hstep hy hle
        · obtain ⟨hle, hmost⟩ := away_below hstep value.holds hvalue hgrid hrounded hresult hrGrid
            (.inr hheld)
          exact ⟨hle, hrGrid, fun y hy hyle => hmost y.value y.holds hy hyle⟩
      · have hnotie := hkept hvalue hheld
        cases hchecked : arithmetic.checkedSub towardZero step with
        | none =>
          rw [hchecked] at hresult
          exact absurd (away_below_fits hstep hvalue hgrid hrounded hheld hnotie) hresult
        | some result =>
          rw [hchecked] at hresult
          have hexact := (away_below_exact hstep value.holds hvalue hgrid hrounded hresult
            hheld).mpr hnotie
          rw [Option.bind_some, (onGrid_eq_some hstep).mpr ⟨rfl, hexact ▸ below_onGrid⟩]
          rfl
  · -- Toward zero.
    obtain ⟨towardZero, hrounded, hround, -⟩ :=
      round_of_pos arithmetic hstep hgrid hvalue
    rw [hround]
    refine iff_of_true ⟨fun r hr => ?_, fun hheld => ?_⟩ fun hneg => absurd hneg hvalue.not_gt
    · obtain ⟨rfl, hrGrid⟩ := (onGrid_eq_some hstep).mp hr
      obtain ⟨hle, hmost⟩ := toward_below hstep value.holds hrounded
      exact ⟨hle, hrGrid, fun y hy hyle => hmost y.value y.holds hy hyle⟩
    · have hsame := hrounded.eq_of_holds hheld
      rw [(onGrid_eq_some hstep).mpr ⟨rfl, hsame ▸ below_onGrid⟩]
      rfl

/-- Rounding up likewise: from the positive multiple toward zero. -/
theorem roundUpTo_iff (arithmetic : DecimalArithmetic) (hstep : 0 < step.value) :
    ((∀ r, roundUpTo arithmetic value (some step) = some r →
        IsSmallestAbove (fun y => OnGrid step.value y.value) value r) ∧
      (Holds (above step.value value.value) →
        (roundUpTo arithmetic value (some step)).isSome = true)) ↔
    (0 < value.value → Holds (above step.value value.value) →
      ¬ OddTie (below step.value value.value) (above step.value value.value)) := by
  by_cases hgrid : OnGrid step.value value.value
  · rw [roundUpTo_of_onGrid hstep hgrid]
    refine iff_of_true ⟨?_, fun _ => rfl⟩ fun _ _ => ?_
    · rintro r ⟨⟩
      exact ⟨le_rfl, hgrid, fun _ _ hle => hle⟩
    · rw [below_eq_self hstep hgrid]
      exact not_oddTie_self value.holds
  have hzero : value.value ≠ 0 := fun heq => hgrid ⟨0, by rw [heq]; simp⟩
  obtain hvalue | hvalue := lt_or_gt_of_ne hzero
  · -- Toward zero.
    obtain ⟨towardZero, hrounded, hround, -⟩ :=
      round_of_neg arithmetic hstep hgrid hvalue
    rw [hround]
    refine iff_of_true ⟨fun r hr => ?_, fun hheld => ?_⟩ fun hpos => absurd hpos hvalue.not_gt
    · obtain ⟨rfl, hrGrid⟩ := (onGrid_eq_some hstep).mp hr
      obtain ⟨hle, hmost⟩ := toward_above hstep value.holds hrounded
      exact ⟨hle, hrGrid, fun y hy hyle => hmost y.value y.holds hy hyle⟩
    · have hsame := hrounded.eq_of_holds hheld
      rw [(onGrid_eq_some hstep).mpr ⟨rfl, hsame ▸ above_onGrid⟩]
      rfl
  · -- Away from zero.
    obtain ⟨towardZero, hrounded, -, hround⟩ :=
      round_of_pos arithmetic hstep hgrid hvalue
    have hresult := arithmetic.checkedAdd_rounded towardZero step
    have hnext := above_eq hstep hgrid
    have hleast {y : ℚ} (hy : OnGrid step.value y) (hle : value.value ≤ y) :
        above step.value value.value ≤ y :=
      above_onGrid.le_of_above (by linarith [above_sub_lt (v := value.value) hstep]) hy hle
    rw [hround]
    constructor
    · rintro ⟨hright, hsome⟩ - hheld htie
      obtain ⟨r, hr⟩ := Option.isSome_iff_exists.mp (hsome hheld)
      obtain ⟨hle, hrGrid, hmost⟩ := hright r hr
      obtain ⟨result, hchecked, hon⟩ := Option.bind_eq_some_iff.mp hr
      obtain ⟨rfl, -⟩ := (onGrid_eq_some hstep).mp hon
      rw [hchecked] at hresult
      obtain ⟨next, hnextHeld⟩ := Fitted.exists_of_holds hheld
      have hge := hmost next (show OnGrid step.value next.value from hnextHeld ▸ above_onGrid)
        (hnextHeld ▸ le_above hstep)
      rw [hnextHeld] at hge
      exact (away_above_exact hstep value.holds hvalue hgrid hrounded hresult hheld).mp
        (le_antisymm hge (hleast hrGrid hle)) htie
    · intro hkept
      refine ⟨fun r hr => ?_, fun hheld => ?_⟩
      · obtain ⟨result, hchecked, hon⟩ := Option.bind_eq_some_iff.mp hr
        obtain ⟨rfl, hrGrid⟩ := (onGrid_eq_some hstep).mp hon
        rw [hchecked] at hresult
        by_cases hheld : Holds (above step.value value.value)
        · have hexact := (away_above_exact hstep value.holds hvalue hgrid hrounded hresult
            hheld).mpr (hkept hvalue hheld)
          refine ⟨?_, hrGrid, fun y hy hle => ?_⟩
          · rw [hexact]
            exact le_above hstep
          · rw [hexact]
            exact hleast hy hle
        · obtain ⟨hle, hmost⟩ := away_above hstep value.holds hvalue hgrid hrounded hresult hrGrid
            (.inr hheld)
          exact ⟨hle, hrGrid, fun y hy hyle => hmost y.value y.holds hy hyle⟩
      · have hnotie := hkept hvalue hheld
        cases hchecked : arithmetic.checkedAdd towardZero step with
        | none =>
          rw [hchecked] at hresult
          exact absurd (away_above_fits hstep hvalue hgrid hrounded hheld hnotie) hresult
        | some result =>
          rw [hchecked] at hresult
          have hexact := (away_above_exact hstep value.holds hvalue hgrid hrounded hresult
            hheld).mpr hnotie
          rw [Option.bind_some, (onGrid_eq_some hstep).mpr ⟨rfl, hexact ▸ above_onGrid⟩]
          rfl

end

/-! ## The step two grids share -/

/-- The least common multiple of two steps, in the places of the finer. -/
def sharedStep (a b : Scaled) : Scaled :=
  ⟨Int.lcm (DecimalArithmetic.mantissaIn a (max a.scale b.scale))
    (DecimalArithmetic.mantissaIn b (max a.scale b.scale)), max a.scale b.scale⟩

section

open Scaled DecimalArithmetic

theorem mantissaIn_pos {x : Scaled} (h : 0 < x.mantissa) (places : ℕ) : 0 < mantissaIn x places := by
  unfold mantissaIn
  positivity

theorem sharedStep_pos {a b : Scaled} (ha : 0 < a.mantissa) (hb : 0 < b.mantissa) :
    0 < (sharedStep a b).value := by
  have hlcm := Int.lcm_pos (mantissaIn_pos ha (max a.scale b.scale)).ne'
    (mantissaIn_pos hb (max a.scale b.scale)).ne'
  have hmantissa : 0 < (sharedStep a b).mantissa := Int.natCast_pos.mpr hlcm
  have hcast : (0 : ℚ) < (sharedStep a b).mantissa := by exact_mod_cast hmantissa
  unfold value
  positivity

/-- In places enough, a multiple of a decimal is a multiple of its mantissa. -/
theorem onGrid_iff_dvd {x : Scaled} {places : ℕ} (h : x.scale ≤ places) {y : ℚ} :
    OnGrid x.value y ↔ ∃ n : ℤ, y * 10 ^ places = n ∧ mantissaIn x places ∣ n := by
  have hpow : (0 : ℚ) < 10 ^ places := by positivity
  have hvalue := mantissaIn_eq h
  constructor
  · rintro ⟨m, rfl⟩
    refine ⟨m * mantissaIn x places, ?_, Dvd.intro_left _ rfl⟩
    rw [mul_assoc, hvalue]
    push_cast
    rfl
  · rintro ⟨n, hn, m, rfl⟩
    refine ⟨m, mul_right_cancel₀ hpow.ne' ?_⟩
    rw [hn, mul_assoc, hvalue]
    push_cast
    ring

theorem onGrid_sharedStep {a b : Scaled} {y : ℚ} :
    OnGrid (sharedStep a b).value y ↔ OnGrid a.value y ∧ OnGrid b.value y := by
  have hshared : mantissaIn (sharedStep a b) (max a.scale b.scale) = (sharedStep a b).mantissa := by
    unfold mantissaIn
    rw [show (sharedStep a b).scale = max a.scale b.scale from rfl, Nat.sub_self, pow_zero, mul_one]
  rw [onGrid_iff_dvd (le_max_left a.scale b.scale), onGrid_iff_dvd (le_max_right a.scale b.scale),
    onGrid_iff_dvd (le_refl (max a.scale b.scale)), hshared]
  constructor
  · rintro ⟨n, hn, hdvd⟩
    exact ⟨⟨n, hn, (Int.dvd_lcm_left _ _).trans hdvd⟩, n, hn, (Int.dvd_lcm_right _ _).trans hdvd⟩
  · rintro ⟨⟨n, hn, hleft⟩, m, hm, hright⟩
    have hsame : n = m := by exact_mod_cast hn.symm.trans hm
    exact ⟨n, hn, Int.coe_lcm_dvd hleft (hsame ▸ hright)⟩

theorem euclid_eq_gcd {x y : ℤ} (hx : 0 ≤ x) (hy : 0 ≤ y) : euclid x y = Int.gcd x y := by
  induction x, y using euclid.induct with
  | case1 x =>
    unfold euclid
    rw [if_pos rfl, Int.gcd_zero_right, Int.natAbs_of_nonneg hx]
  | case2 x y hne ih =>
    unfold euclid
    rw [if_neg hne, ih hy (Int.tmod_nonneg _ hx), Int.tmod_eq_emod_of_nonneg hx, Int.gcd_comm,
      Int.gcd_emod]

theorem checkedI128_cases (n : ℤ) : checkedI128 n = none ∨ checkedI128 n = some n := by
  unfold checkedI128
  split
  · exact .inr rfl
  · exact .inl rfl

/-- What is no larger than a mantissa is held. -/
theorem checkedI128_of_le {n : ℤ} (hnonneg : 0 ≤ n) (hle : n ≤ maxMantissa) :
    checkedI128 n = some n := by
  unfold maxMantissa at hle
  exact if_pos ⟨by omega, by omega⟩

theorem checkedI128_pow {places : ℕ} (h : places ≤ maxScale) :
    checkedI128 (10 ^ places) = some (10 ^ places) := by
  refine checkedI128_of_le (by positivity) ?_
  have hle : (10 : ℤ) ^ places ≤ 10 ^ maxScale := pow_le_pow_right₀ (by norm_num) h
  exact hle.trans (by decide)

/-- In mantissas of the finer scale. -/
theorem commonStep_eq (a b : Fitted) : commonStep a b =
    (checkedI128 (mantissaIn a.toScaled (max a.scale b.scale))).bind fun x =>
      (checkedI128 (mantissaIn b.toScaled (max a.scale b.scale))).bind fun y =>
        (checkedI128 (x.tdiv (euclid x y) * y)).bind fun lcm =>
          (tryFromI128WithScale lcm (max a.scale b.scale)).map Fitted.normalize := by
  have hmax : max a.scale b.scale ≤ maxScale := max_le a.fits.2 b.fits.2
  unfold commonStep
  dsimp only
  rw [checkedI128_pow ((Nat.sub_le _ _).trans hmax), checkedI128_pow ((Nat.sub_le _ _).trans hmax)]
  rfl

theorem lcm_eq {x y : ℤ} (hx : 0 < x) (hy : 0 < y) : x.tdiv (euclid x y) * y = Int.lcm x y := by
  rw [euclid_eq_gcd hx.le hy.le]
  have hgcd : (0 : ℤ) < Int.gcd x y := by exact_mod_cast Int.gcd_pos_of_ne_zero_left y hx.ne'
  obtain ⟨part, hpart⟩ := Int.gcd_dvd_left x y
  have hproduct : (Int.gcd x y : ℤ) * Int.lcm x y = x * y := by
    have habs : ((Int.gcd x y * Int.lcm x y : ℕ) : ℤ) = (x * y).natAbs := by
      rw [Int.gcd_mul_lcm, Int.natAbs_mul]
    rw [Int.natAbs_of_nonneg (mul_nonneg hx.le hy.le)] at habs
    exact_mod_cast habs
  have hdiv : x.tdiv (Int.gcd x y) = part := by
    have hcancel := Int.mul_tdiv_cancel_left part hgcd.ne'
    rwa [← hpart] at hcancel
  rw [hdiv]
  refine mul_left_cancel₀ hgcd.ne' ?_
  rw [hproduct, ← mul_assoc, ← hpart]

/-- There is a common step where its mantissa, in the places of the finer, fits. -/
theorem commonStep_spec {a b : Fitted} (ha : 0 < a.mantissa) (hb : 0 < b.mantissa) :
    ((sharedStep a.toScaled b.toScaled).Fits → ∃ c, commonStep a b = some c ∧
      c.value = (sharedStep a.toScaled b.toScaled).value) ∧
    (¬ (sharedStep a.toScaled b.toScaled).Fits → commonStep a b = none) := by
  have hx := mantissaIn_pos ha (max a.scale b.scale)
  have hy := mantissaIn_pos hb (max a.scale b.scale)
  have hlcm := lcm_eq hx hy
  rw [commonStep_eq]
  constructor
  · intro hfits
    have hbound : (Int.lcm (mantissaIn a.toScaled (max a.scale b.scale))
        (mantissaIn b.toScaled (max a.scale b.scale)) : ℤ) ≤ maxMantissa :=
      (le_abs_self _).trans hfits.1
    have hpositive : (0 : ℤ) < Int.lcm (mantissaIn a.toScaled (max a.scale b.scale))
        (mantissaIn b.toScaled (max a.scale b.scale)) := by
      exact_mod_cast Int.lcm_pos hx.ne' hy.ne'
    have hxle := (Int.le_of_dvd hpositive (Int.dvd_lcm_left _ _)).trans hbound
    have hyle := (Int.le_of_dvd hpositive (Int.dvd_lcm_right _ _)).trans hbound
    refine ⟨Fitted.normalize ⟨sharedStep a.toScaled b.toScaled, hfits⟩, ?_, ?_⟩
    · rw [checkedI128_of_le hx.le hxle, Option.bind_some, checkedI128_of_le hy.le hyle,
        Option.bind_some, hlcm, checkedI128_of_le hpositive.le hbound, Option.bind_some]
      have hheld : tryFromI128WithScale (Int.lcm (mantissaIn a.toScaled (max a.scale b.scale))
          (mantissaIn b.toScaled (max a.scale b.scale))) (max a.scale b.scale) =
          some ⟨sharedStep a.toScaled b.toScaled, hfits⟩ := dif_pos hfits
      rw [hheld]
      rfl
    · exact Fitted.value_normalize _
  · intro hfits
    have hrefused : tryFromI128WithScale (Int.lcm (mantissaIn a.toScaled (max a.scale b.scale))
        (mantissaIn b.toScaled (max a.scale b.scale))) (max a.scale b.scale) = none := dif_neg hfits
    obtain hnone | hsome := checkedI128_cases (mantissaIn a.toScaled (max a.scale b.scale))
    · rw [hnone]
      rfl
    rw [hsome, Option.bind_some]
    obtain hnone | hsome := checkedI128_cases (mantissaIn b.toScaled (max a.scale b.scale))
    · rw [hnone]
      rfl
    rw [hsome, Option.bind_some, hlcm]
    obtain hnone | hsome := checkedI128_cases (Int.lcm
      (mantissaIn a.toScaled (max a.scale b.scale)) (mantissaIn b.toScaled (max a.scale b.scale)))
    · rw [hnone]
      rfl
    rw [hsome, Option.bind_some, hrefused]
    rfl

end

/-! ## A quantity's rules -/

namespace OrderRules

open Scaled

/-- The step a quantity must be a multiple of: the rules' own, or the least common multiple of the
two of a market order, in the places of the finer. -/
def sharedGrid (self : OrderRules) (kind : OrderKind) : Option Scaled :=
  match self.quantity.grid, if kind = .market then self.marketQuantity.grid else none with
  | some a, some b => some (sharedStep a.toScaled b.toScaled)
  | some a, none => some a.toScaled
  | none, some b => some b.toScaled
  | none, none => none

variable {arithmetic : DecimalArithmetic} {self : OrderRules} {kind : OrderKind}

theorem mantissa_pos {rule : ValueRule} {step : Fitted} (h : rule.grid = some step) :
    0 < step.mantissa := of_decide_eq_true (Option.filter_eq_some_iff.mp h).2

/-- A value is refused for its precision where it is off the grid. -/
theorem check_grid {rule : ValueRule} {field : OrderField} {value : Fitted} :
    (∀ violation, rule.check arithmetic field value ≠ .error (.invalidPrecision violation)) ↔
      ∀ step, rule.grid = some step → OnGrid step.value value.value := by
  unfold ValueRule.check
  cases hgrid : rule.grid with
  | none =>
    refine iff_of_true (fun violation => ?_) fun _ h => nomatch h
    rw [Option.filter_none]
    dsimp only
    split
    · exact fun h => nomatch h
    · split
      · exact fun h => nomatch h
      · exact fun h => nomatch h
  | some step =>
    have hstep := grid_positive hgrid
    by_cases hon : OnGrid step.value value.value
    · have hzero : (arithmetic.rem value step).isZero = true := (rem_isZero_iff hstep).mpr hon
      refine iff_of_true (fun violation => ?_) fun other hother => ?_
      · rw [Option.filter_some_neg (by rw [hzero]; decide)]
        dsimp only
        split
        · exact fun h => nomatch h
        · split
          · exact fun h => nomatch h
          · exact fun h => nomatch h
      · cases hother
        exact hon
    · have hzero : (arithmetic.rem value step).isZero = false := by
        rw [← Bool.not_eq_true, rem_isZero_iff hstep]
        exact hon
      refine iff_of_false (fun h => ?_) fun h => hon (h step rfl)
      rw [Option.filter_some_pos (by rw [hzero]; rfl)] at h
      exact h _ rfl

theorem passes_iff {quantity : Fitted} : self.Passes arithmetic kind quantity ↔
    ∀ step, self.sharedGrid kind = some step → OnGrid step.value quantity.value := by
  have hrules : self.Passes arithmetic kind quantity ↔ ∀ rule ∈ self.quantityRules kind,
      ∀ step, rule.grid = some step → OnGrid step.value quantity.value :=
    forall₂_congr fun _ _ => check_grid
  rw [hrules]
  unfold quantityRules sharedGrid
  by_cases hmarket : kind = .market
  · rw [if_pos hmarket, if_pos hmarket]
    simp only [List.forall_mem_cons, List.not_mem_nil, false_implies, implies_true, and_true]
    cases self.quantity.grid with
    | none =>
      cases self.marketQuantity.grid with
      | none => simp
      | some b => simp
    | some a =>
      cases self.marketQuantity.grid with
      | none => simp
      | some b =>
        simp only [Option.some.injEq, forall_eq']
        exact onGrid_sharedStep.symm
  · rw [if_neg hmarket, if_neg hmarket]
    simp only [List.forall_mem_singleton]
    cases self.quantity.grid with
    | none => simp
    | some a => simp

/-- A quantity the check lets by passes every grid check. -/
theorem passes_of_checkQuantity {quantity : Fitted}
    (h : self.checkQuantity arithmetic kind quantity = .ok ()) :
    self.Passes arithmetic kind quantity := by
  obtain ⟨⟨⟩, hfirst, hsecond⟩ := Except.bind_eq_ok.mp h
  intro rule hrule violation hviolation
  unfold quantityRules at hrule
  by_cases hmarket : kind = .market
  · rw [if_pos hmarket] at hrule hsecond
    obtain rfl | hrule := List.mem_cons.mp hrule
    · rw [hviolation] at hfirst
      cases hfirst
    · rw [List.mem_singleton.mp hrule, hsecond] at hviolation
      cases hviolation
  · rw [if_neg hmarket] at hrule
    rw [List.mem_singleton.mp hrule, hfirst] at hviolation
    cases hviolation

/-- The step it rounds to: none where a decimal cannot hold it in the places of the finer. -/
theorem quantityGrid_spec (self : OrderRules) (kind : OrderKind) :
    (self.sharedGrid kind = none → self.quantityGrid kind = some none) ∧
    ∀ step, self.sharedGrid kind = some step →
      (step.Fits → ∃ held : Fitted, self.quantityGrid kind = some (some held) ∧
        held.value = step.value ∧ 0 < held.value) ∧
      (¬ step.Fits → self.quantityGrid kind = none) := by
  have hsingle {rule : ValueRule} {a : Fitted} (hgrid : rule.grid = some a)
      (heq : self.quantityGrid kind = some (some a)) :
      (a.toScaled.Fits → ∃ held : Fitted, self.quantityGrid kind = some (some held) ∧
        held.value = a.value ∧ 0 < held.value) ∧
      (¬ a.toScaled.Fits → self.quantityGrid kind = none) :=
    ⟨fun _ => ⟨a, heq, rfl, grid_positive hgrid⟩, fun h => absurd a.fits h⟩
  by_cases hmarket : kind = .market
  · have hgrid : self.quantityGrid kind = match self.quantity.grid, self.marketQuantity.grid with
        | some a, some b => (commonStep a b).map some
        | step, none | none, step => some step := if_neg (not_not.mpr hmarket)
    unfold sharedGrid
    rw [if_pos hmarket]
    cases ha : self.quantity.grid with
    | none =>
      cases hb : self.marketQuantity.grid with
      | none =>
        rw [ha, hb] at hgrid
        exact ⟨fun _ => hgrid, fun _ h => nomatch h⟩
      | some b =>
        rw [ha, hb] at hgrid
        refine ⟨fun h => (nomatch h), fun step h => ?_⟩
        cases h
        exact hsingle hb hgrid
    | some a =>
      cases hb : self.marketQuantity.grid with
      | none =>
        rw [ha, hb] at hgrid
        refine ⟨fun h => (nomatch h), fun step h => ?_⟩
        cases h
        exact hsingle ha hgrid
      | some b =>
        rw [ha, hb] at hgrid
        refine ⟨fun h => (nomatch h), fun step h => ?_⟩
        cases h
        have hcommon : self.quantityGrid kind = (commonStep a b).map some := hgrid
        obtain ⟨hheld, hnone⟩ := commonStep_spec (mantissa_pos ha) (mantissa_pos hb)
        refine ⟨fun hfits => ?_, fun hfits => ?_⟩
        · obtain ⟨held, hstep, hvalue⟩ := hheld hfits
          refine ⟨held, ?_, hvalue, ?_⟩
          · rw [hcommon, hstep]
            rfl
          · rw [hvalue]
            exact sharedStep_pos (mantissa_pos ha) (mantissa_pos hb)
        · rw [hcommon, hnone hfits]
          rfl
  · have hgrid : self.quantityGrid kind = some self.quantity.grid := if_pos hmarket
    unfold sharedGrid
    rw [if_neg hmarket, hgrid]
    cases ha : self.quantity.grid with
    | none => exact ⟨fun _ => rfl, fun _ h => nomatch h⟩
    | some a =>
      refine ⟨fun h => (nomatch h), fun step h => ?_⟩
      cases h
      rw [← ha, ← hgrid]
      exact hsingle ha (hgrid.trans (congrArg some ha))

/-! ## Rounding and the check -/

section

variable (arithmetic self kind) (quantity : Fitted)

/-- Rounding down agrees with the check: what it gives is the largest quantity that passes, is given
again for itself, and is the quantity where that passes; and it gives one where a decimal can hold
both the step and the result. -/
def DownAgrees : Prop :=
  (∀ r, self.roundQuantityDown arithmetic kind quantity = some r →
    IsLargestBelow (self.Passes arithmetic kind) quantity r ∧
      self.roundQuantityDown arithmetic kind r = some r ∧
      (self.Passes arithmetic kind quantity → r = quantity)) ∧
  ((∀ step, self.sharedGrid kind = some step →
      Holds step.value ∧ Holds (below step.value quantity.value)) →
    (self.roundQuantityDown arithmetic kind quantity).isSome = true)

/-- Rounding up likewise, with the smallest. -/
def UpAgrees : Prop :=
  (∀ r, self.roundQuantityUp arithmetic kind quantity = some r →
    IsSmallestAbove (self.Passes arithmetic kind) quantity r ∧
      self.roundQuantityUp arithmetic kind r = some r ∧
      (self.Passes arithmetic kind quantity → r = quantity)) ∧
  ((∀ step, self.sharedGrid kind = some step →
      Holds step.value ∧ Holds (above step.value quantity.value)) →
    (self.roundQuantityUp arithmetic kind quantity).isSome = true)

/-- The step has few enough digits in the places of the finer rule, or a decimal holds neither it nor
a result; and the multiple away from zero, if a decimal holds it, is not reached from one halfway
between two decimals that it is an odd number of units from zero by. -/
def Unmissed : Prop :=
  ∀ step, self.sharedGrid kind = some step →
    (¬ step.Fits → Holds step.value →
      ¬ Holds (below step.value quantity.value) ∧ ¬ Holds (above step.value quantity.value)) ∧
    (step.Fits →
      (quantity.value < 0 → Holds (below step.value quantity.value) →
        ¬ OddTie (above step.value quantity.value) (below step.value quantity.value)) ∧
      (0 < quantity.value → Holds (above step.value quantity.value) →
        ¬ OddTie (below step.value quantity.value) (above step.value quantity.value)))

end

theorem agrees_of_no_grid {quantity : Fitted} (h : self.sharedGrid kind = none) :
    self.DownAgrees arithmetic kind quantity ∧ self.UpAgrees arithmetic kind quantity := by
  have hgrid := (quantityGrid_spec self kind).1 h
  have hdown (quantity : Fitted) :
      self.roundQuantityDown arithmetic kind quantity = some quantity := by
    unfold roundQuantityDown
    rw [hgrid]
    rfl
  have hup (quantity : Fitted) : self.roundQuantityUp arithmetic kind quantity = some quantity := by
    unfold roundQuantityUp
    rw [hgrid]
    rfl
  have hpasses (y : Fitted) : self.Passes arithmetic kind y :=
    passes_iff.mpr fun step hstep => by
      rw [h] at hstep
      cases hstep
  refine ⟨⟨fun r hr => ?_, fun _ => ?_⟩, fun r hr => ?_, fun _ => ?_⟩
  · rw [hdown] at hr
    cases hr
    exact ⟨⟨le_rfl, hpasses _, fun _ _ hle => hle⟩, hdown _, fun _ => rfl⟩
  · rw [hdown]
    rfl
  · rw [hup] at hr
    cases hr
    exact ⟨⟨le_rfl, hpasses _, fun _ _ hle => hle⟩, hup _, fun _ => rfl⟩
  · rw [hup]
    rfl

/-- With a step a decimal holds in the places of the finer rule, rounding is rounding to it. -/
theorem agrees_iff_of_held (arithmetic : DecimalArithmetic) (quantity : Fitted) {held : Fitted} {step : Scaled}
    (h : self.sharedGrid kind = some step) (hgrid : self.quantityGrid kind = some (some held))
    (hvalue : held.value = step.value) (hpositive : 0 < held.value) :
    (self.DownAgrees arithmetic kind quantity ↔
      (quantity.value < 0 → Holds (below step.value quantity.value) →
        ¬ OddTie (above step.value quantity.value) (below step.value quantity.value))) ∧
    (self.UpAgrees arithmetic kind quantity ↔
      (0 < quantity.value → Holds (above step.value quantity.value) →
        ¬ OddTie (below step.value quantity.value) (above step.value quantity.value))) := by
  have hdown (quantity : Fitted) : self.roundQuantityDown arithmetic kind quantity =
      roundDownTo arithmetic quantity (some held) := by
    unfold roundQuantityDown
    rw [hgrid]
    rfl
  have hup (quantity : Fitted) : self.roundQuantityUp arithmetic kind quantity =
      roundUpTo arithmetic quantity (some held) := by
    unfold roundQuantityUp
    rw [hgrid]
    rfl
  have hpasses : self.Passes arithmetic kind = fun y => OnGrid held.value y.value := by
    funext y
    rw [eq_iff_iff, passes_iff, h, hvalue]
    simp only [Option.some.injEq, forall_eq']
  rw [← hvalue, ← roundDownTo_iff arithmetic hpositive,
    ← roundUpTo_iff arithmetic hpositive]
  unfold DownAgrees UpAgrees
  rw [h, hdown, hup, hpasses]
  simp only [Option.some.injEq, forall_eq', ← hvalue, held.holds, true_and]
  refine ⟨and_congr_left' (forall₂_congr fun r hr => and_iff_left_of_imp fun hlargest => ?_),
    and_congr_left' (forall₂_congr fun r hr => and_iff_left_of_imp fun hsmallest => ?_)⟩
  · refine ⟨?_, fun hon => ?_⟩
    · rw [hdown, roundDownTo_of_onGrid hpositive hlargest.2.1]
    · rw [roundDownTo_of_onGrid hpositive hon] at hr
      exact (Option.some.inj hr).symm
  · refine ⟨?_, fun hon => ?_⟩
    · rw [hup, roundUpTo_of_onGrid hpositive hsmallest.2.1]
    · rw [roundUpTo_of_onGrid hpositive hon] at hr
      exact (Option.some.inj hr).symm

/-- Rounding a quantity agrees with the check of it exactly where neither the shared step nor the
result is missed. -/
theorem rounding_agrees_iff (arithmetic : DecimalArithmetic) (rules : OrderRules)
    (kind : OrderKind) (quantity : Fitted) :
    (rules.DownAgrees arithmetic kind quantity ∧ rules.UpAgrees arithmetic kind quantity) ↔
      rules.Unmissed kind quantity := by
  cases hshared : rules.sharedGrid kind with
  | none =>
    refine iff_of_true (agrees_of_no_grid hshared) fun step hstep => ?_
    rw [hshared] at hstep
    cases hstep
  | some step =>
    obtain ⟨hheld, hnone⟩ := (quantityGrid_spec rules kind).2 step hshared
    have hunmissed : rules.Unmissed kind quantity ↔
        (¬ step.Fits → Holds step.value →
          ¬ Holds (below step.value quantity.value) ∧
            ¬ Holds (above step.value quantity.value)) ∧
        (step.Fits →
          (quantity.value < 0 → Holds (below step.value quantity.value) →
            ¬ OddTie (above step.value quantity.value) (below step.value quantity.value)) ∧
          (0 < quantity.value → Holds (above step.value quantity.value) →
            ¬ OddTie (below step.value quantity.value) (above step.value quantity.value))) := by
      unfold Unmissed
      rw [hshared]
      simp only [Option.some.injEq, forall_eq']
    rw [hunmissed]
    by_cases hfits : step.Fits
    · obtain ⟨held, hgrid, hvalue, hpositive⟩ := hheld hfits
      obtain ⟨hdown, hup⟩ :=
        agrees_iff_of_held arithmetic quantity hshared hgrid hvalue hpositive
      rw [hdown, hup]
      exact ⟨fun h => ⟨fun hnot => absurd hfits hnot, fun _ => h⟩, fun h => h.2 hfits⟩
    · have hgrid := hnone hfits
      have hdown : rules.roundQuantityDown arithmetic kind quantity = none := by
        unfold roundQuantityDown
        rw [hgrid]
        rfl
      have hup : rules.roundQuantityUp arithmetic kind quantity = none := by
        unfold roundQuantityUp
        rw [hgrid]
        rfl
      unfold DownAgrees UpAgrees
      rw [hdown, hup, hshared]
      simp only [reduceCtorEq, Option.isSome_none, Option.some.injEq, forall_eq', false_implies,
        implies_true, true_and]
      constructor
      · rintro ⟨hbelow, habove⟩
        exact ⟨fun _ hstep => ⟨fun hlow => absurd (hbelow ⟨hstep, hlow⟩) (by decide),
          fun hhigh => absurd (habove ⟨hstep, hhigh⟩) (by decide)⟩, fun h => absurd h hfits⟩
      · rintro ⟨hmissed, -⟩
        exact ⟨fun ⟨hstep, hlow⟩ => absurd hlow (hmissed hfits hstep).1,
          fun ⟨hstep, hhigh⟩ => absurd hhigh (hmissed hfits hstep).2⟩

/-- A rule with a step and no range. -/
def stepped (mantissa : ℤ) (scale : ℕ) (h : Scaled.Fits ⟨mantissa, scale⟩) : ValueRule :=
  ⟨none, none, some ⟨⟨mantissa, scale⟩, h⟩⟩

/-- A hundredth and `10 ^ 27` share the grid of `10 ^ 27`, which takes too many digits in hundredths:
nothing is rounded to it. The multiple of a half of five above is an odd number, and the one below
halfway between two: it is not found. -/
theorem rounding_misses :
    ¬ (⟨stepped 1 2 (by decide), stepped (10 ^ 27) 0 (by decide)⟩ : OrderRules).DownAgrees
      .documented .market ⟨⟨25 * 10 ^ 26, 0⟩, by decide⟩ ∧
    ¬ (⟨stepped 25 1 (by decide), ⟨none, none, none⟩⟩ : OrderRules).UpAgrees
      .documented .limit ⟨⟨25 * 10 ^ 27 + 4, 0⟩, by decide⟩ := by
  constructor
  · rintro ⟨-, hsome⟩
    have hnone := (quantityGrid_spec ⟨stepped 1 2 (by decide), stepped (10 ^ 27) 0 (by decide)⟩
      .market).2 ⟨10 ^ 29, 2⟩ (by decide +kernel)
    have hmissed := hnone.2 (by decide)
    unfold roundQuantityDown at hsome
    rw [hmissed] at hsome
    refine absurd (hsome fun step hstep => ?_) (by decide)
    have hshared : step = ⟨10 ^ 29, 2⟩ := by
      have hvalue : (some step : Option Scaled) = some ⟨10 ^ 29, 2⟩ :=
        hstep.symm.trans (by decide +kernel)
      exact Option.some.inj hvalue
    subst hshared
    exact ⟨⟨⟨10 ^ 27, 0⟩, by decide, by decide +kernel⟩, ⟨2 * 10 ^ 27, 0⟩, by decide,
      by decide +kernel⟩
  · rintro ⟨-, hsome⟩
    refine absurd (hsome fun step hstep => ?_) (by decide +kernel)
    have hshared : step = ⟨25, 1⟩ := by
      have hvalue : (some step : Option Scaled) = some ⟨25, 1⟩ := hstep.symm.trans (by decide +kernel)
      exact Option.some.inj hvalue
    subst hshared
    exact ⟨⟨⟨25, 1⟩, by decide, rfl⟩, ⟨25 * 10 ^ 27 + 5, 0⟩, by decide, by decide +kernel⟩

end OrderRules

end Rustrade
