import Mathlib.Data.Nat.Log
import Rustrade.Lib.Rounding

/-!
# Precision of an order's numbers

A size has at most so many places. A price that is no integer has at most five significant
figures as well as a limit of places. Rounding a number brings it to the closest one, on the side
its strategy asks for, that the check lets pass.
-/

set_option autoImplicit false

namespace Rustrade.Hyperliquid

/-! ## The rules -/

structure OrderPrecision where
  szDecimals : ℕ
  maxDecimals : ℕ

def perpMaxDecimals : ℕ := 6

def spotMaxDecimals : ℕ := 8

inductive OrderField where
  | quantity
  | price
  | triggerPrice
  | trailingOffset
  | notional
  deriving DecidableEq

inductive PrecisionLimit where
  | decimalPlaces (max : ℕ)
  | significantFigures (max : ℕ)
  | notRepresentable
  | notPositive
  | notOnGrid (step : Scaled)
  deriving DecidableEq

structure PrecisionViolation where
  field : OrderField
  value : Scaled
  limit : PrecisionLimit
  deriving DecidableEq

/-- The digits of the mantissa. -/
def significantDigits (value : Scaled) : ℕ := Nat.log 10 value.mantissa.natAbs + 1

namespace OrderPrecision

def maxSignificantFigures : ℕ := 5

def perp (szDecimals : ℕ) : OrderPrecision := ⟨szDecimals, perpMaxDecimals⟩

def spot (baseSzDecimals : ℕ) : OrderPrecision := ⟨baseSzDecimals, spotMaxDecimals⟩

variable (precision : OrderPrecision)

def quantityDecimals : ℕ := precision.szDecimals

def priceDecimals : ℕ := precision.maxDecimals - precision.szDecimals

section Check

-- `to_wire` makes the number the SDK takes, if it would send the value unchanged.
variable {Wire : Type} (toWire : Scaled → Option Wire)

def wireQuantity (quantity : Scaled) : Except PrecisionViolation Wire :=
  let violation := PrecisionViolation.mk .quantity quantity
  if quantity.mantissa ≤ 0 then .error (violation .notPositive)
  else if precision.quantityDecimals < quantity.normalize.scale then
    .error (violation (.decimalPlaces precision.quantityDecimals))
  else
    match toWire quantity with
    | some float => .ok float
    | none => .error (violation .notRepresentable)

def wirePrice (field : OrderField) (price : Scaled) : Except PrecisionViolation Wire :=
  let violation := PrecisionViolation.mk field price
  let normalized := price.normalize
  if price.mantissa ≤ 0 then .error (violation .notPositive)
  else if 0 < normalized.scale ∧ precision.priceDecimals < normalized.scale then
    .error (violation (.decimalPlaces precision.priceDecimals))
  else if 0 < normalized.scale ∧ maxSignificantFigures < significantDigits normalized then
    .error (violation (.significantFigures maxSignificantFigures))
  else
    match toWire price with
    | some float => .ok float
    | none => .error (violation .notRepresentable)

def checkQuantity (quantity : Scaled) : Except PrecisionViolation Unit :=
  (precision.wireQuantity toWire quantity).map fun _ => ()

def checkPrice (price : Scaled) : Except PrecisionViolation Unit :=
  (precision.wirePrice toWire .price price).map fun _ => ()

end Check

section Round

variable (rounding : Rounding)

def roundQuantity (quantity : Scaled) (strategy : RoundingStrategy) : Scaled :=
  (rounding.roundDp quantity precision.quantityDecimals strategy).normalize

def roundPrice (price : Scaled) (strategy : RoundingStrategy) : Scaled :=
  let price := price.normalize
  if price.scale = 0 then price
  else
    let significant := price.scale + maxSignificantFigures - significantDigits price
    (rounding.roundDp price (min significant precision.priceDecimals) strategy).normalize

end Round

/-! ## What the rules ask -/

/-- The rule of decimal places, whatever the sign. -/
def MeetsQuantity (quantity : Scaled) : Prop :=
  quantity.normalize.scale ≤ precision.quantityDecimals

def MeetsPrice (price : Scaled) : Prop :=
  price.normalize.scale = 0 ∨ (price.normalize.scale ≤ precision.priceDecimals ∧
    significantDigits price.normalize ≤ maxSignificantFigures)

/-- The check refuses a number for nothing but its sign or the number the SDK takes. -/
def Passes (check : Except PrecisionViolation Unit) : Prop :=
  ∀ violation, check = .error violation →
    violation.limit = .notPositive ∨ violation.limit = .notRepresentable

variable {precision}

theorem passes_quantity_iff {Wire : Type} (toWire : Scaled → Option Wire) {quantity : Scaled}
    (hpositive : 0 < quantity.mantissa) :
    Passes (precision.checkQuantity toWire quantity) ↔ precision.MeetsQuantity quantity := by
  unfold Passes checkQuantity wireQuantity MeetsQuantity
  simp only [not_le.mpr hpositive, if_false]
  by_cases hplaces : precision.quantityDecimals < quantity.normalize.scale
  · simp [hplaces, not_le.mpr hplaces, Except.map]
  · simp only [hplaces, if_false, not_lt.mp hplaces, iff_true]
    cases toWire quantity with
    | some float => simp [Except.map]
    | none => simp [Except.map]

theorem passes_price_iff {Wire : Type} (toWire : Scaled → Option Wire) {price : Scaled}
    (hpositive : 0 < price.mantissa) :
    Passes (precision.checkPrice toWire price) ↔ precision.MeetsPrice price := by
  unfold Passes checkPrice wirePrice MeetsPrice
  simp only [not_le.mpr hpositive, if_false]
  by_cases hzero : price.normalize.scale = 0
  · simp only [hzero, Nat.lt_irrefl, false_and, if_false, true_or, iff_true]
    cases toWire price with
    | some float => simp [Except.map]
    | none => simp [Except.map]
  · have hscale := Nat.pos_of_ne_zero hzero
    by_cases hplaces : precision.priceDecimals < price.normalize.scale
    · simp [hplaces, hscale, hzero, not_le.mpr hplaces, Except.map]
    · by_cases hdigits : maxSignificantFigures < significantDigits price.normalize
      · simp [hplaces, hscale, hzero, hdigits, not_le.mpr hdigits, Except.map]
      · simp only [hplaces, hdigits, and_false, if_false, not_lt.mp hplaces, not_lt.mp hdigits,
          and_self, or_true, iff_true]
        cases toWire price with
        | some float => simp [Except.map]
        | none => simp [Except.map]

/-- A check of a number that is not positive names only that. -/
theorem passes_of_meets_quantity {Wire : Type} (toWire : Scaled → Option Wire)
    {quantity : Scaled} (h : precision.MeetsQuantity quantity) :
    Passes (precision.checkQuantity toWire quantity) := by
  by_cases hpositive : 0 < quantity.mantissa
  · exact (passes_quantity_iff toWire hpositive).mpr h
  · unfold Passes checkQuantity wireQuantity
    simp [not_lt.mp hpositive, Except.map]

theorem passes_of_meets_price {Wire : Type} (toWire : Scaled → Option Wire) {price : Scaled}
    (h : precision.MeetsPrice price) : Passes (precision.checkPrice toWire price) := by
  by_cases hpositive : 0 < price.mantissa
  · exact (passes_price_iff toWire hpositive).mpr h
  · unfold Passes checkPrice wirePrice
    simp [not_lt.mp hpositive, Except.map]

end OrderPrecision

/-! ## Quantities -/

namespace OrderPrecision

variable {precision : OrderPrecision} {rounding : Rounding}

theorem meetsQuantity_iff {quantity : Scaled} : precision.MeetsQuantity quantity ↔
    OnGrid (Scaled.unit precision.quantityDecimals) quantity.value :=
  Scaled.normalize_scale_le_iff

theorem closest_roundQuantity {v : Scaled} (hpositive : 0 < v.value)
    (strategy : RoundingStrategy) :
    Closest precision.MeetsQuantity v.value strategy
      (precision.roundQuantity rounding v strategy) := by
  have hcoarse : Coarse precision.MeetsQuantity precision.quantityDecimals v.value :=
    fun x hx => .inl (meetsQuantity_iff.mp hx)
  have hmeets : precision.MeetsQuantity (precision.roundQuantity rounding v strategy) := by
    rw [meetsQuantity_iff, roundQuantity, Scaled.value_normalize]
    exact rounding.onGrid v precision.quantityDecimals strategy
  exact closest_of_coarse hpositive hcoarse hmeets (Scaled.value_normalize _)

theorem roundQuantity_of_meets {v : Scaled} (h : precision.MeetsQuantity v)
    (strategy : RoundingStrategy) : (precision.roundQuantity rounding v strategy).value = v.value := by
  unfold roundQuantity
  rw [Scaled.value_normalize]
  exact Rounding.value_of_onGrid (meetsQuantity_iff.mp h) strategy

/-! ## Prices -/

theorem significantDigits_le_iff {x : Scaled} :
    significantDigits x ≤ maxSignificantFigures ↔ x.mantissa.natAbs < 10 ^ 5 := by
  unfold significantDigits maxSignificantFigures
  rw [Nat.succ_le_iff]
  by_cases hzero : x.mantissa.natAbs = 0
  · simp [hzero]
  · exact Nat.log_lt_iff_lt_pow (by decide) hzero

/-- Places of a price that is no integer. -/
def pricePlaces (precision : OrderPrecision) (price : Scaled) : ℕ :=
  min (price.normalize.scale + maxSignificantFigures - significantDigits price.normalize)
    precision.priceDecimals

theorem value_roundPrice {v : Scaled} (hscale : ¬ v.normalize.scale = 0)
    (strategy : RoundingStrategy) : (precision.roundPrice rounding v strategy).value =
      (rounding.roundDp v.normalize (precision.pricePlaces v) strategy).value := by
  unfold roundPrice
  dsimp only
  rw [if_neg hscale, Scaled.value_normalize]
  rfl

theorem roundPrice_of_meets {v : Scaled} (h : precision.MeetsPrice v)
    (strategy : RoundingStrategy) : (precision.roundPrice rounding v strategy).value = v.value := by
  by_cases hscale : v.normalize.scale = 0
  · unfold roundPrice
    simp [hscale]
  · obtain hzero | ⟨hplaces, hdigits⟩ := h
    · exact absurd hzero hscale
    · rw [value_roundPrice hscale, Rounding.value_of_onGrid, Scaled.value_normalize]
      refine Scaled.onGrid_of_le ?_
      unfold pricePlaces
      omega

theorem mantissa_pos {x : Scaled} (h : 0 < x.value) : 0 < x.mantissa := by
  unfold Scaled.value at h
  have hpow : (0 : ℚ) < 10 ^ x.scale := by positivity
  have hcast : (0 : ℚ) < x.mantissa := by
    by_contra hle
    exact absurd h (not_lt.mpr (div_nonpos_of_nonpos_of_nonneg (not_lt.mp hle) hpow.le))
  exact_mod_cast hcast

/-- The digits of a mantissa, as powers around it. -/
theorem digits_bounds {x : Scaled} (h : 0 < x.value) :
    10 ^ (significantDigits x - 1) ≤ x.mantissa.natAbs ∧
      x.mantissa.natAbs < 10 ^ significantDigits x ∧ 1 ≤ significantDigits x := by
  have hne : x.mantissa.natAbs ≠ 0 := Int.natAbs_ne_zero.mpr (mantissa_pos h).ne'
  unfold significantDigits
  exact ⟨Nat.pow_log_le_self 10 hne, Nat.lt_pow_succ_log_self (by decide) _, Nat.le_add_left 1 _⟩

theorem value_eq_natAbs {x : Scaled} (h : 0 < x.value) :
    x.value = (x.mantissa.natAbs : ℚ) / 10 ^ x.scale := by
  have habs : ((x.mantissa.natAbs : ℤ) : ℚ) = x.mantissa := by
    rw [Int.natAbs_of_nonneg (mantissa_pos h).le]
  unfold Scaled.value
  rw [← habs, Int.cast_natCast]

theorem onGrid_tens (digits places : ℕ) :
    OnGrid (Scaled.unit places) (10 ^ digits * Scaled.unit places) :=
  ⟨10 ^ digits, by push_cast; rfl⟩

/-- Where the figures bind, the price has five digits down to the last place kept. -/
theorem tens_le_value {v : Scaled} (hpositive : 0 < v.value)
    (hfigures : precision.pricePlaces v < precision.priceDecimals) :
    10 ^ 4 * Scaled.unit (precision.pricePlaces v) ≤ v.value := by
  rw [← Scaled.value_normalize v] at hpositive ⊢
  obtain ⟨hlow, -, hone⟩ := digits_bounds hpositive
  have hplaces : 4 + v.normalize.scale ≤
      significantDigits v.normalize - 1 + precision.pricePlaces v := by
    unfold pricePlaces maxSignificantFigures at hfigures ⊢
    omega
  have hnat : 10 ^ 4 * 10 ^ v.normalize.scale ≤
      v.normalize.mantissa.natAbs * 10 ^ precision.pricePlaces v := by
    rw [← pow_add]
    calc 10 ^ (4 + v.normalize.scale)
        ≤ 10 ^ (significantDigits v.normalize - 1 + precision.pricePlaces v) :=
          Nat.pow_le_pow_right (by decide) hplaces
      _ = 10 ^ (significantDigits v.normalize - 1) * 10 ^ precision.pricePlaces v := pow_add ..
      _ ≤ _ := Nat.mul_le_mul_right _ hlow
  have hrat : (10 : ℚ) ^ 4 * 10 ^ v.normalize.scale ≤
      v.normalize.mantissa.natAbs * 10 ^ precision.pricePlaces v := by exact_mod_cast hnat
  rw [value_eq_natAbs hpositive, Scaled.unit, mul_one_div]
  exact (div_le_div_iff₀ (by positivity) (by positivity)).mpr hrat

theorem value_le_tens {v : Scaled} (hpositive : 0 < v.value)
    (hplaces : 0 < precision.pricePlaces v) :
    v.value ≤ 10 ^ 5 * Scaled.unit (precision.pricePlaces v) := by
  rw [← Scaled.value_normalize v] at hpositive ⊢
  obtain ⟨-, hhigh, -⟩ := digits_bounds hpositive
  have hfits : significantDigits v.normalize + precision.pricePlaces v ≤
      5 + v.normalize.scale := by
    unfold pricePlaces maxSignificantFigures at hplaces ⊢
    omega
  have hnat : v.normalize.mantissa.natAbs * 10 ^ precision.pricePlaces v ≤
      10 ^ 5 * 10 ^ v.normalize.scale := by
    rw [← pow_add]
    calc v.normalize.mantissa.natAbs * 10 ^ precision.pricePlaces v
        ≤ 10 ^ significantDigits v.normalize * 10 ^ precision.pricePlaces v :=
          Nat.mul_le_mul_right _ hhigh.le
      _ = 10 ^ (significantDigits v.normalize + precision.pricePlaces v) := (pow_add ..).symm
      _ ≤ _ := Nat.pow_le_pow_right (by decide) hfits
  have hrat : (v.normalize.mantissa.natAbs : ℚ) * 10 ^ precision.pricePlaces v ≤
      10 ^ 5 * 10 ^ v.normalize.scale := by exact_mod_cast hnat
  rw [value_eq_natAbs hpositive, Scaled.unit, mul_one_div]
  exact (div_le_div_iff₀ (by positivity) (by positivity)).mpr hrat

/-- A price with more places than are kept lies below what five figures allow. -/
theorem coarse_meetsPrice {v : Scaled} (hpositive : 0 < v.value) :
    Coarse precision.MeetsPrice (precision.pricePlaces v) v.value := by
  intro x hx
  by_cases hle : x.normalize.scale ≤ precision.pricePlaces v
  · exact .inl (Scaled.normalize_scale_le_iff.mp hle)
  · right
    have hlt := not_le.mp hle
    obtain hzero | ⟨hplaces, hdigits⟩ := hx
    · exact absurd (hzero ▸ Nat.zero_le _) hle
    · refine ⟨_, onGrid_tens 4 _, ?_, tens_le_value hpositive (hlt.trans_le hplaces)⟩
      have habs : x.normalize.mantissa < 10 ^ 5 := by
        have hnat := significantDigits_le_iff.mp hdigits
        omega
      have hcast : (x.normalize.mantissa : ℚ) < 10 ^ 5 := by exact_mod_cast habs
      obtain ⟨more, hmore⟩ := Nat.exists_eq_add_of_lt hlt
      rw [← Scaled.value_normalize x, Scaled.value, Scaled.unit, mul_one_div]
      calc (x.normalize.mantissa : ℚ) / 10 ^ x.normalize.scale
          < 10 ^ 5 / 10 ^ x.normalize.scale := div_lt_div_of_pos_right hcast (by positivity)
        _ ≤ 10 ^ 5 / 10 ^ (precision.pricePlaces v + 1) := by
          refine div_le_div_of_nonneg_left (by positivity) (by positivity) ?_
          exact pow_le_pow_right₀ (by norm_num) hlt
        _ = 10 ^ 4 / 10 ^ precision.pricePlaces v := by
          rw [pow_succ]
          field_simp
          ring

/-- A price rounded to the places kept meets the rules, a carry to one more digit included. -/
theorem meetsPrice_roundPrice {v : Scaled} (hpositive : 0 < v.value)
    (strategy : RoundingStrategy) :
    precision.MeetsPrice (precision.roundPrice rounding v strategy) := by
  by_cases hscale : v.normalize.scale = 0
  · -- An integer is returned as it is.
    have hvalue : precision.roundPrice rounding v strategy = v.normalize := by
      simp [roundPrice, hscale]
    left
    rw [hvalue, ← Nat.le_zero, Scaled.normalize_scale_le_iff, Scaled.value_normalize,
      ← Scaled.normalize_scale_le_iff, hscale]
  · have hvalue : (precision.roundPrice rounding v strategy).value =
        (rounding.roundDp v.normalize (precision.pricePlaces v) strategy).value :=
      value_roundPrice hscale strategy
    have hgrid := rounding.onGrid v.normalize (precision.pricePlaces v) strategy
    have hnear := abs_lt.mp (rounding.near v.normalize (precision.pricePlaces v) strategy)
    rw [← hvalue] at hgrid hnear
    rw [Scaled.value_normalize] at hnear
    generalize precision.roundPrice rounding v strategy = r at hgrid hnear
    clear hvalue
    have hplaces := Scaled.normalize_scale_le_iff.mpr hgrid
    by_cases hzero : r.normalize.scale = 0
    · exact .inl hzero
    · refine .inr ⟨hplaces.trans (min_le_right _ _), significantDigits_le_iff.mpr ?_⟩
      have hkept : 0 < precision.pricePlaces v := (Nat.pos_of_ne_zero hzero).trans_le hplaces
      -- Rounded up, the price comes to five digits and a carry at most.
      have hhigh : r.value ≤ 10 ^ 5 * Scaled.unit (precision.pricePlaces v) :=
        hgrid.le_of_above (by linarith) (onGrid_tens 5 _) (value_le_tens hpositive hkept)
      have hlow : 0 ≤ r.value :=
        hgrid.le_of_below (by linarith) ⟨0, by simp⟩ hpositive.le
      rw [← Scaled.value_normalize r] at hhigh hlow
      have hnormal : ¬ 10 ∣ r.normalize.mantissa := r.normalize_normal.resolve_left hzero
      have hmantissa : (r.normalize.mantissa : ℚ) ≤ 10 ^ 5 := by
        have hunit : (10 : ℚ) ^ 5 * Scaled.unit (precision.pricePlaces v) ≤
            10 ^ 5 / 10 ^ r.normalize.scale := by
          rw [Scaled.unit, mul_one_div]
          refine div_le_div_of_nonneg_left (by positivity) (by positivity) ?_
          exact pow_le_pow_right₀ (by norm_num) hplaces
        have hle := hhigh.trans hunit
        unfold Scaled.value at hle
        exact (div_le_div_iff_of_pos_right (by positivity)).mp hle
      have hnonneg : (0 : ℚ) ≤ r.normalize.mantissa := by
        unfold Scaled.value at hlow
        by_contra hneg
        exact absurd hlow (not_le.mpr (div_neg_of_neg_of_pos (not_le.mp hneg) (by positivity)))
      have hmantissaInt : r.normalize.mantissa ≤ 10 ^ 5 := by exact_mod_cast hmantissa
      have hnonnegInt : 0 ≤ r.normalize.mantissa := by exact_mod_cast hnonneg
      have hne : r.normalize.mantissa ≠ 10 ^ 5 := by
        intro heq
        exact hnormal (heq ▸ by decide)
      omega

theorem closest_roundPrice {v : Scaled} (hpositive : 0 < v.value)
    (strategy : RoundingStrategy) :
    Closest precision.MeetsPrice v.value strategy
      (precision.roundPrice rounding v strategy) := by
  have hmeets : precision.MeetsPrice (precision.roundPrice rounding v strategy) :=
    meetsPrice_roundPrice hpositive strategy
  by_cases hscale : v.normalize.scale = 0
  · exact closest_self hmeets (roundPrice_of_meets (.inl hscale) strategy) strategy
  · have hcoarse : Coarse precision.MeetsPrice (precision.pricePlaces v) v.value :=
      coarse_meetsPrice hpositive
    rw [← Scaled.value_normalize v] at hcoarse hpositive ⊢
    exact closest_of_coarse hpositive hcoarse hmeets (value_roundPrice hscale strategy)

/-! ## The result -/

/-- Rounding a value agrees with the check of it. -/
structure Agrees (Meets : Scaled → Prop) (check : Scaled → Except PrecisionViolation Unit)
    (round : Scaled → RoundingStrategy → Scaled) (v : Scaled) : Prop where
  passes : ∀ strategy, Meets (round v strategy) ∧ Passes (check (round v strategy))
  unchanged : Meets v → ∀ strategy, (round v strategy).value = v.value
  idempotent : ∀ strategy again, (round (round v strategy) again).value = (round v strategy).value
  closest : ∀ strategy, Closest Meets v.value strategy (round v strategy)

/-- A positive number rounded passes its rules, is itself if it does already, and is the closest
    that does on the strategy's side. For a positive number the rules are all the check asks but
    for the number the SDK takes. -/
theorem rounding_agrees (precision : OrderPrecision) (rounding : Rounding) {Wire : Type}
    (toWire : Scaled → Option Wire) {v : Scaled} (hpositive : 0 < v.value) :
    (Agrees precision.MeetsQuantity (precision.checkQuantity toWire)
        (precision.roundQuantity rounding) v ∧
      Agrees precision.MeetsPrice (precision.checkPrice toWire)
        (precision.roundPrice rounding) v) ∧
      ∀ x : Scaled, 0 < x.value →
        (Passes (precision.checkQuantity toWire x) ↔ precision.MeetsQuantity x) ∧
          (Passes (precision.checkPrice toWire x) ↔ precision.MeetsPrice x) := by
  refine ⟨⟨?_, ?_⟩, fun x hx => ⟨passes_quantity_iff toWire (mantissa_pos hx),
    passes_price_iff toWire (mantissa_pos hx)⟩⟩
  · have hmeets : ∀ strategy, precision.MeetsQuantity
        (precision.roundQuantity rounding v strategy) :=
      fun strategy => (closest_roundQuantity hpositive strategy).meets
    exact ⟨fun strategy => ⟨hmeets strategy, passes_of_meets_quantity toWire (hmeets strategy)⟩,
      roundQuantity_of_meets, fun strategy => roundQuantity_of_meets (hmeets strategy),
      closest_roundQuantity hpositive⟩
  · have hmeets : ∀ strategy, precision.MeetsPrice
        (precision.roundPrice rounding v strategy) :=
      fun strategy => (closest_roundPrice hpositive strategy).meets
    exact ⟨fun strategy => ⟨hmeets strategy, passes_of_meets_price toWire (hmeets strategy)⟩,
      roundPrice_of_meets, fun strategy => roundPrice_of_meets (hmeets strategy),
      closest_roundPrice hpositive⟩

/-- A price of six figures, under the rules of a perpetual. -/
theorem rounding_agrees_perp :
    (Agrees (perp 1).MeetsQuantity ((perp 1).checkQuantity fun x => some x.value)
        ((perp 1).roundQuantity .documented) ⟨999996, 4⟩ ∧
      Agrees (perp 1).MeetsPrice ((perp 1).checkPrice fun x => some x.value)
        ((perp 1).roundPrice .documented) ⟨999996, 4⟩) ∧
      ∀ x : Scaled, 0 < x.value →
        (Passes ((perp 1).checkQuantity (fun x => some x.value) x) ↔ (perp 1).MeetsQuantity x) ∧
          (Passes ((perp 1).checkPrice (fun x => some x.value) x) ↔ (perp 1).MeetsPrice x) :=
  rounding_agrees (perp 1) .documented (fun x => some x.value)
    (by norm_num [Scaled.value])

end OrderPrecision

end Rustrade.Hyperliquid
