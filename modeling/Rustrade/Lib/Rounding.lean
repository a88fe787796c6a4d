import Rustrade.Lib.Scaled

/-!
# Rounding to decimal places by a strategy

A value rounded lies on the grid of its places, less than a unit of the last place off and on the
side its strategy names, or at most half a unit off. Where a rule lets pass nothing near the value
but points of the grid, rounding gives the closest number the rule lets pass.
-/

set_option autoImplicit false

inductive RoundingStrategy where
  | midpointNearestEven
  | midpointAwayFromZero
  | midpointTowardZero
  | toZero
  | awayFromZero
  | toNegativeInfinity
  | toPositiveInfinity
  | bankersRounding
  | roundHalfUp
  | roundHalfDown
  | roundDown
  | roundUp
  deriving DecidableEq

namespace RoundingStrategy

def IsDown (strategy : RoundingStrategy) : Prop :=
  strategy = toZero ∨ strategy = roundDown ∨ strategy = toNegativeInfinity

def IsUp (strategy : RoundingStrategy) : Prop :=
  strategy = awayFromZero ∨ strategy = roundUp ∨ strategy = toPositiveInfinity

/-- On which side of a value a strategy rounds it, or how near. -/
def Side (strategy : RoundingStrategy) (v r step : ℚ) : Prop :=
  match strategy with
  | toZero | roundDown => |r| ≤ |v|
  | awayFromZero | roundUp => |v| ≤ |r|
  | toNegativeInfinity => r ≤ v
  | toPositiveInfinity => v ≤ r
  | midpointNearestEven | midpointAwayFromZero | midpointTowardZero | bankersRounding
  | roundHalfUp | roundHalfDown => |r - v| ≤ step / 2

end RoundingStrategy

/-- `round_dp_with_strategy` of the decimal type: less than a unit of the last place off, on the
    strategy's side. -/
structure Rounding where
  roundDp : Scaled → ℕ → RoundingStrategy → Scaled
  onGrid : ∀ (x : Scaled) (places : ℕ) (strategy : RoundingStrategy),
    OnGrid (Scaled.unit places) (roundDp x places strategy).value
  near : ∀ (x : Scaled) (places : ℕ) (strategy : RoundingStrategy),
    |(roundDp x places strategy).value - x.value| < Scaled.unit places
  side : ∀ (x : Scaled) (places : ℕ) (strategy : RoundingStrategy),
    strategy.Side x.value (roundDp x places strategy).value (Scaled.unit places)

namespace RoundingStrategy

/-- The whole number a strategy rounds to. -/
def toInt (strategy : RoundingStrategy) (q : ℚ) : ℤ :=
  let inward := if 0 ≤ q then ⌊q⌋ else ⌈q⌉
  let outward := if 0 ≤ q then ⌈q⌉ else ⌊q⌋
  let midpoint := fun tie : ℤ =>
    if q - ⌊q⌋ < 1 / 2 then ⌊q⌋ else if 1 / 2 < q - ⌊q⌋ then ⌊q⌋ + 1 else tie
  match strategy with
  | toZero | roundDown => inward
  | awayFromZero | roundUp => outward
  | toNegativeInfinity => ⌊q⌋
  | toPositiveInfinity => ⌈q⌉
  | midpointNearestEven | bankersRounding => midpoint (if 2 ∣ ⌊q⌋ then ⌊q⌋ else ⌊q⌋ + 1)
  | midpointAwayFromZero | roundHalfUp => midpoint (if 0 ≤ q then ⌊q⌋ + 1 else ⌊q⌋)
  | midpointTowardZero | roundHalfDown => midpoint (if 0 ≤ q then ⌊q⌋ else ⌊q⌋ + 1)

theorem near_floor (q : ℚ) : |(⌊q⌋ : ℚ) - q| < 1 ∧ (⌊q⌋ : ℚ) ≤ q := by
  have hle := Int.floor_le q
  have hlt := Int.lt_floor_add_one q
  exact ⟨abs_lt.mpr ⟨by linarith, by linarith⟩, hle⟩

theorem near_ceil (q : ℚ) : |(⌈q⌉ : ℚ) - q| < 1 ∧ q ≤ (⌈q⌉ : ℚ) := by
  have hle := Int.le_ceil q
  have hlt := Int.ceil_lt_add_one q
  exact ⟨abs_lt.mpr ⟨by linarith, by linarith⟩, hle⟩

theorem half_midpoint (q : ℚ) {tie : ℤ} (htie : tie = ⌊q⌋ ∨ tie = ⌊q⌋ + 1) :
    |((if q - ⌊q⌋ < 1 / 2 then ⌊q⌋ else if 1 / 2 < q - ⌊q⌋ then ⌊q⌋ + 1 else tie : ℤ) : ℚ) - q| ≤
      1 / 2 := by
  have hle := Int.floor_le q
  have hlt := Int.lt_floor_add_one q
  split
  · rw [abs_le]
    constructor <;> linarith
  · split
    · push_cast
      rw [abs_le]
      constructor <;> linarith
    · -- Halfway, either neighbour is half a step off.
      obtain rfl | rfl := htie
      · rw [abs_le]
        constructor <;> linarith
      · push_cast
        rw [abs_le]
        constructor <;> linarith

theorem toInt_spec (strategy : RoundingStrategy) (q : ℚ) :
    |(strategy.toInt q : ℚ) - q| < 1 ∧ strategy.Side q (strategy.toInt q) 1 := by
  obtain ⟨hfloor, hfloorLe⟩ := near_floor q
  obtain ⟨hceil, hceilLe⟩ := near_ceil q
  have hhalf : ∀ {r : ℚ}, |r - q| ≤ 1 / 2 → |r - q| < 1 ∧ |r - q| ≤ 1 / 2 :=
    fun h => ⟨h.trans_lt (by norm_num), h⟩
  have hinner : |((if 0 ≤ q then ⌊q⌋ else ⌈q⌉ : ℤ) : ℚ) - q| < 1 ∧
      |((if 0 ≤ q then ⌊q⌋ else ⌈q⌉ : ℤ) : ℚ)| ≤ |q| := by
    split
    · rename_i hnonneg
      have hcast : (0 : ℚ) ≤ ⌊q⌋ := by exact_mod_cast Int.floor_nonneg.mpr hnonneg
      exact ⟨hfloor, by rwa [abs_of_nonneg hcast, abs_of_nonneg hnonneg]⟩
    · rename_i hneg
      have hle : q ≤ 0 := (not_le.mp hneg).le
      have hcast : (⌈q⌉ : ℚ) ≤ 0 := by exact_mod_cast Int.ceil_le.mpr (by simpa using hle)
      exact ⟨hceil, by
        rw [abs_of_nonpos hcast, abs_of_nonpos hle]
        linarith⟩
  have houter : |((if 0 ≤ q then ⌈q⌉ else ⌊q⌋ : ℤ) : ℚ) - q| < 1 ∧
      |q| ≤ |((if 0 ≤ q then ⌈q⌉ else ⌊q⌋ : ℤ) : ℚ)| := by
    split
    · rename_i hnonneg
      exact ⟨hceil, by rwa [abs_of_nonneg hnonneg, abs_of_nonneg (hnonneg.trans hceilLe)]⟩
    · rename_i hneg
      have hle : q ≤ 0 := (not_le.mp hneg).le
      exact ⟨hfloor, by
        rw [abs_of_nonpos hle, abs_of_nonpos (hfloorLe.trans hle)]
        linarith⟩
  cases strategy with
  | toZero => exact hinner
  | roundDown => exact hinner
  | awayFromZero => exact houter
  | roundUp => exact houter
  | toNegativeInfinity => exact ⟨hfloor, hfloorLe⟩
  | toPositiveInfinity => exact ⟨hceil, hceilLe⟩
  | midpointNearestEven =>
    exact hhalf (half_midpoint q (by split <;> simp))
  | bankersRounding =>
    exact hhalf (half_midpoint q (by split <;> simp))
  | midpointAwayFromZero =>
    exact hhalf (half_midpoint q (by split <;> simp))
  | roundHalfUp =>
    exact hhalf (half_midpoint q (by split <;> simp))
  | midpointTowardZero =>
    exact hhalf (half_midpoint q (by split <;> simp))
  | roundHalfDown =>
    exact hhalf (half_midpoint q (by split <;> simp))

theorem side_self (strategy : RoundingStrategy) (v : ℚ) {step : ℚ} (hstep : 0 ≤ step) :
    strategy.Side v v step := by
  have hhalf : |v - v| ≤ step / 2 := by
    rw [sub_self, abs_zero]
    linarith
  cases strategy <;> first | exact le_refl _ | exact hhalf

theorem side_of_scaled {strategy : RoundingStrategy} {v r step c : ℚ} (hc : 0 < c)
    (h : strategy.Side (v * c) (r * c) (step * c)) : strategy.Side v r step := by
  have habs : |r * c| ≤ |v * c| → |r| ≤ |v| := by
    rw [abs_mul, abs_mul, abs_of_pos hc]
    exact fun h => le_of_mul_le_mul_right h hc
  have habs' : |v * c| ≤ |r * c| → |v| ≤ |r| := by
    rw [abs_mul, abs_mul, abs_of_pos hc]
    exact fun h => le_of_mul_le_mul_right h hc
  have hhalf : |r * c - v * c| ≤ step * c / 2 → |r - v| ≤ step / 2 := by
    have hdiff : r * c - v * c = (r - v) * c := by ring
    have hstep : step * c / 2 = step / 2 * c := by ring
    rw [hdiff, hstep, abs_mul, abs_of_pos hc]
    exact fun h => le_of_mul_le_mul_right h hc
  cases strategy with
  | toZero => exact habs h
  | roundDown => exact habs h
  | awayFromZero => exact habs' h
  | roundUp => exact habs' h
  | toNegativeInfinity => exact le_of_mul_le_mul_right h hc
  | toPositiveInfinity => exact le_of_mul_le_mul_right h hc
  | midpointNearestEven => exact hhalf h
  | bankersRounding => exact hhalf h
  | midpointAwayFromZero => exact hhalf h
  | roundHalfUp => exact hhalf h
  | midpointTowardZero => exact hhalf h
  | roundHalfDown => exact hhalf h

end RoundingStrategy

/-- Rounding as the decimal type documents it: a value of no more places stays as it is. -/
def Rounding.documented : Rounding where
  roundDp x places strategy :=
    if x.scale ≤ places then x else ⟨strategy.toInt (x.value * 10 ^ places), places⟩
  onGrid x places strategy := by
    split
    · rename_i hle
      exact Scaled.onGrid_of_le hle
    · refine ⟨strategy.toInt (x.value * 10 ^ places), ?_⟩
      rw [Scaled.value, Scaled.unit, mul_one_div]
  near x places strategy := by
    split
    · rw [sub_self, abs_zero]
      exact Scaled.unit_pos places
    · have hpow : (0 : ℚ) < 10 ^ places := by positivity
      obtain ⟨hnear, -⟩ := strategy.toInt_spec (x.value * 10 ^ places)
      have hdiff : (strategy.toInt (x.value * 10 ^ places) : ℚ) - x.value * 10 ^ places =
          ((strategy.toInt (x.value * 10 ^ places) : ℚ) / 10 ^ places - x.value) *
            10 ^ places := by
        rw [sub_mul, div_mul_cancel₀ _ hpow.ne']
      rw [hdiff, abs_mul, abs_of_pos hpow] at hnear
      exact (lt_div_iff₀ hpow).mpr hnear
  side x places strategy := by
    split
    · exact strategy.side_self x.value (Scaled.unit_pos places).le
    · have hpow : (0 : ℚ) < 10 ^ places := by positivity
      refine RoundingStrategy.side_of_scaled hpow ?_
      obtain ⟨-, hside⟩ := strategy.toInt_spec (x.value * 10 ^ places)
      have hvalue : Scaled.value ⟨strategy.toInt (x.value * 10 ^ places), places⟩ *
          10 ^ places = strategy.toInt (x.value * 10 ^ places) :=
        div_mul_cancel₀ _ hpow.ne'
      rw [hvalue, Scaled.unit, div_mul_cancel₀ _ hpow.ne']
      exact hside

/-! ## The closest number that passes -/

variable {rounding : Rounding}

theorem Rounding.value_of_onGrid {x : Scaled} {places : ℕ}
    (h : OnGrid (Scaled.unit places) x.value) (strategy : RoundingStrategy) :
    (rounding.roundDp x places strategy).value = x.value :=
  (rounding.onGrid x places strategy).eq_of_lt h (rounding.near x places strategy)

theorem Rounding.le_of_isDown {x : Scaled} (hpositive : 0 < x.value) {places : ℕ}
    {strategy : RoundingStrategy} (h : strategy.IsDown) :
    (rounding.roundDp x places strategy).value ≤ x.value := by
  have hside := rounding.side x places strategy
  obtain rfl | rfl | rfl := h
  · exact (le_abs_self _).trans (hside.trans (abs_of_pos hpositive).le)
  · exact (le_abs_self _).trans (hside.trans (abs_of_pos hpositive).le)
  · exact hside

theorem Rounding.le_of_isUp {x : Scaled} (hpositive : 0 < x.value) {places : ℕ}
    {strategy : RoundingStrategy} (h : strategy.IsUp) :
    x.value ≤ (rounding.roundDp x places strategy).value := by
  have hside := rounding.side x places strategy
  have hnear := rounding.near x places strategy
  have hgrid := rounding.onGrid x places strategy
  have haway : |x.value| ≤ |(rounding.roundDp x places strategy).value| →
      x.value ≤ (rounding.roundDp x places strategy).value := by
    intro hle
    generalize (rounding.roundDp x places strategy).value = r at hnear hgrid hle ⊢
    rw [abs_of_pos hpositive] at hle
    obtain hnonneg | hneg := le_or_gt 0 r
    · rwa [abs_of_nonneg hnonneg] at hle
    · -- Away from zero on the other side is more than a unit off.
      have hlt := (abs_lt.mp hnear).1
      have hzero : r = 0 := hgrid.eq_of_lt ⟨0, by simp⟩ (by
        rw [sub_zero, abs_of_neg hneg]
        linarith)
      exact absurd hzero hneg.ne
  obtain rfl | rfl | rfl := h
  · exact haway hside
  · exact haway hside
  · exact hside

theorem Rounding.near_of_midpoint {x : Scaled} {places : ℕ} {strategy : RoundingStrategy}
    (hdown : ¬ strategy.IsDown) (hup : ¬ strategy.IsUp) :
    |(rounding.roundDp x places strategy).value - x.value| ≤ Scaled.unit places / 2 := by
  have hside := rounding.side x places strategy
  unfold RoundingStrategy.IsDown at hdown
  unfold RoundingStrategy.IsUp at hup
  cases strategy <;> first | exact hside | simp at hdown hup

/-- The numbers a rule lets pass, near a value: on a grid, or below a point of the grid that is at
    or below the value. -/
def Coarse (Meets : Scaled → Prop) (places : ℕ) (v : ℚ) : Prop :=
  ∀ x, Meets x → OnGrid (Scaled.unit places) x.value ∨
    ∃ bound, OnGrid (Scaled.unit places) bound ∧ x.value < bound ∧ bound ≤ v

/-- Rounding gives the closest number, on the strategy's side, that a rule lets pass. -/
structure Closest (Meets : Scaled → Prop) (v : ℚ) (strategy : RoundingStrategy)
    (r : Scaled) : Prop where
  meets : Meets r
  down : strategy.IsDown → IsGreatest {y | ∃ x, Meets x ∧ x.value = y ∧ y ≤ v} r.value
  up : strategy.IsUp → IsLeast {y | ∃ x, Meets x ∧ x.value = y ∧ v ≤ y} r.value
  nearest : ¬ strategy.IsDown → ¬ strategy.IsUp →
    ∀ x, Meets x → |r.value - v| ≤ |x.value - v|

/-- A value that passes is closest to itself. -/
theorem closest_self {Meets : Scaled → Prop} {v : ℚ} {r : Scaled} (hmeets : Meets r)
    (hr : r.value = v) (strategy : RoundingStrategy) : Closest Meets v strategy r := by
  subst hr
  refine ⟨hmeets, fun _ => ⟨⟨r, hmeets, rfl, le_refl _⟩, ?_⟩,
    fun _ => ⟨⟨r, hmeets, rfl, le_refl _⟩, ?_⟩, fun _ _ x _ => ?_⟩
  · rintro y ⟨x, -, rfl, hle⟩
    exact hle
  · rintro y ⟨x, -, rfl, hle⟩
    exact hle
  · rw [sub_self, abs_zero]
    exact abs_nonneg _

theorem closest_of_coarse {Meets : Scaled → Prop} {v : Scaled} {places : ℕ}
    (hpositive : 0 < v.value) (hcoarse : Coarse Meets places v.value)
    {strategy : RoundingStrategy} {r : Scaled} (hmeets : Meets r)
    (hr : r.value = (rounding.roundDp v places strategy).value) :
    Closest Meets v.value strategy r := by
  have hgrid := rounding.onGrid v places strategy
  have hnear := abs_lt.mp (rounding.near v places strategy)
  refine ⟨hmeets, fun hdown => ?_, fun hup => ?_, fun hdown hup x hx => ?_⟩
  · have hle : (rounding.roundDp v places strategy).value ≤ v.value :=
      rounding.le_of_isDown hpositive hdown
    rw [← hr] at hgrid hnear hle
    have hbelow : v.value - r.value < Scaled.unit places := by linarith
    refine ⟨⟨r, hmeets, rfl, hle⟩, ?_⟩
    rintro y ⟨x, hx, rfl, hxv⟩
    obtain honGrid | ⟨bound, hbound, hlt, hboundLe⟩ := hcoarse x hx
    · exact hgrid.le_of_below hbelow honGrid hxv
    · exact hlt.le.trans (hgrid.le_of_below hbelow hbound hboundLe)
  · have hle : v.value ≤ (rounding.roundDp v places strategy).value :=
      rounding.le_of_isUp hpositive hup
    rw [← hr] at hgrid hnear hle
    refine ⟨⟨r, hmeets, rfl, hle⟩, ?_⟩
    rintro y ⟨x, hx, rfl, hvx⟩
    obtain honGrid | ⟨bound, -, hlt, hboundLe⟩ := hcoarse x hx
    · exact hgrid.le_of_above (by linarith) honGrid hvx
    · exact absurd (hlt.trans_le hboundLe) (not_lt.mpr hvx)
  · have hhalf : |(rounding.roundDp v places strategy).value - v.value| ≤
        Scaled.unit places / 2 := rounding.near_of_midpoint hdown hup
    rw [← hr] at hgrid hhalf
    obtain honGrid | ⟨bound, hbound, hlt, hboundLe⟩ := hcoarse x hx
    · exact hgrid.nearest hhalf honGrid
    · have hbest := hgrid.nearest hhalf hbound
      rw [abs_of_nonpos (sub_nonpos.mpr hboundLe)] at hbest
      rw [abs_of_nonpos (sub_nonpos.mpr (hlt.le.trans hboundLe)) (a := x.value - v.value)]
      linarith
