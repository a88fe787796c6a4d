import Rustrade.Lib.Rounding

/-!
# Decimals of bounded width

A mantissa below a bound, and at most so many places. A value with more digits than that is rounded,
half to even, in the most places in which what it is rounded to still fits. The rounding is monotone
about every value that is held, and leaves those as they are.
-/

set_option autoImplicit false

namespace Scaled

def maxMantissa : ℤ := 79228162514264337593543950335

def maxScale : ℕ := 28

def Fits (x : Scaled) : Prop := |x.mantissa| ≤ maxMantissa ∧ x.scale ≤ maxScale

instance (x : Scaled) : Decidable x.Fits := inferInstanceAs (Decidable (_ ∧ _))

/-- A decimal of the width holds the value. -/
def Holds (v : ℚ) : Prop := ∃ x : Scaled, x.Fits ∧ x.value = v

/-! ## Half to even -/

def halfEven (q : ℚ) : ℤ := RoundingStrategy.midpointNearestEven.toInt q

theorem halfEven_near (q : ℚ) : |(halfEven q : ℚ) - q| ≤ 1 / 2 :=
  (RoundingStrategy.toInt_spec .midpointNearestEven q).2

theorem le_halfEven {n : ℤ} {q : ℚ} (h : (n : ℚ) ≤ q) : n ≤ halfEven q := by
  have hnear := abs_le.mp (halfEven_near q)
  have hlt : (n : ℚ) < halfEven q + 1 := by linarith
  exact Int.lt_add_one_iff.mp (by exact_mod_cast hlt)

theorem halfEven_le {n : ℤ} {q : ℚ} (h : q ≤ (n : ℚ)) : halfEven q ≤ n := by
  have hnear := abs_le.mp (halfEven_near q)
  have hlt : (halfEven q : ℚ) < n + 1 := by linarith
  exact Int.lt_add_one_iff.mp (by exact_mod_cast hlt)

theorem halfEven_int (n : ℤ) : halfEven n = n :=
  le_antisymm (halfEven_le le_rfl) (le_halfEven le_rfl)

/-- The nearer of two integers. -/
theorem halfEven_eq {n : ℤ} {q : ℚ} (h : |q - n| < 1 / 2) : halfEven q = n := by
  have hnear := abs_le.mp (halfEven_near q)
  have hbounds := abs_lt.mp h
  have hlt : (halfEven q : ℚ) < n + 1 := by linarith
  have hgt : (n : ℚ) < halfEven q + 1 := by linarith
  have hle : halfEven q ≤ n := Int.lt_add_one_iff.mp (by exact_mod_cast hlt)
  have hge : n ≤ halfEven q := Int.lt_add_one_iff.mp (by exact_mod_cast hgt)
  exact le_antisymm hle hge

/-- Halfway between two integers, the even one. -/
theorem halfEven_tie (n : ℤ) : halfEven (n + 1 / 2) = if Even n then n else n + 1 := by
  have hfloor : ⌊(n : ℚ) + 1 / 2⌋ = n := by
    rw [Int.floor_eq_iff]
    constructor <;> norm_num
  unfold halfEven RoundingStrategy.toInt
  dsimp only
  rw [hfloor, if_neg (by norm_num), if_neg (by norm_num)]
  simp only [even_iff_two_dvd]

/-- An integer and no more than half: the integer, unless it is odd and the half is whole. -/
theorem halfEven_add {n : ℤ} {off : ℚ} (h : |off| ≤ 1 / 2) (hgood : |off| = 1 / 2 → Even n) :
    halfEven (n + off) = n := by
  obtain hlt | heq := h.lt_or_eq
  · exact halfEven_eq (by rwa [add_sub_cancel_left])
  · have heven := hgood heq
    obtain hup | hdown := eq_or_eq_neg_of_abs_eq heq
    · rw [hup, halfEven_tie, if_pos heven]
    · have hshift : (n : ℚ) + off = ((n - 1 : ℤ) : ℚ) + 1 / 2 := by
        rw [hdown]
        push_cast
        ring
      rw [hshift, halfEven_tie, if_neg fun hodd => Int.even_sub_one.mp hodd heven]
      ring

/-- Half off an odd integer, not the integer. -/
theorem even_of_halfEven_add {n : ℤ} {off : ℚ} (h : |off| = 1 / 2)
    (hsame : halfEven (n + off) = n) : Even n := by
  by_contra hodd
  obtain hup | hdown := eq_or_eq_neg_of_abs_eq h
  · rw [hup, halfEven_tie, if_neg hodd] at hsame
    omega
  · have hshift : (n : ℚ) + off = ((n - 1 : ℤ) : ℚ) + 1 / 2 := by
      rw [hdown]
      push_cast
      ring
    rw [hshift, halfEven_tie, if_pos (Int.even_sub_one.mpr hodd)] at hsame
    omega

/-- A value is half off what it is rounded to where it is halfway between two integers. -/
theorem fract_eq_half_iff {q : ℚ} : Int.fract q = 1 / 2 ↔ |(halfEven q : ℚ) - q| = 1 / 2 := by
  have hhalf (n : ℤ) : Int.fract ((n : ℚ) + 1 / 2) = 1 / 2 := by
    rw [Int.fract_intCast_add]
    norm_num [Int.fract_eq_self]
  constructor
  · intro h
    have hq : q = ⌊q⌋ + 1 / 2 := by
      rw [← h]
      exact (Int.floor_add_fract q).symm
    rw [hq, halfEven_tie]
    split
    · norm_num
    · push_cast
      norm_num
  · intro h
    obtain habove | hbelow := eq_or_eq_neg_of_abs_eq h
    · have hq : q = ((halfEven q - 1 : ℤ) : ℚ) + 1 / 2 := by
        push_cast
        linarith
      rw [hq]
      exact hhalf _
    · have hq : ((halfEven q : ℤ) : ℚ) + 1 / 2 = q := by linarith
      have hfract := hhalf (halfEven q)
      rw [hq] at hfract
      exact hfract

theorem halfEven_neg (q : ℚ) : halfEven (-q) = -halfEven q := by
  by_cases htie : Int.fract q = 1 / 2
  · -- Halfway, both are even.
    have hq : q = ⌊q⌋ + 1 / 2 := by
      rw [← htie]
      exact (Int.floor_add_fract q).symm
    have hneg : -q = ((-⌊q⌋ - 1 : ℤ) : ℚ) + 1 / 2 := by
      push_cast
      linarith
    rw [hneg, halfEven_tie]
    conv_rhs => rw [hq, halfEven_tie]
    by_cases heven : Even ⌊q⌋
    · have hodd : ¬ Even (-⌊q⌋ - 1) := by
        rw [Int.even_sub_one, not_not, even_neg]
        exact heven
      rw [if_neg hodd, if_pos heven]
      ring
    · have hnext : Even (-⌊q⌋ - 1) := by
        rw [Int.even_sub_one, even_neg]
        exact heven
      rw [if_pos hnext, if_neg heven]
      ring
  · refine halfEven_eq ?_
    have hdiff : -q - ((-halfEven q : ℤ) : ℚ) = halfEven q - q := by
      push_cast
      ring
    rw [hdiff]
    exact lt_of_le_of_ne (halfEven_near q) fun heq => htie (fract_eq_half_iff.mpr heq)

/-! ## The places a value fits in -/

/-- Rounded to so many places, the value fits. -/
def FitsAt (v : ℚ) (places : ℕ) : Prop := |halfEven (v * 10 ^ places)| ≤ maxMantissa

instance (v : ℚ) (places : ℕ) : Decidable (FitsAt v places) := inferInstanceAs (Decidable (_ ≤ _))

theorem fitsAt_neg {v : ℚ} {places : ℕ} : FitsAt (-v) places ↔ FitsAt v places := by
  unfold FitsAt
  rw [neg_mul, halfEven_neg, abs_neg]

/-- The bound is odd, so that half above it is rounded up and does not fit. -/
theorem fitsAt_iff {v : ℚ} {places : ℕ} :
    FitsAt v places ↔ |v| * 10 ^ places < maxMantissa + 1 / 2 := by
  have hpos : ∀ {v : ℚ}, 0 ≤ v → (FitsAt v places ↔ v * 10 ^ places < maxMantissa + 1 / 2) := by
    intro v hv
    have hnonneg : 0 ≤ halfEven (v * 10 ^ places) :=
      le_halfEven (by rw [Int.cast_zero]; positivity)
    unfold FitsAt
    rw [abs_of_nonneg hnonneg]
    have hnear := abs_le.mp (halfEven_near (v * 10 ^ places))
    constructor
    · intro h
      have hcast : (halfEven (v * 10 ^ places) : ℚ) ≤ maxMantissa := by exact_mod_cast h
      refine lt_of_le_of_ne (by linarith) fun heq => ?_
      rw [heq, halfEven_tie, if_neg (by decide)] at h
      exact absurd h (by decide)
    · intro h
      have hlt : (halfEven (v * 10 ^ places) : ℚ) < maxMantissa + 1 := by linarith
      exact Int.lt_add_one_iff.mp (by exact_mod_cast hlt)
  obtain hv | hv := le_total 0 v
  · rw [abs_of_nonneg hv]
    exact hpos hv
  · rw [abs_of_nonpos hv, ← fitsAt_neg]
    exact hpos (neg_nonneg.mpr hv)

/-- A value that is held fits in the places it is held in. -/
theorem Fits.fitsAt {x : Scaled} (h : x.Fits) {v : ℚ} (hv : |v| ≤ |x.value|) :
    FitsAt v x.scale := by
  rw [fitsAt_iff]
  have hpow : (0 : ℚ) < 10 ^ x.scale := by positivity
  have hvalue : |x.value| * 10 ^ x.scale = |(x.mantissa : ℚ)| := by
    unfold value
    rw [abs_div, abs_of_pos hpow, div_mul_cancel₀ _ hpow.ne']
  have hmantissa : |(x.mantissa : ℚ)| ≤ maxMantissa := by exact_mod_cast h.1
  have hle := mul_le_mul_of_nonneg_right hv hpow.le
  linarith

/-- So does any that is no larger and has fewer places. -/
theorem FitsAt.mono {v w : ℚ} {places more : ℕ} (h : FitsAt v more) (hvalue : |w| ≤ |v|)
    (hplaces : places ≤ more) : FitsAt w places := by
  rw [fitsAt_iff] at h ⊢
  have hpow : (10 : ℚ) ^ places ≤ 10 ^ more := pow_le_pow_right₀ (by norm_num) hplaces
  calc |w| * 10 ^ places ≤ |v| * 10 ^ more := by gcongr
    _ < _ := h

/-! ## Rounding to the width -/

/-- `r` is what `v` is rounded to: half to even, in the most places it fits in. -/
def RoundsTo (v r : ℚ) : Prop :=
  ∃ places ≤ maxScale, FitsAt v places ∧
    (∀ finer ≤ maxScale, places < finer → ¬ FitsAt v finer) ∧
      r = halfEven (v * 10 ^ places) / 10 ^ places

namespace RoundsTo

variable {v r y : ℚ}

theorem neg (h : RoundsTo v r) : RoundsTo (-v) (-r) := by
  obtain ⟨places, hplaces, hfits, hfiner, rfl⟩ := h
  refine ⟨places, hplaces, fitsAt_neg.mpr hfits, fun finer hle hlt hfit => ?_, ?_⟩
  · exact hfiner finer hle hlt (fitsAt_neg.mp hfit)
  · rw [neg_mul, halfEven_neg, Int.cast_neg, neg_div]

/-- What a value is rounded to is held. -/
theorem holds (h : RoundsTo v r) : Holds r := by
  obtain ⟨places, hplaces, hfits, -, rfl⟩ := h
  exact ⟨⟨halfEven (v * 10 ^ places), places⟩, ⟨hfits, hplaces⟩, rfl⟩

end RoundsTo

theorem Holds.neg {y : ℚ} (h : Holds y) : Holds (-y) := by
  obtain ⟨⟨mantissa, scale⟩, hfits, rfl⟩ := h
  refine ⟨⟨-mantissa, scale⟩, ⟨?_, hfits.2⟩, ?_⟩
  · rw [abs_neg]
    exact hfits.1
  · unfold value
    rw [Int.cast_neg, neg_div]

namespace RoundsTo

variable {v r y : ℚ}

/-- A value that is held and no more than another is no more than what that is rounded to. -/
theorem le_of_holds (h : RoundsTo v r) (hy : Holds y) (hle : y ≤ v) : y ≤ r := by
  obtain ⟨places, hplaces, hfits, hfiner, rfl⟩ := h
  obtain ⟨x, hx, rfl⟩ := hy
  have hpow : (0 : ℚ) < 10 ^ places := by positivity
  rw [le_div_iff₀ hpow]
  obtain hscale | hscale := Nat.lt_or_ge places x.scale
  · -- The next place does not fit, so the value has as many digits as can be.
    have hnext : ¬ FitsAt v (places + 1) := hfiner _ (hscale.trans_le hx.2) (Nat.lt_succ_self _)
    have hdigits : FitsAt x.value (places + 1) := (hx.fitsAt le_rfl).mono le_rfl hscale
    have hpositive : 0 < v := by
      by_contra hneg
      refine hnext (hdigits.mono ?_ le_rfl)
      have hv := not_lt.mp hneg
      rw [abs_of_nonpos hv, abs_of_nonpos (hle.trans hv)]
      exact neg_le_neg hle
    rw [fitsAt_iff, not_lt, abs_of_pos hpositive, pow_succ] at hnext
    have hlarge : (7922816251426433759354395034 : ℤ) ≤ halfEven (v * 10 ^ places) := by
      have hnear := abs_le.mp (halfEven_near (v * 10 ^ places))
      unfold maxMantissa at hnext
      push_cast at hnext
      have hgt : ((7922816251426433759354395033 : ℤ) : ℚ) < halfEven (v * 10 ^ places) := by
        push_cast
        linarith
      exact Int.add_one_le_iff.mpr (Int.cast_lt.mp hgt)
    have hcast : ((7922816251426433759354395034 : ℤ) : ℚ) ≤ halfEven (v * 10 ^ places) := by
      exact_mod_cast hlarge
    have hbound : x.value * 10 ^ (places + 1) ≤ maxMantissa := by
      obtain ⟨more, hmore⟩ := Nat.exists_eq_add_of_le hscale
      have hmantissa : (x.mantissa : ℚ) ≤ maxMantissa := by
        exact_mod_cast (le_abs_self _).trans hx.1
      have hmax : (0 : ℚ) ≤ maxMantissa := by
        unfold maxMantissa
        norm_num
      unfold value
      rw [hmore, pow_add, ← div_div, div_mul_eq_mul_div, div_mul_eq_mul_div,
        mul_div_assoc, div_self (by positivity), mul_one]
      refine (div_le_iff₀ (by positivity)).mpr (hmantissa.trans ?_)
      exact le_mul_of_one_le_right hmax (one_le_pow₀ (by norm_num))
    unfold maxMantissa at hbound
    rw [pow_succ] at hbound
    push_cast at hbound hcast
    linarith
  · obtain ⟨more, hmore⟩ := Nat.exists_eq_add_of_le hscale
    have hwhole : x.value * 10 ^ places = ((x.mantissa * 10 ^ more : ℤ) : ℚ) := by
      unfold value
      rw [hmore, pow_add]
      push_cast
      field_simp
    have hscaled := mul_le_mul_of_nonneg_right hle hpow.le
    rw [hwhole] at hscaled ⊢
    exact_mod_cast le_halfEven hscaled

theorem ge_of_holds (h : RoundsTo v r) (hy : Holds y) (hge : v ≤ y) : r ≤ y :=
  neg_le_neg_iff.mp (h.neg.le_of_holds hy.neg (neg_le_neg hge))

/-- A value that is held is left as it is. -/
theorem eq_of_holds (h : RoundsTo v r) (hv : Holds v) : r = v :=
  le_antisymm (h.ge_of_holds hv le_rfl) (h.le_of_holds hv le_rfl)

end RoundsTo

theorem value_mul_pow (x : Scaled) (more : ℕ) :
    x.value * 10 ^ (x.scale + more) = ((x.mantissa * 10 ^ more : ℤ) : ℚ) := by
  unfold value
  rw [pow_add]
  push_cast
  field_simp

/-- What is held and no smaller has no more places than a value fits in. -/
theorem scale_le_of_fits {v : ℚ} {places : ℕ} {x : Scaled}
    (hfiner : ∀ finer ≤ maxScale, places < finer → ¬ FitsAt v finer) (hx : x.Fits)
    (hle : |v| ≤ |x.value|) : x.scale ≤ places := by
  by_contra hlt
  exact hfiner x.scale hx.2 (not_le.mp hlt) (hx.fitsAt hle)

theorem whole_of_holds {v y : ℚ} {places : ℕ}
    (hfiner : ∀ finer ≤ maxScale, places < finer → ¬ FitsAt v finer) (hy : Holds y)
    (hle : |v| ≤ |y|) : ∃ n : ℤ, y * 10 ^ places = n := by
  obtain ⟨x, hx, rfl⟩ := hy
  obtain ⟨more, rfl⟩ := Nat.exists_eq_add_of_le (scale_le_of_fits hfiner hx hle)
  exact ⟨_, value_mul_pow x more⟩

end Scaled

theorem OnGrid.neg {step y : ℚ} (h : OnGrid step y) : OnGrid step (-y) := by
  obtain ⟨m, rfl⟩ := h
  exact ⟨-m, by push_cast; ring⟩

namespace Scaled

/-! ## The multiples of a step about a value -/

/-- The largest multiple of a step no more than a value. -/
def below (step v : ℚ) : ℚ := ⌊v / step⌋ * step

/-- The smallest no less. -/
def above (step v : ℚ) : ℚ := ⌈v / step⌉ * step

section

variable {step v y : ℚ}

theorem below_onGrid : OnGrid step (below step v) := ⟨_, rfl⟩

theorem above_onGrid : OnGrid step (above step v) := ⟨_, rfl⟩

theorem below_neg : below step (-v) = -above step v := by
  unfold below above
  rw [neg_div, Int.floor_neg, Int.cast_neg, neg_mul]

theorem above_neg : above step (-v) = -below step v := by
  unfold below above
  rw [neg_div, Int.ceil_neg, Int.cast_neg, neg_mul]

theorem below_le (hstep : 0 < step) : below step v ≤ v :=
  (le_div_iff₀ hstep).mp (Int.floor_le _)

theorem lt_below_add (hstep : 0 < step) : v < below step v + step := by
  have hlt := (div_lt_iff₀ hstep).mp (Int.lt_floor_add_one (v / step))
  unfold below
  linarith

theorem le_above (hstep : 0 < step) : v ≤ above step v :=
  (div_le_iff₀ hstep).mp (Int.le_ceil _)

theorem above_sub_lt (hstep : 0 < step) : above step v - step < v := by
  have hlt := (lt_div_iff₀ hstep).mp (sub_lt_iff_lt_add.mpr (Int.ceil_lt_add_one (v / step)))
  unfold above
  linarith

theorem below_eq_self (hstep : 0 < step) (h : OnGrid step v) : below step v = v := by
  obtain ⟨m, rfl⟩ := h
  unfold below
  rw [mul_div_cancel_right₀ _ hstep.ne', Int.floor_intCast]

/-- Off the grid, the neighbours are a step apart. -/
theorem above_eq (hstep : 0 < step) (h : ¬ OnGrid step v) :
    above step v = below step v + step := by
  have hbelow : below step v < v := lt_of_le_of_ne (below_le hstep) fun heq => h ⟨_, heq.symm⟩
  have hnext : OnGrid step (below step v + step) := ⟨⌊v / step⌋ + 1, by
    unfold below
    push_cast
    ring⟩
  refine above_onGrid.eq_of_lt hnext ?_
  rw [abs_lt]
  have hle := le_above (v := v) hstep
  have hlt := above_sub_lt (v := v) hstep
  have hafter := lt_below_add (v := v) hstep
  constructor <;> linarith

theorem le_below (hstep : 0 < step) (h : OnGrid step y) (hle : y ≤ v) :
    y ≤ below step v :=
  below_onGrid.le_of_below (by linarith [lt_below_add (v := v) hstep]) h hle

end

/-- No point of the grid is between two that are a step apart. -/
theorem onGrid_le {step base y : ℚ} (hbase : OnGrid step base) (hy : OnGrid step y)
    (hlt : y < base + step) : y ≤ base :=
  hbase.le_of_below (by linarith) hy le_rfl

/-- The smaller multiple of a step is halfway between two values that could be held, and the larger
is an odd number of units: rounded, the smaller is off by half a unit, and so is the larger once the
step is added. -/
def OddTie (base next : ℚ) : Prop :=
  ∃ places ≤ maxScale, FitsAt base places ∧
    (∀ finer ≤ maxScale, places < finer → ¬ FitsAt base finer) ∧
      Int.fract (base * 10 ^ places) = 1 / 2 ∧ ∃ n : ℤ, ¬ Even n ∧ next * 10 ^ places = n

section

variable {step v base rounded result : ℚ}

/-- The step beyond a value, from a multiple that is held or to one that is not. -/
theorem away_extremal (hv : Holds v) (hbase : OnGrid step base)
    (hnonneg : 0 ≤ base) (hbelow : base < v) (habove : v < base + step)
    (hrounded : RoundsTo base rounded) (hresult : RoundsTo (rounded + step) result)
    (hgrid : OnGrid step result) (hheld : Holds base ∨ ¬ Holds (base + step)) :
    v ≤ result ∧ ∀ y, Holds y → OnGrid step y → v ≤ y → result ≤ y := by
  have hnext : OnGrid step (base + step) := by
    obtain ⟨m, rfl⟩ := hbase
    exact ⟨m + 1, by push_cast; ring⟩
  have hbeyond : ∀ {y}, OnGrid step y → v ≤ y → base + step ≤ y := by
    intro y hy hle
    by_contra hlt
    exact absurd (onGrid_le hbase hy (not_le.mp hlt)) (not_le.mpr (hbelow.trans_le hle))
  by_cases hholds : Holds base
  · rw [hrounded.eq_of_holds hholds] at hresult
    exact ⟨hresult.le_of_holds hv habove.le,
      fun y hy hygrid hle => hresult.ge_of_holds hy (hbeyond hygrid hle)⟩
  · have hunheld := hheld.resolve_left hholds
    have hroundedLe := hrounded.ge_of_holds hv hbelow.le
    refine ⟨?_, fun y hy hygrid hle => hresult.ge_of_holds hy ?_⟩
    · by_contra hlt
      have hlt := not_le.mp hlt
      have hshort : rounded + step < v := by
        by_contra hge
        exact absurd (hresult.le_of_holds hv (not_lt.mp hge)) (not_le.mpr hlt)
      have hle := onGrid_le hbase hgrid (hlt.trans habove)
      have hne : result ≠ base := fun heq => hholds (heq ▸ hresult.holds)
      have hprevious : OnGrid step (base - step) := by
        obtain ⟨m, rfl⟩ := hbase
        exact ⟨m - 1, by push_cast; ring⟩
      have hfar := onGrid_le hprevious hgrid (by
        rw [sub_add_cancel]
        exact lt_of_le_of_ne hle hne)
      have hfrom := hresult.le_of_holds hrounded.holds (by linarith)
      -- Then the value is nearer the multiple than a unit, and the multiple is not rounded past it.
      obtain ⟨places, -, -, hfiner, rfl⟩ := hrounded
      have hpow : (0 : ℚ) < 10 ^ places := by positivity
      obtain ⟨n, hn⟩ := whole_of_holds hfiner hv (by
        rw [abs_of_nonneg hnonneg, abs_of_pos (hnonneg.trans_lt hbelow)]
        exact hbelow.le)
      have hnear := abs_le.mp (halfEven_near (base * 10 ^ places))
      have hwhole : (halfEven (base * 10 ^ places) : ℚ) + 1 ≤ n := by
        have hbefore : (halfEven (base * 10 ^ places) : ℚ) < n := by
          rw [← hn]
          exact (div_lt_iff₀ hpow).mp (by linarith)
        exact_mod_cast Int.add_one_le_iff.mpr (Int.cast_lt.mp hbefore)
      have hgap : step * 10 ^ places ≤ base * 10 ^ places - halfEven (base * 10 ^ places) := by
        have hscaled := mul_le_mul_of_nonneg_right
          (show (halfEven (base * 10 ^ places) : ℚ) / 10 ^ places ≤ base - step by linarith)
          hpow.le
        rw [div_mul_cancel₀ _ hpow.ne', sub_mul] at hscaled
        linarith
      have hvalue := mul_lt_mul_of_pos_right habove hpow
      rw [add_mul, hn] at hvalue
      linarith
    · have hge := hbeyond hygrid hle
      have hne : y ≠ base + step := fun heq => hunheld (heq ▸ hy)
      by_contra hlt
      refine hne (le_antisymm (onGrid_le hnext hygrid ?_) hge)
      linarith

/-- The step to a multiple that is held, from one that is not: rounding twice misses it only where
the first is halfway and the second odd. -/
theorem away_exact (hv : Holds v) (hnonneg : 0 ≤ base) (hbelow : base < v)
    (habove : v < base + step) (hrounded : RoundsTo base rounded)
    (hresult : RoundsTo (rounded + step) result) (hheld : Holds (base + step)) :
    result = base + step ↔ ¬ OddTie base (base + step) := by
  obtain ⟨places, hplaces, hfits, hfiner, rfl⟩ := hrounded
  obtain ⟨coarser, hcoarser, hresultFits, hresultFiner, rfl⟩ := hresult
  have hpow : (0 : ℚ) < 10 ^ places := by positivity
  have hvpos := hnonneg.trans_lt hbelow
  obtain ⟨k, hk⟩ := whole_of_holds hfiner hv (by
    rw [abs_of_nonneg hnonneg, abs_of_pos hvpos]
    exact hbelow.le)
  obtain ⟨n, hn⟩ := whole_of_holds hfiner hheld (by
    rw [abs_of_nonneg hnonneg, abs_of_pos (hvpos.trans habove)]
    exact (hbelow.trans habove).le)
  -- In units of the last place, `base` is off by `off` once rounded, and so is the sum.
  obtain ⟨off, hoff⟩ : ∃ off, off = (halfEven (base * 10 ^ places) : ℚ) - base * 10 ^ places :=
    ⟨_, rfl⟩
  have hnear : |off| ≤ 1 / 2 := by
    rw [hoff]
    exact halfEven_near _
  obtain ⟨sum, hsum⟩ : ∃ sum, sum = (halfEven (base * 10 ^ places) : ℚ) / 10 ^ places + step :=
    ⟨_, rfl⟩
  rw [← hsum] at hresultFits hresultFiner ⊢
  have hunits : sum * 10 ^ places = n + off := by
    rw [hsum, hoff, ← hn, add_mul, add_mul, div_mul_cancel₀ _ hpow.ne']
    ring
  have hstepUnits : 1 < step * 10 ^ places := by
    have hkn : k + 1 ≤ n := by
      have hlt : (k : ℚ) < n := by
        rw [← hk, ← hn]
        exact mul_lt_mul_of_pos_right habove hpow
      exact Int.add_one_le_iff.mpr (by exact_mod_cast hlt)
    have hcast : (k : ℚ) + 1 ≤ n := by exact_mod_cast hkn
    have hless := mul_lt_mul_of_pos_right hbelow hpow
    rw [hk] at hless
    rw [add_mul] at hn
    linarith
  have hlarger : base ≤ sum := by
    refine le_of_mul_le_mul_right ?_ hpow
    rw [hunits, ← hn, add_mul]
    have hbounds := abs_le.mp hnear
    linarith
  have hcoarse : coarser ≤ places := by
    by_contra hlt
    refine hfiner coarser hcoarser (not_le.mp hlt) (hresultFits.mono ?_ le_rfl)
    rw [abs_of_nonneg hnonneg, abs_of_nonneg (hnonneg.trans hlarger)]
    exact hlarger
  obtain ⟨more, hmore⟩ := Nat.exists_eq_add_of_le hcoarse
  have hunitsAt : ∀ fewer less, places = fewer + less →
      sum * 10 ^ fewer = (base + step) * 10 ^ fewer + off / 10 ^ less := by
    intro fewer less hsplit
    have hpowLess : (0 : ℚ) < 10 ^ less := by positivity
    rw [← mul_left_inj' hpowLess.ne', add_mul, div_mul_cancel₀ _ hpowLess.ne', mul_assoc,
      mul_assoc, ← pow_add, ← hsplit, hunits, hn]
  have hpowCoarse : (0 : ℚ) < 10 ^ coarser := by positivity
  have htie : OddTie base (base + step) ↔ |off| = 1 / 2 ∧ ¬ Even n := by
    rw [hoff, ← fract_eq_half_iff]
    constructor
    · rintro ⟨other, hother, hotherFits, hotherFiner, hfract, m, hm, hmn⟩
      have hsame : other = places := by
        obtain hlt | heq | hlt := Nat.lt_trichotomy other places
        · exact absurd hfits (hotherFiner places hplaces hlt)
        · exact heq
        · exact absurd hotherFits (hfiner other hother hlt)
      subst hsame
      have hint : m = n := by exact_mod_cast hmn.symm.trans hn
      exact ⟨hfract, hint ▸ hm⟩
    · rintro ⟨hfract, hodd⟩
      exact ⟨places, hplaces, hfits, hfiner, hfract, n, hodd, hn⟩
  rw [htie, div_eq_iff hpowCoarse.ne']
  constructor
  · rintro heq ⟨hhalf, hodd⟩
    refine hodd ?_
    cases more with
    | zero =>
      rw [Nat.add_zero] at hmore
      subst hmore
      rw [hunits, hn] at heq
      exact even_of_halfEven_add hhalf (by exact_mod_cast heq)
    | succ more =>
      -- Rounded in fewer places, the sum is a multiple of ten units.
      have hten : (n : ℚ) = ((halfEven (sum * 10 ^ coarser) * 10 ^ more * 10 : ℤ) : ℚ) := by
        push_cast
        rw [heq, ← hn, hmore, pow_add, pow_succ]
        ring
      have hint : n = halfEven (sum * 10 ^ coarser) * 10 ^ more * 10 := by exact_mod_cast hten
      rw [hint]
      exact Even.mul_left (by decide) _
  · intro hgood
    have hgood : |off| = 1 / 2 → Even n := fun hhalf => by
      by_contra hodd
      exact hgood ⟨hhalf, hodd⟩
    have hsmall : ∀ less, less ≠ 0 → |off / 10 ^ less| < 1 / 2 := by
      intro less hless
      have hpowLess : (0 : ℚ) < 10 ^ less := by positivity
      rw [abs_div, abs_of_pos hpowLess, div_lt_iff₀ hpowLess]
      have hten : (10 : ℚ) ≤ 10 ^ less := le_self_pow₀ (by norm_num) hless
      linarith
    obtain ⟨x, hx, hvalue⟩ := hheld
    have hscale : x.scale ≤ places := scale_le_of_fits hfiner hx (by
      rw [hvalue, abs_of_nonneg hnonneg, abs_of_pos (hvpos.trans habove)]
      exact (hbelow.trans habove).le)
    -- The sum fits in the places the multiple is held in, so it is rounded in no fewer.
    have hheldIn : x.scale ≤ coarser := by
      by_contra hlt
      refine hresultFiner x.scale hx.2 (not_le.mp hlt) ?_
      obtain ⟨less, hless⟩ := Nat.exists_eq_add_of_le hscale
      have hmantissa : x.value * 10 ^ x.scale = x.mantissa := by
        have hwhole := value_mul_pow x 0
        rwa [Nat.add_zero, pow_zero, mul_one] at hwhole
      have hscaled := hunitsAt x.scale less hless
      rw [← hvalue, hmantissa] at hscaled
      have hbound : x.mantissa ≤ maxMantissa := (le_abs_self _).trans hx.1
      have hcast : (x.mantissa : ℚ) ≤ maxMantissa := by exact_mod_cast hbound
      rw [fitsAt_iff, abs_of_nonneg (hnonneg.trans hlarger), hscaled]
      by_cases hzero : less = 0
      · subst hzero
        rw [pow_zero, div_one]
        obtain hlt | heq := hnear.lt_or_eq
        · have hup := (abs_lt.mp hlt).2
          linarith
        · rw [Nat.add_zero] at hless
          have hsame : x.mantissa = n := by
            have hcast : (x.mantissa : ℚ) = n := by rw [← hmantissa, hvalue, ← hless, hn]
            exact_mod_cast hcast
          have heven := hgood heq
          have hstrict : x.mantissa + 1 ≤ maxMantissa := by
            refine Int.add_one_le_iff.mpr (lt_of_le_of_ne hbound fun hmax => ?_)
            rw [← hsame, hmax] at heven
            exact absurd heven (by decide)
          have hcast : (x.mantissa : ℚ) + 1 ≤ maxMantissa := by exact_mod_cast hstrict
          have hup := (abs_le.mp hnear).2
          linarith
      · have hup := (abs_lt.mp (hsmall less hzero)).2
        linarith
    obtain ⟨digits, hdigits⟩ := Nat.exists_eq_add_of_le hheldIn
    have hwhole := value_mul_pow x digits
    rw [← hdigits, hvalue] at hwhole
    rw [hunitsAt coarser more hmore, hwhole]
    have hrounds : halfEven (((x.mantissa * 10 ^ digits : ℤ) : ℚ) + off / 10 ^ more) =
        x.mantissa * 10 ^ digits := by
      by_cases hzero : more = 0
      · subst hzero
        rw [pow_zero, div_one]
        refine halfEven_add hnear fun hhalf => ?_
        rw [Nat.add_zero] at hmore
        have hsame : x.mantissa * 10 ^ digits = n := by
          have hcast : ((x.mantissa * 10 ^ digits : ℤ) : ℚ) = n := by rw [← hwhole, ← hmore, hn]
          exact_mod_cast hcast
        rw [hsame]
        exact hgood hhalf
      · have hlt := hsmall more hzero
        exact halfEven_add hlt.le fun hhalf => absurd hhalf hlt.ne
    rw [hrounds]

theorem abs_le_of_holds {y : ℚ} (h : Holds y) : |y| ≤ maxMantissa := by
  obtain ⟨x, hx, rfl⟩ := h
  have hmantissa : |(x.mantissa : ℚ)| ≤ maxMantissa := by exact_mod_cast hx.1
  unfold value
  rw [abs_div, abs_of_pos (by positivity : (0 : ℚ) < 10 ^ x.scale)]
  exact (div_le_self (abs_nonneg _) (one_le_pow₀ (by norm_num))).trans hmantissa

/-- The sum that is rounded to a multiple that is held is in range. -/
theorem away_fits (hnonneg : 0 ≤ base) (hstep : 0 ≤ step) (hrounded : RoundsTo base rounded)
    (hheld : Holds (base + step)) (htie : ¬ OddTie base (base + step)) :
    FitsAt (rounded + step) 0 := by
  have hpositive : 0 ≤ rounded :=
    hrounded.le_of_holds ⟨⟨0, 0⟩, by decide, by simp [value]⟩ hnonneg
  obtain ⟨places, hplaces, hfits, hfiner, rfl⟩ := hrounded
  have hpow : (0 : ℚ) < 10 ^ places := by positivity
  have hbound := (le_abs_self _).trans (abs_le_of_holds hheld)
  have hnear := halfEven_near (base * 10 ^ places)
  rw [fitsAt_iff, pow_zero, mul_one, abs_of_nonneg (add_nonneg hpositive hstep)]
  have hoff : (halfEven (base * 10 ^ places) : ℚ) / 10 ^ places =
      base + ((halfEven (base * 10 ^ places) : ℚ) - base * 10 ^ places) / 10 ^ places := by
    rw [sub_div, mul_div_cancel_right₀ _ hpow.ne']
    ring
  rw [hoff]
  obtain hlt | heq := hnear.lt_or_eq
  · have hsmall : ((halfEven (base * 10 ^ places) : ℚ) - base * 10 ^ places) / 10 ^ places <
        1 / 2 := by
      rw [div_lt_iff₀ hpow]
      have hup := (abs_lt.mp hlt).2
      have hone : (1 : ℚ) ≤ 10 ^ places := one_le_pow₀ (by norm_num)
      linarith
    linarith
  · -- Halfway, the multiple is even in those places, and the bound is odd.
    obtain ⟨n, hn⟩ := whole_of_holds hfiner hheld (by
      rw [abs_of_nonneg hnonneg, abs_of_nonneg (add_nonneg hnonneg hstep)]
      exact le_add_of_nonneg_right hstep)
    have heven : Even n := by
      by_contra hodd
      exact htie ⟨places, hplaces, hfits, hfiner, fract_eq_half_iff.mpr heq, n, hodd, hn⟩
    have hup := (abs_le.mp hnear).2
    cases places with
    | zero =>
      rw [pow_zero, mul_one] at hn
      have hle : n ≤ maxMantissa := by
        rw [hn] at hbound
        exact_mod_cast hbound
      have hstrict : n + 1 ≤ maxMantissa := by
        refine Int.add_one_le_iff.mpr (lt_of_le_of_ne hle fun hmax => ?_)
        rw [hmax] at heven
        exact absurd heven (by decide)
      have hcast : (n : ℚ) + 1 ≤ maxMantissa := by exact_mod_cast hstrict
      rw [pow_zero, mul_one, div_one] at *
      linarith
    | succ places =>
      have hsmall : ((halfEven (base * 10 ^ (places + 1)) : ℚ) - base * 10 ^ (places + 1)) /
          10 ^ (places + 1) < 1 / 2 := by
        rw [div_lt_iff₀ hpow]
        have hten : (10 : ℚ) ≤ 10 ^ (places + 1) := le_self_pow₀ (by norm_num) (Nat.succ_ne_zero _)
        linarith
      linarith

end

/-! ## Rounding to a multiple -/

theorem oddTie_neg {base next : ℚ} : OddTie (-base) (-next) ↔ OddTie base next := by
  have hfract (places : ℕ) :
      Int.fract (-base * 10 ^ places) = 1 / 2 ↔ Int.fract (base * 10 ^ places) = 1 / 2 := by
    rw [neg_mul, fract_eq_half_iff, fract_eq_half_iff, halfEven_neg, Int.cast_neg, ← neg_sub',
      abs_neg]
  have hodd (places : ℕ) : (∃ n : ℤ, ¬ Even n ∧ -next * 10 ^ places = n) ↔
      ∃ n : ℤ, ¬ Even n ∧ next * 10 ^ places = n := by
    constructor
    · rintro ⟨n, hn, heq⟩
      refine ⟨-n, by rwa [even_neg], ?_⟩
      rw [Int.cast_neg, ← heq, neg_mul, neg_neg]
    · rintro ⟨n, hn, heq⟩
      refine ⟨-n, by rwa [even_neg], ?_⟩
      rw [Int.cast_neg, ← heq, neg_mul]
  unfold OddTie
  simp only [fitsAt_neg, hfract, hodd]

section

variable {step v rounded result : ℚ}

/-- Toward zero: what the multiple is rounded to is the largest held at or below the value. -/
theorem toward_below (hstep : 0 < step) (hv : Holds v)
    (hrounded : RoundsTo (below step v) rounded) :
    rounded ≤ v ∧ ∀ y, Holds y → OnGrid step y → y ≤ v → y ≤ rounded :=
  ⟨hrounded.ge_of_holds hv (below_le hstep),
    fun _ hy hygrid hle => hrounded.le_of_holds hy (le_below hstep hygrid hle)⟩

theorem toward_above (hstep : 0 < step) (hv : Holds v)
    (hrounded : RoundsTo (above step v) rounded) :
    v ≤ rounded ∧ ∀ y, Holds y → OnGrid step y → v ≤ y → rounded ≤ y := by
  have hneg := hrounded.neg
  rw [← below_neg] at hneg
  obtain ⟨hle, hmost⟩ := toward_below hstep hv.neg hneg
  refine ⟨neg_le_neg_iff.mp hle, fun y hy hygrid hge => ?_⟩
  exact neg_le_neg_iff.mp (hmost (-y) hy.neg hygrid.neg (neg_le_neg hge))

theorem below_nonneg (hstep : 0 < step) (hv : 0 ≤ v) : 0 ≤ below step v := by
  unfold below
  have hfloor : (0 : ℚ) ≤ ⌊v / step⌋ := by exact_mod_cast Int.floor_nonneg.mpr (by positivity)
  positivity

theorem below_lt (hstep : 0 < step) (hoff : ¬ OnGrid step v) : below step v < v :=
  lt_of_le_of_ne (below_le hstep) fun heq => hoff ⟨_, heq.symm⟩

theorem away_above (hstep : 0 < step) (hv : Holds v) (hpositive : 0 < v) (hoff : ¬ OnGrid step v)
    (hrounded : RoundsTo (below step v) rounded) (hresult : RoundsTo (rounded + step) result)
    (hgrid : OnGrid step result) (hheld : Holds (below step v) ∨ ¬ Holds (above step v)) :
    v ≤ result ∧ ∀ y, Holds y → OnGrid step y → v ≤ y → result ≤ y := by
  rw [above_eq hstep hoff] at hheld
  exact away_extremal hv below_onGrid (below_nonneg hstep hpositive.le) (below_lt hstep hoff)
    (lt_below_add hstep) hrounded hresult hgrid hheld

theorem away_above_exact (hstep : 0 < step) (hv : Holds v) (hpositive : 0 < v)
    (hoff : ¬ OnGrid step v) (hrounded : RoundsTo (below step v) rounded)
    (hresult : RoundsTo (rounded + step) result) (hheld : Holds (above step v)) :
    result = above step v ↔ ¬ OddTie (below step v) (above step v) := by
  rw [above_eq hstep hoff] at hheld ⊢
  exact away_exact hv (below_nonneg hstep hpositive.le) (below_lt hstep hoff) (lt_below_add hstep)
    hrounded hresult hheld

theorem not_onGrid_neg (hoff : ¬ OnGrid step v) : ¬ OnGrid step (-v) := fun h => by
  have hneg := h.neg
  rw [neg_neg] at hneg
  exact hoff hneg

theorem RoundsTo.neg_add {base : ℚ} (h : RoundsTo (base - step) result) :
    RoundsTo (-base + step) (-result) := by
  have hneg := h.neg
  rwa [neg_sub, sub_eq_neg_add] at hneg

theorem away_below (hstep : 0 < step) (hv : Holds v) (hnegative : v < 0) (hoff : ¬ OnGrid step v)
    (hrounded : RoundsTo (above step v) rounded) (hresult : RoundsTo (rounded - step) result)
    (hgrid : OnGrid step result) (hheld : Holds (above step v) ∨ ¬ Holds (below step v)) :
    result ≤ v ∧ ∀ y, Holds y → OnGrid step y → y ≤ v → y ≤ result := by
  have hfrom := hrounded.neg
  rw [← below_neg] at hfrom
  obtain ⟨hle, hmost⟩ := away_above hstep hv.neg (neg_pos.mpr hnegative) (not_onGrid_neg hoff) hfrom
    hresult.neg_add hgrid.neg (by
      rw [below_neg, above_neg]
      exact hheld.imp Holds.neg fun h hneg => h (by simpa using hneg.neg))
  refine ⟨neg_le_neg_iff.mp hle, fun y hy hygrid hyle => ?_⟩
  exact neg_le_neg_iff.mp (hmost (-y) hy.neg hygrid.neg (neg_le_neg hyle))

theorem away_below_exact (hstep : 0 < step) (hv : Holds v) (hnegative : v < 0)
    (hoff : ¬ OnGrid step v) (hrounded : RoundsTo (above step v) rounded)
    (hresult : RoundsTo (rounded - step) result) (hheld : Holds (below step v)) :
    result = below step v ↔ ¬ OddTie (above step v) (below step v) := by
  have hfrom := hrounded.neg
  rw [← below_neg] at hfrom
  have hexact := away_above_exact hstep hv.neg (neg_pos.mpr hnegative) (not_onGrid_neg hoff) hfrom
    hresult.neg_add (by
      rw [above_neg]
      exact hheld.neg)
  rwa [below_neg, above_neg, neg_inj, oddTie_neg] at hexact

theorem away_above_fits (hstep : 0 < step) (hpositive : 0 < v) (hoff : ¬ OnGrid step v)
    (hrounded : RoundsTo (below step v) rounded) (hheld : Holds (above step v))
    (htie : ¬ OddTie (below step v) (above step v)) : FitsAt (rounded + step) 0 := by
  rw [above_eq hstep hoff] at hheld htie
  exact away_fits (below_nonneg hstep hpositive.le) hstep.le hrounded hheld htie

theorem away_below_fits (hstep : 0 < step) (hnegative : v < 0) (hoff : ¬ OnGrid step v)
    (hrounded : RoundsTo (above step v) rounded) (hheld : Holds (below step v))
    (htie : ¬ OddTie (above step v) (below step v)) : FitsAt (rounded - step) 0 := by
  have hfrom := hrounded.neg
  rw [← below_neg] at hfrom
  have hfits := away_above_fits hstep (neg_pos.mpr hnegative) (not_onGrid_neg hoff) hfrom (by
    rw [above_neg]
    exact hheld.neg) (by rwa [below_neg, above_neg, oddTie_neg])
  rw [← fitsAt_neg, neg_sub, sub_eq_neg_add]
  exact hfits

end

end Scaled
