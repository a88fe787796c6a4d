import Rustrade.Lib.Fitted

/-!
# The arithmetic of a decimal type of bounded width

The remainder of two decimals is held, and exact. A sum or a difference is rounded where it has more
digits than fit, and is none where it is out of range.
-/

set_option autoImplicit false

/-- A decimal of the width. -/
structure Fitted extends Scaled where
  fits : toScaled.Fits
  deriving DecidableEq

namespace Fitted

def isZero (x : Fitted) : Bool := x.mantissa = 0

def isSignNegative (x : Fitted) : Bool := x.mantissa < 0

theorem holds (x : Fitted) : Scaled.Holds x.value := ⟨x.toScaled, x.fits, rfl⟩

theorem isZero_iff {x : Fitted} : x.isZero = true ↔ x.value = 0 := by
  have hpow : (10 : ℚ) ^ x.scale ≠ 0 := by positivity
  unfold isZero Scaled.value
  rw [decide_eq_true_eq, div_eq_zero_iff, or_iff_left hpow, Int.cast_eq_zero]

theorem isSignNegative_iff {x : Fitted} : x.isSignNegative = true ↔ x.value < 0 := by
  have hpow : (0 : ℚ) < 10 ^ x.scale := by positivity
  unfold isSignNegative Scaled.value
  rw [decide_eq_true_eq, div_lt_iff₀ hpow, zero_mul, Int.cast_lt_zero]

theorem exists_of_holds {v : ℚ} (h : Scaled.Holds v) : ∃ x : Fitted, x.value = v := by
  obtain ⟨x, hx, hv⟩ := h
  exact ⟨⟨x, hx⟩, hv⟩

end Fitted

namespace Scaled

/-- What a sum or a difference comes to: nothing, where it is out of range. -/
def Rounded (v : ℚ) : Option Fitted → Prop
  | none => ¬ FitsAt v 0
  | some r => RoundsTo v r.value

end Scaled

namespace Scaled

theorem strip_fits {mantissa : ℤ} {scale : ℕ} (h : Scaled.Fits ⟨mantissa, scale⟩) :
    (strip mantissa scale).Fits := by
  induction scale generalizing mantissa with
  | zero => exact h
  | succ scale ih =>
    unfold strip
    split
    · rename_i hdvd
      obtain ⟨part, rfl⟩ := hdvd
      rw [Int.mul_ediv_cancel_left _ (by decide)]
      refine ih ⟨?_, Nat.le_of_succ_le h.2⟩
      have hle : |10 * part| ≤ maxMantissa := h.1
      rw [abs_mul] at hle
      have hten : |(10 : ℤ)| = 10 := rfl
      rw [hten] at hle
      have hnonneg := abs_nonneg part
      show |part| ≤ maxMantissa
      linarith
    · exact h

end Scaled

namespace Fitted

/-- The zeros at its end left off. -/
def normalize (x : Fitted) : Fitted := ⟨x.toScaled.normalize, Scaled.strip_fits x.fits⟩

@[simp] theorem value_normalize (x : Fitted) : x.normalize.value = x.value :=
  Scaled.value_normalize x.toScaled

end Fitted

/-- The decimal type's operators: the remainder is exact, and takes the sign of what is divided; a
sum or a difference with more digits than fit is rounded. -/
structure DecimalArithmetic where
  rem : Fitted → Fitted → Fitted
  checkedAdd : Fitted → Fitted → Option Fitted
  checkedSub : Fitted → Fitted → Option Fitted
  rem_value : ∀ x y : Fitted, 0 < y.value →
    (rem x y).value = x.value - y.value * RoundingStrategy.toZero.toInt (x.value / y.value)
  checkedAdd_rounded : ∀ x y : Fitted, Scaled.Rounded (x.value + y.value) (checkedAdd x y)
  checkedSub_rounded : ∀ x y : Fitted, Scaled.Rounded (x.value - y.value) (checkedSub x y)

namespace DecimalArithmetic

open Scaled

/-- The value in the most places it fits in, from so many down. -/
def fit (v : ℚ) : (places : ℕ) → places ≤ maxScale → Option Fitted
  | 0, hplaces => if h : FitsAt v 0 then some ⟨⟨halfEven (v * 10 ^ 0), 0⟩, h, hplaces⟩ else none
  | places + 1, hplaces =>
    if h : FitsAt v (places + 1) then
      some ⟨⟨halfEven (v * 10 ^ (places + 1)), places + 1⟩, h, hplaces⟩
    else fit v places (Nat.le_of_succ_le hplaces)

/-- Where no finer place fits. -/
theorem fit_rounded {v : ℚ} {places : ℕ} (hplaces : places ≤ maxScale)
    (hfiner : ∀ finer ≤ maxScale, places < finer → ¬ FitsAt v finer) :
    Rounded v (fit v places hplaces) := by
  induction places with
  | zero =>
    unfold fit
    split
    · rename_i hfits
      exact ⟨0, hplaces, hfits, hfiner, rfl⟩
    · assumption
  | succ places ih =>
    unfold fit
    split
    · rename_i hfits
      exact ⟨places + 1, hplaces, hfits, hfiner, rfl⟩
    · rename_i hfits
      refine ih _ fun finer hle hlt => ?_
      obtain rfl | hlt := (Nat.succ_le_of_lt hlt).eq_or_lt
      · exact hfits
      · exact hfiner finer hle hlt

end DecimalArithmetic

theorem Scaled.roundsTo_self {v : ℚ} (h : Scaled.Holds v) : Scaled.RoundsTo v v := by
  obtain ⟨x, hx, rfl⟩ := h
  have hrounded := DecimalArithmetic.fit_rounded (v := x.value) (le_refl Scaled.maxScale)
    fun finer hle hlt => absurd hle (not_le.mpr hlt)
  cases hfit : DecimalArithmetic.fit x.value Scaled.maxScale (le_refl _) with
  | none =>
    rw [hfit] at hrounded
    exact absurd ((hx.fitsAt le_rfl).mono le_rfl (Nat.zero_le _)) hrounded
  | some r =>
    rw [hfit] at hrounded
    have hsame := Scaled.RoundsTo.eq_of_holds hrounded ⟨x, hx, rfl⟩
    have hself : Scaled.RoundsTo x.value r.value := hrounded
    rwa [hsame] at hself

namespace DecimalArithmetic

open Scaled

/-- A value whole in so many places keeps them, where they fit. -/
theorem fit_whole {v : ℚ} {places : ℕ} (hplaces : places ≤ maxScale)
    (hwhole : ∃ n : ℤ, v * 10 ^ places = n) : Rounded v (fit v places hplaces) := by
  by_cases hfits : FitsAt v places
  · obtain ⟨n, hn⟩ := hwhole
    have hpow : (10 : ℚ) ^ places ≠ 0 := by positivity
    have hsame : ((halfEven (v * 10 ^ places) : ℤ) : ℚ) / 10 ^ places = v := by
      rw [hn, halfEven_int, ← hn, mul_div_cancel_right₀ _ hpow]
    have hholds : Holds v := ⟨⟨halfEven (v * 10 ^ places), places⟩, ⟨hfits, hplaces⟩, hsame⟩
    have hfit : fit v places hplaces =
        some ⟨⟨halfEven (v * 10 ^ places), places⟩, hfits, hplaces⟩ := by
      cases places with
      | zero => exact dif_pos hfits
      | succ places => exact dif_pos hfits
    rw [hfit]
    have hself := roundsTo_self hholds
    show RoundsTo v (((halfEven (v * 10 ^ places) : ℤ) : ℚ) / 10 ^ places)
    rwa [hsame]
  · exact fit_rounded hplaces fun finer _ hlt hfit => hfits (hfit.mono le_rfl hlt.le)

/-- The mantissa of a decimal in so many places. -/
def mantissaIn (x : Scaled) (places : ℕ) : ℤ := x.mantissa * 10 ^ (places - x.scale)

theorem mantissaIn_eq {x : Scaled} {places : ℕ} (h : x.scale ≤ places) :
    x.value * 10 ^ places = mantissaIn x places := by
  obtain ⟨more, rfl⟩ := Nat.exists_eq_add_of_le h
  rw [value_mul_pow, mantissaIn, Nat.add_sub_cancel_left]

theorem toZero_div {a b : ℤ} (hb : 0 < b) :
    RoundingStrategy.toZero.toInt ((a : ℚ) / b) = a.tdiv b := by
  have hbq : (0 : ℚ) < b := by exact_mod_cast hb
  have hfloor (a : ℤ) : ⌊(a : ℚ) / b⌋ = a / b := by
    rw [Int.floor_eq_iff, le_div_iff₀ hbq, div_lt_iff₀ hbq]
    have hle := Int.ediv_mul_le a hb.ne'
    have hlt := Int.lt_ediv_add_one_mul_self a hb
    constructor
    · exact_mod_cast hle
    · exact_mod_cast hlt
  unfold RoundingStrategy.toInt
  dsimp only
  by_cases ha : 0 ≤ a
  · have hq : (0 : ℚ) ≤ a / b := div_nonneg (by exact_mod_cast ha) hbq.le
    rw [if_pos hq, hfloor, Int.tdiv_eq_ediv_of_nonneg ha]
  · have haq : (a : ℚ) < 0 := by exact_mod_cast not_le.mp ha
    have hq : ¬ (0 : ℚ) ≤ a / b := not_le.mpr (div_neg_of_neg_of_pos haq hbq)
    have hneg : (a : ℚ) / b = -(((-a : ℤ) : ℚ) / b) := by
      push_cast
      rw [neg_div, neg_neg]
    rw [if_neg hq, hneg, Int.ceil_neg, hfloor, ← Int.tdiv_eq_ediv_of_nonneg (by omega),
      Int.neg_tdiv, neg_neg]

theorem abs_tmod_le (a b : ℤ) : |a.tmod b| ≤ |a| := by
  rw [Int.abs_eq_natAbs, Int.abs_eq_natAbs, Int.natAbs_tmod]
  exact_mod_cast Nat.mod_le _ _

theorem abs_tmod_lt (a : ℤ) {b : ℤ} (hb : b ≠ 0) : |a.tmod b| < |b| := by
  rw [Int.abs_eq_natAbs, Int.abs_eq_natAbs, Int.natAbs_tmod]
  exact_mod_cast Nat.mod_lt _ (Int.natAbs_pos.mpr hb)

/-- The remainder, in the places of whichever has more. -/
def documentedRem (x y : Fitted) : Fitted :=
  if hzero : y.mantissa = 0 then x
  else
    ⟨⟨(mantissaIn x.toScaled (max x.scale y.scale)).tmod
        (mantissaIn y.toScaled (max x.scale y.scale)), max x.scale y.scale⟩, by
      refine ⟨?_, max_le x.fits.2 y.fits.2⟩
      obtain hle | hle := le_total x.scale y.scale
      · -- The remainder is smaller than the divisor, whose mantissa is as it was.
        have hsame : mantissaIn y.toScaled (max x.scale y.scale) = y.mantissa := by
          rw [max_eq_right hle, mantissaIn, Nat.sub_self, pow_zero, mul_one]
        dsimp only
        rw [hsame]
        exact (abs_tmod_lt _ hzero).le.trans y.fits.1
      · have hsame : mantissaIn x.toScaled (max x.scale y.scale) = x.mantissa := by
          rw [max_eq_left hle, mantissaIn, Nat.sub_self, pow_zero, mul_one]
        dsimp only
        rw [hsame]
        exact (abs_tmod_le _ _).trans x.fits.1⟩

theorem documentedRem_value (x y : Fitted) (hy : 0 < y.value) : (documentedRem x y).value =
    x.value - y.value * RoundingStrategy.toZero.toInt (x.value / y.value) := by
  obtain ⟨places, hplaces⟩ : ∃ places, places = max x.scale y.scale := ⟨_, rfl⟩
  have hpow : (0 : ℚ) < 10 ^ places := by positivity
  have hx := mantissaIn_eq (x := x.toScaled) (hplaces ▸ le_max_left _ _ : x.scale ≤ places)
  have hyIn := mantissaIn_eq (x := y.toScaled) (hplaces ▸ le_max_right _ _ : y.scale ≤ places)
  have hpositive : 0 < mantissaIn y.toScaled places := by
    have hcast : (0 : ℚ) < mantissaIn y.toScaled places := by
      rw [← hyIn]
      positivity
    exact_mod_cast hcast
  have hzero : y.mantissa ≠ 0 := fun heq => by
    unfold mantissaIn at hpositive
    rw [heq, zero_mul] at hpositive
    exact lt_irrefl _ hpositive
  have hquotient : x.value / y.value =
      (mantissaIn x.toScaled places : ℚ) / mantissaIn y.toScaled places := by
    rw [← hx, ← hyIn, mul_div_mul_right _ _ hpow.ne']
  have hmod := Int.tmod_add_mul_tdiv (mantissaIn x.toScaled places) (mantissaIn y.toScaled places)
  have hvalue : (documentedRem x y).value = ((mantissaIn x.toScaled places).tmod
      (mantissaIn y.toScaled places) : ℤ) / 10 ^ places := by
    unfold documentedRem
    rw [dif_neg hzero, hplaces]
    rfl
  have hcast : ((mantissaIn x.toScaled places : ℤ) : ℚ) =
      (mantissaIn x.toScaled places).tmod (mantissaIn y.toScaled places) +
        mantissaIn y.toScaled places *
          (mantissaIn x.toScaled places).tdiv (mantissaIn y.toScaled places) := by
    exact_mod_cast hmod.symm
  rw [hvalue, hquotient, toZero_div hpositive, div_eq_iff hpow.ne', sub_mul, hx,
    mul_right_comm, hyIn]
  linarith

/-- The arithmetic the decimal type documents. -/
def documented : DecimalArithmetic where
  rem := documentedRem
  checkedAdd x y := fit (x.value + y.value) (max x.scale y.scale) (max_le x.fits.2 y.fits.2)
  checkedSub x y := fit (x.value - y.value) (max x.scale y.scale) (max_le x.fits.2 y.fits.2)
  rem_value := documentedRem_value
  checkedAdd_rounded x y := by
    refine fit_whole _ ⟨mantissaIn x.toScaled (max x.scale y.scale) +
      mantissaIn y.toScaled (max x.scale y.scale), ?_⟩
    rw [add_mul, mantissaIn_eq (le_max_left _ _), mantissaIn_eq (le_max_right _ _)]
    push_cast
    rfl
  checkedSub_rounded x y := by
    refine fit_whole _ ⟨mantissaIn x.toScaled (max x.scale y.scale) -
      mantissaIn y.toScaled (max x.scale y.scale), ?_⟩
    rw [sub_mul, mantissaIn_eq (le_max_left _ _), mantissaIn_eq (le_max_right _ _)]
    push_cast
    rfl

end DecimalArithmetic
