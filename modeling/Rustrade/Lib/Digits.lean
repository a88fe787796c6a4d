import Mathlib.Algebra.Group.Nat.Defs
import Mathlib.Data.Nat.Init
import Mathlib.Tactic.Common

/-!
# Numbers padded to a width

A number is written in decimal and padded with zeros to a width. What fits the width is read back
from it, and digits of that width are the number they are read as.
-/

set_option autoImplicit false

namespace Digits

/-- A number in at least so many digits. -/
def padded (width n : ℕ) : List Char := (Nat.toDigits 10 n).leftpad width '0'

variable {width n : ℕ} {ds es : List Char}

theorem padded_isDigit : ∀ c ∈ padded width n, c.isDigit = true := by
  intro c hc
  rcases List.mem_append.1 hc with hc | hc
  · rw [List.eq_of_mem_replicate hc]
    rfl
  · exact Nat.isDigit_of_mem_toDigits (by decide) (by decide) hc

theorem length_padded (h : n < 10 ^ width) (hwidth : 0 < width) : (padded width n).length = width := by
  have hle : (Nat.toDigits 10 n).length ≤ width := (Nat.length_toDigits_le_iff (by decide) hwidth).2 h
  rw [padded, List.length_leftpad]
  omega

@[simp] theorem ofDigitChars_padded : Nat.ofDigitChars 10 (padded width n) 0 = n := by
  rw [padded, List.leftpad, Nat.ofDigitChars_append, Nat.ofDigitChars_replicate_zero, Nat.mul_zero,
    Nat.ofDigitChars_toDigits (by decide) (by decide)]

theorem digit_bounds {c : Char} (h : c.isDigit = true) : 48 ≤ c.toNat ∧ c.toNat ≤ 57 := by
  simp only [Char.isDigit, Bool.and_eq_true, decide_eq_true_eq] at h
  exact h

theorem digit_lt {c : Char} (h : c.isDigit = true) : c.toNat - '0'.toNat < 10 := by
  have hbounds := digit_bounds h
  have hzero : '0'.toNat = 48 := rfl
  omega

/-- Digits are of a number below the width's power. -/
theorem ofDigitChars_lt (h : ∀ c ∈ ds, c.isDigit = true) :
    Nat.ofDigitChars 10 ds 0 < 10 ^ ds.length := by
  induction ds with
  | nil => simp
  | cons c ds ih =>
    have hrest := ih fun d hd => h d (List.mem_cons_of_mem c hd)
    have hdigit := digit_lt (h c (List.mem_cons_self ..))
    rw [Nat.ofDigitChars_cons, Nat.ofDigitChars_eq_ofDigitChars_zero, Nat.mul_zero, Nat.zero_add,
      List.length_cons, Nat.pow_succ]
    calc 10 ^ ds.length * (c.toNat - '0'.toNat) + Nat.ofDigitChars 10 ds 0
        < 10 ^ ds.length * (c.toNat - '0'.toNat) + 10 ^ ds.length := Nat.add_lt_add_left hrest _
      _ = 10 ^ ds.length * (c.toNat - '0'.toNat + 1) :=
        (Nat.mul_succ _ _).symm
      _ ≤ 10 ^ ds.length * 10 := Nat.mul_le_mul_left _ hdigit

theorem eq_of_digit {c d : Char} (hc : c.isDigit = true) (hd : d.isDigit = true)
    (h : c.toNat - '0'.toNat = d.toNat - '0'.toNat) : c = d := by
  have hzero : '0'.toNat = 48 := rfl
  have hsame : c.toNat = d.toNat := by
    have hcbounds := digit_bounds hc
    have hdbounds := digit_bounds hd
    omega
  exact Char.toNat_inj.1 hsame

/-- Digits of one width that are of one number are the same. -/
theorem eq_of_ofDigitChars (hds : ∀ c ∈ ds, c.isDigit = true) (hes : ∀ c ∈ es, c.isDigit = true)
    (hlength : ds.length = es.length)
    (h : Nat.ofDigitChars 10 ds 0 = Nat.ofDigitChars 10 es 0) : ds = es := by
  induction ds generalizing es with
  | nil => exact (List.length_eq_zero_iff.1 hlength.symm).symm
  | cons c ds ih =>
    cases es with
    | nil => cases hlength
    | cons d es =>
      have hsame : ds.length = es.length := Nat.succ.inj hlength
      have hdsRest : ∀ c ∈ ds, c.isDigit = true := fun e he => hds e (List.mem_cons_of_mem c he)
      have hesRest : ∀ c ∈ es, c.isDigit = true := fun e he => hes e (List.mem_cons_of_mem d he)
      have hltDs := ofDigitChars_lt hdsRest
      have hltEs := ofDigitChars_lt hesRest
      rw [Nat.ofDigitChars_cons, Nat.ofDigitChars_cons, Nat.ofDigitChars_eq_ofDigitChars_zero,
        Nat.ofDigitChars_eq_ofDigitChars_zero (l := es), Nat.mul_zero, Nat.zero_add, Nat.zero_add, hsame] at h
      rw [hsame] at hltDs
      have hpos : 0 < 10 ^ es.length := Nat.pow_pos (by decide)
      have hfirst : c.toNat - '0'.toNat = d.toNat - '0'.toNat := by
        have hdiv := congrArg (· / 10 ^ es.length) h
        simpa [Nat.mul_add_div hpos, Nat.div_eq_of_lt hltDs, Nat.div_eq_of_lt hltEs] using hdiv
      rw [hfirst] at h
      rw [eq_of_digit (hds c (List.mem_cons_self ..)) (hes d (List.mem_cons_self ..)) hfirst,
        ih hdsRest hesRest hsame (Nat.add_left_cancel h)]

/-- Digits are their number, padded to their width. -/
theorem padded_ofDigitChars (h : ∀ c ∈ ds, c.isDigit = true) (hpos : ds ≠ []) :
    padded ds.length (Nat.ofDigitChars 10 ds 0) = ds :=
  eq_of_ofDigitChars padded_isDigit h
    (length_padded (ofDigitChars_lt h) (List.length_pos_iff.2 hpos)) ofDigitChars_padded

end Digits
