import Rustrade.Instrument
import Rustrade.Lib.Digits
import Rustrade.Lib.Utf8

/-!
# Option symbols

An option contract is spelled as its underlying's root, its expiry as `YYMMDD`, `C` or `P`, and its
strike in thousandths as eight digits. `symbol` spells a contract, `root` and `parse` read a symbol
back by cutting the fixed-width suffix off its bytes.
-/

set_option autoImplicit false

namespace Rustrade.Osi

/-- `str`, as its characters. -/
abbrev Str := List Char

/-! ## What is read of the calendar and of characters -/

def isLeapYear (year : ℤ) : Bool := year % 4 = 0 && (year % 100 ≠ 0 || year % 400 = 0)

def daysInMonth (year : ℤ) (month : ℕ) : ℕ :=
  match month with
  | 2 => if isLeapYear year then 29 else 28
  | 4 | 6 | 9 | 11 => 30
  | _ => 31

/-- `chrono::NaiveDate`: a day of the calendar. -/
structure NaiveDate where
  year : ℤ
  month : ℕ
  day : ℕ
  month_range : 1 ≤ month ∧ month ≤ 12
  day_range : 1 ≤ day ∧ day ≤ daysInMonth year month
deriving DecidableEq

/-- Of a year the type has room for. -/
def NaiveDate.fromYmdOpt (year : ℤ) (month day : ℕ) : Option NaiveDate :=
  if h : (1 ≤ month ∧ month ≤ 12) ∧ (1 ≤ day ∧ day ≤ daysInMonth year month) then
    some ⟨year, month, day, h.1, h.2⟩
  else none

/-- `%y%m%d`. -/
def NaiveDate.format (self : NaiveDate) : Str :=
  Digits.padded 2 (self.year % 100).toNat ++ Digits.padded 2 self.month ++
    Digits.padded 2 self.day

/-- An instant in UTC: its date, and how far into the day it is. -/
structure UtcDateTime where
  dateNaive : NaiveDate
  time : ℕ
deriving DecidableEq

/-- The characters of Unicode's `White_Space`. -/
def isWhitespace (c : Char) : Bool :=
  c.toNat ∈ [0x20, 0x85, 0xa0, 0x1680, 0x2028, 0x2029, 0x202f, 0x205f, 0x3000] ||
    (9 ≤ c.toNat && c.toNat ≤ 13) || (0x2000 ≤ c.toNat && c.toNat ≤ 0x200a)

/-- Unicode's table of upper cases. A character has one or more, none of them white space unless it
    is, and each of them is its own. -/
class UpperCase where
  toUppercase : Char → List Char
  ne_nil : ∀ c, toUppercase c ≠ []
  not_whitespace : ∀ c, isWhitespace c = false → ∀ u ∈ toUppercase c, isWhitespace u = false
  idempotent : ∀ c, ∀ u ∈ toUppercase c, toUppercase u = [u]

def toUppercaseSmolstr [UpperCase] (s : Str) : Str := s.flatMap UpperCase.toUppercase

def isAsciiDigit (byte : UInt8) : Bool := 48 ≤ byte && byte ≤ 57

def checkedSub (a b : ℕ) : Option ℕ := if b ≤ a then some (a - b) else none

def stripPlus : Str → Str
  | '+' :: rest => rest
  | s => s

/-- `str::parse::<u32>`. -/
def parseU32 (s : Str) : Option ℕ :=
  let digits := stripPlus s
  if digits = [] ∨ digits.any (fun c => !c.isDigit) then none
  else
    let n := Nat.ofDigitChars 10 digits 0
    if n < 2 ^ 32 then some n else none

/-- `i32::try_from` of a `u32`. -/
def i32TryFrom (n : ℕ) : Option ℤ := if n < 2 ^ 31 then some n else none

def fract (x : Decimal) : Decimal := x - Decimal.trunc x

/-- The whole part, if there is room for it. -/
def toU64 (x : Decimal) : Option ℕ :=
  let whole := (Decimal.trunc x).num
  if 0 ≤ whole ∧ whole < 2 ^ 64 then some whole.toNat else none

/-! ## Symbols -/

structure MarketDataOptionContract where
  kind : OptionKind
  exercise : OptionExercise
  expiry : UtcDateTime
  strike : Decimal
deriving DecidableEq

def suffixLen : ℕ := 15

def maxStrikeThousandths : ℕ := 99999999

def right : OptionKind → Char
  | .call => 'C'
  | .put => 'P'

def symbol [DecimalRange] [UpperCase] (root : Str) (contract : MarketDataOptionContract) :
    Option Str := do
  let thousandths ← Decimal.checkedMul contract.strike 1000
  if fract thousandths ≠ 0 ∨ thousandths ≤ 0 then
    none
  else
    let thousandths ← (toU64 thousandths).filter fun t => t ≤ maxStrikeThousandths
    return toUppercaseSmolstr root ++ contract.expiry.dateNaive.format ++ [right contract.kind] ++
      Digits.padded 8 thousandths

def root (symbol : Str) : Option Str := do
  let split ← checkedSub (Utf8.size symbol) suffixLen
  let (root, suffix) ← Utf8.splitAt? symbol split
  let suffix := Utf8.bytes suffix
  let wellFormed := root ≠ [] ∧ (root.any isWhitespace = false) ∧
    (suffix.take 6).all isAsciiDigit ∧
    (suffix[6]? = some 'C'.val.toUInt8 ∨ suffix[6]? = some 'P'.val.toUInt8) ∧
    (suffix.drop 7).all isAsciiDigit
  if wellFormed then some root else none

structure Parsed where
  root : Str
  expiry : NaiveDate
  kind : OptionKind
  strike : Decimal
deriving DecidableEq

def parse (symbol : Str) : Option Parsed := do
  let root ← root symbol
  -- The suffix is ASCII, so its bytes are its characters.
  let suffix := symbol.drop root.length
  let number (first last : ℕ) : Option ℕ := parseU32 ((suffix.drop first).take (last - first))
  let year ← i32TryFrom (← number 0 2)
  let expiry ← NaiveDate.fromYmdOpt (2000 + year) (← number 2 4) (← number 4 6)
  let kind := if suffix[6]? = some 'C' then OptionKind.call else .put
  let thousandths ← (number 7 suffixLen).filter fun thousandths => 0 < thousandths
  return { root, expiry, kind, strike := thousandths / 1000 }

/-! ## The suffix -/

/-- What may stand before the suffix. -/
structure IsRoot (s : Str) : Prop where
  ne_nil : s ≠ []
  not_whitespace : s.any isWhitespace = false

/-- A field of the suffix: so many digits. -/
structure IsField (width : ℕ) (s : Str) : Prop where
  length : s.length = width
  digits : ∀ c ∈ s, c.isDigit = true

/-- A text is a root and a suffix of well-formed fields. -/
structure Splits (s root date strike : Str) (kind : OptionKind) : Prop where
  eq : s = root ++ (date ++ right kind :: strike)
  isRoot : IsRoot root
  date : IsField 6 date
  strike : IsField 8 strike

variable {s r date strike : Str} {kind : OptionKind} {c : Char}

theorem ascii_of_isDigit (h : c.isDigit = true) : c.utf8Size = 1 := by
  have hle := (Digits.digit_bounds h).2
  rw [Char.utf8Size_eq_one_iff, UInt32.le_iff_toNat_le]
  exact hle.trans (by decide)

theorem ascii_right : (right kind).utf8Size = 1 := by
  cases kind <;> rfl

theorem toNat_toUInt8 (h : c.utf8Size = 1) : c.val.toUInt8.toNat = c.toNat := by
  rw [Char.utf8Size_eq_one_iff, UInt32.le_iff_toNat_le] at h
  have hle : c.val.toNat ≤ 127 := h
  rw [UInt32.toNat_toUInt8]
  exact Nat.mod_eq_of_lt (hle.trans_lt (by decide))

theorem isAsciiDigit_iff (h : c.utf8Size = 1) : isAsciiDigit c.val.toUInt8 = c.isDigit := by
  have hfour : (48 : UInt8).toNat = 48 := rfl
  have hnine : (57 : UInt8).toNat = 57 := rfl
  rw [Bool.eq_iff_iff]
  unfold isAsciiDigit Char.isDigit
  simp only [Bool.and_eq_true, decide_eq_true_eq, UInt8.le_iff_toNat_le, toNat_toUInt8 h, hfour,
    hnine]
  rfl

/-- A character of one byte is the one its byte is. -/
theorem eq_of_toUInt8 {d : Char} (hc : c.utf8Size = 1) (hd : d.utf8Size = 1)
    (h : c.val.toUInt8 = d.val.toUInt8) : c = d := by
  have hnat := congrArg UInt8.toNat h
  rw [toNat_toUInt8 hc, toNat_toUInt8 hd] at hnat
  exact Char.toNat_inj.1 hnat

/-- The digits and the letter of a suffix are a byte each. -/
theorem ascii_suffix (hdate : IsField 6 date) (hstrike : IsField 8 strike) :
    ∀ c ∈ date ++ right kind :: strike, c.utf8Size = 1 := by
  intro c hc
  rcases List.mem_append.1 hc with hc | hc
  · exact ascii_of_isDigit (hdate.digits c hc)
  rcases List.mem_cons.1 hc with rfl | hc
  · exact ascii_right
  · exact ascii_of_isDigit (hstrike.digits c hc)

/-- Bytes of a well-formed suffix are ASCII. -/
theorem ascii_of_wellFormed {bytes : List UInt8} (hdate : (bytes.take 6).all isAsciiDigit = true)
    (hright : bytes[6]? = some 'C'.val.toUInt8 ∨ bytes[6]? = some 'P'.val.toUInt8)
    (hstrike : (bytes.drop 7).all isAsciiDigit = true) : ∀ b ∈ bytes, b < 128 := by
  have hdigit : ∀ b, isAsciiDigit b = true → b < 128 := by
    intro b hb
    unfold isAsciiDigit at hb
    simp only [Bool.and_eq_true, decide_eq_true_eq] at hb
    exact UInt8.lt_of_le_of_lt hb.2 (by decide)
  intro b hb
  rw [← List.take_append_drop 6 bytes, List.mem_append] at hb
  rcases hb with hb | hb
  · exact hdigit b (List.all_eq_true.1 hdate b hb)
  cases hdrop : bytes.drop 6 with
  | nil =>
    rw [hdrop] at hb
    cases hb
  | cons first rest =>
    have hfirst : bytes[6]? = some first := by
      rw [← List.head?_drop, hdrop]
      rfl
    have hrest : bytes.drop 7 = rest := by
      rw [← List.drop_drop (i := 1) (j := 6), hdrop]
      rfl
    rw [hdrop] at hb
    rcases List.mem_cons.1 hb with rfl | hb
    · rw [hfirst] at hright
      rcases hright with hright | hright
      · cases Option.some.inj hright
        decide
      · cases Option.some.inj hright
        decide
    · rw [hrest] at hstrike
      exact hdigit b (List.all_eq_true.1 hstrike b hb)

/-- Characters of one byte, cut at their bytes, are cut at their places. -/
theorem splits_of_bytes {suffix : Str} (hsize : Utf8.size suffix = suffixLen)
    (hdate : ((Utf8.bytes suffix).take 6).all isAsciiDigit = true)
    (hright : (Utf8.bytes suffix)[6]? = some 'C'.val.toUInt8 ∨
      (Utf8.bytes suffix)[6]? = some 'P'.val.toUInt8)
    (hstrike : ((Utf8.bytes suffix).drop 7).all isAsciiDigit = true) :
    ∃ date kind strike, suffix = date ++ right kind :: strike ∧ IsField 6 date ∧ IsField 8 strike := by
  have hascii := Utf8.ascii_of_all_bytes (ascii_of_wellFormed hdate hright hstrike)
  rw [Utf8.size_of_ascii hascii] at hsize
  have hlength : suffix.length = 15 := hsize
  rw [Utf8.bytes_of_ascii hascii] at hdate hright hstrike
  have hdigits : ∀ {cs : Str}, (∀ c ∈ cs, c ∈ suffix) →
      (cs.map fun c => c.val.toUInt8).all isAsciiDigit = true → ∀ c ∈ cs, c.isDigit = true := by
    intro cs hsub hall c hc
    rw [← isAsciiDigit_iff (hascii c (hsub c hc))]
    exact List.all_eq_true.1 hall _ (List.mem_map_of_mem hc)
  rw [← List.map_take] at hdate
  rw [← List.map_drop] at hstrike
  rw [List.getElem?_map] at hright
  have hsix : suffix[6]? = some suffix[6] := List.getElem?_eq_getElem (by omega)
  rw [hsix, Option.map_some, Option.some.injEq, Option.some.injEq] at hright
  have hmem : suffix[6] ∈ suffix := List.getElem_mem _
  obtain ⟨kind, hkind⟩ : ∃ kind, suffix[6] = right kind := by
    rcases hright with hright | hright
    · exact ⟨.call, eq_of_toUInt8 (hascii _ hmem) rfl hright⟩
    · exact ⟨.put, eq_of_toUInt8 (hascii _ hmem) rfl hright⟩
  refine ⟨suffix.take 6, kind, suffix.drop 7, ?_, ⟨by simp [hlength], ?_⟩, ⟨by simp [hlength], ?_⟩⟩
  · rw [← hkind, ← List.drop_eq_getElem_cons, List.take_append_drop]
  · exact hdigits (fun c hc => List.mem_of_mem_take hc) hdate
  · exact hdigits (fun c hc => List.mem_of_mem_drop hc) hstrike

theorem all_isAsciiDigit {width : ℕ} {cs : Str} (h : IsField width cs) :
    (cs.map fun c => c.val.toUInt8).all isAsciiDigit = true := by
  rw [List.all_map, List.all_eq_true]
  intro c hc
  show isAsciiDigit c.val.toUInt8 = true
  rw [isAsciiDigit_iff (ascii_of_isDigit (h.digits c hc))]
  exact h.digits c hc

theorem root_of_splits (h : Splits s r date strike kind) : root s = some r := by
  have hascii : ∀ c ∈ date ++ right kind :: strike, c.utf8Size = 1 :=
    ascii_suffix h.date h.strike
  have hsize : Utf8.size (date ++ right kind :: strike) = 15 := by
    rw [Utf8.size_of_ascii hascii]
    simp [h.date.length, h.strike.length]
  have hbytes := Utf8.bytes_of_ascii hascii
  have hcut : checkedSub (Utf8.size s) suffixLen = some (Utf8.size r) := by
    rw [h.eq, Utf8.size_append, hsize]
    unfold checkedSub suffixLen
    rw [if_pos (Nat.le_add_left _ _), Nat.add_sub_cancel]
  have hsplit : Utf8.splitAt? s (Utf8.size r) = some (r, date ++ right kind :: strike) := by
    rw [h.eq]
    exact Utf8.splitAt?_append
  have hdate := all_isAsciiDigit h.date
  have hstrike := all_isAsciiDigit h.strike
  have htake : (Utf8.bytes (date ++ right kind :: strike)).take 6 =
      date.map fun c => c.val.toUInt8 := by
    rw [hbytes, List.map_append, List.take_left' (by simp [h.date.length])]
  have hsix : (Utf8.bytes (date ++ right kind :: strike))[6]? = some (right kind).val.toUInt8 := by
    rw [hbytes, List.map_append, List.getElem?_append_right (by simp [h.date.length])]
    simp [h.date.length]
  have hdrop : (Utf8.bytes (date ++ right kind :: strike)).drop 7 =
      strike.map fun c => c.val.toUInt8 := by
    rw [hbytes, List.map_append, List.map_cons, ← List.singleton_append, ← List.append_assoc,
      List.drop_left' (by simp [h.date.length])]
  have hright : (Utf8.bytes (date ++ right kind :: strike))[6]? = some 'C'.val.toUInt8 ∨
      (Utf8.bytes (date ++ right kind :: strike))[6]? = some 'P'.val.toUInt8 := by
    rw [hsix]
    cases kind with
    | call => exact .inl rfl
    | put => exact .inr rfl
  unfold root
  simp only [hcut, hsplit, Option.bind_eq_bind, Option.bind_some]
  rw [if_pos]
  refine ⟨h.isRoot.ne_nil, h.isRoot.not_whitespace, ?_, hright, ?_⟩
  · rw [htake]
    exact hdate
  · rw [hdrop]
    exact hstrike

/-- A text has a root exactly where it is the root and a suffix. -/
theorem root_eq_some_iff : root s = some r ↔ ∃ date kind strike, Splits s r date strike kind := by
  constructor
  · intro h
    unfold root at h
    obtain ⟨split, hsplit, h⟩ := Option.bind_eq_some_iff.1 h
    obtain ⟨⟨found, suffix⟩, hcut, hformed⟩ := Option.bind_eq_some_iff.1 h
    clear h
    unfold checkedSub at hsplit
    split at hsplit
    · rename_i hle
      cases hsplit
      obtain ⟨rfl, hsize⟩ := Utf8.splitAt?_eq_some hcut
      rw [Utf8.size_append] at hsize hle
      dsimp only at hformed
      split at hformed
      · rename_i hwell
        cases hformed
        obtain ⟨hne, hwhite, hdate, hright, hstrike⟩ := hwell
        obtain ⟨date, kind, strike, rfl, hdateField, hstrikeField⟩ :=
          splits_of_bytes (by omega) hdate hright hstrike
        exact ⟨date, kind, strike, rfl, ⟨hne, hwhite⟩, hdateField, hstrikeField⟩
      · cases hformed
    · cases hsplit
  · rintro ⟨date, kind, strike, h⟩
    exact root_of_splits h

end Rustrade.Osi
