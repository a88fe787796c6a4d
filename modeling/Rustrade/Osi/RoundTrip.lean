import Rustrade.Osi.Symbol
import Mathlib.Tactic.FieldSimp
import Mathlib.Tactic.Linarith

/-!
# A symbol reads back

What `symbol` spells, `parse` reads back to the same root in upper case, date, kind and strike. What
`parse` accepts is spelled back exactly where its root is in upper case already.
-/

set_option autoImplicit false

namespace Rustrade.Osi

variable {s r yy mm dd ks : Str} {kind : OptionKind} {width : ℕ} {cs : Str}

/-! ## What is read -/

/-- The number a field is of. -/
def value (cs : Str) : ℕ := Nat.ofDigitChars 10 cs 0

theorem stripPlus_of_digits (h : ∀ c ∈ cs, c.isDigit = true) : stripPlus cs = cs := by
  unfold stripPlus
  split
  · have hplus := h '+' (List.mem_cons_self ..)
    cases hplus
  · rfl

theorem value_lt (h : IsField width cs) : value cs < 10 ^ width := by
  rw [← h.length]
  exact Digits.ofDigitChars_lt h.digits

theorem parseU32_of_field (h : IsField width cs) (hpos : 0 < width) (hwidth : width ≤ 9) :
    parseU32 cs = some (value cs) := by
  have hne : cs ≠ [] := by
    rintro rfl
    exact hpos.ne h.length
  have hlt : value cs < 2 ^ 32 :=
    (value_lt h).trans_le ((Nat.pow_le_pow_right (by decide) hwidth).trans (by decide))
  have hany : ¬ (cs = [] ∨ cs.any (fun c => !c.isDigit) = true) := by
    rintro (hnil | hany)
    · exact hne hnil
    · obtain ⟨c, hc, hdigit⟩ := List.any_eq_true.1 hany
      rw [h.digits c hc] at hdigit
      cases hdigit
  unfold parseU32
  rw [stripPlus_of_digits h.digits]
  dsimp only
  rw [if_neg hany]
  exact if_pos hlt

/-- What a symbol is made of, field by field. -/
structure Fields (s r yy mm dd ks : Str) (kind : OptionKind) : Prop where
  eq : s = r ++ (yy ++ mm ++ dd ++ right kind :: ks)
  isRoot : IsRoot r
  year : IsField 2 yy
  month : IsField 2 mm
  day : IsField 2 dd
  strike : IsField 8 ks

theorem Fields.splits (h : Fields s r yy mm dd ks kind) :
    Splits s r (yy ++ mm ++ dd) ks kind where
  eq := h.eq
  isRoot := h.isRoot
  date := by
    refine ⟨by simp [h.year.length, h.month.length, h.day.length], ?_⟩
    intro c hc
    simp only [List.mem_append] at hc
    rcases hc with (hc | hc) | hc
    · exact h.year.digits c hc
    · exact h.month.digits c hc
    · exact h.day.digits c hc
  strike := h.strike

/-- The date of a suffix is three fields. -/
theorem exists_fields {date : Str} (h : Splits s r date ks kind) :
    ∃ yy mm dd, Fields s r yy mm dd ks kind := by
  have hdigits : ∀ {cs : Str}, (∀ c ∈ cs, c ∈ date) → ∀ c ∈ cs, c.isDigit = true :=
    fun hsub c hc => h.date.digits c (hsub c hc)
  refine ⟨date.take 2, (date.drop 2).take 2, date.drop 4, ?_, h.isRoot,
    ⟨by simp [h.date.length], hdigits fun c hc => List.mem_of_mem_take hc⟩,
    ⟨by simp [h.date.length], hdigits fun c hc => List.mem_of_mem_drop (List.mem_of_mem_take hc)⟩,
    ⟨by simp [h.date.length], hdigits fun c hc => List.mem_of_mem_drop hc⟩, h.strike⟩
  have hrest : (date.drop 2).take 2 ++ date.drop 4 = date.drop 2 := by
    rw [← List.drop_drop (i := 2) (j := 2), List.take_append_drop]
  have hdate : date.take 2 ++ (date.drop 2).take 2 ++ date.drop 4 = date := by
    rw [List.append_assoc, hrest, List.take_append_drop]
  rw [hdate]
  exact h.eq

/-- What is read of the fields. -/
theorem parse_of_fields (h : Fields s r yy mm dd ks kind) :
    parse s = (NaiveDate.fromYmdOpt (2000 + value yy) (value mm) (value dd)).bind fun expiry =>
      if 0 < value ks then some ⟨r, expiry, kind, value ks / 1000⟩ else none := by
  have hroot := root_of_splits h.splits
  have hsuffix : s.drop r.length = yy ++ (mm ++ (dd ++ right kind :: ks)) := by
    rw [h.eq, List.drop_left]
    simp
  have hyear := parseU32_of_field h.year (by decide) (by decide)
  have hmonth := parseU32_of_field h.month (by decide) (by decide)
  have hday := parseU32_of_field h.day (by decide) (by decide)
  have hstrike := parseU32_of_field h.strike (by decide) (by decide)
  have hyy : ((s.drop r.length).drop 0).take (2 - 0) = yy := by
    rw [hsuffix]
    exact List.take_left' h.year.length
  have hmm : ((s.drop r.length).drop 2).take (4 - 2) = mm := by
    rw [hsuffix, List.drop_left' h.year.length]
    exact List.take_left' h.month.length
  have hdd : ((s.drop r.length).drop 4).take (6 - 4) = dd := by
    rw [hsuffix, ← List.append_assoc, List.drop_left' (by simp [h.year.length, h.month.length])]
    exact List.take_left' h.day.length
  have hks : ((s.drop r.length).drop 7).take (suffixLen - 7) = ks := by
    rw [hsuffix, ← List.append_assoc, ← List.append_assoc, ← List.singleton_append,
      ← List.append_assoc, List.drop_left' (by simp [h.year.length, h.month.length, h.day.length])]
    exact List.take_of_length_le h.strike.length.le
  have hkind : (if (s.drop r.length)[6]? = some 'C' then OptionKind.call else .put) = kind := by
    rw [hsuffix, ← List.append_assoc, ← List.append_assoc,
      List.getElem?_append_right (by simp [h.year.length, h.month.length, h.day.length])]
    simp only [List.length_append, h.year.length, h.month.length, h.day.length]
    cases kind <;> rfl
  have hi32 : i32TryFrom (value yy) = some (value yy : ℤ) := by
    unfold i32TryFrom
    exact if_pos ((value_lt h.year).trans (by decide))
  unfold parse
  simp only [hroot, Option.bind_eq_bind, Option.bind_some, hyy, hmm, hdd, hks, hkind, hyear, hmonth,
    hday, hstrike, hi32]
  cases NaiveDate.fromYmdOpt (2000 + value yy) (value mm) (value dd) with
  | none => rfl
  | some expiry =>
    rw [Option.bind_some, Option.bind_some]
    by_cases hzero : 0 < value ks
    · rw [Option.filter_some_pos (by simpa using hzero), if_pos hzero]
      rfl
    · rw [Option.filter_some_neg (by simpa using hzero), if_neg hzero]
      rfl

/-! ## What is spelled -/

variable {n : ℕ}

theorem trunc_natCast : Decimal.trunc (n : ℚ) = n := by
  unfold Decimal.trunc
  rw [if_pos (Nat.cast_nonneg n), Int.floor_natCast]
  rfl

theorem toU64_natCast (h : n < 2 ^ 64) : toU64 n = some n := by
  unfold toU64
  rw [trunc_natCast]
  dsimp only
  rw [Rat.num_natCast, if_pos ⟨Int.natCast_nonneg n, by exact_mod_cast h⟩, Int.toNat_natCast]

/-- A whole number of thousandths is what is left of the scaled strike. -/
theorem natCast_of_toU64 {x : Decimal} (hfract : fract x = 0) (h : toU64 x = some n) : x = n := by
  unfold toU64 at h
  dsimp only at h
  split at h
  · rename_i hrange
    have hx : x = Decimal.trunc x := sub_eq_zero.1 hfract
    obtain ⟨whole, hwhole⟩ : ∃ whole : ℤ, Decimal.trunc x = whole := by
      unfold Decimal.trunc
      split
      · exact ⟨_, rfl⟩
      · exact ⟨_, rfl⟩
    rw [hwhole] at h hx hrange
    rw [Rat.num_intCast] at h hrange
    cases h
    rw [hx]
    exact_mod_cast (Int.toNat_of_nonneg hrange.1).symm
  · cases h

theorem isField_padded {width : ℕ} (h : n < 10 ^ width) (hwidth : 0 < width) :
    IsField width (Digits.padded width n) :=
  ⟨Digits.length_padded h hwidth, Digits.padded_isDigit⟩

theorem daysInMonth_le (year : ℤ) (month : ℕ) : daysInMonth year month ≤ 31 := by
  unfold daysInMonth
  split
  · split <;> decide
  all_goals decide

theorem yearOfCentury_lt (date : NaiveDate) : (date.year % 100).toNat < 100 := by
  have hlt := Int.emod_lt_of_pos date.year (by decide : (0 : ℤ) < 100)
  omega

theorem fromYmdOpt_self (date : NaiveDate) :
    NaiveDate.fromYmdOpt date.year date.month date.day = some date := by
  unfold NaiveDate.fromYmdOpt
  rw [dif_pos ⟨date.month_range, date.day_range⟩]

theorem fromYmdOpt_eq_some {year : ℤ} {month day : ℕ} {date : NaiveDate}
    (h : NaiveDate.fromYmdOpt year month day = some date) :
    date.year = year ∧ date.month = month ∧ date.day = day := by
  unfold NaiveDate.fromYmdOpt at h
  split at h
  · cases h
    exact ⟨rfl, rfl, rfl⟩
  · cases h

/-- What was read is made of fields that are its own. -/
theorem fields_of_parse {parsed : Parsed} (h : parse s = some parsed) :
    ∃ yy mm dd ks, Fields s parsed.root yy mm dd ks parsed.kind ∧
      parsed.expiry.year = 2000 + value yy ∧ parsed.expiry.month = value mm ∧
      parsed.expiry.day = value dd ∧ 0 < value ks ∧ parsed.strike = value ks / 1000 := by
  have hparse := h
  unfold parse at h
  obtain ⟨r, hroot, -⟩ := Option.bind_eq_some_iff.1 h
  obtain ⟨date, kind, ks, hsplits⟩ := root_eq_some_iff.1 hroot
  obtain ⟨yy, mm, dd, hfields⟩ := exists_fields hsplits
  rw [parse_of_fields hfields] at hparse
  obtain ⟨expiry, hexpiry, hparse⟩ := Option.bind_eq_some_iff.1 hparse
  split at hparse
  · rename_i hpos
    cases hparse
    obtain ⟨hyear, hmonth, hday⟩ := fromYmdOpt_eq_some hexpiry
    exact ⟨yy, mm, dd, ks, hfields, hyear, hmonth, hday, hpos, rfl⟩
  · cases hparse

/-- The century whose years two digits name. -/
def InCentury (contract : MarketDataOptionContract) : Prop :=
  2000 ≤ contract.expiry.dateNaive.year ∧ contract.expiry.dateNaive.year ≤ 2099

section

variable [UpperCase] {contract : MarketDataOptionContract}

/-- A root and a contract of so many thousandths, spelled. -/
def spelled (root : Str) (contract : MarketDataOptionContract) (thousandths : ℕ) : Str :=
  toUppercaseSmolstr root ++ contract.expiry.dateNaive.format ++ [right contract.kind] ++
    Digits.padded 8 thousandths

/-- In upper case, a root is still one. -/
theorem IsRoot.toUppercase (h : IsRoot r) : IsRoot (toUppercaseSmolstr r) := by
  obtain ⟨hne, hwhite⟩ := h
  constructor
  · cases r with
    | nil => exact absurd rfl hne
    | cons c rest =>
      intro hnil
      exact UpperCase.ne_nil c (List.append_eq_nil_iff.1 hnil).1
  · rw [List.any_eq_false]
    intro u hu
    obtain ⟨c, hc, huc⟩ := List.mem_flatMap.1 hu
    have hblack : isWhitespace c = false := by
      rw [List.any_eq_false] at hwhite
      simpa using hwhite c hc
    rw [UpperCase.not_whitespace c hblack u huc]
    exact Bool.false_ne_true

/-- Upper case is in upper case. -/
theorem toUppercaseSmolstr_idem :
    toUppercaseSmolstr (toUppercaseSmolstr r) = toUppercaseSmolstr r := by
  have hfixed : ∀ {us : Str}, (∀ u ∈ us, UpperCase.toUppercase u = [u]) →
      toUppercaseSmolstr us = us := by
    intro us hus
    induction us with
    | nil => rfl
    | cons u us ih =>
      show UpperCase.toUppercase u ++ toUppercaseSmolstr us = u :: us
      rw [hus u (List.mem_cons_self ..), ih fun v hv => hus v (List.mem_cons_of_mem u hv)]
      rfl
  apply hfixed
  intro u hu
  obtain ⟨c, -, huc⟩ := List.mem_flatMap.1 hu
  exact UpperCase.idempotent c u huc

/-- A spelled contract is made of its own fields. -/
theorem fields_spelled (hroot : IsRoot r) (hle : n ≤ maxStrikeThousandths) :
    Fields (spelled r contract n) (toUppercaseSmolstr r)
      (Digits.padded 2 (contract.expiry.dateNaive.year % 100).toNat)
      (Digits.padded 2 contract.expiry.dateNaive.month)
      (Digits.padded 2 contract.expiry.dateNaive.day) (Digits.padded 8 n) contract.kind where
  eq := by
    unfold spelled NaiveDate.format
    simp only [List.append_assoc, List.singleton_append]
  isRoot := hroot.toUppercase
  year := isField_padded (yearOfCentury_lt _) (by decide)
  month := by
    have hmonth := contract.expiry.dateNaive.month_range.2
    exact isField_padded (by omega) (by decide)
  day := by
    have hday := contract.expiry.dateNaive.day_range.2
    have hdays := daysInMonth_le contract.expiry.dateNaive.year contract.expiry.dateNaive.month
    exact isField_padded (by omega) (by decide)
  strike := isField_padded (hle.trans_lt (by decide)) (by decide)

/-- What is spelled reads back. -/
theorem parse_spelled (hroot : IsRoot r) (hcentury : InCentury contract) (hpos : 0 < n)
    (hle : n ≤ maxStrikeThousandths) :
    parse (spelled r contract n) =
      some ⟨toUppercaseSmolstr r, contract.expiry.dateNaive, contract.kind, n / 1000⟩ := by
  have hyear : 2000 + ((contract.expiry.dateNaive.year % 100).toNat : ℤ) =
      contract.expiry.dateNaive.year := by
    obtain ⟨hfrom, hto⟩ := hcentury
    omega
  rw [parse_of_fields (fields_spelled hroot hle)]
  unfold value
  simp only [Digits.ofDigitChars_padded]
  rw [hyear, fromYmdOpt_self, Option.bind_some, if_pos hpos]

/-- Of a contract that was read, what is spelled is the text with its root in upper case. -/
theorem spelled_of_fields {ks yy mm dd : Str} {parsed : Parsed}
    (h : Fields s parsed.root yy mm dd ks parsed.kind)
    (hyear : parsed.expiry.year = 2000 + value yy) (hmonth : parsed.expiry.month = value mm)
    (hday : parsed.expiry.day = value dd) (hkind : contract.kind = parsed.kind)
    (hexpiry : contract.expiry.dateNaive = parsed.expiry) :
    spelled r contract (value ks) =
      toUppercaseSmolstr r ++ (yy ++ mm ++ dd ++ right parsed.kind :: ks) := by
  have hback : ∀ {width : ℕ} {cs : Str}, IsField width cs → 0 < width →
      Digits.padded width (value cs) = cs := by
    intro width cs hfield hpos
    have hne : cs ≠ [] := by
      rintro rfl
      exact hpos.ne hfield.length
    rw [← hfield.length]
    exact Digits.padded_ofDigitChars hfield.digits hne
  have hcentury : (parsed.expiry.year % 100).toNat = value yy := by
    have hlt := value_lt h.year
    rw [hyear]
    omega
  unfold spelled NaiveDate.format
  rw [hexpiry, hkind, hcentury, hmonth, hday, hback h.year (by decide), hback h.month (by decide),
    hback h.day (by decide), hback h.strike (by decide)]
  simp only [List.append_assoc, List.singleton_append]

/-! ## The round trip -/

variable [DecimalRange]

/-- A contract is spelled exactly where its strike is a positive number of thousandths that eight
    digits hold. -/
theorem symbol_eq_some_iff (hfits : ∀ n : ℕ, n ≤ maxStrikeThousandths → DecimalRange.fits n = true) :
    symbol r contract = some s ↔ ∃ n : ℕ, 0 < n ∧ n ≤ maxStrikeThousandths ∧
      contract.strike = n / 1000 ∧ s = spelled r contract n := by
  constructor
  · intro h
    unfold symbol at h
    obtain ⟨scaled, hscaled, h⟩ := Option.bind_eq_some_iff.1 h
    split at h
    · cases h
    · rename_i hwhole
      rw [not_or, not_not, not_le] at hwhole
      obtain ⟨n, hn, h⟩ := Option.bind_eq_some_iff.1 h
      cases h
      obtain ⟨hn, hle⟩ := Option.filter_eq_some_iff.1 hn
      have hscaled : contract.strike * 1000 = scaled := Decimal.ofExact_eq_some hscaled
      have hcount : scaled = n := natCast_of_toU64 hwhole.1 hn
      rw [hcount] at hscaled hwhole
      refine ⟨n, by exact_mod_cast hwhole.2, of_decide_eq_true hle, ?_, rfl⟩
      linarith
  · rintro ⟨n, hpos, hle, hstrike, rfl⟩
    have hscaled : Decimal.checkedMul contract.strike 1000 = some (n : ℚ) := by
      have heq : contract.strike * 1000 = (n : ℚ) := by
        rw [hstrike]
        ring
      unfold Decimal.checkedMul Decimal.ofExact
      rw [heq, if_pos (hfits n hle)]
    have hwhole : ¬ (fract (n : ℚ) ≠ 0 ∨ (n : ℚ) ≤ 0) := by
      rw [not_or, not_not, not_le]
      refine ⟨?_, by exact_mod_cast hpos⟩
      unfold fract
      rw [trunc_natCast, sub_self]
    have hn : n < 2 ^ 64 := hle.trans_lt (by decide)
    unfold symbol
    rw [hscaled, Option.bind_eq_bind, Option.bind_some, if_neg hwhole, toU64_natCast hn,
      Option.filter_some_pos (by simpa using hle)]
    rfl

/-- A positive multiple of a thousandth, below a hundred thousand. -/
def IsStrike (strike : Decimal) : Prop := ∃ n : ℕ, 0 < n ∧ strike = n / 1000 ∧ strike < 100000

/-- A root and a contract spell a text. -/
structure Spells (root : Str) (contract : MarketDataOptionContract) (s : Str) : Prop where
  isRoot : IsRoot root
  century : InCentury contract
  symbol : symbol root contract = some s

/-- A contract is what was read of it. -/
structure MarketDataOptionContract.Names (contract : MarketDataOptionContract) (parsed : Parsed) :
    Prop where
  expiry : contract.expiry.dateNaive = parsed.expiry
  kind : contract.kind = parsed.kind
  strike : contract.strike = parsed.strike

theorem symbol_eq_none_iff
    (hfits : ∀ n : ℕ, n ≤ maxStrikeThousandths → DecimalRange.fits n = true) :
    symbol r contract = none ↔ ¬ IsStrike contract.strike := by
  rw [Option.eq_none_iff_forall_ne_some]
  constructor
  · rintro h ⟨n, hpos, hstrike, hlt⟩
    have hle : n ≤ maxStrikeThousandths := by
      rw [hstrike] at hlt
      have hcast : (n : ℚ) < 100000000 := by linarith
      have hcount : n < 100000000 := by exact_mod_cast hcast
      exact Nat.le_of_lt_succ hcount
    exact h _ ((symbol_eq_some_iff hfits).2 ⟨n, hpos, hle, hstrike, rfl⟩)
  · intro h s hsymbol
    obtain ⟨n, hpos, hle, hstrike, -⟩ := (symbol_eq_some_iff hfits).1 hsymbol
    refine h ⟨n, hpos, hstrike, ?_⟩
    have hcast : (n : ℚ) ≤ 99999999 := by exact_mod_cast hle
    rw [hstrike]
    linarith

theorem Spells.parse (hfits : ∀ n : ℕ, n ≤ maxStrikeThousandths → DecimalRange.fits n = true)
    (h : Spells r contract s) : parse s =
      some ⟨toUppercaseSmolstr r, contract.expiry.dateNaive, contract.kind, contract.strike⟩ := by
  obtain ⟨n, hpos, hle, hstrike, rfl⟩ := (symbol_eq_some_iff hfits).1 h.symbol
  rw [hstrike]
  exact parse_spelled h.isRoot h.century hpos hle

theorem Spells.root (hfits : ∀ n : ℕ, n ≤ maxStrikeThousandths → DecimalRange.fits n = true)
    (h : Spells r contract s) : root s = some (toUppercaseSmolstr r) := by
  obtain ⟨n, hpos, hle, hstrike, rfl⟩ := (symbol_eq_some_iff hfits).1 h.symbol
  exact root_of_splits (fields_spelled h.isRoot hle).splits

/-- What was read is spelled back exactly where its root is in upper case. -/
theorem spells_back_iff (hfits : ∀ n : ℕ, n ≤ maxStrikeThousandths → DecimalRange.fits n = true)
    {parsed : Parsed} (h : Osi.parse s = some parsed) :
    ((∀ contract : MarketDataOptionContract, contract.Names parsed →
        symbol parsed.root contract = some s) ∧ ∃ root contract, Spells root contract s) ↔
      toUppercaseSmolstr (s.take (s.length - suffixLen)) = s.take (s.length - suffixLen) := by
  obtain ⟨yy, mm, dd, ks, hfields, hyear, hmonth, hday, hpos, hstrike⟩ := fields_of_parse h
  have hcut : s.take (s.length - suffixLen) = parsed.root := by
    have hlength : s.length - suffixLen = parsed.root.length := by
      rw [hfields.eq]
      simp [suffixLen, hfields.year.length, hfields.month.length, hfields.day.length,
        hfields.strike.length]
    rw [hlength, hfields.eq, List.take_left]
  rw [hcut]
  have hle : value ks ≤ maxStrikeThousandths := Nat.le_of_lt_succ (value_lt hfields.strike)
  have hnamed : ∀ contract : MarketDataOptionContract, contract.Names parsed →
      symbol parsed.root contract = some (toUppercaseSmolstr parsed.root ++
        (yy ++ mm ++ dd ++ right parsed.kind :: ks)) := by
    intro contract hnames
    refine (symbol_eq_some_iff hfits).2 ⟨value ks, hpos, hle, hnames.strike.trans hstrike, ?_⟩
    exact (spelled_of_fields hfields hyear hmonth hday hnames.kind hnames.expiry).symm
  constructor
  · rintro ⟨-, root, contract, hspells⟩
    have hsame := hspells.parse hfits
    rw [h, Option.some.injEq] at hsame
    rw [hsame]
    exact toUppercaseSmolstr_idem
  · intro hupper
    rw [hupper, ← hfields.eq] at hnamed
    refine ⟨hnamed, parsed.root, ⟨parsed.kind, .american, ⟨parsed.expiry, 0⟩, parsed.strike⟩,
      hfields.isRoot, ?_, hnamed _ ⟨rfl, rfl, rfl⟩⟩
    have hlt := value_lt hfields.year
    show 2000 ≤ parsed.expiry.year ∧ parsed.expiry.year ≤ 2099
    omega

/-- A spelled symbol reads back to its root in upper case, its date, kind and strike, and a text that
    reads as a contract is spelled by one exactly where its root is in upper case. -/
theorem symbol_round_trip
    (hfits : ∀ n : ℕ, n ≤ maxStrikeThousandths → DecimalRange.fits n = true) :
    (∀ root contract s, Spells root contract s →
      Osi.parse s = some ⟨toUppercaseSmolstr root, contract.expiry.dateNaive, contract.kind,
        contract.strike⟩ ∧ Osi.root s = some (toUppercaseSmolstr root)) ∧
    (∀ root other contract otherContract s, Spells root contract s →
      Spells other otherContract s → toUppercaseSmolstr root = toUppercaseSmolstr other ∧
        contract.expiry.dateNaive = otherContract.expiry.dateNaive ∧
        contract.kind = otherContract.kind ∧ contract.strike = otherContract.strike) ∧
    (∀ root contract, symbol root contract = none ↔ ¬ IsStrike contract.strike) ∧
    (∀ s parsed, Osi.parse s = some parsed →
      (((∀ contract : MarketDataOptionContract, contract.Names parsed →
          symbol parsed.root contract = some s) ∧ ∃ root contract, Spells root contract s) ↔
        toUppercaseSmolstr (s.take (s.length - suffixLen)) = s.take (s.length - suffixLen))) := by
  refine ⟨fun _ _ _ h => ⟨h.parse hfits, h.root hfits⟩, ?_, fun _ _ => symbol_eq_none_iff hfits,
    fun _ _ h => spells_back_iff hfits h⟩
  intro root other contract otherContract s h hother
  have hsame := (h.parse hfits).symm.trans (hother.parse hfits)
  cases contract
  cases otherContract
  simp only [Option.some.injEq, Parsed.mk.injEq] at hsame
  exact hsame

end

/-! ## A root in lower case -/

def upperAscii (c : Char) : Char := if c.isLower then Char.ofNat (c.toNat - 32) else c

theorem exists_of_isLower {c : Char} (h : c.isLower = true) :
    ∃ n : Fin 26, c = Char.ofNat (97 + n) := by
  unfold Char.isLower at h
  rw [Bool.and_eq_true, decide_eq_true_eq, decide_eq_true_eq] at h
  have hfrom : 97 ≤ c.toNat := h.1
  have hto : c.toNat ≤ 122 := h.2
  have hsame : c.toNat = 97 + (c.toNat - 97) := by omega
  refine ⟨⟨c.toNat - 97, by omega⟩, ?_⟩
  rw [← hsame, Char.ofNat_toNat]

/-- A lower case letter has one upper case, which is no letter of lower case. -/
theorem upperAscii_of_isLower {c : Char} (h : c.isLower = true) :
    isWhitespace (upperAscii c) = false ∧ (upperAscii c).isLower = false := by
  have hall : ∀ n : Fin 26, isWhitespace (upperAscii (Char.ofNat (97 + n))) = false ∧
      (upperAscii (Char.ofNat (97 + n))).isLower = false := by
    decide
  obtain ⟨n, rfl⟩ := exists_of_isLower h
  exact hall n

/-- The upper cases of ASCII. -/
abbrev asciiUpperCase : UpperCase where
  toUppercase c := [upperAscii c]
  ne_nil _ := List.cons_ne_nil _ _
  not_whitespace c h u hu := by
    rw [List.mem_singleton.1 hu]
    by_cases hlower : c.isLower = true
    · exact (upperAscii_of_isLower hlower).1
    · rw [upperAscii, if_neg hlower]
      exact h
  idempotent c u hu := by
    rw [List.mem_singleton.1 hu]
    by_cases hlower : c.isLower = true
    · rw [upperAscii, (upperAscii_of_isLower hlower).2]
      rfl
    · have hsame : upperAscii c = c := if_neg hlower
      rw [hsame, hsame]

/-- A call on the last day of September 2026, at 700. -/
def call700 : MarketDataOptionContract where
  kind := .call
  exercise := .american
  expiry := ⟨⟨2026, 9, 30, by decide, by decide⟩, 0⟩
  strike := 700

theorem symbol_spy : @symbol DecimalRange.exact asciiUpperCase "spy".toList call700 =
    some "SPY260930C00700000".toList := by
  decide +kernel

theorem symbol_round_trip_spy : ∃ (_ : DecimalRange) (_ : UpperCase),
    Osi.parse "SPY260930C00700000".toList =
      some ⟨"SPY".toList, ⟨2026, 9, 30, by decide, by decide⟩, .call, 700⟩ := by
  let _ : DecimalRange := DecimalRange.exact
  let _ : UpperCase := asciiUpperCase
  refine ⟨DecimalRange.exact, asciiUpperCase, ?_⟩
  have hspells : Spells "spy".toList call700 "SPY260930C00700000".toList := by
    exact ⟨⟨by decide, by decide⟩, ⟨by decide, by decide⟩, symbol_spy⟩
  exact ((symbol_round_trip fun _ _ => rfl).1 _ _ _ hspells).1

/-- A root in lower case is read, and spelled back as another text. -/
theorem lower_case_root : ¬ ∀ (_ : DecimalRange) (_ : UpperCase),
    (∀ n : ℕ, n ≤ maxStrikeThousandths → DecimalRange.fits n = true) →
    ∀ (s : Str) (parsed : Parsed), Osi.parse s = some parsed →
      ∀ contract : MarketDataOptionContract, contract.Names parsed →
        symbol parsed.root contract = some s := by
  intro hclaim
  let _ : DecimalRange := DecimalRange.exact
  let _ : UpperCase := asciiUpperCase
  have hparse : Osi.parse "spy260930C00700000".toList =
      some ⟨"spy".toList, call700.expiry.dateNaive, .call, 700⟩ := by
    decide +kernel
  have hspelled := hclaim DecimalRange.exact asciiUpperCase (fun _ _ => rfl) _ _ hparse call700
    ⟨rfl, rfl, rfl⟩
  rw [symbol_spy] at hspelled
  exact absurd hspelled (by decide)

end Rustrade.Osi
