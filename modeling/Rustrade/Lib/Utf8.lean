import Mathlib.Algebra.BigOperators.Group.List.Basic
import Mathlib.Algebra.GroupWithZero.Nat
import Mathlib.Tactic.Common

/-!
# Text by its bytes

A text is a list of characters that is cut, measured and looked at by its UTF-8 bytes. A cut inside
a character is none. Bytes that are all ASCII are one a character, so on them the two views agree.
-/

set_option autoImplicit false

namespace Utf8

def size (cs : List Char) : ℕ := (cs.map Char.utf8Size).sum

def bytes (cs : List Char) : List UInt8 := cs.flatMap String.utf8EncodeChar

/-- The text up to a byte and from it on, if a character starts or ends there. -/
def splitAt? : List Char → ℕ → Option (List Char × List Char)
  | cs, 0 => some ([], cs)
  | [], _ + 1 => none
  | c :: cs, n + 1 =>
    if c.utf8Size ≤ n + 1 then (splitAt? cs (n + 1 - c.utf8Size)).map fun (a, b) => (c :: a, b)
    else none

variable {cs xs ys : List Char} {c : Char} {n : ℕ}

@[simp] theorem size_append : size (xs ++ ys) = size xs + size ys := by
  simp [size]

@[simp] theorem size_cons : size (c :: cs) = c.utf8Size + size cs := by
  simp [size]

@[simp] theorem bytes_append : bytes (xs ++ ys) = bytes xs ++ bytes ys := by
  simp [bytes]

@[simp] theorem length_bytes : (bytes cs).length = size cs := by
  induction cs with
  | nil => rfl
  | cons c cs ih =>
    rw [size_cons, ← ih]
    simp [bytes]

theorem splitAt?_append : splitAt? (xs ++ ys) (size xs) = some (xs, ys) := by
  induction xs with
  | nil => cases ys <;> rfl
  | cons c xs ih =>
    have hpos : 0 < c.utf8Size := c.utf8Size_pos
    obtain ⟨n, hn⟩ : ∃ n, size (c :: xs) = n + 1 := ⟨size (c :: xs) - 1, by rw [size_cons]; omega⟩
    have hrest : n + 1 - c.utf8Size = size xs := by
      rw [size_cons] at hn
      omega
    rw [hn, List.cons_append, splitAt?, if_pos (by rw [size_cons] at hn; omega), hrest, ih]
    rfl

theorem splitAt?_eq_some (h : splitAt? cs n = some (xs, ys)) : cs = xs ++ ys ∧ size xs = n := by
  induction cs, n using splitAt?.induct generalizing xs with
  | case1 cs =>
    cases cs <;>
    · cases h
      exact ⟨rfl, rfl⟩
  | case2 n => cases h
  | case3 c cs n hle ih =>
    rw [splitAt?, if_pos hle, Option.map_eq_some_iff] at h
    obtain ⟨⟨a, b⟩, hsplit, heq⟩ := h
    cases heq
    obtain ⟨rfl, hsize⟩ := ih hsplit
    exact ⟨rfl, by rw [size_cons, hsize]; omega⟩
  | case4 c cs n hlt =>
    rw [splitAt?, if_neg hlt] at h
    cases h

/-! ## ASCII -/

theorem utf8EncodeChar_of_ascii (h : c.utf8Size = 1) : String.utf8EncodeChar c = [c.val.toUInt8] :=
  String.utf8EncodeChar_eq_singleton h

/-- The bits that mark the first byte of several put it above ASCII. -/
theorem not_ascii_or {b mark : UInt8} (h : 128 ≤ mark.toNat) : ¬ b ||| mark < 128 := by
  have hle : mark.toNat ≤ b.toNat ||| mark.toNat := Nat.right_le_or
  have hlimit : (128 : UInt8).toNat = 128 := rfl
  rw [UInt8.lt_iff_toNat_lt, UInt8.toNat_or, hlimit]
  omega

theorem ascii_of_bytes (h : ∀ b ∈ String.utf8EncodeChar c, b < 128) : c.utf8Size = 1 := by
  have hpos := c.utf8Size_pos
  have hle := c.utf8Size_le_four
  obtain hone | htwo | hthree | hfour : c.utf8Size = 1 ∨ c.utf8Size = 2 ∨ c.utf8Size = 3 ∨
      c.utf8Size = 4 := by omega
  · exact hone
  · rw [String.utf8EncodeChar_eq_cons_cons htwo] at h
    exact absurd (h _ (List.mem_cons_self ..)) (not_ascii_or (by decide))
  · rw [String.utf8EncodeChar_eq_cons_cons_cons hthree] at h
    exact absurd (h _ (List.mem_cons_self ..)) (not_ascii_or (by decide))
  · rw [String.utf8EncodeChar_eq_cons_cons_cons_cons hfour] at h
    exact absurd (h _ (List.mem_cons_self ..)) (not_ascii_or (by decide))

theorem bytes_of_ascii (h : ∀ c ∈ cs, c.utf8Size = 1) : bytes cs = cs.map fun c => c.val.toUInt8 := by
  induction cs with
  | nil => rfl
  | cons c cs ih =>
    have hrest := ih fun d hd => h d (List.mem_cons_of_mem c hd)
    have hfirst := utf8EncodeChar_of_ascii (h c (List.mem_cons_self ..))
    rw [List.map_cons, ← hrest]
    simp [bytes, hfirst]

theorem size_of_ascii (h : ∀ c ∈ cs, c.utf8Size = 1) : size cs = cs.length := by
  rw [← length_bytes, bytes_of_ascii h, List.length_map]

/-- Bytes that are all ASCII are of characters that all are. -/
theorem ascii_of_all_bytes (h : ∀ b ∈ bytes cs, b < 128) : ∀ c ∈ cs, c.utf8Size = 1 := by
  intro c hc
  apply ascii_of_bytes
  intro b hb
  exact h b (List.mem_flatMap.2 ⟨c, hc, hb⟩)

end Utf8
