import Mathlib.Data.List.Basic
import Mathlib.Data.List.ReduceOption

/-!
# Polled streams

A stream that is polled answers each time with `Pending` or with what it has, and in the end with
`None`. Its answers are given as a list, `none` for each `Pending`. `Fuse` polls it no more once it
has ended, and `Peekable` can hold its next item without taking it.
-/

set_option autoImplicit false

namespace Polling

inductive Poll (α : Type) where
  | pending
  | ready (answer : α)
  deriving DecidableEq, Repr

structure Fuse (α : Type) where
  script : List (Option α)
  done : Bool
  ended : done = true → script = []

structure Peekable (α : Type) where
  stream : Fuse α
  peeked : Option α

variable {α : Type}

namespace Fuse

def new (script : List (Option α)) : Fuse α := ⟨script, false, fun h => nomatch h⟩

def pollNext (stream : Fuse α) : Fuse α × Poll (Option α) :=
  if stream.done then (stream, .ready none)
  else
    match stream.script with
    | [] => (⟨[], true, fun _ => rfl⟩, .ready none)
    | none :: script => (new script, .pending)
    | some item :: script => (new script, .ready (some item))

end Fuse

namespace Peekable

def new (script : List (Option α)) : Peekable α := ⟨.new script, none⟩

def pollPeek (input : Peekable α) : Peekable α × Poll (Option α) :=
  match input.peeked with
  | some item => (input, .ready (some item))
  | none =>
    match input.stream.pollNext with
    | (stream, .ready (some item)) => (⟨stream, some item⟩, .ready (some item))
    | (stream, answer) => (⟨stream, none⟩, answer)

def pollNext (input : Peekable α) : Peekable α × Poll (Option α) :=
  match input.peeked with
  | some item => (⟨input.stream, none⟩, .ready (some item))
  | none =>
    let (stream, answer) := input.stream.pollNext
    (⟨stream, none⟩, answer)

def isTerminated (input : Peekable α) : Bool := input.peeked.isNone && input.stream.done

/-- The items not taken yet. -/
def rest (input : Peekable α) : List α := input.peeked.toList ++ input.stream.script.reduceOption

/-- How many polls can still give or take something. -/
def left (input : Peekable α) : ℕ :=
  input.stream.script.length + (if input.stream.done then 0 else 1) + input.peeked.toList.length

theorem rest_new (script : List (Option α)) : (new script).rest = script.reduceOption := rfl

/-- What a peek finds: nothing yet, the end, or the next item, which it then holds. -/
theorem pollPeek_cases (input : Peekable α) :
    (input.pollPeek.2 = .pending ∧ input.pollPeek.1.rest = input.rest ∧
      input.pollPeek.1.left < input.left) ∨
    (input.pollPeek.2 = .ready none ∧ input.rest = [] ∧ input.pollPeek.1.rest = [] ∧
      input.pollPeek.1.isTerminated = true ∧ input.pollPeek.1.left ≤ input.left) ∨
    ∃ item tail, input.pollPeek.2 = .ready (some item) ∧ input.rest = item :: tail ∧
      input.pollPeek.1.rest = item :: tail ∧ input.pollPeek.1.peeked = some item ∧
      input.pollPeek.1.left ≤ input.left := by
  obtain ⟨⟨script, done, hended⟩, peeked⟩ := input
  cases peeked with
  | some item => exact Or.inr (Or.inr ⟨item, script.reduceOption, rfl, rfl, rfl, rfl, Nat.le_refl _⟩)
  | none =>
    cases done with
    | true =>
      obtain rfl := hended rfl
      exact Or.inr (Or.inl ⟨rfl, rfl, rfl, rfl, Nat.le_refl _⟩)
    | false =>
      match script with
      | [] => exact Or.inr (Or.inl ⟨rfl, rfl, rfl, rfl, by simp [pollPeek, Fuse.pollNext, left]⟩)
      | none :: script => exact Or.inl ⟨rfl, rfl, by simp [pollPeek, Fuse.pollNext, Fuse.new, left]⟩
      | some item :: script =>
        exact Or.inr (Or.inr ⟨item, script.reduceOption, rfl, rfl, rfl, rfl,
          by simp [pollPeek, Fuse.pollNext, Fuse.new, left]⟩)

theorem pollPeek_rest (input : Peekable α) : input.pollPeek.1.rest = input.rest := by
  obtain ⟨-, h, -⟩ | ⟨-, h, h', -⟩ | ⟨item, tail, -, h, h', -⟩ := input.pollPeek_cases
  · exact h
  · rw [h, h']
  · rw [h, h']

theorem pollPeek_left (input : Peekable α) : input.pollPeek.1.left ≤ input.left := by
  obtain ⟨-, -, h⟩ | ⟨-, -, -, -, h⟩ | ⟨_, _, -, -, -, -, h⟩ := input.pollPeek_cases
  · exact Nat.le_of_lt h
  · exact h
  · exact h

/-- An item held is the one taken next. -/
theorem pollNext_of_peeked {input : Peekable α} {item : α} (h : input.peeked = some item) :
    input.pollNext.2 = .ready (some item) ∧ input.rest = item :: input.pollNext.1.rest ∧
      input.pollNext.1.left < input.left := by
  obtain ⟨stream, peeked⟩ := input
  obtain rfl : peeked = some item := h
  refine ⟨rfl, rfl, ?_⟩
  simp only [pollNext, left, Option.toList_none, Option.toList_some, List.length_nil,
    List.length_singleton]
  exact Nat.lt_succ_self _

theorem rest_of_isTerminated {input : Peekable α} (h : input.isTerminated = true) :
    input.rest = [] := by
  obtain ⟨⟨script, done, hended⟩, peeked⟩ := input
  simp only [isTerminated, Bool.and_eq_true, Option.isNone_iff_eq_none] at h
  obtain ⟨rfl, hdone⟩ := h
  obtain rfl := hended hdone
  rfl

theorem left_of_isTerminated {input : Peekable α} (h : input.isTerminated = true) :
    input.left = 0 := by
  obtain ⟨⟨script, done, hended⟩, peeked⟩ := input
  simp only [isTerminated, Bool.and_eq_true, Option.isNone_iff_eq_none] at h
  obtain ⟨rfl, hdone⟩ := h
  obtain rfl := hended hdone
  obtain rfl : done = true := hdone
  rfl

theorem isTerminated_iff {input : Peekable α} :
    input.isTerminated = true ↔ input.rest = [] ∧ input.stream.done = true := by
  constructor
  · intro h
    refine ⟨rest_of_isTerminated h, ?_⟩
    simp only [isTerminated, Bool.and_eq_true] at h
    exact h.2
  · rintro ⟨hrest, hdone⟩
    have hpeeked : input.peeked = none := by
      cases hpeeked : input.peeked with
      | none => rfl
      | some item => simp [rest, hpeeked] at hrest
    simp [isTerminated, hpeeked, hdone]

end Peekable

end Polling
