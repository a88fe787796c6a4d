import Mathlib.Data.Finset.Card
import Mathlib.Data.Finset.Max
import Rustrade.Engine
import Rustrade.Mock.Basic

/-!
# Looking up an order whose open outcome is unknown

An open that timed out or failed to connect may still have reached the venue. The manager asks the
venue about it a bounded number of times: the first answer that finds the order settles it, and so
many `unknown` answers in a row, past a grace period, conclude that it was never placed. The waits
between the lookups are not modelled; how long ago the request was sent when an answer comes in is
part of the answer.
-/

set_option autoImplicit false

namespace Rustrade

open Mock (VenueOrder InstrumentNameExchange)

structure UnknownOutcomeLookup where
  attempts : ℕ
  unknownsToConclude : ℕ
  grace : ℕ
  deriving DecidableEq, Repr

/-- What a venue knows of one order. -/
inductive VenueOrderStatus where
  | live (order : VenueOrder Open)
  | ended (order : VenueOrder InactiveOrderState)
  | unknown

/-- What the lookups of an order found. -/
inductive LookupOutcome where
  | live (order : VenueOrder Open)
  | ended (order : VenueOrder InactiveOrderState)
  | neverPlaced
  | exhausted

/-- The answer to one lookup, `none` if it failed or timed out, and the time since the send. -/
structure LookupAnswer where
  sinceSent : ℕ
  status : Option VenueOrderStatus

namespace UnknownOutcomeLookup

variable (policy : UnknownOutcomeLookup) (answers : ℕ → LookupAnswer)

/-- The lookups from number `attempt` on, `left` of them, after `unknowns` in a row. -/
def lookUpFrom (attempt unknowns : ℕ) : ℕ → LookupOutcome
  | 0 => .exhausted
  | left + 1 =>
    match (answers attempt).status with
    | some .unknown =>
      if policy.grace ≤ (answers attempt).sinceSent then
        if max policy.unknownsToConclude 1 ≤ unknowns + 1 then .neverPlaced
        else lookUpFrom (attempt + 1) (unknowns + 1) left
      else lookUpFrom (attempt + 1) unknowns left
    | some (.live order) => .live order
    | some (.ended order) => .ended order
    | none => lookUpFrom (attempt + 1) 0 left

def lookUpUnknownOutcome : LookupOutcome := policy.lookUpFrom answers 0 0 policy.attempts

end UnknownOutcomeLookup

/-! ## What settles an order -/

/-- The order an answer finds. -/
def LookupAnswer.found (answer : LookupAnswer) : Option LookupOutcome :=
  match answer.status with
  | some (.live order) => some (.live order)
  | some (.ended order) => some (.ended order)
  | _ => none

namespace UnknownOutcomeLookup

variable (policy : UnknownOutcomeLookup) (answers : ℕ → LookupAnswer)

/-- An `unknown` past the grace period. -/
def Counts (answer : LookupAnswer) : Prop :=
  answer.status = some .unknown ∧ policy.grace ≤ answer.sinceSent

/-- As many answers count as the policy asks for, before any finds the order and with no lookup
    failed between the first and the last of them. -/
def Concludes : Prop :=
  ∃ unknowns : Finset ℕ, unknowns.card = max policy.unknownsToConclude 1 ∧
    (∀ i ∈ unknowns, i < policy.attempts ∧ policy.Counts (answers i)) ∧
    (∀ i ∈ unknowns, ∀ k ≤ i, (answers k).found = none) ∧
    ∀ i ∈ unknowns, ∀ j ∈ unknowns, ∀ k, i ≤ k → k ≤ j → (answers k).status ≠ none

/-- What the lookups are to find: the first answer that finds the order, unless they conclude. -/
def Settles (outcome : LookupOutcome) : Prop :=
  match outcome with
  | .neverPlaced => policy.Concludes answers
  | .exhausted => ¬ policy.Concludes answers ∧ ∀ n < policy.attempts, (answers n).found = none
  | outcome => ¬ policy.Concludes answers ∧ ∃ n < policy.attempts,
      (answers n).found = some outcome ∧ ∀ k < n, (answers k).found = none

open Classical in
/-- The answers before number `n` that count and have no failed lookup after them. -/
noncomputable def trailing (n : ℕ) : Finset ℕ :=
  (Finset.range n).filter fun i => policy.Counts (answers i) ∧
    ∀ k, i ≤ k → k < n → (answers k).status ≠ none

variable {policy answers}

theorem mem_trailing {n i : ℕ} : i ∈ policy.trailing answers n ↔ i < n ∧
    policy.Counts (answers i) ∧ ∀ k, i ≤ k → k < n → (answers k).status ≠ none := by
  simp [trailing]

theorem trailing_zero : policy.trailing answers 0 = ∅ := by
  simp [trailing]

/-- A failed lookup starts the count again, -/
theorem trailing_of_failed {n : ℕ} (h : (answers n).status = none) :
    policy.trailing answers (n + 1) = ∅ := by
  rw [Finset.eq_empty_iff_forall_notMem]
  intro i hi
  obtain ⟨hlt, -, hlive⟩ := mem_trailing.mp hi
  exact hlive n (by omega) (by omega) h

/-- an answer that counts adds to it, -/
theorem trailing_of_counts {n : ℕ} (h : policy.Counts (answers n)) :
    policy.trailing answers (n + 1) = insert n (policy.trailing answers n) := by
  ext i
  rw [Finset.mem_insert, mem_trailing, mem_trailing]
  constructor
  · rintro ⟨hlt, hcounts, hlive⟩
    by_cases hin : i = n
    · exact Or.inl hin
    · exact Or.inr ⟨by omega, hcounts, fun k hik hkn => hlive k hik (by omega)⟩
  · intro hi
    obtain rfl | ⟨hlt, hcounts, hlive⟩ := hi
    · refine ⟨by omega, h, fun k hik hkn => ?_⟩
      rw [show k = i by omega, h.1]
      simp
    · refine ⟨by omega, hcounts, fun k hik hkn => ?_⟩
      by_cases hk : k = n
      · rw [hk, h.1]
        simp
      · exact hlive k hik (by omega)

/-- and an `unknown` inside the grace period leaves it. -/
theorem trailing_of_early {n : ℕ} (h : (answers n).status = some .unknown)
    (hearly : ¬ policy.grace ≤ (answers n).sinceSent) :
    policy.trailing answers (n + 1) = policy.trailing answers n := by
  ext i
  rw [mem_trailing, mem_trailing]
  constructor
  · rintro ⟨hlt, hcounts, hlive⟩
    have hne : i ≠ n := by
      rintro rfl
      exact hearly hcounts.2
    exact ⟨by omega, hcounts, fun k hik hkn => hlive k hik (by omega)⟩
  · rintro ⟨hlt, hcounts, hlive⟩
    refine ⟨by omega, hcounts, fun k hik hkn => ?_⟩
    by_cases hk : k = n
    · rw [hk, h]
      simp
    · exact hlive k hik (by omega)

theorem card_trailing_of_counts {n : ℕ} (h : policy.Counts (answers n)) :
    (policy.trailing answers (n + 1)).card = (policy.trailing answers n).card + 1 := by
  rw [trailing_of_counts h, Finset.card_insert_of_notMem]
  intro hn
  exact absurd (mem_trailing.mp hn).1 (lt_irrefl n)

/-- The policy concludes at the lookup whose answer brings the count up to what it asks for. -/
theorem concludes_iff_trailing : policy.Concludes answers ↔ ∃ n < policy.attempts,
    (∀ k ≤ n, (answers k).found = none) ∧
      max policy.unknownsToConclude 1 ≤ (policy.trailing answers (n + 1)).card := by
  constructor
  · rintro ⟨unknowns, hcard, hcounts, hfound, hlive⟩
    have hne : unknowns.Nonempty := by
      rw [← Finset.card_pos, hcard]
      omega
    have hlast := unknowns.max'_mem hne
    refine ⟨unknowns.max' hne, (hcounts _ hlast).1, hfound _ hlast, ?_⟩
    rw [← hcard]
    apply Finset.card_le_card
    intro i hi
    have hle := unknowns.le_max' i hi
    exact mem_trailing.mpr ⟨by omega, (hcounts i hi).2,
      fun k hik hkn => hlive i hi _ hlast k hik (by omega)⟩
  · rintro ⟨n, hn, hfound, hcard⟩
    obtain ⟨unknowns, hsub, hcard⟩ := Finset.exists_subset_card_eq hcard
    refine ⟨unknowns, hcard, ?_, ?_, ?_⟩
    · intro i hi
      have h := mem_trailing.mp (hsub hi)
      exact ⟨by omega, h.2.1⟩
    · intro i hi k hk
      have h := mem_trailing.mp (hsub hi)
      exact hfound k (by omega)
    · intro i hi j hj k hik hkj
      have h := mem_trailing.mp (hsub hj)
      exact (mem_trailing.mp (hsub hi)).2.2 k hik (by omega)

/-- Lookups that have neither found the order nor concluded settle it from there on. The induction
    is on the lookups left, the count being that of the trailing answers. -/
theorem settles_lookUpFrom {attempt left : ℕ} (hleft : attempt + left = policy.attempts)
    (hfound : ∀ k < attempt, (answers k).found = none)
    (hcount : ∀ n ≤ attempt,
      (policy.trailing answers n).card < max policy.unknownsToConclude 1) :
    policy.Settles answers
      (policy.lookUpFrom answers attempt (policy.trailing answers attempt).card left) := by
  induction left generalizing attempt with
  | zero =>
    refine ⟨?_, fun n hn => hfound n (by omega)⟩
    rw [concludes_iff_trailing]
    rintro ⟨n, hn, -, hcard⟩
    have := hcount (n + 1) (by omega)
    omega
  | succ left ih =>
    have hunfound : (answers attempt).found = none → ∀ k < attempt + 1, (answers k).found = none := by
      intro hnone k hk
      by_cases hk' : k = attempt
      · rw [hk', hnone]
      · exact hfound k (by omega)
    have hgrown : (policy.trailing answers (attempt + 1)).card < max policy.unknownsToConclude 1 →
        ∀ n ≤ attempt + 1,
          (policy.trailing answers n).card < max policy.unknownsToConclude 1 := by
      intro hnext n hn
      by_cases hn' : n = attempt + 1
      · rw [hn']
        exact hnext
      · exact hcount n (by omega)
    -- An answer that finds the order leaves no later lookup to conclude.
    have hsettled : ∀ outcome, (answers attempt).found = some outcome →
        ¬ policy.Concludes answers := by
      intro outcome hsome
      rw [concludes_iff_trailing]
      rintro ⟨n, -, hnone, hcard⟩
      by_cases hn : attempt ≤ n
      · simp [hnone attempt hn] at hsome
      · have := hcount (n + 1) (by omega)
        omega
    unfold lookUpFrom
    split
    · rename_i hstatus
      have hnone : (answers attempt).found = none := by simp [LookupAnswer.found, hstatus]
      split
      · rename_i hgrace
        have hcard := card_trailing_of_counts (⟨hstatus, hgrace⟩ : policy.Counts (answers attempt))
        split
        · rename_i hreached
          show policy.Concludes answers
          rw [concludes_iff_trailing]
          exact ⟨attempt, by omega, fun k hk => hunfound hnone k (by omega), by omega⟩
        · rename_i hshort
          rw [← hcard]
          exact ih (by omega) (hunfound hnone) (hgrown (by omega))
      · rename_i hearly
        have hsame : policy.trailing answers (attempt + 1) = policy.trailing answers attempt :=
          trailing_of_early hstatus hearly
        rw [← hsame]
        exact ih (by omega) (hunfound hnone)
          (hgrown (by rw [hsame]; exact hcount attempt (le_refl _)))
    · rename_i order hstatus
      have hsome : (answers attempt).found = some (.live order) := by
        simp [LookupAnswer.found, hstatus]
      exact ⟨hsettled _ hsome, attempt, by omega, hsome, hfound⟩
    · rename_i order hstatus
      have hsome : (answers attempt).found = some (.ended order) := by
        simp [LookupAnswer.found, hstatus]
      exact ⟨hsettled _ hsome, attempt, by omega, hsome, hfound⟩
    · rename_i hstatus
      have hnone : (answers attempt).found = none := by simp [LookupAnswer.found, hstatus]
      have hempty : policy.trailing answers (attempt + 1) = ∅ := trailing_of_failed hstatus
      have h : policy.Settles answers (policy.lookUpFrom answers (attempt + 1)
          (policy.trailing answers (attempt + 1)).card left) := ih (by omega) (hunfound hnone)
        (hgrown (by rw [hempty, Finset.card_empty]; omega))
      rwa [hempty, Finset.card_empty] at h

theorem settles_lookUpUnknownOutcome :
    policy.Settles answers (policy.lookUpUnknownOutcome answers) := by
  have h : policy.Settles answers (policy.lookUpFrom answers 0 (policy.trailing answers 0).card
      policy.attempts) := settles_lookUpFrom (by omega) (fun k hk => absurd hk (Nat.not_lt_zero k))
    (fun n hn => by
      rw [Nat.le_zero.mp hn, trailing_zero, Finset.card_empty]
      omega)
  rwa [trailing_zero, Finset.card_empty] at h

/-- Only one outcome settles an order. -/
theorem Settles.unique {first second : LookupOutcome} (hfirst : policy.Settles answers first)
    (hsecond : policy.Settles answers second) : first = second := by
  have hfound : ∀ {a b : LookupOutcome},
      (∃ n < policy.attempts, (answers n).found = some a ∧ ∀ k < n, (answers k).found = none) →
      (∃ n < policy.attempts, (answers n).found = some b ∧ ∀ k < n, (answers k).found = none) →
      a = b := by
    rintro a b ⟨n, -, hn, hbeforeN⟩ ⟨m, -, hm, hbeforeM⟩
    obtain hlt | rfl | hgt := Nat.lt_trichotomy n m
    · simp [hbeforeM n hlt] at hn
    · simpa [hn] using hm
    · simp [hbeforeN m hgt] at hm
  have hnone : ∀ {a : LookupOutcome}, (∀ n < policy.attempts, (answers n).found = none) →
      ¬ ∃ n < policy.attempts, (answers n).found = some a ∧ ∀ k < n, (answers k).found = none := by
    rintro a h ⟨n, hn, hsome, -⟩
    simp [h n hn] at hsome
  cases first <;> cases second <;> simp only [Settles] at hfirst hsecond
  all_goals first
    | rfl
    | exact absurd hfirst hsecond.1
    | exact absurd hsecond hfirst.1
    | exact hfound hfirst.2 hsecond.2
    | exact absurd hsecond.2 (hnone hfirst.2)
    | exact absurd hfirst.2 (hnone hsecond.2)

end UnknownOutcomeLookup

end Rustrade
