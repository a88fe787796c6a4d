import Mathlib.Data.Finset.Max
import Mathlib.Algebra.BigOperators.Group.Finset.Basic
import Rustrade.ExecutionManager.UnknownOutcome
import Rustrade.Lib.Chrono

/-!
# The lookups of an unknown outcome, in time

`look_up_unknown_outcome` sleeps before each lookup and gives each up after a timeout. With the
time each answer takes as an input, the answers the lookups see and the time they take follow. A
sleep and a timeout are taken to last exactly as long as asked.
-/

set_option autoImplicit false

namespace Rustrade

open Chrono

/-- The policy with its waits. -/
structure LookupPolicy extends UnknownOutcomeLookup where
  firstDelay : ℕ

/-- What the client's `fetch_order_status` answers, `none` for an error, and how long it takes. -/
structure StatusReply where
  takes : ℕ
  status : Option VenueOrderStatus

namespace LookupPolicy

variable (policy : LookupPolicy)

/-- `2_u32.checked_pow(attempt).unwrap_or(u32::MAX)`. -/
def factor (attempt : ℕ) : ℕ := if attempt < 32 then 2 ^ attempt else 4294967295

def delay (attempt : ℕ) : ℕ := saturatingMul policy.firstDelay (factor attempt)

def longest (lookupTimeout : ℕ) : ℕ :=
  let doubling := min policy.attempts 32
  let doubled := saturatingSum ((List.range doubling).map fun attempt =>
    saturatingAdd (policy.delay attempt) lookupTimeout)
  let level := saturatingMul (saturatingAdd (policy.delay 32) lookupTimeout)
    (policy.attempts - doubling)
  saturatingAdd doubled level

variable (sent lookupTimeout : ℕ) (replies : ℕ → StatusReply)

/-- `tokio::time::timeout` around one lookup: the answer, and how long it was awaited. -/
def fetch (reply : StatusReply) : ℕ × Option VenueOrderStatus :=
  if reply.takes ≤ lookupTimeout then (reply.takes, reply.status) else (lookupTimeout, none)

/-- The lookups from number `attempt` on, `left` of them, begun at `now`; with the instant they
    end. -/
def lookUpTimed (attempt unknowns now : ℕ) : ℕ → LookupOutcome × ℕ
  | 0 => (.exhausted, now)
  | left + 1 =>
    let (awaited, status) := fetch lookupTimeout (replies attempt)
    let answered := now + policy.delay attempt + awaited
    match status with
    | some .unknown =>
      if policy.grace ≤ answered - sent then
        if max policy.unknownsToConclude 1 ≤ unknowns + 1 then (.neverPlaced, answered)
        else lookUpTimed (attempt + 1) (unknowns + 1) answered left
      else lookUpTimed (attempt + 1) unknowns answered left
    | some (.live order) => (.live order, answered)
    | some (.ended order) => (.ended order, answered)
    | none => lookUpTimed (attempt + 1) 0 answered left

/-- The lookups of an order handed to the client at `sent`, begun at `now`. -/
def lookUpUnknownOutcome (now : ℕ) : LookupOutcome × ℕ :=
  policy.lookUpTimed sent lookupTimeout replies 0 0 now policy.attempts

/-! ## The longest the lookups take -/

theorem delay_of_le {attempt : ℕ} (h : 32 ≤ attempt) : policy.delay attempt = policy.delay 32 := by
  simp [delay, factor, Nat.not_lt.mpr h]

/-- `longest` is the sum over all lookups, those past the doubling taken at once. -/
theorem longest_eq :
    policy.longest lookupTimeout = saturatingSum ((List.range policy.attempts).map fun attempt =>
      saturatingAdd (policy.delay attempt) lookupTimeout) := by
  have hsplit : List.range policy.attempts = List.range (min policy.attempts 32) ++
      (List.range (policy.attempts - min policy.attempts 32)).map
        (min policy.attempts 32 + ·) := by
    rw [← List.range_add]
    congr 1
    omega
  have hlevel : ((List.range (policy.attempts - min policy.attempts 32)).map
      (min policy.attempts 32 + ·)).map
        (fun attempt => saturatingAdd (policy.delay attempt) lookupTimeout) =
      List.replicate (policy.attempts - min policy.attempts 32)
        (saturatingAdd (policy.delay 32) lookupTimeout) := by
    rw [List.eq_replicate_iff]
    constructor
    · simp
    · intro wait hwait
      simp only [List.map_map, List.mem_map, List.mem_range, Function.comp_apply] at hwait
      obtain ⟨attempt, hattempt, rfl⟩ := hwait
      -- There are lookups left only past the doubling.
      rw [policy.delay_of_le (by omega : 32 ≤ min policy.attempts 32 + attempt)]
  rw [hsplit, List.map_append, saturatingSum_append, hlevel, saturatingSum_replicate]
  rfl

theorem fetch_awaited_le (reply : StatusReply) : (fetch lookupTimeout reply).1 ≤ lookupTimeout := by
  unfold fetch
  split
  · assumption
  · exact le_refl _

theorem lookUpTimed_end_le (attempt unknowns now left : ℕ) :
    (policy.lookUpTimed sent lookupTimeout replies attempt unknowns now left).2 ≤
      now + ((List.range' attempt left).map fun attempt =>
        policy.delay attempt + lookupTimeout).sum := by
  induction left generalizing attempt unknowns now with
  | zero => simp [lookUpTimed]
  | succ left ih =>
    have hawaited := fetch_awaited_le lookupTimeout (replies attempt)
    rw [List.range'_succ, List.map_cons, List.sum_cons]
    have hrest : ∀ unknowns, (policy.lookUpTimed sent lookupTimeout replies (attempt + 1) unknowns
        (now + policy.delay attempt + (fetch lookupTimeout (replies attempt)).1) left).2 ≤
        now + (policy.delay attempt + lookupTimeout + ((List.range' (attempt + 1) left).map
          fun attempt => policy.delay attempt + lookupTimeout).sum) := by
      intro unknowns
      have h := ih (attempt + 1) unknowns
        (now + policy.delay attempt + (fetch lookupTimeout (replies attempt)).1)
      omega
    unfold lookUpTimed
    dsimp only
    split
    · split
      · split
        · dsimp only
          omega
        · exact hrest _
      · exact hrest _
    · dsimp only
      omega
    · dsimp only
      omega
    · exact hrest _

/-- The lookups take no longer than the sum of their waits and timeouts. -/
theorem lookUpUnknownOutcome_end_le (now : ℕ) :
    min ((policy.lookUpUnknownOutcome sent lookupTimeout replies now).2 - now) durationMax ≤
      policy.longest lookupTimeout := by
  have hend := policy.lookUpTimed_end_le sent lookupTimeout replies 0 0 now policy.attempts
  rw [longest_eq, saturatingSum_eq, ← List.range_eq_range'] at *
  have hsum : min ((List.range policy.attempts).map fun attempt =>
      policy.delay attempt + lookupTimeout).sum durationMax ≤
      min ((List.range policy.attempts).map fun attempt =>
        saturatingAdd (policy.delay attempt) lookupTimeout).sum durationMax := by
    induction List.range policy.attempts with
    | nil => simp
    | cons attempt attempts ih =>
      simp only [List.map_cons, List.sum_cons]
      unfold saturatingAdd at ih ⊢
      omega
  unfold lookUpUnknownOutcome
  omega

/-! ## What the lookups conclude -/

/-- The instant the lookups before number `attempt` are over, if none settles the order. -/
def endedAt (now : ℕ) : ℕ → ℕ
  | 0 => now
  | attempt + 1 => endedAt now attempt + policy.delay attempt +
      (fetch lookupTimeout (replies attempt)).1

/-- The answer each lookup gets, one later than the timeout being a failure. -/
def answers (now attempt : ℕ) : LookupAnswer where
  sinceSent := policy.endedAt lookupTimeout replies now (attempt + 1) - sent
  status := (fetch lookupTimeout (replies attempt)).2

theorem lookUpTimed_fst (now attempt unknowns left : ℕ) :
    (policy.lookUpTimed sent lookupTimeout replies attempt unknowns
      (policy.endedAt lookupTimeout replies now attempt) left).1 =
    policy.lookUpFrom (policy.answers sent lookupTimeout replies now) attempt unknowns left := by
  induction left generalizing attempt unknowns with
  | zero => rfl
  | succ left ih =>
    have hrest := fun unknowns => ih (attempt + 1) unknowns
    unfold lookUpTimed UnknownOutcomeLookup.lookUpFrom
    simp only [answers, endedAt] at hrest ⊢
    cases hstatus : (fetch lookupTimeout (replies attempt)).2 with
    | none => exact hrest 0
    | some status =>
      cases status with
      | live order => rfl
      | ended order => rfl
      | unknown =>
        dsimp only
        by_cases hgrace : policy.grace ≤ policy.endedAt lookupTimeout replies now attempt +
            policy.delay attempt + (fetch lookupTimeout (replies attempt)).1 - sent
        · by_cases hreached : max policy.unknownsToConclude 1 ≤ unknowns + 1
          · simp only [hgrace, hreached, if_true]
          · simp only [hgrace, hreached, if_true, if_false]
            exact hrest _
        · simp only [hgrace, if_false]
          exact hrest _

/-- The timed lookups find what the answers they see settle. -/
theorem lookUpUnknownOutcome_eq_iff (now : ℕ) (outcome : LookupOutcome) :
    (policy.lookUpUnknownOutcome sent lookupTimeout replies now).1 = outcome ↔
      policy.Settles (policy.answers sent lookupTimeout replies now) outcome := by
  have hsettles : policy.Settles (policy.answers sent lookupTimeout replies now)
      (policy.toUnknownOutcomeLookup.lookUpUnknownOutcome
        (policy.answers sent lookupTimeout replies now)) :=
    UnknownOutcomeLookup.settles_lookUpUnknownOutcome
  rw [UnknownOutcomeLookup.lookUpUnknownOutcome,
    ← policy.lookUpTimed_fst sent lookupTimeout replies now 0 0] at hsettles
  constructor
  · rintro rfl
    exact hsettles
  · exact hsettles.unique

/-- An order is concluded never placed only on as many counting answers as the policy asks for,
    the first answer to find it settles it otherwise, and the lookups take no longer than
    `longest`, which is the sum over all of them. -/
theorem lookUpUnknownOutcome_spec (policy : LookupPolicy) (sent waited lookupTimeout : ℕ)
    (replies : ℕ → StatusReply) :
    (∀ outcome, (policy.lookUpUnknownOutcome sent lookupTimeout replies (sent + waited)).1 =
        outcome ↔
      policy.Settles (policy.answers sent lookupTimeout replies (sent + waited)) outcome) ∧
    min ((policy.lookUpUnknownOutcome sent lookupTimeout replies (sent + waited)).2 -
        (sent + waited)) durationMax ≤ policy.longest lookupTimeout ∧
    policy.longest lookupTimeout = saturatingSum ((List.range policy.attempts).map fun attempt =>
      saturatingAdd (policy.delay attempt) lookupTimeout) :=
  ⟨policy.lookUpUnknownOutcome_eq_iff sent lookupTimeout replies (sent + waited),
    policy.lookUpUnknownOutcome_end_le sent lookupTimeout replies (sent + waited),
    policy.longest_eq lookupTimeout⟩

end LookupPolicy

end Rustrade
