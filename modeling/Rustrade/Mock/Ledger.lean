import Mathlib.Algebra.Group.Pi.Lemmas
import Mathlib.Tactic.Linarith
import Rustrade.Lib.Ensures
import Rustrade.Mock.Account

/-!
# What the ledger says

A client's copy of the balances, kept by the last restatement of each, with what it withholds and
what it comes to; and what a commitment pays back, delivers, finds free and lends.
-/

set_option autoImplicit false

namespace Rustrade.Mock

/-! ## Copies of the balances -/

/-- What is known of each balance. -/
abbrev Copy := AssetNameExchange → Option Balance

namespace Copy

variable {copy : Copy} {balance : AssetBalance} {restatements : List AssetBalance}

/-- The copy once a balance is restated. -/
def restate (copy : Copy) (balance : AssetBalance) : Copy := fun asset =>
  if asset = balance.asset then some balance.balance else copy asset

/-- The copy once balances are restated in turn: the last restatement of each asset stands. -/
def follow (copy : Copy) (restatements : List AssetBalance) : Copy :=
  restatements.foldl restate copy

@[simp] theorem follow_nil : copy.follow [] = copy := rfl

@[simp] theorem follow_cons : copy.follow (balance :: restatements) =
    (copy.restate balance).follow restatements := rfl

theorem follow_append {more : List AssetBalance} :
    copy.follow (restatements ++ more) = (copy.follow restatements).follow more :=
  List.foldl_append

/-- What an asset holds beyond what is free of it. -/
def withheld (copy : Copy) (asset : AssetNameExchange) : Decimal :=
  (copy asset).elim 0 fun balance => balance.total - balance.free

def total (copy : Copy) (asset : AssetNameExchange) : Decimal :=
  (copy asset).elim 0 Balance.total

end Copy

/-! ## Panics -/

/-- The debug assertions that say an amount was reserved. -/
def Fault.held : Fault → Prop
  | .debugAssertion .settle | .debugAssertion .release | .debugAssertion .settleResting => True
  | _ => False

/-- A fault that must not happen where `solvent` holds. -/
def Broken (solvent : Prop) (fault : Fault) : Prop := solvent ∧ fault.held

section

variable {solvent : Prop} {α : Type} {post : α → Prop}

@[simp] theorem not_broken_panic : ¬ Broken solvent .panic := fun h => h.2

theorem expect_ensures {x : Option α} (h : ∀ a, x = some a → post a) :
    (expect x).Ensures (Broken solvent) post := by
  cases x with
  | none => exact not_broken_panic
  | some a => exact h a rfl

/-- An assertion about what is reserved holds where it is asked of a solvent ledger. -/
theorem debugAssert_ensures [Build] {name : DebugAssertion} {p : Prop} [Decidable p]
    (h : solvent → Fault.held (.debugAssertion name) → p) :
    (debugAssert name p).Ensures (Broken solvent) fun _ => True := by
  unfold debugAssert
  split
  · rename_i hfails
    intro ⟨hsolvent, hheld⟩
    simp [h hsolvent hheld] at hfails
  · trivial

end

/-! ## The balances -/

namespace AccountState

variable (self : AccountState)

/-- The balances as a copy. -/
def copy : Copy := fun asset => self.balances[asset]?.map AssetBalance.balance

/-- Each balance is kept under its own asset, and a margin account knows the debt of each. -/
structure Listed (account : AccountState) : Prop where
  keyed : ∀ (asset : AssetNameExchange) (balance : AssetBalance),
    account.balances[asset]? = some balance → balance.asset = asset
  lent : account.margin = true → ∀ (asset : AssetNameExchange) (balance : AssetBalance),
    account.balances[asset]? = some balance → balance.balance.margin.isSome = true

variable {self} {asset : AssetNameExchange} {solvent : Prop}

theorem balanceExpect_ensures : (self.balanceExpect asset).Ensures (Broken solvent) fun balance =>
    self.balances[asset]? = some balance :=
  expect_ensures fun _ h => h

/-! ## Commitments -/

/-- What a credit pays back into the asset it pays with. -/
def paidBack : Option Credit → Decimal
  | some (.paidBack amount) => amount
  | _ => 0

/-- What a credit delivers. -/
def deliveryOf : Option Credit → Option Delivery
  | some (.delivery delivery) => some delivery
  | _ => none

/-- What a credit adds to each total. -/
def deliveredBy (credit : Option Credit) : AssetNameExchange → Decimal :=
  (deliveryOf credit).elim 0 fun delivery => Pi.single delivery.asset delivery.amount

/-- Lending covers what is required, and nothing is lent where the account does not lend. -/
theorem lend_covers {debit : Debit} {available borrowed excess : Decimal} {lends : Bool}
    {lending : Lending} (h : self.lend debit available lends lending = .ok (borrowed, excess)) :
    debit.settled + debit.reserved ≤ available + borrowed ∧ (lends = false → borrowed = 0) := by
  unfold lend at h
  extract_lets required capped lendable shortfall loan at h
  by_cases hcovered : shortfall ≤ 0
  · rw [if_pos hcovered] at h
    cases h
    exact ⟨by simpa [shortfall, required] using hcovered, fun _ => rfl⟩
  rw [if_neg hcovered] at h
  by_cases hlends : (lends && decide (loan ≤ lendable)) = true
  · rw [if_pos hlends] at h
    have hborrowed : loan = borrowed := congrArg Prod.fst (Except.ok.inj h)
    rw [← hborrowed]
    refine ⟨?_, ?_⟩
    · have : shortfall ≤ loan := le_max_left shortfall lending.minBorrow
      show required ≤ available + loan
      linarith
    · intro hnot
      simp [hnot] at hlends
  · rw [if_neg hlends] at h
    cases h

theorem free_of_some {balance : AssetBalance} (h : self.balances[asset]? = some balance) :
    self.free asset = balance.balance.free := by
  simp [free, h]

theorem creditParts_ensures [Build] {credit : Option Credit} :
    (creditParts credit).Ensures (Broken solvent) fun r =>
      r = (paidBack credit, deliveryOf credit) := by
  match credit with
  | none => rfl
  | some (.delivery _) => rfl
  | some (.paidBack _) =>
    apply (debugAssert_ensures (by simp [Fault.held])).bind
    intro _ _
    rfl

theorem freeToPay_ensures : (self.freeToPay asset).Ensures (Broken solvent) fun free =>
    free = self.free asset := by
  unfold freeToPay
  split
  · rfl
  · apply balanceExpect_ensures.bind
    intro balance hbalance
    exact (free_of_some hbalance).symm

end AccountState

end Rustrade.Mock
