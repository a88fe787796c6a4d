import Mathlib.Algebra.BigOperators.Group.Finset.Basic
import Mathlib.Data.List.Nodup
import Mathlib.Tactic.Linarith
import Mathlib.Tactic.Ring
import Rustrade.Decimal
import Rustrade.Lib.IndexMap
import Rustrade.Lib.Latest

/-!
# Corrected executions

IB reports a correction as a further execution whose id differs in the digits after the final
period. The trades read keep each execution at its latest revision; what an order's executions
fill is summed over each execution's latest revision as well.
-/

set_option autoImplicit false

namespace Rustrade.Ibkr

/-- `str::rsplit_once`. -/
def rsplitOnce (text : String) (delimiter : Char) : Option (String × String) :=
  let after := text.toList.reverse.takeWhile (· ≠ delimiter)
  match text.toList.reverse.dropWhile (· ≠ delimiter) with
  | [] => none
  | _ :: before => some (String.ofList before.reverse, String.ofList after.reverse)

def u32Limit : ℕ := 4294967296

/-- `str::parse::<u32>`, of digits. -/
def parseU32 (digits : String) : Option ℕ :=
  let value := Nat.ofDigitChars 10 digits.toList 0
  if value < u32Limit then some value else none

structure ExecutionRevision where
  execution : String
  digits : String
  revision : ℕ

def ExecutionRevision.parse (executionId : String) : Option ExecutionRevision :=
  match rsplitOnce executionId '.' with
  | none => none
  | some (execution, digits) =>
    if digits.toList.isEmpty || !digits.toList.all Char.isDigit then none
    else (parseU32 digits).map fun revision => { execution, digits, revision }

/-- A trade read of an execution, by what the folds look at. -/
structure Trade where
  id : String
  quantity : Decimal
  deriving DecidableEq

def revisionOf (id : String) : ℕ := (ExecutionRevision.parse id).elim 0 (·.revision)

/-- The trades kept so far, and where each execution with a revision is. -/
structure Kept where
  latest : IndexMap String (ℕ × ℕ)
  kept : List Trade

def Kept.take (state : Kept) (trade : Trade) : Kept :=
  match ExecutionRevision.parse trade.id with
  | none => { state with kept := state.kept ++ [trade] }
  | some revision =>
    match state.latest.get? revision.execution with
    | none =>
      { latest := state.latest.insert revision.execution (state.kept.length, revision.revision)
        kept := state.kept ++ [trade] }
    | some (position, keptRevision) =>
      if revision.revision = keptRevision then state
      else if keptRevision < revision.revision then
        { latest := state.latest.insert revision.execution (position, revision.revision)
          kept := state.kept.set position trade }
      else state

def keepLatestRevisions (trades : List Trade) : List Trade :=
  (trades.foldl Kept.take ⟨.empty, []⟩).kept

/-- An execution as IB sends it. `shares` is what its number makes as a decimal. -/
structure Execution where
  clientId : ℤ
  orderReference : String
  executionId : String
  shares : Option Decimal

inductive Executions where
  | executionData (execution : Execution)
  | commissionReport

/-- `parse_decimal_or_warn` reads a number that is no decimal as zero. -/
def tradeOf (execution : Execution) : Trade :=
  { id := execution.executionId, quantity := execution.shares.getD 0 }

abbrev ExecutedQuantities := IndexMap String (IndexMap String (ℕ × Decimal))

def insertLatest (revisions : IndexMap String (ℕ × Decimal)) (id : String) (revision : ℕ)
    (shares : Decimal) : IndexMap String (ℕ × Decimal) :=
  match revisions.get? id with
  | some (kept, _) => if revision ≤ kept then revisions else revisions.insert id (revision, shares)
  | none => revisions.insert id (revision, shares)

/-- The name an execution is counted under. -/
def countedAs (id : String) : String := (ExecutionRevision.parse id).elim id (·.execution)

def ExecutedQuantities.push (executed : ExecutedQuantities) (apiClientId : ℤ) :
    Executions → ExecutedQuantities
  | .commissionReport => executed
  | .executionData execution =>
    if (execution.clientId ≠ apiClientId ∧ execution.clientId ≠ 0) ∨
        execution.orderReference = "" then executed
    else
      match execution.shares with
      | none => executed
      | some shares =>
        let revisions := (executed.get? execution.orderReference).getD .empty
        executed.insert execution.orderReference
          (insertLatest revisions (countedAs execution.executionId)
            (revisionOf execution.executionId) shares)

def ExecutedQuantities.of (executed : ExecutedQuantities) (cid : String) : Option Decimal :=
  (executed.get? cid).map fun revisions => (revisions.values.map Prod.snd).sum

/-! ## What an id names -/

/-- The execution an id names: all its revisions share the id up to the final period. -/
inductive Named where
  | revised (execution : String)
  | own (id : String)
  deriving DecidableEq

def named (id : String) : Named :=
  match rsplitOnce id '.' with
  | none => .own id
  | some (execution, digits) =>
    if digits.toList.isEmpty || !digits.toList.all Char.isDigit then .own id
    else .revised execution

/-- The revision's number, however large. -/
def number (id : String) : ℕ :=
  match rsplitOnce id '.' with
  | none => 0
  | some (_, digits) =>
    if digits.toList.isEmpty || !digits.toList.all Char.isDigit then 0
    else Nat.ofDigitChars 10 digits.toList 0

/-- The execution of a trade whose revision is read. -/
def Trade.execution? (trade : Trade) : Option String :=
  (ExecutionRevision.parse trade.id).map (·.execution)

def Trade.revision (trade : Trade) : ℕ := revisionOf trade.id

def Trade.counted (trade : Trade) : String := countedAs trade.id

/-- No revision is read from the trade's id. -/
def Trade.Unread (trade : Trade) : Prop := trade.execution? = none

instance (trade : Trade) : Decidable trade.Unread := inferInstanceAs (Decidable (_ = none))

theorem parse_eq_some {id : String} {revision : ExecutionRevision}
    (h : ExecutionRevision.parse id = some revision) :
    named id = .revised revision.execution ∧ number id = revision.revision := by
  unfold ExecutionRevision.parse at h
  unfold named number
  cases hsplit : rsplitOnce id '.' with
  | none => simp [hsplit] at h
  | some pair =>
    obtain ⟨execution, digits⟩ := pair
    rw [hsplit] at h
    dsimp only at h ⊢
    split at h
    · exact absurd h (by simp)
    · rename_i hdigits
      simp only [hdigits]
      obtain ⟨value, hvalue, rfl⟩ := Option.map_eq_some_iff.mp h
      unfold parseU32 at hvalue
      dsimp only at hvalue
      split at hvalue
      · exact ⟨rfl, Option.some.inj hvalue⟩
      · exact absurd hvalue (by simp)

theorem Trade.named_of_execution {trade : Trade} {execution : String}
    (h : trade.execution? = some execution) :
    named trade.id = .revised execution ∧ number trade.id = trade.revision ∧
      countedAs trade.id = execution := by
  obtain ⟨revision, hparse, rfl⟩ := Option.map_eq_some_iff.mp h
  obtain ⟨hnamed, hnumber⟩ := parse_eq_some hparse
  refine ⟨hnamed, ?_, ?_⟩
  · simp [hnumber, Trade.revision, revisionOf, hparse]
  · simp [countedAs, hparse]

theorem Trade.Unread.countedAs {trade : Trade} (h : trade.Unread) :
    countedAs trade.id = trade.id ∧ trade.revision = 0 := by
  have hparse : ExecutionRevision.parse trade.id = none := Option.map_eq_none_iff.mp h
  simp [Ibkr.countedAs, Trade.revision, revisionOf, hparse]

theorem Trade.unread_or (trade : Trade) :
    trade.Unread ∨ ∃ execution, trade.execution? = some execution := by
  unfold Trade.Unread
  cases trade.execution? with
  | none => exact .inl rfl
  | some execution => exact .inr ⟨execution, rfl⟩

/-! ## The trades kept -/

/-- What holds of the trades kept of a list. -/
structure Keeps (trades : List Trade) (state : Kept) : Prop where
  slots : ∀ execution position revision,
    state.latest.get? execution = some (position, revision) →
      ∃ trade, state.kept[position]? = some trade ∧ trade.execution? = some execution ∧
        trade.revision = revision
  found : ∀ (position : ℕ) (trade : Trade) (execution : String),
    state.kept[position]? = some trade → trade.execution? = some execution →
      state.latest.get? execution = some (position, trade.revision)
  latest : ∀ execution, Latest.latest Trade.execution? Trade.revision trades (some execution) =
    (state.latest.get? execution).bind fun slot => state.kept[slot.1]?
  unread : state.kept.filter (fun trade => trade.Unread) = trades.filter fun trade => trade.Unread
  once : (state.kept.filterMap Trade.execution?).Nodup

theorem keeps_empty : Keeps [] ⟨.empty, []⟩ := by
  refine ⟨?_, ?_, ?_, rfl, List.nodup_nil⟩
  · intro execution position revision h
    simp at h
  · intro position trade execution h
    simp at h
  · intro execution
    simp

theorem parse_of_execution {trade : Trade} {execution : String}
    (h : trade.execution? = some execution) : ∃ revision,
      ExecutionRevision.parse trade.id = some revision ∧ revision.execution = execution ∧
        revision.revision = trade.revision := by
  obtain ⟨revision, hparse, rfl⟩ := Option.map_eq_some_iff.mp h
  exact ⟨revision, hparse, rfl, by simp [Trade.revision, revisionOf, hparse]⟩

theorem getElem?_snoc {l : List Trade} {trade other : Trade} {position : ℕ} :
    (l ++ [trade])[position]? = some other ↔
      l[position]? = some other ∨ (position = l.length ∧ trade = other) := by
  obtain hlt | heq | hgt := Nat.lt_trichotomy position l.length
  · rw [List.getElem?_append_left hlt]
    have hne : position ≠ l.length := Nat.ne_of_lt hlt
    simp [hne]
  · subst heq
    simp
  · have hne : position ≠ l.length := Nat.ne_of_gt hgt
    have hlong : (l ++ [trade]).length ≤ position := by
      rw [List.length_append]
      exact hgt
    rw [List.getElem?_eq_none hlong, List.getElem?_eq_none (Nat.le_of_lt hgt)]
    simp [hne]

theorem filterMap_set {f : Trade → Option String} {l : List Trade} {position : ℕ}
    {old new : Trade} (hold : l[position]? = some old) (hf : f new = f old) :
    (l.set position new).filterMap f = l.filterMap f := by
  induction l generalizing position with
  | nil => rfl
  | cons trade l ih =>
    cases position with
    | zero =>
      obtain rfl : trade = old := by simpa using hold
      simp [List.filterMap_cons, hf]
    | succ position =>
      rw [List.set_cons_succ, List.filterMap_cons, List.filterMap_cons,
        ih (by simpa using hold)]

theorem filter_set {p : Trade → Bool} {l : List Trade} {position : ℕ} {old new : Trade}
    (hold : l[position]? = some old) (hpOld : p old = false) (hpNew : p new = false) :
    (l.set position new).filter p = l.filter p := by
  induction l generalizing position with
  | nil => rfl
  | cons trade l ih =>
    cases position with
    | zero =>
      obtain rfl : trade = old := by simpa using hold
      simp [hpOld, hpNew]
    | succ position =>
      rw [List.set_cons_succ, List.filter_cons, List.filter_cons, ih (by simpa using hold)]

/-- A trade whose revision is not read goes to the end. -/
theorem Keeps.take_unread {trades : List Trade} {state : Kept} (h : Keeps trades state)
    {trade : Trade} (hunread : trade.Unread) : Keeps (trades ++ [trade]) (state.take trade) := by
  have hparse : ExecutionRevision.parse trade.id = none := Option.map_eq_none_iff.mp hunread
  have htake : state.take trade = { state with kept := state.kept ++ [trade] } := by
    simp [Kept.take, hparse]
  rw [htake]
  have hnone : trade.execution? = none := hunread
  refine ⟨?_, ?_, ?_, ?_, ?_⟩
  · intro execution position revision hslot
    obtain ⟨old, hold, hexecution, hrevision⟩ := h.slots execution position revision hslot
    refine ⟨old, ?_, hexecution, hrevision⟩
    rw [List.getElem?_append_left (List.getElem?_eq_some_iff.mp hold).1]
    exact hold
  · intro position other execution hat hexecution
    obtain hold | ⟨-, rfl⟩ := getElem?_snoc.mp hat
    · exact h.found position other execution hold hexecution
    · rw [hnone] at hexecution
      exact absurd hexecution (by simp)
  · intro execution
    rw [Latest.latest_snoc_of_ne _ _ _ (by simp [hnone]), h.latest]
    cases hslot : state.latest.get? execution with
    | none => rfl
    | some slot =>
      obtain ⟨old, hold, -, -⟩ := h.slots execution slot.1 slot.2 hslot
      rw [Option.bind_some, Option.bind_some,
        List.getElem?_append_left (List.getElem?_eq_some_iff.mp hold).1]
  · simp [h.unread]
  · simpa [hnone] using h.once

/-- A trade of an execution not kept yet goes to the end, and its place is noted. -/
theorem Keeps.take_new {trades : List Trade} {state : Kept} (h : Keeps trades state)
    {trade : Trade} {execution : String} (hexecution : trade.execution? = some execution)
    (hslot : state.latest.get? execution = none) :
    Keeps (trades ++ [trade]) (state.take trade) := by
  obtain ⟨revision, hparse, rfl, hrevision⟩ := parse_of_execution hexecution
  have htake : state.take trade =
      { latest := state.latest.insert revision.execution (state.kept.length, trade.revision)
        kept := state.kept ++ [trade] } := by
    simp [Kept.take, hparse, hslot, hrevision]
  rw [htake]
  -- No trade kept is of the execution.
  have hfresh : ∀ (position : ℕ) (other : Trade), state.kept[position]? = some other →
      other.execution? ≠ some revision.execution := by
    intro position other hat hother
    have hfound := h.found position other _ hat hother
    rw [hslot] at hfound
    exact absurd hfound (by simp)
  refine ⟨?_, ?_, ?_, ?_, ?_⟩
  · intro other position number hother
    dsimp only at hother ⊢
    rw [IndexMap.get?_insert] at hother
    split at hother
    · rename_i heq
      obtain ⟨rfl, rfl⟩ := Prod.mk.inj (Option.some.inj hother)
      exact ⟨trade, by simp, heq ▸ hexecution, rfl⟩
    · obtain ⟨old, hold, hexecutionOld, hnumber⟩ := h.slots other position number hother
      exact ⟨old, getElem?_snoc.mpr (.inl hold), hexecutionOld, hnumber⟩
  · intro position other execution hat hother
    dsimp only at hat ⊢
    rw [IndexMap.get?_insert]
    obtain hold | ⟨rfl, rfl⟩ := getElem?_snoc.mp hat
    · have hne : execution ≠ revision.execution := by
        rintro rfl
        exact hfresh position other hold hother
      rw [if_neg hne]
      exact h.found position other execution hold hother
    · rw [hexecution] at hother
      rw [if_pos (Option.some.inj hother).symm]
  · intro execution
    dsimp only
    rw [IndexMap.get?_insert]
    by_cases heq : execution = revision.execution
    · subst heq
      have hnone : Latest.latest Trade.execution? Trade.revision trades
          (some revision.execution) = none := by
        rw [h.latest, hslot]
        rfl
      have hsnoc := Latest.latest_snoc_self Trade.execution? Trade.revision trades trade
      rw [hexecution, hnone] at hsnoc
      rw [hsnoc]
      simp [Latest.prefer]
    · rw [if_neg heq, Latest.latest_snoc_of_ne _ _ _ (by
        rw [hexecution]
        exact fun h => heq (Option.some.inj h).symm), h.latest]
      cases hother : state.latest.get? execution with
      | none => rfl
      | some slot =>
        obtain ⟨old, hold, -, -⟩ := h.slots execution slot.1 slot.2 hother
        rw [Option.bind_some, Option.bind_some, hold]
        exact (getElem?_snoc.mpr (.inl hold)).symm
  · have hread : ¬ trade.Unread := by simp [Trade.Unread, hexecution]
    simp [h.unread, hread]
  · rw [List.filterMap_append, List.nodup_append]
    refine ⟨h.once, by simp [hexecution], ?_⟩
    intro a ha b hb hab
    obtain ⟨old, hmem, hold⟩ := List.mem_filterMap.mp ha
    obtain ⟨position, hat⟩ := List.mem_iff_getElem?.mp hmem
    have hlast : b = revision.execution := by simpa [hexecution] using hb
    exact hfresh position old hat (by rw [hold, hab, hlast])

/-- A trade of an execution kept takes the place of the one kept if its revision is higher. -/
theorem Keeps.take_known {trades : List Trade} {state : Kept} (h : Keeps trades state)
    {trade : Trade} {execution : String} (hexecution : trade.execution? = some execution)
    {position keptRevision : ℕ}
    (hslot : state.latest.get? execution = some (position, keptRevision)) :
    Keeps (trades ++ [trade]) (state.take trade) := by
  obtain ⟨revision, hparse, rfl, hrevision⟩ := parse_of_execution hexecution
  obtain ⟨kept, hkept, hkeptExecution, rfl⟩ := h.slots _ position keptRevision hslot
  have hread : ¬ trade.Unread := by simp [Trade.Unread, hexecution]
  have hkeptRead : ¬ kept.Unread := by simp [Trade.Unread, hkeptExecution]
  have hbefore : Latest.latest Trade.execution? Trade.revision trades (some revision.execution) =
      some kept := by
    rw [h.latest, hslot]
    exact hkept
  have hsnoc := Latest.latest_snoc_self Trade.execution? Trade.revision trades trade
  rw [hexecution, hbefore] at hsnoc
  have hother : ∀ other, other ≠ revision.execution →
      Latest.latest Trade.execution? Trade.revision (trades ++ [trade]) (some other) =
        Latest.latest Trade.execution? Trade.revision trades (some other) := by
    intro other hne
    refine Latest.latest_snoc_of_ne _ _ _ ?_
    rw [hexecution]
    exact fun h => hne (Option.some.inj h).symm
  by_cases hlt : kept.revision < trade.revision
  · -- The later revision takes the place.
    have htake : state.take trade =
        { latest := state.latest.insert revision.execution (position, trade.revision)
          kept := state.kept.set position trade } := by
      have hne : trade.revision ≠ kept.revision := Nat.ne_of_gt hlt
      simp [Kept.take, hparse, hslot, hrevision, hlt, hne]
    have hlength : position < state.kept.length := (List.getElem?_eq_some_iff.mp hkept).1
    -- Only the kept trade's place is the execution's.
    have helsewhere : ∀ (place : ℕ) (other : Trade), state.kept[place]? = some other →
        other.execution? = some revision.execution → place = position := by
      intro place other hat hothers
      have hfound := h.found place other _ hat hothers
      rw [hslot] at hfound
      exact (congrArg Prod.fst (Option.some.inj hfound)).symm
    rw [htake]
    refine ⟨?_, ?_, ?_, ?_, ?_⟩
    · intro other place number hat
      dsimp only at hat ⊢
      rw [IndexMap.get?_insert] at hat
      split at hat
      · rename_i heq
        obtain ⟨rfl, rfl⟩ := Prod.mk.inj (Option.some.inj hat)
        exact ⟨trade, List.getElem?_set_self hlength, heq ▸ hexecution, rfl⟩
      · rename_i hne
        obtain ⟨old, hold, hexecutionOld, hnumber⟩ := h.slots other place number hat
        have hplace : position ≠ place := by
          rintro rfl
          rw [hkept] at hold
          obtain rfl := Option.some.inj hold
          rw [hkeptExecution] at hexecutionOld
          exact hne (Option.some.inj hexecutionOld).symm
        exact ⟨old, by rw [List.getElem?_set_ne hplace]; exact hold, hexecutionOld, hnumber⟩
    · intro place other execution hat hothers
      dsimp only at hat ⊢
      rw [IndexMap.get?_insert]
      by_cases hplace : position = place
      · subst hplace
        rw [List.getElem?_set_self hlength] at hat
        obtain rfl := Option.some.inj hat
        rw [hexecution] at hothers
        rw [if_pos (Option.some.inj hothers).symm]
      · rw [List.getElem?_set_ne hplace] at hat
        have hne : execution ≠ revision.execution := by
          rintro rfl
          exact hplace (helsewhere place other hat hothers).symm
        rw [if_neg hne]
        exact h.found place other execution hat hothers
    · intro execution
      dsimp only
      rw [IndexMap.get?_insert]
      by_cases heq : execution = revision.execution
      · subst heq
        rw [hsnoc, if_pos rfl, Option.bind_some, List.getElem?_set_self hlength]
        simp [Latest.prefer, hlt]
      · rw [if_neg heq, hother execution heq, h.latest]
        cases hslotOther : state.latest.get? execution with
        | none => rfl
        | some slot =>
          obtain ⟨old, hold, hexecutionOld, -⟩ := h.slots execution slot.1 slot.2 hslotOther
          have hplace : position ≠ slot.1 := by
            rintro rfl
            rw [hkept] at hold
            obtain rfl := Option.some.inj hold
            rw [hkeptExecution] at hexecutionOld
            exact heq (Option.some.inj hexecutionOld).symm
          rw [Option.bind_some, Option.bind_some, List.getElem?_set_ne hplace]
    · rw [filter_set hkept (by simp [hkeptRead]) (by simp [hread]), h.unread]
      simp [hread]
    · dsimp only
      rw [filterMap_set hkept (by rw [hexecution, hkeptExecution])]
      exact h.once
  · -- The trade kept stays.
    have htake : state.take trade = state := by
      simp [Kept.take, hparse, hslot, hrevision, hlt]
    rw [htake]
    refine ⟨h.slots, h.found, ?_, ?_, h.once⟩
    · intro execution
      rw [← h.latest]
      by_cases heq : execution = revision.execution
      · subst heq
        rw [hsnoc, hbefore]
        simp [Latest.prefer, hlt]
      · exact hother execution heq
    · rw [h.unread]
      simp [hread]

theorem Keeps.take {trades : List Trade} {state : Kept} (h : Keeps trades state) (trade : Trade) :
    Keeps (trades ++ [trade]) (state.take trade) := by
  obtain hunread | ⟨execution, hexecution⟩ := trade.unread_or
  · exact h.take_unread hunread
  · cases hslot : state.latest.get? execution with
    | none => exact h.take_new hexecution hslot
    | some slot => exact h.take_known hexecution hslot

theorem keeps_foldl (trades : List Trade) : Keeps trades (trades.foldl Kept.take ⟨.empty, []⟩) := by
  induction trades using List.reverseRecOn with
  | nil => exact keeps_empty
  | append_singleton trades trade ih =>
    rw [List.foldl_append]
    exact ih.take trade

/-! ## What an order's executions fill -/

/-- The shares counted under each name are those of the latest trade of the name. -/
theorem get?_insertLatest {trades : List Trade} {revisions : IndexMap String (ℕ × Decimal)}
    (h : ∀ id, revisions.get? id =
      (Latest.latest Trade.counted Trade.revision trades id).map
        fun trade => (trade.revision, trade.quantity)) (trade : Trade) (id : String) :
    (insertLatest revisions trade.counted trade.revision trade.quantity).get? id =
      (Latest.latest Trade.counted Trade.revision
        (trades ++ [trade]) id).map fun trade => (trade.revision, trade.quantity) := by
  have hself := Latest.latest_snoc_self Trade.counted Trade.revision
    trades trade
  have hbefore := h trade.counted
  unfold insertLatest
  by_cases heq : id = trade.counted
  · subst heq
    rw [hself]
    cases hlatest : Latest.latest Trade.counted Trade.revision trades
        trade.counted with
    | none =>
      rw [hlatest] at hbefore
      simp [hbefore, Latest.prefer]
    | some kept =>
      rw [hlatest] at hbefore
      by_cases hle : trade.revision ≤ kept.revision
      · have hlt : ¬ kept.revision < trade.revision := Nat.not_lt.mpr hle
        simp [hbefore, Latest.prefer, hle, hlt]
      · have hlt : kept.revision < trade.revision := Nat.lt_of_not_le hle
        simp [hbefore, Latest.prefer, hle, hlt]
  · rw [Latest.latest_snoc_of_ne Trade.counted Trade.revision trades
      (fun hsame : trade.counted = id => heq hsame.symm), ← h id]
    split
    · split
      · rfl
      · exact IndexMap.get?_insert_of_ne heq
    · exact IndexMap.get?_insert_of_ne heq

/-- The executions of one order, of this client, each with a number of shares. -/
structure OfOrder (apiClientId : ℤ) (reference : String) (executions : List Execution) : Prop where
  reference_ne : reference ≠ ""
  client : ∀ execution ∈ executions, execution.clientId = apiClientId
  reference : ∀ execution ∈ executions, execution.orderReference = reference
  shares : ∀ execution ∈ executions, execution.shares.isSome

def pushAll (apiClientId : ℤ) (executions : List Execution) : ExecutedQuantities :=
  executions.foldl (fun executed execution =>
    ExecutedQuantities.push executed apiClientId (.executionData execution)) .empty

theorem get?_pushAll {apiClientId : ℤ} {reference : String} {executions : List Execution}
    (h : OfOrder apiClientId reference executions) :
    (executions = [] → (pushAll apiClientId executions).get? reference = none) ∧
      (executions ≠ [] → ((pushAll apiClientId executions).get? reference).isSome) ∧
      ∀ id, (((pushAll apiClientId executions).get? reference).getD .empty).get? id =
        (Latest.latest Trade.counted Trade.revision
          (executions.map tradeOf) id).map fun trade => (trade.revision, trade.quantity) := by
  induction executions using List.reverseRecOn with
  | nil => simp [pushAll]
  | append_singleton executions execution ih =>
    obtain ⟨-, -, hget⟩ := ih ⟨h.reference_ne, fun other hother => h.client other (by simp [hother]),
      fun other hother => h.reference other (by simp [hother]),
      fun other hother => h.shares other (by simp [hother])⟩
    have hclient := h.client execution (by simp)
    have hreference := h.reference execution (by simp)
    obtain ⟨shares, hshares⟩ := Option.isSome_iff_exists.mp (h.shares execution (by simp))
    have hquantity : (tradeOf execution).quantity = shares := by simp [tradeOf, hshares]
    have hpush : pushAll apiClientId (executions ++ [execution]) =
        (pushAll apiClientId executions).insert reference
          (insertLatest (((pushAll apiClientId executions).get? reference).getD .empty)
            (tradeOf execution).counted (tradeOf execution).revision
            (tradeOf execution).quantity) := by
      rw [hquantity]
      unfold pushAll
      rw [List.foldl_append]
      simp only [List.foldl_cons, List.foldl_nil, ExecutedQuantities.push, hclient, hreference,
        hshares, h.reference_ne, ne_eq, not_true_eq_false, false_and, or_self, if_false]
      rfl
    rw [hpush]
    refine ⟨by simp, by simp, fun id => ?_⟩
    rw [IndexMap.get?_insert_self, Option.getD_some, List.map_append]
    exact get?_insertLatest hget (tradeOf execution) id

theorem sum_values {map : IndexMap String (ℕ × Decimal)} :
    (map.values.map Prod.snd).sum =
      ∑ id ∈ map.keys.toFinset, ((map.get? id).elim 0 Prod.snd) := by
  rw [List.sum_toFinset _ map.nodup_keys]
  unfold IndexMap.values IndexMap.keys
  rw [List.map_map, List.map_map]
  refine congrArg List.sum (List.map_congr_left fun entry hentry => ?_)
  have hget : map.get? entry.1 = some entry.2 := IndexMap.get?_eq_some_iff.mpr hentry
  simp [hget]

/-! ## One trade an execution -/

theorem mem_kept_of_latest {trades : List Trade} {execution : String} {trade : Trade}
    (h : Latest.latest Trade.execution? Trade.revision trades (some execution) = some trade) :
    trade ∈ keepLatestRevisions trades := by
  rw [(keeps_foldl trades).latest] at h
  obtain ⟨slot, -, hat⟩ := Option.bind_eq_some_iff.mp h
  exact List.mem_iff_getElem?.mpr ⟨slot.1, hat⟩

theorem latest_of_mem_kept {trades : List Trade} {trade : Trade}
    (h : trade ∈ keepLatestRevisions trades) {execution : String}
    (hexecution : trade.execution? = some execution) :
    Latest.latest Trade.execution? Trade.revision trades (some execution) = some trade := by
  obtain ⟨position, hat⟩ := List.mem_iff_getElem?.mp h
  have hkeeps := keeps_foldl trades
  rw [hkeeps.latest, hkeeps.found position trade execution hat hexecution]
  exact hat

theorem filter_unread (trades : List Trade) :
    (keepLatestRevisions trades).filter (fun trade => trade.Unread) =
      trades.filter fun trade => trade.Unread :=
  (keeps_foldl trades).unread

theorem mem_kept_of_unread {trades : List Trade} {trade : Trade} (h : trade.Unread) :
    trade ∈ keepLatestRevisions trades ↔ trade ∈ trades := by
  have hmem : trade ∈ (keepLatestRevisions trades).filter (fun trade => trade.Unread) ↔
      trade ∈ trades.filter fun trade => trade.Unread := by rw [filter_unread]
  simpa [h] using hmem

theorem mem_of_mem_kept {trades : List Trade} {trade : Trade}
    (h : trade ∈ keepLatestRevisions trades) : trade ∈ trades := by
  obtain hunread | ⟨execution, hexecution⟩ := trade.unread_or
  · exact (mem_kept_of_unread hunread).mp h
  · exact (Latest.isLatest_of_eq_some (latest_of_mem_kept h hexecution)).mem

theorem filter_of_imp {p q : Trade → Prop} [DecidablePred p] [DecidablePred q] {l : List Trade}
    (h : ∀ trade ∈ l, q trade → p trade) :
    (l.filter fun trade => q trade) =
      (l.filter fun trade => p trade).filter fun trade => q trade := by
  rw [List.filter_filter]
  refine List.filter_congr fun trade htrade => ?_
  by_cases hq : q trade
  · simp [hq, h trade htrade hq]
  · simp [hq]

/-- A trade of which no revision is read is the only one of its execution. -/
def Alone (trades : List Trade) : Prop :=
  ∀ trade ∈ trades, trade.Unread →
    (trades.filter fun other => named other.id = named trade.id) = [trade]

/-- Of the execution a trade is of, one trade is kept, at the highest revision. -/
def KeptOnce (trades : List Trade) : Prop :=
  ∀ trade ∈ trades, ∃ last ∈ trades,
    ((keepLatestRevisions trades).filter fun other => named other.id = named trade.id) = [last] ∧
      ∀ other ∈ trades, named other.id = named trade.id → number other.id ≤ number last.id

theorem alone_of_keptOnce {trades : List Trade} (h : KeptOnce trades) : Alone trades := by
  intro trade hmem hunread
  obtain ⟨last, -, hkept, -⟩ := h trade hmem
  have hin : trade ∈ (keepLatestRevisions trades).filter
      fun other => named other.id = named trade.id := by
    simpa using (mem_kept_of_unread hunread).mpr hmem
  obtain rfl : trade = last := by
    rw [hkept] at hin
    exact List.mem_singleton.mp hin
  -- Nothing of the execution has a revision that is read: it would be kept too.
  have hall : ∀ other ∈ trades, named other.id = named trade.id → other.Unread := by
    intro other hother hnamed
    obtain hdone | ⟨execution, hexecution⟩ := other.unread_or
    · exact hdone
    · exfalso
      obtain ⟨kept, hlatest⟩ : ∃ kept, Latest.latest Trade.execution? Trade.revision trades
          other.execution? = some kept := Latest.exists_latest hother
      rw [hexecution] at hlatest
      have hkeptExecution := (Latest.isLatest_of_eq_some hlatest).keyed
      have hkeptNamed : named kept.id = named trade.id := by
        rw [← hnamed, (Trade.named_of_execution hkeptExecution).1,
          (Trade.named_of_execution hexecution).1]
      have hkeptIn : kept ∈ (keepLatestRevisions trades).filter
          fun other => named other.id = named trade.id := by
        simpa [hkeptNamed] using mem_kept_of_latest hlatest
      rw [hkept, List.mem_singleton] at hkeptIn
      rw [hkeptIn, hunread] at hkeptExecution
      exact absurd hkeptExecution (by simp)
  have hboth := filter_of_imp hall
  have hsub : ((trades.filter fun other => other.Unread).filter
      fun other => named other.id = named trade.id).Sublist [trade] := by
    rw [← hkept, ← filter_unread, List.filter_filter]
    refine List.monotone_filter_right _ fun other hother => ?_
    simp only [Bool.and_eq_true] at hother
    exact hother.1
  rw [hboth]
  obtain hnil | heq := List.sublist_singleton.mp hsub
  · have hmemBoth : trade ∈ (trades.filter fun other => other.Unread).filter
        fun other => named other.id = named trade.id := by
      simpa using ⟨hmem, hunread⟩
    rw [hnil] at hmemBoth
    exact absurd hmemBoth (by simp)
  · exact heq

theorem filterMap_execution (trades : List Trade) :
    trades.filterMap Trade.execution? =
      (trades.filter fun trade => ¬ trade.Unread).map Trade.counted := by
  induction trades with
  | nil => rfl
  | cons trade trades ih =>
    obtain hunread | ⟨execution, hexecution⟩ := trade.unread_or
    · have hnone : trade.execution? = none := hunread
      rw [List.filterMap_cons_none hnone, ih, List.filter_cons_of_neg (by simpa using hunread)]
    · have hread : ¬ trade.Unread := by simp [Trade.Unread, hexecution]
      have hcounted : trade.counted = execution := (Trade.named_of_execution hexecution).2.2
      rw [List.filterMap_cons_some hexecution, ih, List.filter_cons_of_pos (by simpa using hread),
        List.map_cons, hcounted]

/-- The kept trades whose revision is read are each of an execution of its own. -/
theorem nodup_counted_kept (trades : List Trade) :
    (((keepLatestRevisions trades).filter fun trade => ¬ trade.Unread).map
      Trade.counted).Nodup := by
  rw [← filterMap_execution]
  exact (keeps_foldl trades).once

theorem execution_of_read {trade : Trade} (h : ¬ trade.Unread) :
    trade.execution? = some trade.counted := by
  obtain hunread | ⟨execution, hexecution⟩ := trade.unread_or
  · exact absurd hunread h
  · rw [hexecution]
    exact congrArg some (Trade.named_of_execution hexecution).2.2.symm

theorem keptOnce_of_alone {trades : List Trade} (h : Alone trades) : KeptOnce trades := by
  intro trade hmem
  by_cases hany : ∃ other ∈ trades, named other.id = named trade.id ∧ other.Unread
  · -- The execution is of one trade alone, whose revision is not read.
    obtain ⟨other, hother, hnamed, hunread⟩ := hany
    have halone := h other hother hunread
    rw [hnamed] at halone
    have heq : ∀ third ∈ trades, named third.id = named trade.id → third = other := by
      intro third hthird hsame
      have hin : third ∈ trades.filter fun other => named other.id = named trade.id := by
        simpa [hsame] using hthird
      rw [halone] at hin
      exact List.mem_singleton.mp hin
    refine ⟨other, hother, ?_, fun third hthird hsame => by rw [heq third hthird hsame]⟩
    rw [filter_of_imp (p := Trade.Unread) fun third hthird hsame => by
        rw [heq third (mem_of_mem_kept hthird) hsame]
        exact hunread,
      filter_unread, ← filter_of_imp (p := Trade.Unread) fun third hthird hsame => by
        rw [heq third hthird hsame]
        exact hunread]
    exact halone
  · push Not at hany
    have hread : ¬ trade.Unread := hany trade hmem rfl
    have hexecution := execution_of_read hread
    obtain ⟨last, hlatest⟩ : ∃ last, Latest.latest Trade.execution? Trade.revision trades
        trade.execution? = some last := Latest.exists_latest hmem
    rw [hexecution] at hlatest
    have hspec := Latest.isLatest_of_eq_some hlatest
    have hnamedTrade := Trade.named_of_execution hexecution
    have hnamedLast := Trade.named_of_execution hspec.keyed
    have hnamed : named last.id = named trade.id := by rw [hnamedLast.1, hnamedTrade.1]
    -- A trade of the execution has a revision that is read.
    have hsame : ∀ other ∈ trades, named other.id = named trade.id →
        other.execution? = some trade.counted := by
      intro other hother hothers
      have hothersExecution := execution_of_read (hany other hother hothers)
      have hrevised := (Trade.named_of_execution hothersExecution).1
      rw [hothers, hnamedTrade.1] at hrevised
      rw [hothersExecution, Named.revised.inj hrevised]
    refine ⟨last, hspec.mem, ?_, ?_⟩
    · have hmemFilter : ∀ other, (other ∈ (keepLatestRevisions trades).filter
          fun other => named other.id = named trade.id) ↔ other = last := by
        intro other
        simp only [List.mem_filter, decide_eq_true_eq]
        constructor
        · rintro ⟨hkept, hothers⟩
          have hagain := latest_of_mem_kept hkept (hsame other (mem_of_mem_kept hkept) hothers)
          rw [hlatest] at hagain
          exact (Option.some.inj hagain).symm
        · rintro rfl
          exact ⟨mem_kept_of_latest hlatest, hnamed⟩
      have hnodup : ((keepLatestRevisions trades).filter
          fun other => named other.id = named trade.id).Nodup := by
        have hreadNodup := (nodup_counted_kept trades).of_map
        have hread : ∀ other ∈ keepLatestRevisions trades, named other.id = named trade.id →
            ¬ other.Unread := fun other hother hothers =>
          hany other (mem_of_mem_kept hother) hothers
        rw [filter_of_imp hread]
        exact hreadNodup.filter _
      exact List.perm_singleton.mp ((List.perm_ext_iff_of_nodup hnodup
        (List.nodup_singleton last)).mpr fun other => by rw [hmemFilter, List.mem_singleton])
    · intro other hother hothers
      have hothersExecution := hsame other hother hothers
      rw [(Trade.named_of_execution hothersExecution).2.1, hnamedLast.2.1]
      exact hspec.le other hother hothersExecution

/-! ## The two sums -/

theorem sum_by_key {key : Trade → String} {l : List Trade} (hnodup : (l.map key).Nodup)
    {f : Trade → Decimal} {g : String → Decimal} (hg : ∀ trade ∈ l, f trade = g (key trade)) :
    (l.map f).sum = ∑ id ∈ (l.map key).toFinset, g id := by
  rw [List.sum_toFinset _ hnodup, List.map_map]
  exact congrArg List.sum (List.map_congr_left hg)

/-- The quantity of the latest trade under a key. -/
def latestQuantity {K : Type} [DecidableEq K] (key : Trade → K) (trades : List Trade) (k : K) :
    Decimal :=
  (Latest.latest key Trade.revision trades k).elim 0 Trade.quantity

theorem sum_kept (trades : List Trade) :
    ((keepLatestRevisions trades).map Trade.quantity).sum =
      ((trades.filter fun trade => trade.Unread).map Trade.quantity).sum +
        ∑ execution ∈ (trades.filterMap Trade.execution?).toFinset,
          latestQuantity Trade.execution? trades (some execution) := by
  have hperm := List.filter_append_perm (fun trade : Trade => decide trade.Unread)
    (keepLatestRevisions trades)
  rw [← (hperm.map Trade.quantity).sum_eq, List.map_append, List.sum_append, filter_unread]
  congr 1
  have hsum := sum_by_key (nodup_counted_kept trades)
    (f := Trade.quantity) (g := fun execution =>
      latestQuantity Trade.execution? trades (some execution)) (by
      intro trade htrade
      have hmem := List.mem_filter.mp htrade
      have hread : ¬ trade.Unread := by simpa using hmem.2
      have hlatest := latest_of_mem_kept hmem.1 (execution_of_read hread)
      simp [latestQuantity, hlatest])
  have hsets : (((keepLatestRevisions trades).filter fun trade => ¬ trade.Unread).map
      Trade.counted).toFinset = (trades.filterMap Trade.execution?).toFinset := by
    rw [← filterMap_execution]
    ext execution
    simp only [List.mem_toFinset, List.mem_filterMap]
    constructor
    · rintro ⟨trade, hkept, hexecution⟩
      exact ⟨trade, mem_of_mem_kept hkept, hexecution⟩
    · rintro ⟨trade, hmem, hexecution⟩
      obtain ⟨last, hlatest⟩ : ∃ last, Latest.latest Trade.execution? Trade.revision trades
          trade.execution? = some last := Latest.exists_latest hmem
      rw [hexecution] at hlatest
      exact ⟨last, mem_kept_of_latest hlatest, (Latest.isLatest_of_eq_some hlatest).keyed⟩
  rw [← hsets, ← hsum]
  simp

theorem of_pushAll {apiClientId : ℤ} {reference : String} {executions : List Execution}
    (h : OfOrder apiClientId reference executions) :
    ((pushAll apiClientId executions).of reference).getD 0 =
      ∑ id ∈ ((executions.map tradeOf).map Trade.counted).toFinset,
        latestQuantity Trade.counted (executions.map tradeOf) id := by
  obtain ⟨-, -, hget⟩ := get?_pushAll h
  have hof : ((pushAll apiClientId executions).of reference).getD 0 =
      (((((pushAll apiClientId executions).get? reference).getD .empty).values).map
        Prod.snd).sum := by
    unfold ExecutedQuantities.of
    cases (pushAll apiClientId executions).get? reference with
    | none => rfl
    | some revisions => rfl
  rw [hof, sum_values]
  have hkeys : (((pushAll apiClientId executions).get? reference).getD .empty).keys.toFinset =
      ((executions.map tradeOf).map Trade.counted).toFinset := by
    ext id
    rw [List.mem_toFinset, List.mem_toFinset, IndexMap.mem_keys_iff, List.mem_map]
    constructor
    · rintro ⟨value, hvalue⟩
      rw [hget id] at hvalue
      obtain ⟨trade, hlatest, -⟩ := Option.map_eq_some_iff.mp hvalue
      have hspec := Latest.isLatest_of_eq_some hlatest
      exact ⟨trade, hspec.mem, hspec.keyed⟩
    · rintro ⟨trade, hmem, rfl⟩
      obtain ⟨last, hlatest⟩ : ∃ last, Latest.latest Trade.counted Trade.revision
          (executions.map tradeOf) trade.counted = some last := Latest.exists_latest hmem
      exact ⟨_, by rw [hget, hlatest]; rfl⟩
  rw [hkeys]
  refine Finset.sum_congr rfl fun id _ => ?_
  rw [hget id]
  unfold latestQuantity
  cases Latest.latest Trade.counted Trade.revision (executions.map tradeOf) id with
  | none => rfl
  | some trade => rfl

/-! ## Executions displaced -/

/-- Trades of one execution at one revision have one quantity. -/
def Consistent (trades : List Trade) : Prop :=
  ∀ a ∈ trades, ∀ b ∈ trades, named a.id = named b.id → number a.id = number b.id →
    a.quantity = b.quantity

/-- An id no revision is read from, which is what another id has before its revision. -/
def Doubles (trades : List Trade) (trade : Trade) : Prop :=
  trade.Unread ∧ ∃ other ∈ trades, other.execution? = some trade.id

instance (trades : List Trade) (trade : Trade) : Decidable (Doubles trades trade) :=
  inferInstanceAs (Decidable (_ ∧ _))

/-- Of the two executions counted under such an id, what the one not counted has: the trade's
    own unless it was the first and the other is only at revision 0. -/
def displaced (trades : List Trade) (trade : Trade) : Decimal :=
  if ((trades.find? fun other => other.counted = trade.id).all fun first => first.Unread) ∧
      ∀ other ∈ trades, other.execution? = some trade.id → other.revision = 0 then
    (trades.find? fun other => other.execution? = some trade.id).elim 0 Trade.quantity
  else trade.quantity

theorem Alone.nodup {trades : List Trade} (h : Alone trades) :
    ((trades.filter fun trade => trade.Unread).map Trade.id).Nodup := by
  rw [List.Nodup, List.pairwise_map, List.pairwise_iff_forall_sublist]
  intro a b hsub hid
  have hmem : a ∈ trades.filter fun trade => trade.Unread := hsub.subset (by simp)
  obtain ⟨ha, hunread⟩ := List.mem_filter.mp hmem
  have halone := h a ha (by simpa using hunread)
  -- The two are a part of what is of the execution, which is one trade.
  have hpair : [a, b].Sublist (trades.filter fun other => named other.id = named a.id) := by
    have hfilter := (hsub.trans List.filter_sublist).filter
      fun other => decide (named other.id = named a.id)
    simpa [hid] using hfilter
  rw [halone] at hpair
  exact absurd hpair.length_le (by simp)

theorem Alone.eq_of_id {trades : List Trade} (h : Alone trades) {a b : Trade}
    (ha : a ∈ trades) (hb : b ∈ trades) (hunreadA : a.Unread) (hunreadB : b.Unread)
    (hid : a.id = b.id) : a = b :=
  List.inj_on_of_nodup_map h.nodup (by simpa using ⟨ha, hunreadA⟩)
    (by simpa using ⟨hb, hunreadB⟩) hid

theorem Trade.counted_of_execution {trade : Trade} {execution : String}
    (h : trade.execution? = some execution) : trade.counted = execution :=
  (Trade.named_of_execution h).2.2

theorem Trade.Unread.counted {trade : Trade} (h : trade.Unread) :
    trade.counted = trade.id ∧ trade.revision = 0 := h.countedAs

/-- Latest trades of one execution at one revision have one quantity. -/
theorem Consistent.quantity_eq {trades : List Trade} (h : Consistent trades) {a b : Trade}
    (ha : a ∈ trades) (hb : b ∈ trades) {execution : String}
    (hexecutionA : a.execution? = some execution) (hexecutionB : b.execution? = some execution)
    (hrevision : a.revision = b.revision) : a.quantity = b.quantity := by
  obtain ⟨hnamedA, hnumberA, -⟩ := Trade.named_of_execution hexecutionA
  obtain ⟨hnamedB, hnumberB, -⟩ := Trade.named_of_execution hexecutionB
  exact h a ha b hb (by rw [hnamedA, hnamedB]) (by rw [hnumberA, hnumberB, hrevision])

/-- Where one execution only is counted under a name, it counts as it is kept. -/
theorem latestQuantity_of_execution {trades : List Trade} {id : String}
    (h : ∀ trade ∈ trades, trade.Unread → trade.id ≠ id) :
    latestQuantity Trade.counted trades id =
      latestQuantity Trade.execution? trades (some id) := by
  have hlatest : Latest.latest Trade.counted Trade.revision trades id =
      Latest.latest Trade.execution? Trade.revision trades (some id) := by
    refine Latest.latest_congr fun trade htrade => ?_
    obtain hunread | ⟨execution, hexecution⟩ := trade.unread_or
    · have hnone : trade.execution? = none := hunread
      simp [hunread.counted.1, hnone, h trade htrade hunread]
    · simp [Trade.counted_of_execution hexecution, hexecution]
  unfold latestQuantity
  rw [hlatest]

theorem latestQuantity_of_unread {trades : List Trade} (halone : Alone trades) {trade : Trade}
    (hmem : trade ∈ trades) (hunread : trade.Unread)
    (h : ∀ other ∈ trades, other.execution? ≠ some trade.id) :
    latestQuantity Trade.counted trades trade.id = trade.quantity := by
  obtain ⟨last, hlatest⟩ : ∃ last, Latest.latest Trade.counted Trade.revision trades
      trade.counted = some last := Latest.exists_latest hmem
  rw [hunread.counted.1] at hlatest
  have hspec := Latest.isLatest_of_eq_some hlatest
  obtain hlast | ⟨execution, hexecution⟩ := last.unread_or
  · have hid : last.id = trade.id := by rw [← hlast.counted.1, hspec.keyed]
    simp [latestQuantity, hlatest, halone.eq_of_id hspec.mem hmem hlast hunread hid]
  · have hcounted := Trade.counted_of_execution hexecution
    rw [hspec.keyed] at hcounted
    exact absurd (hcounted ▸ hexecution) (h last hspec.mem)

/-- Of two executions counted under one name, one counts, and the other is displaced. -/
theorem displaced_eq {trades : List Trade} (halone : Alone trades)
    (hconsistent : Consistent trades) {trade : Trade} (hmem : trade ∈ trades)
    (hdoubles : Doubles trades trade) :
    displaced trades trade = latestQuantity Trade.execution? trades (some trade.id) +
      trade.quantity - latestQuantity Trade.counted trades trade.id := by
  obtain ⟨hunread, other, hother, hexecutionOther⟩ := hdoubles
  obtain ⟨last, hlatest⟩ : ∃ last, Latest.latest Trade.counted Trade.revision trades
      trade.counted = some last := Latest.exists_latest hmem
  obtain ⟨kept, hkept⟩ : ∃ kept, Latest.latest Trade.execution? Trade.revision trades
      other.execution? = some kept := Latest.exists_latest hother
  rw [hunread.counted.1] at hlatest
  rw [hexecutionOther] at hkept
  have hlast := Latest.isLatest_of_eq_some hlatest
  have hkeptSpec := Latest.isLatest_of_eq_some hkept
  -- A latest trade of the other execution counts as the one kept.
  have hsame : ¬ last.Unread → last.quantity = kept.quantity := by
    intro hread
    have hexecution := execution_of_read hread
    rw [hlast.keyed] at hexecution
    refine hconsistent.quantity_eq hlast.mem hkeptSpec.mem hexecution hkeptSpec.keyed ?_
    exact Nat.le_antisymm (hkeptSpec.le last hlast.mem hexecution)
      (hlast.le kept hkeptSpec.mem (Trade.counted_of_execution hkeptSpec.keyed))
  have hown : last.Unread → last = trade := by
    intro hlastUnread
    have hid : last.id = trade.id := by rw [← hlastUnread.counted.1, hlast.keyed]
    exact halone.eq_of_id hlast.mem hmem hlastUnread hunread hid
  unfold latestQuantity
  rw [hlatest, hkept, Option.elim_some, Option.elim_some]
  unfold displaced
  by_cases hzero : ∀ other ∈ trades, other.execution? = some trade.id → other.revision = 0
  · -- All are at revision 0, so that the first counts.
    have hfirst : (trades.find? fun other => other.counted = trade.id) = some last := by
      rw [← hlatest]
      refine (Latest.latest_of_zero fun third hthird hcounted => ?_).symm
      obtain hthirdUnread | ⟨execution, hexecution⟩ := third.unread_or
      · exact hthirdUnread.counted.2
      · rw [Trade.counted_of_execution hexecution] at hcounted
        exact hzero third hthird (hcounted ▸ hexecution)
    have hfirstKept : (trades.find? fun other => other.execution? = some trade.id) =
        some kept := by
      rw [← hkept]
      exact (Latest.latest_of_zero hzero).symm
    rw [hfirst, hfirstKept]
    by_cases hlastUnread : last.Unread
    · rw [if_pos ⟨by simpa using hlastUnread, hzero⟩, hown hlastUnread]
      simp
    · rw [if_neg (fun h => hlastUnread (by simpa using h.1)), hsame hlastUnread]
      ring
  · have hlastRead : ¬ last.Unread := by
      intro hlastUnread
      push Not at hzero
      obtain ⟨third, hthird, hexecution, hrevision⟩ := hzero
      have hle := hlast.le third hthird (Trade.counted_of_execution hexecution)
      rw [hlastUnread.counted.2] at hle
      exact hrevision (Nat.le_zero.mp hle)
    rw [if_neg (fun h => hzero h.2), hsame hlastRead]
    ring

/-- What the trades kept have more than the executions counted is what is displaced. -/
theorem sum_kept_sub {trades : List Trade} (halone : Alone trades)
    (hconsistent : Consistent trades) :
    ((keepLatestRevisions trades).map Trade.quantity).sum -
        ∑ id ∈ (trades.map Trade.counted).toFinset, latestQuantity Trade.counted trades id =
      ((trades.filter fun trade => Doubles trades trade).map (displaced trades)).sum := by
  -- The quantity of the trade whose revision is not read, by its id.
  let own : String → Decimal := fun id =>
    ((trades.filter fun trade => trade.Unread).find? fun trade => trade.id = id).elim 0
      Trade.quantity
  have hown : ∀ trade ∈ trades, trade.Unread → trade.quantity = own trade.id := by
    intro trade hmem hunread
    have hin : trade ∈ trades.filter fun trade => trade.Unread := by
      simpa using ⟨hmem, hunread⟩
    obtain ⟨found, hfound⟩ : ∃ found, ((trades.filter fun trade => trade.Unread).find?
        fun other => other.id = trade.id) = some found := by
      rw [← Option.isSome_iff_exists, List.find?_isSome]
      exact ⟨trade, hin, by simp⟩
    have hfoundMem := List.mem_of_find?_eq_some hfound
    have hid : found.id = trade.id := by simpa using List.find?_some hfound
    have heq : found = trade := List.inj_on_of_nodup_map halone.nodup hfoundMem hin hid
    show trade.quantity = ((trades.filter fun trade => trade.Unread).find?
      fun other => other.id = trade.id).elim 0 Trade.quantity
    rw [hfound, heq]
    rfl
  have hsumOwn := sum_by_key halone.nodup (f := Trade.quantity) (g := own)
    (fun trade htrade => by
      have hmem := List.mem_filter.mp htrade
      exact hown trade hmem.1 (by simpa using hmem.2))
  have hdoublesNodup : ((trades.filter fun trade => Doubles trades trade).map
      Trade.id).Nodup := by
    refine halone.nodup.sublist (List.Sublist.map Trade.id ?_)
    refine List.monotone_filter_right _ fun trade htrade => ?_
    simp only [decide_eq_true_eq] at htrade ⊢
    exact htrade.1
  have hsumDisplaced := sum_by_key hdoublesNodup (f := displaced trades)
    (g := fun id => latestQuantity Trade.execution? trades (some id) + own id -
      latestQuantity Trade.counted trades id) (fun trade htrade => by
      have hmem := List.mem_filter.mp htrade
      have hdoubles : Doubles trades trade := by simpa using hmem.2
      rw [displaced_eq halone hconsistent hmem.1 hdoubles, hown trade hmem.1 hdoubles.1])
  rw [sum_kept, hsumOwn, hsumDisplaced]
  generalize hP : (trades.filterMap Trade.execution?).toFinset = P
  generalize hU : ((trades.filter fun trade => trade.Unread).map Trade.id).toFinset = U
  have hmemP : ∀ id, id ∈ P ↔ ∃ trade ∈ trades, trade.execution? = some id := by
    intro id
    rw [← hP, List.mem_toFinset, List.mem_filterMap]
  have hmemU : ∀ id, id ∈ U ↔ ∃ trade ∈ trades, trade.Unread ∧ trade.id = id := by
    intro id
    rw [← hU]
    simp [and_assoc]
  have hall : (trades.map Trade.counted).toFinset = P ∪ U := by
    ext id
    rw [List.mem_toFinset, List.mem_map, Finset.mem_union, hmemP, hmemU]
    constructor
    · rintro ⟨trade, hmem, hcounted⟩
      obtain hunread | ⟨execution, hexecution⟩ := trade.unread_or
      · exact .inr ⟨trade, hmem, hunread, by rw [← hunread.counted.1, hcounted]⟩
      · rw [Trade.counted_of_execution hexecution] at hcounted
        exact .inl ⟨trade, hmem, by rw [hexecution, hcounted]⟩
    · rintro (⟨trade, hmem, hexecution⟩ | ⟨trade, hmem, hunread, hid⟩)
      · exact ⟨trade, hmem, Trade.counted_of_execution hexecution⟩
      · exact ⟨trade, hmem, by rw [hunread.counted.1, hid]⟩
  have hboth : ((trades.filter fun trade => Doubles trades trade).map Trade.id).toFinset =
      P ∩ U := by
    ext id
    rw [Finset.mem_inter, hmemP, hmemU]
    simp only [List.mem_toFinset, List.mem_map, List.mem_filter, decide_eq_true_eq]
    constructor
    · rintro ⟨trade, ⟨hmem, hunread, hdouble⟩, rfl⟩
      exact ⟨hdouble, trade, hmem, hunread, rfl⟩
    · rintro ⟨hdouble, trade, hmem, hunread, rfl⟩
      exact ⟨trade, ⟨hmem, hunread, hdouble⟩, rfl⟩
  rw [hall, hboth]
  -- Under any other name the two sums agree.
  have hexecutions : ∀ id ∈ P, id ∉ P ∩ U →
      latestQuantity Trade.execution? trades (some id) -
        latestQuantity Trade.counted trades id = 0 := by
    intro id hid hnot
    rw [latestQuantity_of_execution, sub_self]
    intro trade hmem hunread heq
    exact hnot (Finset.mem_inter.mpr ⟨hid, (hmemU id).mpr ⟨trade, hmem, hunread, heq⟩⟩)
  have hunreads : ∀ id ∈ U, id ∉ P ∩ U →
      own id - latestQuantity Trade.counted trades id = 0 := by
    intro id hid hnot
    obtain ⟨trade, hmem, hunread, rfl⟩ := (hmemU id).mp hid
    rw [latestQuantity_of_unread halone hmem hunread, ← hown trade hmem hunread, sub_self]
    intro other hother hexecution
    exact hnot (Finset.mem_inter.mpr ⟨(hmemP _).mpr ⟨other, hother, hexecution⟩, hid⟩)
  have hleft := Finset.sum_subset (Finset.inter_subset_left : P ∩ U ⊆ P) hexecutions
  have hright := Finset.sum_subset (Finset.inter_subset_right : P ∩ U ⊆ U) hunreads
  have hunion : ∑ id ∈ P ∪ U, latestQuantity Trade.counted trades id +
      ∑ id ∈ P ∩ U, latestQuantity Trade.counted trades id =
        ∑ id ∈ P, latestQuantity Trade.counted trades id +
          ∑ id ∈ U, latestQuantity Trade.counted trades id := Finset.sum_union_inter
  rw [Finset.sum_sub_distrib, Finset.sum_sub_distrib] at hleft hright
  rw [Finset.sum_sub_distrib, Finset.sum_add_distrib]
  linarith

/-! ## The result -/

/-- The executions and shares of the trades kept. -/
def keptShares (trades : List Trade) : Set (Named × Decimal) :=
  {pair | ∃ trade ∈ keepLatestRevisions trades, (named trade.id, trade.quantity) = pair}

theorem keptShares_subset {trades others : List Trade} (hconsistent : Consistent trades)
    (h : ∀ trade, trade ∈ others ↔ trade ∈ trades) : keptShares others ⊆ keptShares trades := by
  rintro pair ⟨trade, hkept, rfl⟩
  have hmem := (h trade).mp (mem_of_mem_kept hkept)
  obtain hunread | ⟨execution, hexecution⟩ := trade.unread_or
  · exact ⟨trade, (mem_kept_of_unread hunread).mpr hmem, rfl⟩
  · -- The one kept of the other list is of the same revision.
    have hspec := Latest.isLatest_of_eq_some (latest_of_mem_kept hkept hexecution)
    obtain ⟨last, hlatest⟩ : ∃ last, Latest.latest Trade.execution? Trade.revision trades
        trade.execution? = some last := Latest.exists_latest hmem
    rw [hexecution] at hlatest
    have hlast := Latest.isLatest_of_eq_some hlatest
    have hrevision : last.revision = trade.revision :=
      Nat.le_antisymm (hspec.le last ((h last).mpr hlast.mem) hlast.keyed)
        (hlast.le trade hmem hexecution)
    refine ⟨last, mem_kept_of_latest hlatest, ?_⟩
    rw [hconsistent.quantity_eq hlast.mem hmem hlast.keyed hexecution hrevision,
      (Trade.named_of_execution hlast.keyed).1, (Trade.named_of_execution hexecution).1]

theorem Consistent.of_mem_iff {trades others : List Trade} (hconsistent : Consistent trades)
    (h : ∀ trade, trade ∈ others ↔ trade ∈ trades) : Consistent others :=
  fun a ha b hb => hconsistent a ((h a).mp ha) b ((h b).mp hb)

/-- The executions of an order are counted once, at their latest revision, on both paths. -/
structure CountedOnce (trades : List Trade) (filled : Option Decimal) : Prop where
  members : ∀ trade ∈ keepLatestRevisions trades, trade ∈ trades
  keptOnce : KeptOnce trades
  same : ∀ others, (∀ trade, trade ∈ others ↔ trade ∈ trades) →
    keptShares others = keptShares trades
  filled : filled.getD 0 = ((keepLatestRevisions trades).map Trade.quantity).sum

/-- They are if a trade of which no revision is read is the only one of its execution, and what
    is displaced under such trades' ids comes to nothing. -/
theorem countedOnce_iff {apiClientId : ℤ} {reference : String} {executions : List Execution}
    (h : OfOrder apiClientId reference executions)
    (hconsistent : Consistent (executions.map tradeOf)) :
    CountedOnce (executions.map tradeOf) ((pushAll apiClientId executions).of reference) ↔
      Alone (executions.map tradeOf) ∧
        (((executions.map tradeOf).filter fun trade =>
          Doubles (executions.map tradeOf) trade).map (displaced (executions.map tradeOf))).sum =
            0 := by
  have hof := of_pushAll h
  constructor
  · intro hcounted
    have halone := alone_of_keptOnce hcounted.keptOnce
    refine ⟨halone, ?_⟩
    rw [← sum_kept_sub halone hconsistent, ← hof, hcounted.filled, sub_self]
  · rintro ⟨halone, hdisplaced⟩
    refine ⟨fun trade => mem_of_mem_kept, keptOnce_of_alone halone, ?_, ?_⟩
    · intro others hothers
      exact Set.Subset.antisymm (keptShares_subset hconsistent hothers)
        (keptShares_subset (hconsistent.of_mem_iff hothers) fun trade => (hothers trade).symm)
    · rw [← sum_kept_sub halone hconsistent, ← hof, sub_eq_zero] at hdisplaced
      exact hdisplaced.symm

/-- An order's executions: one of them corrected, and one without a revision. -/
def corrected : List Execution :=
  [⟨7, "cid", "0e.01.01", some 5⟩, ⟨7, "cid", "plain", some 7⟩, ⟨7, "cid", "0e.01.02", some 6⟩,
    ⟨7, "cid", "0e.01.02", some 6⟩]

theorem countedOnce_iff_corrected :
    CountedOnce (corrected.map tradeOf) ((pushAll 7 corrected).of "cid") ↔
      Alone (corrected.map tradeOf) ∧
        (((corrected.map tradeOf).filter fun trade =>
          Doubles (corrected.map tradeOf) trade).map
            (displaced (corrected.map tradeOf))).sum = 0 :=
  countedOnce_iff ⟨by decide, by decide, by decide, by decide⟩ (by
    unfold Consistent
    decide +kernel)

/-- An execution without a revision, read twice. -/
def repeated : List Execution := [⟨7, "cid", "plain", some 7⟩, ⟨7, "cid", "plain", some 7⟩]

theorem repeated_not_countedOnce :
    OfOrder 7 "cid" repeated ∧ Consistent (repeated.map tradeOf) ∧
      ¬ CountedOnce (repeated.map tradeOf) ((pushAll 7 repeated).of "cid") := by
  refine ⟨⟨by decide, by decide, by decide, by decide⟩, by
    unfold Consistent
    decide +kernel, fun h => ?_⟩
  have hfilled := h.filled
  have hne : ¬ (((pushAll 7 repeated).of "cid").getD 0 =
      ((keepLatestRevisions (repeated.map tradeOf)).map Trade.quantity).sum) := by
    decide +kernel
  exact hne hfilled

end Rustrade.Ibkr
