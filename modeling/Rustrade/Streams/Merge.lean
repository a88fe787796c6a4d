import Mathlib.Algebra.BigOperators.Group.List.Basic
import Mathlib.Data.List.Sort
import Mathlib.Order.Basic
import Rustrade.Execution.AccountEvent
import Rustrade.Lib.Peekable

/-!
# Market streams merged by time

`TimeSortedMerge` peeks every input and gives the earliest item held, but only once every input
holds one or has ended. An error or a reconnect is given as soon as it is seen. The check that each
input is sorted is compiled out of a release build and not modelled.
-/

set_option autoImplicit false

namespace Rustrade.Streams

open Polling

inductive MarketStreamEvent (InstrumentKey Kind : Type) where
  | reconnecting (exchange : ExchangeId)
  | item (event : MarketEvent InstrumentKey Kind)

variable {InstrumentKey Kind Error : Type}

abbrev Entry (InstrumentKey Kind Error : Type) := Except Error (MarketStreamEvent InstrumentKey Kind)

/-- `TimeSortedMerge`. -/
abbrev Inputs (InstrumentKey Kind Error : Type) := List (Peekable (Entry InstrumentKey Kind Error))

/-- The loop of `poll_next`: the answer of an entry that is given at once, or the earliest item
    held and whether an input is still to answer. -/
def scan (index : ℕ) (earliest : Option (ℕ × DateTime)) (pending : Bool) :
    Inputs InstrumentKey Kind Error → Inputs InstrumentKey Kind Error ×
      (Poll (Option (Entry InstrumentKey Kind Error)) ⊕ (Option (ℕ × DateTime) × Bool))
  | [] => ([], .inr (earliest, pending))
  | input :: inputs =>
    match input.pollPeek with
    | (input, .pending) =>
      let (inputs, found) := scan (index + 1) earliest true inputs
      (input :: inputs, found)
    | (input, .ready none) =>
      let (inputs, found) := scan (index + 1) earliest pending inputs
      (input :: inputs, found)
    | (input, .ready (some (.error _))) => (input.pollNext.1 :: inputs, .inl input.pollNext.2)
    | (input, .ready (some (.ok (.reconnecting _)))) =>
      (input.pollNext.1 :: inputs, .inl input.pollNext.2)
    | (input, .ready (some (.ok (.item event)))) =>
      let earliest :=
        if earliest.all (event.timeExchange < ·.2) then some (index, event.timeExchange)
        else earliest
      let (inputs, found) := scan (index + 1) earliest pending inputs
      (input :: inputs, found)

def pollNext (inputs : Inputs InstrumentKey Kind Error) :
    Inputs InstrumentKey Kind Error × Poll (Option (Entry InstrumentKey Kind Error)) :=
  match scan 0 none false inputs with
  | (inputs, .inl answer) => (inputs, answer)
  | (inputs, .inr (_, true)) => (inputs, .pending)
  | (inputs, .inr (some (index, _), false)) =>
    match inputs[index]? with
    | some input => (inputs.set index input.pollNext.1, input.pollNext.2)
    -- The index came from the loop.
    | none => (inputs, .ready none)
  | (inputs, .inr (none, false)) => (inputs, .ready none)

def isTerminated (inputs : Inputs InstrumentKey Kind Error) : Bool :=
  inputs.all Peekable.isTerminated

/-- `merge_time_sorted` of streams that answer as their scripts say. -/
def mergeTimeSorted (scripts : List (List (Option (Entry InstrumentKey Kind Error)))) :
    Inputs InstrumentKey Kind Error :=
  scripts.map Peekable.new

/-! ## The stable merge -/

def itemOf : Entry InstrumentKey Kind Error → Option (MarketEvent InstrumentKey Kind)
  | .ok (.item event) => some event
  | _ => none

/-- The items of each input, one input after the other. -/
def itemsOf (inputs : List (List (Entry InstrumentKey Kind Error))) :
    List (MarketEvent InstrumentKey Kind) :=
  inputs.flatten.filterMap itemOf

/-- Whether an event is not after another. -/
abbrev NotAfter (a b : MarketEvent InstrumentKey Kind) : Prop := a.timeExchange ≤ b.timeExchange

/-- All items by time, those of one time by the position of their input and then as in it: the
    stable sort of the inputs one after the other. -/
def stableMerge (inputs : List (List (Entry InstrumentKey Kind Error))) :
    List (MarketEvent InstrumentKey Kind) :=
  (itemsOf inputs).insertionSort NotAfter

theorem stableMerge_pairwise (inputs : List (List (Entry InstrumentKey Kind Error))) :
    (stableMerge inputs).Pairwise NotAfter := by
  have htotal : Std.Total fun a b : MarketEvent InstrumentKey Kind => NotAfter a b :=
    ⟨fun a b => le_total a.timeExchange b.timeExchange⟩
  have htrans : IsTrans (MarketEvent InstrumentKey Kind) fun a b => NotAfter a b :=
    ⟨fun _ _ _ => le_trans⟩
  exact List.pairwise_insertionSort NotAfter _

theorem stableMerge_perm (inputs : List (List (Entry InstrumentKey Kind Error))) :
    (stableMerge inputs).Perm (itemsOf inputs) :=
  List.perm_insertionSort NotAfter _

/-- The items of one time stay in the order of the inputs. -/
theorem stableMerge_filter (inputs : List (List (Entry InstrumentKey Kind Error)))
    (time : DateTime) :
    (stableMerge inputs).filter (·.timeExchange = time) =
      (itemsOf inputs).filter (·.timeExchange = time) := by
  have hinsert : ∀ (event : MarketEvent InstrumentKey Kind) (sorted : List _),
      (sorted.orderedInsert NotAfter event).filter (·.timeExchange = time) =
        (event :: sorted).filter (·.timeExchange = time) := by
    intro event sorted
    induction sorted with
    | nil => rfl
    | cons first sorted ih =>
      by_cases hle : NotAfter event first
      · rw [List.orderedInsert_cons_of_le _ _ hle]
      · rw [List.orderedInsert_of_not_le _ _ hle, List.filter_cons, ih]
        -- An event after another is not of its time.
        have hne : event.timeExchange = time → first.timeExchange ≠ time := by
          rintro rfl heq
          exact hle heq.ge
        by_cases hevent : event.timeExchange = time
        · simp [hevent, hne hevent]
        · simp [List.filter_cons, hevent]
  unfold stableMerge
  induction itemsOf inputs with
  | nil => rfl
  | cons event items ih =>
    rw [List.insertionSort_cons, hinsert, List.filter_cons, List.filter_cons, ih]

/-- An input's items are in the order of their times. -/
def Ascending (input : List (Entry InstrumentKey Kind Error)) : Prop :=
  (input.filterMap itemOf).Pairwise NotAfter

/-- The first of a stable sort: after all that stands before it, not after what stands behind. -/
theorem insertionSort_middle {before after : List (MarketEvent InstrumentKey Kind)}
    {event : MarketEvent InstrumentKey Kind}
    (hbefore : ∀ other ∈ before, event.timeExchange < other.timeExchange)
    (hafter : ∀ other ∈ after, event.timeExchange ≤ other.timeExchange) :
    (before ++ event :: after).insertionSort NotAfter =
      event :: (before ++ after).insertionSort NotAfter := by
  induction before with
  | nil => exact List.insertionSort_cons_of_forall_rel NotAfter hafter
  | cons first before ih =>
    have hlate : ¬ NotAfter first event := not_le.mpr (hbefore first List.mem_cons_self)
    rw [List.cons_append, List.insertionSort_cons,
      ih fun other hother => hbefore other (List.mem_cons_of_mem _ hother),
      List.orderedInsert_of_not_le _ _ hlate]
    rfl

/-! ## One poll -/

/-- Whether an input holds an item after `time`, or no item. -/
def HeadAfter (time : DateTime) (rest : List (Entry InstrumentKey Kind Error)) : Prop :=
  rest = [] ∨ ∃ event tail, rest = .ok (.item event) :: tail ∧ time < event.timeExchange

def HeadNotBefore (time : DateTime) (rest : List (Entry InstrumentKey Kind Error)) : Prop :=
  rest = [] ∨ ∃ event tail, rest = .ok (.item event) :: tail ∧ time ≤ event.timeExchange

/-- What the loop found to be the earliest, of the inputs from `index` on and one found before. -/
def Earliest (index : ℕ) (before : Option (ℕ × DateTime))
    (inputs : Inputs InstrumentKey Kind Error) (found : Option (ℕ × DateTime)) : Prop :=
  match found with
  | none => before = none ∧ ∀ input ∈ inputs, input.rest = []
  | some (place, time) =>
    (before = some (place, time) ∧ ∀ input ∈ inputs, HeadNotBefore time input.rest) ∨
    ∃ early input late event tail, inputs = early ++ input :: late ∧
      place = index + early.length ∧ input.rest = .ok (.item event) :: tail ∧
      input.peeked = some (.ok (.item event)) ∧ time = event.timeExchange ∧
      (∀ other ∈ before, time < other.2) ∧ (∀ other ∈ early, HeadAfter time other.rest) ∧
      ∀ other ∈ late, HeadNotBefore time other.rest

/-- What one poll takes of what the inputs still hold: an entry that is given at once, or the
    earliest item. -/
inductive Takes : List (List (Entry InstrumentKey Kind Error)) → Entry InstrumentKey Kind Error →
    List (List (Entry InstrumentKey Kind Error)) → Prop
  | atOnce (early late : List (List (Entry InstrumentKey Kind Error)))
      (entry : Entry InstrumentKey Kind Error) (rest : List (Entry InstrumentKey Kind Error))
      (hentry : itemOf entry = none) :
      Takes (early ++ (entry :: rest) :: late) entry (early ++ rest :: late)
  | earliest (early late : List (List (Entry InstrumentKey Kind Error)))
      (event : MarketEvent InstrumentKey Kind) (rest : List (Entry InstrumentKey Kind Error))
      (hearly : ∀ other ∈ early, HeadAfter event.timeExchange other)
      (hlate : ∀ other ∈ late, HeadNotBefore event.timeExchange other) :
      Takes (early ++ (.ok (.item event) :: rest) :: late) (.ok (.item event))
        (early ++ rest :: late)

/-- How many polls of the inputs can still give or take something. -/
def polls (inputs : Inputs InstrumentKey Kind Error) : ℕ := (inputs.map Peekable.left).sum

abbrev peeks (inputs : Inputs InstrumentKey Kind Error) : Inputs InstrumentKey Kind Error :=
  inputs.map fun input => input.pollPeek.1

theorem polls_peeks_le (inputs : Inputs InstrumentKey Kind Error) :
    polls (peeks inputs) ≤ polls inputs := by
  induction inputs with
  | nil => exact le_refl _
  | cons input inputs ih =>
    have h := input.pollPeek_left
    simp only [polls, peeks, List.map_cons, List.sum_cons] at ih ⊢
    omega

/-- What the loop finds: an entry it gives at once, an input it waits for, or the earliest item. -/
inductive Scanned (index : ℕ) (earliest : Option (ℕ × DateTime)) (pending : Bool)
    (inputs : Inputs InstrumentKey Kind Error) :
    Inputs InstrumentKey Kind Error ×
      (Poll (Option (Entry InstrumentKey Kind Error)) ⊕ (Option (ℕ × DateTime) × Bool)) → Prop
  | atOnce (early late : Inputs InstrumentKey Kind Error)
      (input taken : Peekable (Entry InstrumentKey Kind Error))
      (entry : Entry InstrumentKey Kind Error) (hinputs : inputs = early ++ input :: late)
      (hentry : itemOf entry = none) (hrest : input.rest = entry :: taken.rest)
      (hleft : taken.left < input.left) :
      Scanned index earliest pending inputs
        (peeks early ++ taken :: late, .inl (.ready (some entry)))
  | waiting (found : Option (ℕ × DateTime))
      (hwait : pending = true ∨ polls (peeks inputs) < polls inputs) :
      Scanned index earliest pending inputs (peeks inputs, .inr (found, true))
  | answered (found : Option (ℕ × DateTime)) (hpending : pending = false)
      (hfound : Earliest index earliest (peeks inputs) found)
      (hended : ∀ input ∈ peeks inputs, input.rest = [] → input.isTerminated = true) :
      Scanned index earliest pending inputs (peeks inputs, .inr (found, false))

section Scan

variable {index : ℕ} {earliest : Option (ℕ × DateTime)} {pending : Bool}
  {input : Peekable (Entry InstrumentKey Kind Error)} {inputs : Inputs InstrumentKey Kind Error}
  {result : Inputs InstrumentKey Kind Error ×
    (Poll (Option (Entry InstrumentKey Kind Error)) ⊕ (Option (ℕ × DateTime) × Bool))}

/-- An input still to answer keeps the loop waiting, -/
theorem Scanned.cons_pending (hless : input.pollPeek.1.left < input.left)
    (h : Scanned (index + 1) earliest true inputs result) :
    Scanned index earliest pending (input :: inputs)
      (input.pollPeek.1 :: result.1, result.2) := by
  cases h with
  | atOnce early late chosen taken entry hinputs hentry hrest hleft =>
    exact .atOnce (input :: early) late chosen taken entry (by simp [hinputs]) hentry hrest hleft
  | waiting found hwait =>
    refine .waiting found (Or.inr ?_)
    have h := polls_peeks_le inputs
    simp only [polls, peeks, List.map_cons, List.sum_cons] at h ⊢
    omega
  | answered found hpending => exact absurd hpending (by simp)

/-- one that has ended changes nothing, -/
theorem Scanned.cons_ended (hrest : input.pollPeek.1.rest = [])
    (hterminated : input.pollPeek.1.isTerminated = true)
    (h : Scanned (index + 1) earliest pending inputs result) :
    Scanned index earliest pending (input :: inputs)
      (input.pollPeek.1 :: result.1, result.2) := by
  cases h with
  | atOnce early late chosen taken entry hinputs hentry hchosen hleft =>
    exact .atOnce (input :: early) late chosen taken entry (by simp [hinputs]) hentry hchosen hleft
  | waiting found hwait =>
    refine .waiting found (hwait.imp_right fun h => ?_)
    have hhead := input.pollPeek_left
    simp only [polls, peeks, List.map_cons, List.sum_cons] at h ⊢
    omega
  | answered found hpending hfound hended =>
    refine .answered found hpending ?_ ?_
    · cases found with
      | none =>
        refine ⟨hfound.1, fun other hother => ?_⟩
        obtain rfl | hin := List.mem_cons.mp hother
        · exact hrest
        · exact hfound.2 other hin
      | some place =>
        obtain ⟨hbefore, hall⟩ | ⟨early, chosen, late, event, tail, hinputs, hplace, hchosen, hpeeked,
          htime, hbefore, hearly, hlate⟩ := hfound
        · refine Or.inl ⟨hbefore, fun other hother => ?_⟩
          obtain rfl | hin := List.mem_cons.mp hother
          · exact Or.inl hrest
          · exact hall other hin
        · refine Or.inr ⟨input.pollPeek.1 :: early, chosen, late, event, tail, ?_, ?_, hchosen,
            hpeeked, htime, hbefore, fun other hother => ?_, hlate⟩
          · simp only [peeks, List.map_cons, List.cons_append] at hinputs ⊢
            rw [hinputs]
          · rw [List.length_cons]
            omega
          · obtain rfl | hin := List.mem_cons.mp hother
            · exact Or.inl hrest
            · exact hearly other hin
    · intro other hother hempty
      obtain rfl | hin := List.mem_cons.mp hother
      · exact hterminated
      · exact hended other hin hempty

/-- and one that holds an item is the earliest if it is before what was found. -/
theorem Scanned.cons_item {event : MarketEvent InstrumentKey Kind}
    {tail : List (Entry InstrumentKey Kind Error)}
    (hrest : input.pollPeek.1.rest = .ok (.item event) :: tail)
    (hpeeked : input.pollPeek.1.peeked = some (.ok (.item event)))
    (h : Scanned (index + 1)
      (if earliest.all (event.timeExchange < ·.2) then some (index, event.timeExchange)
        else earliest) pending inputs result) :
    Scanned index earliest pending (input :: inputs)
      (input.pollPeek.1 :: result.1, result.2) := by
  cases h with
  | atOnce early late chosen taken entry hinputs hentry hchosen hleft =>
    exact .atOnce (input :: early) late chosen taken entry (by simp [hinputs]) hentry hchosen hleft
  | waiting found hwait =>
    refine .waiting found (hwait.imp_right fun h => ?_)
    have hhead := input.pollPeek_left
    simp only [polls, peeks, List.map_cons, List.sum_cons] at h ⊢
    omega
  | answered found hpending hfound hended =>
    refine .answered found hpending ?_ ?_
    · by_cases hearlier : earliest.all (event.timeExchange < ·.2) = true
      · rw [if_pos hearlier] at hfound
        have hall : ∀ other ∈ earliest, event.timeExchange < other.2 := by
          intro other hother
          simpa [Option.mem_def.mp hother] using hearlier
        cases found with
        | none => exact absurd hfound.1 (by simp)
        | some found =>
          obtain ⟨place, time⟩ := found
          refine Or.inr ?_
          obtain ⟨hbefore, hrests⟩ | ⟨early, chosen, late, other, tail, hinputs, hplace, hchosen,
            hheld, htime, hbefore, hearly, hlate⟩ := hfound
          · rw [Option.some.injEq, Prod.mk.injEq] at hbefore
            obtain ⟨rfl, rfl⟩ := hbefore
            exact ⟨[], input.pollPeek.1, peeks inputs, event, tail, rfl, rfl, hrest, hpeeked, rfl,
              hall, by simp, hrests⟩
          · have hlt := hbefore (index, event.timeExchange) rfl
            refine ⟨input.pollPeek.1 :: early, chosen, late, other, _, ?_, ?_, hchosen, hheld,
              htime, fun first hfirst => hlt.trans (hall first hfirst), fun first hfirst => ?_,
              hlate⟩
            · simp only [peeks, List.map_cons, List.cons_append] at hinputs ⊢
              rw [hinputs]
            · rw [List.length_cons]
              omega
            · obtain rfl | hin := List.mem_cons.mp hfirst
              · exact Or.inr ⟨event, _, hrest, hlt⟩
              · exact hearly first hin
      · rw [if_neg hearlier] at hfound
        obtain ⟨place, heq, hle⟩ : ∃ place, earliest = some place ∧
            place.2 ≤ event.timeExchange := by
          cases hcase : earliest with
          | none => simp [hcase] at hearlier
          | some place => exact ⟨place, rfl, by simpa [hcase] using hearlier⟩
        cases found with
        | none => exact absurd hfound.1 (by simp [heq])
        | some found =>
          obtain ⟨hbefore, hrests⟩ | ⟨early, chosen, late, other, tail, hinputs, hplace, hchosen,
            hheld, htime, hbefore, hearly, hlate⟩ := hfound
          · refine Or.inl ⟨hbefore, fun first hfirst => ?_⟩
            rw [heq, Option.some.injEq] at hbefore
            subst hbefore
            obtain rfl | hin := List.mem_cons.mp hfirst
            · exact Or.inr ⟨event, _, hrest, hle⟩
            · exact hrests first hin
          · refine Or.inr ⟨input.pollPeek.1 :: early, chosen, late, other, _, ?_, ?_, hchosen,
              hheld, htime, hbefore, fun first hfirst => ?_, hlate⟩
            · simp only [peeks, List.map_cons, List.cons_append] at hinputs ⊢
              rw [hinputs]
            · rw [List.length_cons]
              omega
            · obtain rfl | hin := List.mem_cons.mp hfirst
              · exact Or.inr ⟨event, _, hrest, (hbefore place heq).trans_le hle⟩
              · exact hearly first hin
    · intro other hother hempty
      obtain rfl | hin := List.mem_cons.mp hother
      · simp [hrest] at hempty
      · exact hended other hin hempty

end Scan

theorem scan_scanned (index : ℕ) (earliest : Option (ℕ × DateTime)) (pending : Bool)
    (inputs : Inputs InstrumentKey Kind Error) :
    Scanned index earliest pending inputs (scan index earliest pending inputs) := by
  induction inputs generalizing index earliest pending with
  | nil =>
    cases pending with
    | true => exact .waiting earliest (Or.inl rfl)
    | false =>
      refine .answered earliest rfl ?_ (by simp)
      cases earliest with
      | none => exact ⟨rfl, by simp⟩
      | some place => exact Or.inl ⟨rfl, by simp⟩
  | cons input inputs ih =>
    obtain ⟨hanswer, -, hless⟩ | ⟨hanswer, -, hrest, hterminated, -⟩ |
      ⟨entry, tail, hanswer, hbefore, hrest, hpeeked, hleft⟩ := input.pollPeek_cases
    · have h : Scanned index earliest pending (input :: inputs)
          (input.pollPeek.1 :: (scan (index + 1) earliest true inputs).1,
            (scan (index + 1) earliest true inputs).2) :=
        Scanned.cons_pending hless (ih (index + 1) earliest true)
      unfold scan
      rw [show input.pollPeek = (input.pollPeek.1, .pending) from Prod.ext rfl hanswer]
      exact h
    · have h := Scanned.cons_ended hrest hterminated (ih (index + 1) earliest pending)
      unfold scan
      rw [show input.pollPeek = (input.pollPeek.1, .ready none) from Prod.ext rfl hanswer]
      exact h
    · have hpeek : input.pollPeek = (input.pollPeek.1, .ready (some entry)) :=
        Prod.ext rfl hanswer
      obtain ⟨htaken, hrests, hless⟩ := Peekable.pollNext_of_peeked hpeeked
      have hat : itemOf entry = none → Scanned index earliest pending (input :: inputs)
          (input.pollPeek.1.pollNext.1 :: inputs, .inl input.pollPeek.1.pollNext.2) := by
        intro hentry
        rw [htaken]
        refine .atOnce [] inputs input _ entry rfl hentry ?_ (hless.trans_le hleft)
        rw [hbefore, ← hrest, hrests]
      match entry with
      | .error error =>
        unfold scan
        rw [hpeek]
        exact hat rfl
      | .ok (.reconnecting exchange) =>
        unfold scan
        rw [hpeek]
        exact hat rfl
      | .ok (.item event) =>
        have hrest' := ih (index + 1) (if earliest.all (event.timeExchange < ·.2) then
          some (index, event.timeExchange) else earliest) pending
        have h := Scanned.cons_item hrest hpeeked hrest'
        unfold scan
        rw [hpeek]
        exact h

abbrev rests (inputs : Inputs InstrumentKey Kind Error) : List (List (Entry InstrumentKey Kind Error)) :=
  inputs.map Peekable.rest

theorem rests_peeks (inputs : Inputs InstrumentKey Kind Error) :
    rests (peeks inputs) = rests inputs := by
  simp [Peekable.pollPeek_rest]

/-- What a poll does: it waits, ends, or takes an entry. -/
inductive Polled (inputs : Inputs InstrumentKey Kind Error) :
    Inputs InstrumentKey Kind Error × Poll (Option (Entry InstrumentKey Kind Error)) → Prop
  | waiting (next : Inputs InstrumentKey Kind Error) (hrests : rests next = rests inputs)
      (hpolls : polls next < polls inputs) : Polled inputs (next, .pending)
  | ended (next : Inputs InstrumentKey Kind Error) (hempty : ∀ rest ∈ rests inputs, rest = [])
      (hrests : rests next = rests inputs) (hterminated : isTerminated next = true) :
      Polled inputs (next, .ready none)
  | taken (next : Inputs InstrumentKey Kind Error) (entry : Entry InstrumentKey Kind Error)
      (htakes : Takes (rests inputs) entry (rests next)) (hpolls : polls next < polls inputs) :
      Polled inputs (next, .ready (some entry))

theorem pollNext_polled (inputs : Inputs InstrumentKey Kind Error) :
    Polled inputs (pollNext inputs) := by
  have hscan := scan_scanned 0 none false inputs
  generalize hresult : scan 0 none false inputs = result at hscan
  unfold pollNext
  rw [hresult]
  cases hscan with
  | atOnce early late input taken entry hinputs hentry hrest hleft =>
    refine .taken _ entry ?_ ?_
    · have h := Takes.atOnce (rests early) (rests late) entry taken.rest hentry
      rw [hinputs]
      simpa [Peekable.pollPeek_rest, hrest, Function.comp_def] using h
    · have h := polls_peeks_le early
      rw [hinputs]
      simp only [polls, List.map_append, List.map_cons, List.sum_append, List.sum_cons] at h ⊢
      omega
  | waiting found hwait =>
    refine .waiting _ (rests_peeks inputs) ?_
    simpa using hwait
  | answered found hpending hfound hended =>
    cases found with
    | none =>
      have hempty := hfound.2
      refine .ended _ ?_ (rests_peeks inputs) ?_
      · rw [← rests_peeks]
        intro rest hrest
        obtain ⟨input, hinput, rfl⟩ := List.mem_map.mp hrest
        exact hempty input hinput
      · rw [isTerminated, List.all_eq_true]
        intro input hinput
        exact hended input hinput (hempty input hinput)
    | some found =>
      obtain ⟨index, time⟩ := found
      obtain ⟨habsurd, -⟩ | ⟨early, input, late, event, tail, hinputs, hindex, hrest, hpeeked, htime,
        -, hearly, hlate⟩ := hfound
      · exact absurd habsurd (by simp)
      · obtain ⟨htaken, hrests, hless⟩ := Peekable.pollNext_of_peeked hpeeked
        have hlookup : (peeks inputs)[index]? = some input := by
          rw [hinputs, hindex]
          simp
        have hset : (peeks inputs).set index input.pollNext.1 =
            early ++ input.pollNext.1 :: late := by
          rw [hinputs, hindex]
          simp
        simp only [hlookup, htaken, hset]
        refine .taken _ _ ?_ ?_
        · rw [← rests_peeks, hinputs]
          have h := Takes.earliest (rests early) (rests late) event input.pollNext.1.rest
            (by simpa [← htime] using hearly) (by simpa [← htime] using hlate)
          simpa [hrests] using h
        · have h := polls_peeks_le inputs
          rw [hinputs] at h
          simp only [polls, List.map_append, List.map_cons, List.sum_append, List.sum_cons] at h ⊢
          omega

section Takes

variable {before after : List (List (Entry InstrumentKey Kind Error))}
  {entry : Entry InstrumentKey Kind Error}

theorem Takes.perm (h : Takes before entry after) : before.flatten.Perm (entry :: after.flatten) := by
  cases h with
  | atOnce early late _ rest hentry =>
    simp only [List.flatten_append, List.flatten_cons, List.cons_append]
    exact List.perm_middle
  | earliest early late event rest hearly hlate =>
    simp only [List.flatten_append, List.flatten_cons, List.cons_append]
    exact List.perm_middle

theorem filterMap_item (event : MarketEvent InstrumentKey Kind)
    (rest : List (Entry InstrumentKey Kind Error)) :
    List.filterMap itemOf (.ok (.item event) :: rest) = event :: rest.filterMap itemOf := rfl

theorem Ascending.tail {rest : List (Entry InstrumentKey Kind Error)}
    (h : Ascending (entry :: rest)) : Ascending rest := by
  unfold Ascending at h ⊢
  cases hitem : itemOf entry with
  | none => simpa [hitem] using h
  | some event =>
    rw [List.filterMap_cons_some hitem, List.pairwise_cons] at h
    exact h.2

theorem Takes.ascending (h : Takes before entry after)
    (hascending : ∀ input ∈ before, Ascending input) : ∀ input ∈ after, Ascending input := by
  have hstep : ∀ {early late : List (List (Entry InstrumentKey Kind Error))}
      {rest : List (Entry InstrumentKey Kind Error)},
      (∀ input ∈ early ++ (entry :: rest) :: late, Ascending input) →
      ∀ input ∈ early ++ rest :: late, Ascending input := by
    intro early late rest hall input hinput
    obtain hin | hin := List.mem_append.mp hinput
    · exact hall input (List.mem_append_left _ hin)
    · obtain rfl | hin := List.mem_cons.mp hin
      · exact (hall (entry :: input) (by simp)).tail
      · exact hall input (by simp [hin])
  cases h with
  | atOnce early late _ rest hentry => exact hstep hascending
  | earliest early late event rest hearly hlate => exact hstep hascending

/-- An ascending input that holds an item after a time has none at or before it. -/
theorem HeadAfter.items {time : DateTime} {rest : List (Entry InstrumentKey Kind Error)}
    (h : HeadAfter time rest) (hascending : Ascending rest) :
    ∀ event ∈ rest.filterMap itemOf, time < event.timeExchange := by
  obtain rfl | ⟨first, tail, rfl, hlt⟩ := h
  · simp
  · intro event hevent
    rw [Ascending, filterMap_item, List.pairwise_cons] at hascending
    rw [filterMap_item] at hevent
    obtain rfl | hin := List.mem_cons.mp hevent
    · exact hlt
    · exact hlt.trans_le (hascending.1 event hin)

theorem HeadNotBefore.items {time : DateTime} {rest : List (Entry InstrumentKey Kind Error)}
    (h : HeadNotBefore time rest) (hascending : Ascending rest) :
    ∀ event ∈ rest.filterMap itemOf, time ≤ event.timeExchange := by
  obtain rfl | ⟨first, tail, rfl, hle⟩ := h
  · simp
  · intro event hevent
    rw [Ascending, filterMap_item, List.pairwise_cons] at hascending
    rw [filterMap_item] at hevent
    obtain rfl | hin := List.mem_cons.mp hevent
    · exact hle
    · exact hle.trans (hascending.1 event hin)

theorem mem_itemsOf {inputs : List (List (Entry InstrumentKey Kind Error))}
    {event : MarketEvent InstrumentKey Kind} :
    event ∈ itemsOf inputs ↔ ∃ input ∈ inputs, event ∈ input.filterMap itemOf := by
  simp only [itemsOf, List.mem_filterMap, List.mem_flatten]
  constructor
  · rintro ⟨entry, ⟨input, hinput, hentry⟩, heq⟩
    exact ⟨input, hinput, entry, hentry, heq⟩
  · rintro ⟨input, hinput, entry, hentry, heq⟩
    exact ⟨entry, ⟨input, hinput, hentry⟩, heq⟩

/-- What a poll takes is the first of the stable merge, if it is an item at all. -/
theorem Takes.stableMerge (h : Takes before entry after)
    (hascending : ∀ input ∈ before, Ascending input) :
    stableMerge before = (itemOf entry).toList ++ stableMerge after := by
  cases h with
  | atOnce early late _ rest hentry =>
    simp [Streams.stableMerge, itemsOf, hentry]
  | earliest early late event rest hearly hlate =>
    have hsplit : itemsOf (early ++ (.ok (.item event) :: rest) :: late) =
        itemsOf early ++ event :: (rest.filterMap itemOf ++ itemsOf late) := by
      simp [itemsOf, itemOf]
    have hrest : itemsOf (early ++ rest :: late) =
        itemsOf early ++ (rest.filterMap itemOf ++ itemsOf late) := by
      simp [itemsOf]
    unfold Streams.stableMerge
    rw [hsplit, hrest, insertionSort_middle]
    · rfl
    · intro other hother
      obtain ⟨input, hinput, hin⟩ := mem_itemsOf.mp hother
      exact (hearly input hinput).items (hascending input (by simp [hinput])) other hin
    · intro other hother
      obtain hin | hin := List.mem_append.mp hother
      · have hfirst : Ascending (.ok (.item event) :: rest) :=
          hascending _ (by simp)
        rw [Ascending, filterMap_item, List.pairwise_cons] at hfirst
        exact hfirst.1 other hin
      · obtain ⟨input, hinput, hin⟩ := mem_itemsOf.mp hin
        exact (hlate input hinput).items (hascending input (by simp [hinput])) other hin

end Takes

/-! ## Runs -/

/-- The inputs after so many polls, and the answers. -/
def run (inputs : Inputs InstrumentKey Kind Error) :
    ℕ → Inputs InstrumentKey Kind Error × List (Poll (Option (Entry InstrumentKey Kind Error)))
  | 0 => (inputs, [])
  | n + 1 =>
    let (inputs, answers) := run inputs n
    let (inputs, answer) := pollNext inputs
    (inputs, answers ++ [answer])

def entryOf : Poll (Option (Entry InstrumentKey Kind Error)) → Option (Entry InstrumentKey Kind Error)
  | .ready answer => answer
  | .pending => none

/-- The entries the first polls gave. -/
def emitted (inputs : Inputs InstrumentKey Kind Error) (n : ℕ) :
    List (Entry InstrumentKey Kind Error) :=
  (run inputs n).2.filterMap entryOf

/-- What has been given and what the inputs still hold make up the inputs. -/
structure Accounts (inputs : List (List (Entry InstrumentKey Kind Error)))
    (given : List (Entry InstrumentKey Kind Error))
    (left : List (List (Entry InstrumentKey Kind Error))) : Prop where
  ascending : ∀ input ∈ left, Ascending input
  merge : stableMerge inputs = given.filterMap itemOf ++ stableMerge left
  perm : inputs.flatten.Perm (given ++ left.flatten)

theorem emitted_succ (inputs : Inputs InstrumentKey Kind Error) (n : ℕ) :
    emitted inputs (n + 1) =
      emitted inputs n ++ (entryOf (pollNext (run inputs n).1).2).toList := by
  simp only [emitted, run, List.filterMap_append]
  cases hentry : entryOf (pollNext (run inputs n).1).2 with
  | none => simp [hentry]
  | some entry => simp [hentry]

theorem run_succ_fst (inputs : Inputs InstrumentKey Kind Error) (n : ℕ) :
    (run inputs (n + 1)).1 = (pollNext (run inputs n).1).1 := rfl

theorem Accounts.step {inputs left next : List (List (Entry InstrumentKey Kind Error))}
    {given : List (Entry InstrumentKey Kind Error)} {entry : Entry InstrumentKey Kind Error}
    (h : Accounts inputs given left) (htakes : Takes left entry next) :
    Accounts inputs (given ++ [entry]) next := by
  refine ⟨htakes.ascending h.ascending, ?_, ?_⟩
  · rw [h.merge, htakes.stableMerge h.ascending, List.filterMap_append, List.append_assoc]
    cases hitem : itemOf entry <;> simp [hitem]
  · refine h.perm.trans ?_
    rw [List.append_assoc]
    exact htakes.perm.append_left given

theorem accounts_run {inputs : Inputs InstrumentKey Kind Error}
    (hascending : ∀ input ∈ rests inputs, Ascending input) (n : ℕ) :
    Accounts (rests inputs) (emitted inputs n) (rests (run inputs n).1) := by
  induction n with
  | zero => exact ⟨hascending, by simp [emitted, run], by simp [emitted, run]⟩
  | succ n ih =>
    rw [emitted_succ, run_succ_fst]
    have hpolled := pollNext_polled (run inputs n).1
    generalize pollNext (run inputs n).1 = polled at hpolled
    cases hpolled with
    | waiting next hrests hpolls => simpa [entryOf, hrests] using ih
    | ended next hempty hrests hterminated => simpa [entryOf, hrests] using ih
    | taken next entry htakes hpolls => simpa [entryOf] using ih.step htakes

/-- Once every input has been seen to end, every poll says so and changes nothing more. -/
theorem pollNext_of_isTerminated {inputs : Inputs InstrumentKey Kind Error}
    (h : isTerminated inputs = true) :
    (pollNext inputs).2 = .ready none ∧ isTerminated (pollNext inputs).1 = true := by
  rw [isTerminated, List.all_eq_true] at h
  have hempty : ∀ rest ∈ rests inputs, rest = [] := by
    intro rest hrest
    obtain ⟨input, hinput, rfl⟩ := List.mem_map.mp hrest
    exact Peekable.rest_of_isTerminated (h input hinput)
  have hnone : polls inputs = 0 := by
    unfold polls
    apply List.sum_eq_zero
    intro left hleft
    obtain ⟨input, hinput, rfl⟩ := List.mem_map.mp hleft
    exact Peekable.left_of_isTerminated (h input hinput)
  have hpolled := pollNext_polled inputs
  generalize pollNext inputs = polled at hpolled
  cases hpolled with
  | waiting next hrests hpolls => omega
  | ended next hempty hrests hterminated => exact ⟨rfl, hterminated⟩
  | taken next entry htakes hpolls => omega

/-- Every poll uses one up until all inputs have ended. -/
theorem isTerminated_or_polls (inputs : Inputs InstrumentKey Kind Error) (n : ℕ) :
    isTerminated (run inputs n).1 = true ∨ polls (run inputs n).1 + n ≤ polls inputs := by
  induction n with
  | zero => exact Or.inr (le_refl _)
  | succ n ih =>
    rw [run_succ_fst]
    obtain hterminated | hpolls := ih
    · exact Or.inl (pollNext_of_isTerminated hterminated).2
    · have hpolled := pollNext_polled (run inputs n).1
      generalize pollNext (run inputs n).1 = polled at hpolled
      cases hpolled with
      | waiting next hrests hless =>
        refine Or.inr ?_
        dsimp only
        omega
      | ended next hempty hrests hterminated => exact Or.inl hterminated
      | taken next entry htakes hless =>
        refine Or.inr ?_
        dsimp only
        omega

/-- All of the inputs has been given, in the order of the stable merge. -/
structure Merged (inputs : List (List (Entry InstrumentKey Kind Error)))
    (given : List (Entry InstrumentKey Kind Error)) : Prop where
  items : given.filterMap itemOf = stableMerge inputs
  perm : given.Perm inputs.flatten
  /-- Of inputs that hold items only the whole sequence is the stable merge. -/
  itemsOnly : (∀ input ∈ inputs, ∀ entry ∈ input, itemOf entry ≠ none) →
    given = (stableMerge inputs).map fun event => .ok (.item event)

theorem eq_map_filterMap_itemOf {given : List (Entry InstrumentKey Kind Error)}
    (h : ∀ entry ∈ given, itemOf entry ≠ none) :
    given = (given.filterMap itemOf).map fun event => .ok (.item event) := by
  induction given with
  | nil => rfl
  | cons entry given ih =>
    have hrest := ih fun other hother => h other (List.mem_cons_of_mem _ hother)
    have hentry := h entry List.mem_cons_self
    match entry with
    | .ok (.item event) =>
      rw [filterMap_item, List.map_cons, ← hrest]
    | .ok (.reconnecting exchange) => exact absurd rfl hentry
    | .error error => exact absurd rfl hentry

theorem Accounts.merged {inputs left : List (List (Entry InstrumentKey Kind Error))}
    {given : List (Entry InstrumentKey Kind Error)} (h : Accounts inputs given left)
    (hempty : ∀ rest ∈ left, rest = []) : Merged inputs given := by
  have hnone : left.flatten = [] := List.flatten_eq_nil_iff.mpr hempty
  have hperm : inputs.flatten.Perm given := by
    have hall := h.perm
    rwa [hnone, List.append_nil] at hall
  have hitems : given.filterMap itemOf = stableMerge inputs := by
    rw [h.merge, stableMerge, itemsOf, hnone]
    simp
  refine ⟨hitems, hperm.symm, fun honly => ?_⟩
  rw [← hitems]
  apply eq_map_filterMap_itemOf
  intro entry hentry
  obtain ⟨input, hinput, hin⟩ := List.mem_flatten.mp (hperm.symm.mem_iff.mp hentry)
  exact honly input hinput entry hin

theorem Accounts.empty_of_perm {inputs left : List (List (Entry InstrumentKey Kind Error))}
    {given : List (Entry InstrumentKey Kind Error)} (h : Accounts inputs given left)
    (hperm : given.Perm inputs.flatten) : ∀ rest ∈ left, rest = [] := by
  have hlength := (hperm.trans h.perm).length_eq
  rw [List.length_append] at hlength
  have hnone : left.flatten = [] := List.length_eq_zero_iff.mp (by omega)
  exact List.flatten_eq_nil_iff.mp hnone

theorem rests_mergeTimeSorted (scripts : List (List (Option (Entry InstrumentKey Kind Error)))) :
    rests (mergeTimeSorted scripts) = scripts.map List.reduceOption := by
  simp [mergeTimeSorted, Function.comp_def, Peekable.rest_new]

/-- However the inputs' answers are scheduled, what a merge has given is a beginning of the stable
    merge, it ends only after all of it, it is terminated exactly when all of it has been given and
    every input has been seen to end, and from some poll on it is. -/
theorem merge_time_sorted_stable (inputs : List (List (Entry InstrumentKey Kind Error)))
    (hascending : ∀ input ∈ inputs, Ascending input)
    (scripts : List (List (Option (Entry InstrumentKey Kind Error))))
    (hscripts : scripts.map List.reduceOption = inputs) :
    (∀ n,
      (emitted (mergeTimeSorted scripts) n).filterMap itemOf <+: stableMerge inputs ∧
      (emitted (mergeTimeSorted scripts) n).Subperm inputs.flatten ∧
      ((pollNext (run (mergeTimeSorted scripts) n).1).2 = .ready none →
        Merged inputs (emitted (mergeTimeSorted scripts) n)) ∧
      (isTerminated (run (mergeTimeSorted scripts) n).1 = true ↔
        Merged inputs (emitted (mergeTimeSorted scripts) n) ∧
          ∀ input ∈ (run (mergeTimeSorted scripts) n).1, input.stream.done = true)) ∧
    ∃ last, ∀ n ≥ last,
      Merged inputs (emitted (mergeTimeSorted scripts) n) ∧
      (pollNext (run (mergeTimeSorted scripts) n).1).2 = .ready none ∧
      isTerminated (run (mergeTimeSorted scripts) n).1 = true := by
  rw [← rests_mergeTimeSorted] at hscripts
  subst hscripts
  have haccounts := accounts_run hascending
  have hended : ∀ n, isTerminated (run (mergeTimeSorted scripts) n).1 = true →
      Merged (rests (mergeTimeSorted scripts)) (emitted (mergeTimeSorted scripts) n) := by
    intro n hterminated
    rw [isTerminated, List.all_eq_true] at hterminated
    apply (haccounts n).merged
    intro rest hrest
    obtain ⟨input, hinput, rfl⟩ := List.mem_map.mp hrest
    exact Peekable.rest_of_isTerminated (hterminated input hinput)
  constructor
  · intro n
    refine ⟨⟨_, (haccounts n).merge.symm⟩, ?_, ?_, ?_, ?_⟩
    · exact ((List.sublist_append_left _ _).subperm).trans (haccounts n).perm.symm.subperm
    · intro hnone
      apply (haccounts n).merged
      have hpolled := pollNext_polled (run (mergeTimeSorted scripts) n).1
      generalize pollNext (run (mergeTimeSorted scripts) n).1 = polled at hpolled hnone
      cases hpolled with
      | waiting next hrests hless => simp at hnone
      | ended next hempty hrests hterminated => exact hempty
      | taken next entry htakes hless => simp at hnone
    · intro hterminated
      refine ⟨hended n hterminated, fun input hinput => ?_⟩
      rw [isTerminated, List.all_eq_true] at hterminated
      exact (Peekable.isTerminated_iff.mp (hterminated input hinput)).2
    · rintro ⟨hmerged, hdone⟩
      rw [isTerminated, List.all_eq_true]
      intro input hinput
      refine Peekable.isTerminated_iff.mpr ⟨?_, hdone input hinput⟩
      exact (haccounts n).empty_of_perm hmerged.perm _ (List.mem_map_of_mem hinput)
  · refine ⟨polls (mergeTimeSorted scripts) + 1, fun n hn => ?_⟩
    have hterminated : isTerminated (run (mergeTimeSorted scripts) n).1 = true := by
      obtain hterminated | hpolls := isTerminated_or_polls (mergeTimeSorted scripts) n
      · exact hterminated
      · omega
    exact ⟨hended n hterminated, (pollNext_of_isTerminated hterminated).1, hterminated⟩

def bar (time : DateTime) (instrument : ℕ) : MarketEvent ℕ Unit := ⟨time, ⟨"mock"⟩, instrument, ()⟩

/-- Of two inputs the first is slow and fails once. -/
def slowAndReady : List (List (Option (Entry ℕ Unit Unit))) :=
  [[none, none, some (.ok (.item (bar 10 0))), some (.error ()), none,
      some (.ok (.item (bar 20 0)))],
    [some (.ok (.item (bar 10 1))), some (.ok (.item (bar 15 1)))]]

theorem merge_time_sorted_stable_slow :
    ∃ last, ∀ n ≥ last,
      (emitted (mergeTimeSorted slowAndReady) n).filterMap itemOf =
        [bar 10 0, bar 10 1, bar 15 1, bar 20 0] := by
  obtain ⟨-, last, hlast⟩ := merge_time_sorted_stable (slowAndReady.map List.reduceOption)
    (by
      intro input hinput
      simp only [slowAndReady, List.map_cons, List.map_nil, List.mem_cons, List.not_mem_nil,
        or_false] at hinput
      obtain rfl | rfl := hinput
      · simp [Ascending, List.reduceOption, List.filterMap_cons, itemOf, bar]
      · simp [Ascending, List.reduceOption, itemOf, bar]) slowAndReady rfl
  exact ⟨last, fun n hn => (hlast n hn).1.items⟩

end Rustrade.Streams
