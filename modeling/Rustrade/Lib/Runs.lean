import Mathlib.Data.List.Basic
import Mathlib.Data.List.Pairwise
import Mathlib.Order.Basic
import Rustrade.Lib.Related

/-!
# Runs of one key

A list is cut where the key of its elements changes. Each run is folded on its own; folding the
folds of finer runs by an associative operation comes to the same as folding the coarser runs.
-/

set_option autoImplicit false

universe u v w

variable {α : Type u} {β : Type v} {κ : Type w}

/-- A list that is not empty. -/
structure Run (α : Type u) where
  first : α
  rest : List α

namespace Run

def toList (run : Run α) : List α := run.first :: run.rest

def single (a : α) : Run α := ⟨a, []⟩

def snoc (run : Run α) (a : α) : Run α := ⟨run.first, run.rest ++ [a]⟩

/-- The elements' images, one after the other. -/
def fold (op : β → β → β) (f : α → β) (run : Run α) : β :=
  run.rest.foldl (fun acc a => op acc (f a)) (f run.first)

/-- A run of runs as one run. -/
def flatten (run : Run (Run α)) : Run α :=
  ⟨run.first.first, run.first.rest ++ run.rest.flatMap toList⟩

@[simp] theorem first_single (a : α) : (single a).first = a := rfl

@[simp] theorem first_snoc (run : Run α) (a : α) : (run.snoc a).first = run.first := rfl

@[simp] theorem toList_single (a : α) : (single a).toList = [a] := rfl

@[simp] theorem toList_snoc (run : Run α) (a : α) : (run.snoc a).toList = run.toList ++ [a] := rfl

@[simp] theorem toList_flatten (run : Run (Run α)) :
    run.flatten.toList = run.toList.flatMap toList := rfl

theorem first_mem (run : Run α) : run.first ∈ run.toList := List.mem_cons_self

@[simp] theorem flatten_single (run : Run α) : (single run).flatten = run := by
  simp [flatten, single]

@[simp] theorem flatten_snoc_snoc (runs : Run (Run α)) (run : Run α) (a : α) :
    (runs.snoc (run.snoc a)).flatten = (runs.snoc run).flatten.snoc a := by
  simp [flatten, snoc, toList]

@[simp] theorem flatten_snoc_single (runs : Run (Run α)) (a : α) :
    (runs.snoc (single a)).flatten = runs.flatten.snoc a := by
  simp [flatten, snoc, toList, single]

theorem fold_snoc (op : β → β → β) (f : α → β) (run : Run α) (a : α) :
    (run.snoc a).fold op f = op (run.fold op f) (f a) := by
  simp [fold, snoc]

theorem foldl_op (op : β → β → β) (hop : ∀ a b c, op (op a b) c = op a (op b c)) (f : α → β)
    (start : β) (run : Run α) :
    op start (run.fold op f) = run.toList.foldl (fun acc a => op acc (f a)) start := by
  obtain ⟨first, rest⟩ := run
  unfold fold toList
  rw [List.foldl_cons]
  generalize f first = middle
  induction rest generalizing middle with
  | nil => rfl
  | cons a rest ih =>
    rw [List.foldl_cons, List.foldl_cons, ih, hop]

/-- Folding the folds of runs is folding all of them. -/
theorem fold_fold (op : β → β → β) (hop : ∀ a b c, op (op a b) c = op a (op b c)) (f : α → β)
    (runs : Run (Run α)) : runs.fold op (fun run => run.fold op f) = runs.flatten.fold op f := by
  obtain ⟨first, rest⟩ := runs
  simp only [fold, flatten, List.foldl_append]
  generalize first.rest.foldl (fun acc a => op acc (f a)) (f first.first) = start
  induction rest generalizing start with
  | nil => rfl
  | cons run rest ih =>
    rw [List.foldl_cons, List.flatMap_cons, List.foldl_append]
    have hfold := foldl_op op hop f start run
    unfold fold at hfold
    rw [hfold]
    exact ih _

end Run

/-! ## Cutting a list -/

section Cut

variable [DecidableEq κ] (key : α → κ)

/-- The runs of a list that goes on from one. -/
def runsFrom (run : Run α) : List α → List (Run α)
  | [] => [run]
  | a :: l => if key run.first = key a then runsFrom (run.snoc a) l
      else run :: runsFrom (.single a) l

def runsOf : List α → List (Run α)
  | [] => []
  | a :: l => runsFrom key (.single a) l

theorem runsFrom_cons_pos {run : Run α} {a : α} (l : List α) (h : key run.first = key a) :
    runsFrom key run (a :: l) = runsFrom key (run.snoc a) l := by
  rw [runsFrom, if_pos h]

theorem runsFrom_cons_neg {run : Run α} {a : α} (l : List α) (h : ¬ key run.first = key a) :
    runsFrom key run (a :: l) = run :: runsFrom key (.single a) l := by
  rw [runsFrom, if_neg h]

theorem flatMap_runsFrom (run : Run α) (l : List α) :
    (runsFrom key run l).flatMap Run.toList = run.toList ++ l := by
  induction l generalizing run with
  | nil => simp [runsFrom]
  | cons a l ih =>
    unfold runsFrom
    split
    · rw [ih]
      simp
    · rw [List.flatMap_cons, ih]
      rfl

/-- The runs hold the list's elements, each once and in order. -/
theorem flatMap_runsOf (l : List α) : (runsOf key l).flatMap Run.toList = l := by
  cases l with
  | nil => rfl
  | cons a l => exact flatMap_runsFrom key (.single a) l

theorem runsFrom_ne_nil (run : Run α) (l : List α) :
    ∃ first rest, runsFrom key run l = first :: rest ∧ first.first = run.first ∧
      ∃ more, first.rest = run.rest ++ more := by
  induction l generalizing run with
  | nil => exact ⟨run, [], rfl, rfl, [], by simp⟩
  | cons a l ih =>
    unfold runsFrom
    split
    · obtain ⟨first, rest, heq, hfirst, more, hmore⟩ := ih (run.snoc a)
      exact ⟨first, rest, heq, hfirst, a :: more, by simp [hmore, Run.snoc]⟩
    · exact ⟨run, _, rfl, rfl, [], by simp⟩

/-- All of a run has one key. -/
theorem key_eq_of_mem_runsFrom {run : Run α} {l : List α}
    (hrun : ∀ a ∈ run.toList, key a = key run.first) :
    ∀ cut ∈ runsFrom key run l, ∀ a ∈ cut.toList, key a = key cut.first := by
  induction l generalizing run with
  | nil => simpa [runsFrom] using hrun
  | cons a l ih =>
    unfold runsFrom
    split
    · rename_i hsame
      apply ih
      intro b hb
      rw [Run.toList_snoc] at hb
      obtain hold | hnew := List.mem_append.mp hb
      · exact hrun b hold
      · rw [List.mem_singleton.mp hnew]
        exact hsame.symm
    · intro cut hcut
      obtain rfl | hin := List.mem_cons.mp hcut
      · exact hrun
      · exact ih (by simp) cut hin

theorem key_eq_of_mem_runsOf {l : List α} :
    ∀ cut ∈ runsOf key l, ∀ a ∈ cut.toList, key a = key cut.first := by
  cases l with
  | nil => simp [runsOf]
  | cons a l => exact key_eq_of_mem_runsFrom key (by simp)

/-- The keys of the runs of a list in the order of its keys are strictly in order. -/
theorem pairwise_runsFrom [PartialOrder κ] {run : Run α} {l : List α}
    (hordered : (run.toList ++ l).Pairwise fun a b => key a ≤ key b)
    (hrun : ∀ a ∈ run.toList, key a = key run.first) :
    (runsFrom key run l).Pairwise fun a b => key a.first < key b.first := by
  induction l generalizing run with
  | nil => simp [runsFrom]
  | cons a l ih =>
    unfold runsFrom
    split
    · rename_i hsame
      apply ih
      · simpa using hordered
      · intro b hb
        rw [Run.toList_snoc] at hb
        obtain hold | hnew := List.mem_append.mp hb
        · exact hrun b hold
        · rw [List.mem_singleton.mp hnew]
          exact hsame.symm
    · rename_i hne
      rw [List.pairwise_append] at hordered
      have hlt : key run.first < key a :=
        lt_of_le_of_ne (hordered.2.2 run.first run.first_mem a List.mem_cons_self) hne
      rw [List.pairwise_cons]
      refine ⟨fun cut hcut => ?_, ih (by simpa using hordered.2.1) (by simp)⟩
      -- Every later run begins with an element at or after this one.
      have hmem : cut.first ∈ a :: l := by
        have hflat := flatMap_runsFrom key (.single a) l
        rw [Run.toList_single, List.singleton_append] at hflat
        rw [← hflat]
        exact List.mem_flatMap.mpr ⟨cut, hcut, cut.first_mem⟩
      obtain heq | hin := List.mem_cons.mp hmem
      · rw [heq]
        exact hlt
      · exact hlt.trans_le ((List.pairwise_cons.mp hordered.2.1).1 cut.first hin)

theorem pairwise_runsOf [PartialOrder κ] {l : List α}
    (hordered : l.Pairwise fun a b => key a ≤ key b) :
    (runsOf key l).Pairwise fun a b => key a.first < key b.first := by
  cases l with
  | nil => exact List.Pairwise.nil
  | cons a l => exact pairwise_runsFrom key hordered (by simp)

/-- A run is what the list holds of its key. -/
theorem filter_key_of_mem_runsOf [PartialOrder κ] {l : List α}
    (hordered : l.Pairwise fun a b => key a ≤ key b) {run : Run α} (hrun : run ∈ runsOf key l) :
    l.filter (fun a => key a = key run.first) = run.toList := by
  have hkeys := key_eq_of_mem_runsOf key (l := l)
  have hpairwise := pairwise_runsOf key hordered
  conv_lhs => rw [← flatMap_runsOf key l]
  generalize runsOf key l = runs at hrun hkeys hpairwise
  have hall : ∀ {cut : Run α}, (∀ a ∈ cut.toList, key a = key cut.first) →
      key cut.first = key run.first →
      cut.toList.filter (fun a => key a = key run.first) = cut.toList := by
    intro cut hcut heq
    rw [List.filter_eq_self]
    intro a ha
    simp [hcut a ha, heq]
  have hnone : ∀ {cut : Run α}, (∀ a ∈ cut.toList, key a = key cut.first) →
      key cut.first ≠ key run.first →
      cut.toList.filter (fun a => key a = key run.first) = [] := by
    intro cut hcut hne
    rw [List.filter_eq_nil_iff]
    intro a ha
    simp [hcut a ha, hne]
  induction runs with
  | nil => simp at hrun
  | cons cut runs ih =>
    rw [List.pairwise_cons] at hpairwise
    rw [List.flatMap_cons, List.filter_append]
    obtain rfl | hin := List.mem_cons.mp hrun
    · rw [hall (hkeys run List.mem_cons_self) rfl]
      have hrest : (runs.flatMap Run.toList).filter (fun a => key a = key run.first) = [] := by
        rw [List.filter_eq_nil_iff]
        intro a ha
        obtain ⟨other, hother, hmem⟩ := List.mem_flatMap.mp ha
        have hlt := hpairwise.1 other hother
        rw [hkeys other (List.mem_cons_of_mem _ hother) a hmem]
        simpa using ne_of_gt hlt
      rw [hrest, List.append_nil]
    · rw [hnone (hkeys cut List.mem_cons_self) (ne_of_lt (hpairwise.1 run hin)),
        ih hin (fun other hother => hkeys other (List.mem_cons_of_mem _ hother)) hpairwise.2]
      rfl

end Cut

/-! ## Coarser runs -/

section Coarser

variable {lam : Type w} [DecidableEq κ] [DecidableEq lam] (key : α → κ) (coarse : κ → lam)

/-- A run of another key begins a coarser run of its own. -/
theorem runsFrom_cons_of_ne (runs : Run (Run α)) (a : α) (l : List α)
    (hne : ¬ coarse (key runs.first.first) = coarse (key a)) :
    runsFrom (fun cut => coarse (key cut.first)) runs (runsFrom key (.single a) l) =
      runs :: runsOf (fun cut => coarse (key cut.first)) (runsFrom key (.single a) l) := by
  obtain ⟨first, rest, heq, hfirst, -⟩ := runsFrom_ne_nil key (.single a) l
  rw [heq]
  refine runsFrom_cons_neg _ rest ?_
  rw [hfirst]
  exact hne

/-- The runs of a coarser key are the runs, by it, of the finer key's runs. -/
theorem runsFrom_coarse (run : Run α) (l : List α) :
    (∀ runs : Run (Run α), coarse (key runs.first.first) = coarse (key run.first) →
      runsFrom (fun a => coarse (key a)) (runs.snoc run).flatten l =
        (runsFrom (fun cut => coarse (key cut.first)) runs (runsFrom key run l)).map
          Run.flatten) ∧
    runsFrom (fun a => coarse (key a)) run l =
      (runsOf (fun cut => coarse (key cut.first)) (runsFrom key run l)).map Run.flatten := by
  induction l generalizing run with
  | nil =>
    constructor
    · intro runs hruns
      simp [runsFrom, hruns]
    · simp [runsFrom, runsOf]
  | cons a l ih =>
    by_cases hkey : key run.first = key a
    · -- The element goes on with the finer run.
      rw [runsFrom_cons_pos _ l hkey]
      constructor
      · intro runs hruns
        rw [← (ih (run.snoc a)).1 runs hruns, Run.flatten_snoc_snoc]
        exact runsFrom_cons_pos _ l (hruns.trans (congrArg coarse hkey))
      · rw [← (ih (run.snoc a)).2]
        exact runsFrom_cons_pos _ l (congrArg coarse hkey)
    · rw [runsFrom_cons_neg _ l hkey]
      constructor
      · intro runs hruns
        rw [runsFrom_cons_pos (fun cut : Run α => coarse (key cut.first)) _ hruns]
        by_cases hcoarse : coarse (key runs.first.first) = coarse (key a)
        · rw [← (ih (.single a)).1 (runs.snoc run) hcoarse, Run.flatten_snoc_single]
          exact runsFrom_cons_pos _ l hcoarse
        · rw [runsFrom_cons_of_ne key coarse (runs.snoc run) a l hcoarse, List.map_cons,
            ← (ih (.single a)).2]
          exact runsFrom_cons_neg _ l hcoarse
      · show _ = (runsFrom _ (.single run) (runsFrom key (.single a) l)).map Run.flatten
        by_cases hcoarse : coarse (key run.first) = coarse (key a)
        · rw [← (ih (.single a)).1 (.single run) hcoarse, Run.flatten_snoc_single,
            Run.flatten_single]
          exact runsFrom_cons_pos _ l hcoarse
        · rw [runsFrom_cons_of_ne key coarse (.single run) a l hcoarse, List.map_cons,
            ← (ih (.single a)).2, Run.flatten_single]
          exact runsFrom_cons_neg _ l hcoarse

theorem runsOf_coarse (l : List α) :
    runsOf (fun a => coarse (key a)) l =
      (runsOf (fun cut => coarse (key cut.first)) (runsOf key l)).map Run.flatten := by
  cases l with
  | nil => rfl
  | cons a l => exact (runsFrom_coarse key coarse (.single a) l).2

end Coarser

/-! ## Runs of related lists -/

/-- Runs of the same length with related elements. -/
structure Run.Related (R : α → β → Prop) (run : Run α) (other : Run β) : Prop where
  first : R run.first other.first
  rest : List.Forall₂ R run.rest other.rest

theorem Run.Related.snoc {R : α → β → Prop} {run : Run α} {other : Run β} {a : α} {b : β}
    (h : Run.Related R run other) (hlast : R a b) : Run.Related R (run.snoc a) (other.snoc b) :=
  ⟨h.first, List.rel_append h.rest (.cons hlast .nil)⟩

/-- Runs whose elements have the same images have the same fold. -/
theorem Run.Related.fold_eq {γ : Type u} {op : γ → γ → γ} {f : α → γ} {g : β → γ}
    {R : α → β → Prop} (hR : ∀ a b, R a b → f a = g b) {run : Run α} {other : Run β}
    (h : Run.Related R run other) : run.fold op f = other.fold op g := by
  obtain ⟨first, rest⟩ := run
  obtain ⟨first', rest'⟩ := other
  obtain ⟨hfirst, hrest⟩ := h
  unfold Run.fold
  rw [hR _ _ hfirst]
  dsimp only at hrest ⊢
  generalize g first' = start
  clear hfirst
  induction hrest generalizing start with
  | nil => rfl
  | cons hab _ ih =>
    rw [List.foldl_cons, List.foldl_cons, hR _ _ hab]
    exact ih _

theorem runsFrom_related [DecidableEq κ] {key : α → κ} {key' : β → κ} {R : α → β → Prop}
    (hkey : ∀ a b, R a b → key a = key' b) {run : Run α} {other : Run β}
    (h : Run.Related R run other) {l : List α} {l' : List β} (hl : List.Forall₂ R l l') :
    List.Forall₂ (Run.Related R) (runsFrom key run l) (runsFrom key' other l') := by
  induction hl generalizing run other with
  | nil => exact .cons h .nil
  | @cons a b l l' hab _ ih =>
    by_cases hsame : key run.first = key a
    · have hsame' : key' other.first = key' b := by
        rw [← hkey _ _ h.first, ← hkey _ _ hab]
        exact hsame
      rw [runsFrom_cons_pos _ l hsame, runsFrom_cons_pos _ l' hsame']
      exact ih (h.snoc hab)
    · have hsame' : ¬ key' other.first = key' b := by
        rw [← hkey _ _ h.first, ← hkey _ _ hab]
        exact hsame
      rw [runsFrom_cons_neg _ l hsame, runsFrom_cons_neg _ l' hsame']
      exact .cons h (ih ⟨hab, .nil⟩)

theorem runsOf_related [DecidableEq κ] {key : α → κ} {key' : β → κ} {R : α → β → Prop}
    (hkey : ∀ a b, R a b → key a = key' b) {l : List α} {l' : List β}
    (hl : List.Forall₂ R l l') :
    List.Forall₂ (Run.Related R) (runsOf key l) (runsOf key' l') := by
  cases hl with
  | nil => exact .nil
  | cons hab hrest => exact runsFrom_related hkey ⟨hab, .nil⟩ hrest
