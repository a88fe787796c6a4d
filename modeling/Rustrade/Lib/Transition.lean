import Mathlib.Algebra.BigOperators.Group.List.Basic
import Mathlib.Tactic.Common

/-!
# Runs of a step function

A system is a total step function `σ → ε → σ`; a run is a fold of it over a list of events.
The lemmas here are the two induction principles every safety proof uses: an invariant that
each step preserves holds after every run, and one that only the steps meeting a guard preserve
holds after every run whose steps all meet it. `Guarded` is that guard, stated along the run so
that it may read the state each event finds.
-/

set_option autoImplicit false

namespace Transition

universe u v

variable {σ : Type u} {ε : Type v}

/-- The state after the events `es`, in order. -/
def run (step : σ → ε → σ) (s : σ) (es : List ε) : σ := es.foldl step s

@[simp] theorem run_nil {step : σ → ε → σ} {s : σ} : run step s [] = s := rfl

@[simp] theorem run_cons {step : σ → ε → σ} {s : σ} {e : ε} {es : List ε} :
    run step s (e :: es) = run step (step s e) es := rfl

theorem run_append {step : σ → ε → σ} {s : σ} {es es' : List ε} :
    run step s (es ++ es') = run step (run step s es) es' := List.foldl_append

theorem run_concat {step : σ → ε → σ} {s : σ} {es : List ε} {e : ε} :
    run step s (es ++ [e]) = step (run step s es) e := by
  rw [run_append, run_cons, run_nil]

/-- `e` meets `ok` at the state it finds, and so does every later event of the run. -/
def Guarded (step : σ → ε → σ) (ok : σ → ε → Prop) : σ → List ε → Prop
  | _, [] => True
  | s, e :: es => ok s e ∧ Guarded step ok (step s e) es

@[simp] theorem guarded_nil {step : σ → ε → σ} {ok : σ → ε → Prop} {s : σ} :
    Guarded step ok s [] := trivial

@[simp] theorem guarded_cons {step : σ → ε → σ} {ok : σ → ε → Prop} {s : σ} {e : ε} {es : List ε} :
    Guarded step ok s (e :: es) ↔ ok s e ∧ Guarded step ok (step s e) es := Iff.rfl

theorem guarded_append {step : σ → ε → σ} {ok : σ → ε → Prop} {s : σ} {es es' : List ε} :
    Guarded step ok s (es ++ es') ↔
      Guarded step ok s es ∧ Guarded step ok (run step s es) es' := by
  induction es generalizing s with
  | nil => simp
  | cons e es ih => simp [ih, and_assoc]

theorem Guarded.of_prefix {step : σ → ε → σ} {ok : σ → ε → Prop} {s : σ} {pre es : List ε}
    (h : pre <+: es) (hg : Guarded step ok s es) : Guarded step ok s pre := by
  obtain ⟨post, rfl⟩ := h
  exact (guarded_append.1 hg).1

instance Guarded.decidable {step : σ → ε → σ} {ok : σ → ε → Prop} [∀ s e, Decidable (ok s e)] :
    ∀ (s : σ) (es : List ε), Decidable (Guarded step ok s es)
  | _, [] => isTrue trivial
  | s, e :: es =>
      have : Decidable (Guarded step ok (step s e) es) := Guarded.decidable (step s e) es
      inferInstanceAs (Decidable (ok s e ∧ Guarded step ok (step s e) es))

theorem Guarded.mono {step : σ → ε → σ} {ok ok' : σ → ε → Prop}
    (h : ∀ s e, ok s e → ok' s e) {s : σ} {es : List ε} (hg : Guarded step ok s es) :
    Guarded step ok' s es := by
  induction es generalizing s with
  | nil => trivial
  | cons e es ih => exact ⟨h s e hg.1, ih hg.2⟩

theorem guarded_of_forall {step : σ → ε → σ} {ok : σ → ε → Prop} {s : σ} {es : List ε}
    (h : ∀ e ∈ es, ∀ s, ok s e) : Guarded step ok s es := by
  induction es generalizing s with
  | nil => trivial
  | cons e es ih =>
    exact ⟨h e (List.mem_cons_self ..) s, ih fun e' he' => h e' (List.mem_cons_of_mem _ he')⟩

theorem guarded_and {step : σ → ε → σ} {ok ok' : σ → ε → Prop} {s : σ} {es : List ε} :
    Guarded step (fun s e => ok s e ∧ ok' s e) s es ↔
      Guarded step ok s es ∧ Guarded step ok' s es := by
  induction es generalizing s with
  | nil => simp
  | cons e es ih => simp only [guarded_cons, ih]; tauto

/-! ## Invariants of a run -/

/-- What guarded steps preserve holds after a guarded run. -/
theorem Guarded.invariant {step : σ → ε → σ} {ok : σ → ε → Prop} (Inv : σ → Prop)
    (pres : ∀ s e, ok s e → Inv s → Inv (step s e)) {s : σ} {es : List ε}
    (hg : Guarded step ok s es) (init : Inv s) : Inv (run step s es) := by
  induction es generalizing s with
  | nil => exact init
  | cons e es ih => exact ih hg.2 (pres s e hg.1 init)

/-- What every step preserves holds after every run. -/
theorem run_invariant {step : σ → ε → σ} (Inv : σ → Prop)
    (pres : ∀ s e, Inv s → Inv (step s e)) {s : σ} (es : List ε) (init : Inv s) :
    Inv (run step s es) := by
  induction es generalizing s with
  | nil => exact init
  | cons e es ih => exact ih (pres s e init)

/-- What the steps on admissible events preserve holds after a run of such events. -/
theorem run_invariant_of {step : σ → ε → σ} {ok : ε → Prop} (Inv : σ → Prop)
    (pres : ∀ s e, ok e → Inv s → Inv (step s e)) {s : σ} {es : List ε} (hes : ∀ e ∈ es, ok e)
    (init : Inv s) : Inv (run step s es) := by
  induction es generalizing s with
  | nil => exact init
  | cons e es ih =>
    exact ih (fun e' he' => hes e' (List.mem_cons_of_mem _ he'))
      (pres s e (hes e (List.mem_cons_self ..)) init)

/-- The guard of a run, read at a prefix: the next event meets it where the prefix ends. -/
theorem guarded_iff_prefix {step : σ → ε → σ} {ok : σ → ε → Prop} {s : σ} {es : List ε} :
    Guarded step ok s es ↔
      ∀ pre e post, es = pre ++ e :: post → ok (run step s pre) e := by
  constructor
  · rintro hg pre e post rfl
    exact (guarded_append.1 hg).2.1
  · induction es generalizing s with
    | nil => intro _; trivial
    | cons e es ih =>
      intro h
      refine ⟨h [] e es rfl, ih fun pre e' post heq => ?_⟩
      exact h (e :: pre) e' post (by rw [heq]; rfl)

/-! ## Stretches of a run -/

/-- `P` holds at `s` and after every event of the run. -/
def Throughout (step : σ → ε → σ) (P : σ → Prop) : σ → List ε → Prop
  | s, [] => P s
  | s, e :: es => P s ∧ Throughout step P (step s e) es

@[simp] theorem throughout_nil {step : σ → ε → σ} {P : σ → Prop} {s : σ} :
    Throughout step P s [] ↔ P s := Iff.rfl

@[simp] theorem throughout_cons {step : σ → ε → σ} {P : σ → Prop} {s : σ} {e : ε} {es : List ε} :
    Throughout step P s (e :: es) ↔ P s ∧ Throughout step P (step s e) es := Iff.rfl

instance Throughout.decidable {step : σ → ε → σ} {P : σ → Prop} [∀ s, Decidable (P s)] :
    ∀ (s : σ) (es : List ε), Decidable (Throughout step P s es)
  | s, [] => inferInstanceAs (Decidable (P s))
  | s, e :: es =>
      have : Decidable (Throughout step P (step s e) es) := Throughout.decidable (step s e) es
      inferInstanceAs (Decidable (P s ∧ Throughout step P (step s e) es))

theorem Throughout.head {step : σ → ε → σ} {P : σ → Prop} {s : σ} {es : List ε}
    (h : Throughout step P s es) : P s := by
  cases es with
  | nil => exact h
  | cons e es => exact h.1

theorem throughout_iff_prefix {step : σ → ε → σ} {P : σ → Prop} {s : σ} {es : List ε} :
    Throughout step P s es ↔ ∀ pre, pre <+: es → P (run step s pre) := by
  induction es generalizing s with
  | nil => simp
  | cons e es ih =>
    rw [throughout_cons, ih]
    constructor
    · rintro ⟨hs, h⟩ pre hpre
      cases pre with
      | nil => exact hs
      | cons e' pre =>
        obtain ⟨rfl, htail⟩ := List.cons_prefix_cons.1 hpre
        exact h pre htail
    · intro h
      refine ⟨h [] List.nil_prefix, fun pre hpre => ?_⟩
      exact h (e :: pre) (List.cons_prefix_cons.2 ⟨rfl, hpre⟩)

/-! ## Steps with an output

A step that answers as well as moves leaves a log: each event with the answer it got. What a
quantity of the state gains over a run is what the log says it gained. -/

universe w

variable {ο : Type w}

/-- The events of a run with the answers they got, in order. -/
def log (step : σ → ε → σ × ο) : σ → List ε → List (ε × ο)
  | _, [] => []
  | s, e :: es => (e, (step s e).2) :: log step (step s e).1 es

theorem map_fst_log (step : σ → ε → σ × ο) (s : σ) (es : List ε) :
    (log step s es).map Prod.fst = es := by
  induction es generalizing s with
  | nil => rfl
  | cons e es ih => rw [log, List.map_cons, ih]

/-- The state after a run, answers dropped. -/
abbrev final (step : σ → ε → σ × ο) (s : σ) (es : List ε) : σ :=
  run (fun s e => (step s e).1) s es

/-- If every step changes `value` by the `flow` of its entry, a run changes it by the flows of
    its log. -/
theorem value_final {α : Type u} [AddCommMonoid α] {step : σ → ε → σ × ο} {Inv : σ → Prop}
    (ok : ε → Prop) {value : σ → α} (flow : ε × ο → α)
    (h : ∀ s e, Inv s → ok e → Inv (step s e).1 ∧
      value (step s e).1 = value s + flow (e, (step s e).2))
    {s : σ} {es : List ε} (init : Inv s) (hes : ∀ e ∈ es, ok e) :
    value (final step s es) = value s + ((log step s es).map flow).sum := by
  induction es generalizing s with
  | nil => simp [log]
  | cons e es ih =>
    obtain ⟨hinv, hval⟩ := h s e init (hes e (List.mem_cons_self ..))
    rw [final, run_cons, log, List.map_cons, List.sum_cons,
      ih hinv fun e' he' => hes e' (List.mem_cons_of_mem _ he'), hval, add_assoc]

end Transition
