import Rustrade.Lib.Ensures

/-!
# Runs that gather output

A step that changes a state, gives output and may fail, run over a list of items with the outputs
joined. What holds of a step and composes along joined outputs holds of the run.
-/

set_option autoImplicit false

namespace Gather

variable {ε S Item Out : Type}

/-- Run `step` for each item in turn, joining what they give. -/
def run (step : S → Item → Except ε (S × List Out)) : S → List Item → Except ε (S × List Out)
  | s, [] => .ok (s, [])
  | s, item :: rest => do
      let (s, out) ← step s item
      let (s, more) ← run step s rest
      return (s, out ++ more)

/-- Do `next` after `first`, joining what they give. -/
def andThen (first : Except ε (S × List Out)) (next : S → Except ε (S × List Out)) :
    Except ε (S × List Out) := do
  let (s, out) ← first
  let (s, more) ← next s
  return (s, out ++ more)

variable {step : S → Item → Except ε (S × List Out)} {s s' : S} {items : List Item} {out : List Out}
  {bad : ε → Prop}

theorem run_cons {item : Item} {rest : List Item} (h : run step s (item :: rest) = .ok (s', out)) :
    ∃ mid first more, step s item = .ok (mid, first) ∧ run step mid rest = .ok (s', more) ∧
      out = first ++ more := by
  obtain ⟨⟨mid, first⟩, hstep, h⟩ := Except.bind_eq_ok.1 h
  obtain ⟨⟨last, more⟩, hrun, h⟩ := Except.bind_eq_ok.1 h
  cases Except.pure_eq_ok.1 h
  exact ⟨mid, first, more, hstep, hrun, rfl⟩

/-- The sequence rule. -/
theorem andThen_ensures {first : Except ε (S × List Out)} {next : S → Except ε (S × List Out)}
    {mid post : S × List Out → Prop} (hfirst : first.Ensures bad mid)
    (hnext : ∀ s a, mid (s, a) → (next s).Ensures bad fun r => post (r.1, a ++ r.2)) :
    (andThen first next).Ensures bad post := by
  apply hfirst.bind
  intro ⟨s, a⟩ hmid
  apply (hnext s a hmid).bind
  intro ⟨t, b⟩ hpost
  exact hpost

/-- The run rule. `P` is what holds of a state with items left to do, and `R` relates two states
    along the output between them: it holds of doing nothing and it composes. -/
theorem run_ensures {P : S → List Item → Prop} {R : S → List Out → S → Prop} (refl : ∀ s, R s [] s)
    (trans : ∀ {s t u a b}, R s a t → R t b u → R s (a ++ b) u)
    (hstep : ∀ s item rest, P s (item :: rest) →
      (step s item).Ensures bad fun r => R s r.2 r.1 ∧ P r.1 rest)
    (hs : P s items) : (run step s items).Ensures bad fun r => R s r.2 r.1 ∧ P r.1 [] := by
  induction items generalizing s with
  | nil => exact ⟨refl s, hs⟩
  | cons item rest ih =>
    apply (hstep s item rest hs).bind
    intro ⟨mid, first⟩ ⟨hfirst, hmid⟩
    apply (ih hmid).bind
    intro ⟨last, more⟩ ⟨hmore, hlast⟩
    exact ⟨trans hfirst hmore, hlast⟩

/-- The run rule for what relates two states whatever is between them. -/
theorem run_gives {R : S → S → Prop} (refl : ∀ s, R s s) (trans : ∀ {s t u}, R s t → R t u → R s u)
    (hstep : ∀ s item, (step s item).Gives fun r => R s r.1) (s : S) (items : List Item) :
    (run step s items).Gives fun r => R s r.1 := by
  have hrun : (run step s items).Gives fun r => R s r.1 ∧ True := by
    apply run_ensures (R := fun s (_ : List Out) t => R s t) (P := fun _ _ => True) refl
      (fun h hnext => trans h hnext) _ trivial
    intro s item _ _
    exact (hstep s item).mono fun _ hr => ⟨hr, trivial⟩
  exact hrun.mono fun _ hr => hr.1

/-! ## Runs put together -/

/-- A run over two lists is one over the second after one over the first. -/
theorem run_append (s : S) (items more : List Item) :
    run step s (items ++ more) = andThen (run step s items) fun s => run step s more := by
  induction items generalizing s with
  | nil =>
    show run step s more = andThen (.ok (s, [])) _
    unfold andThen
    cases hmore : run step s more with
    | error e => simp [bind, Except.bind, hmore]
    | ok r => simp [bind, Except.bind, pure, Except.pure, hmore]
  | cons item rest ih =>
    rw [List.cons_append]
    simp only [run, andThen, ih]
    cases step s item with
    | error e => rfl
    | ok r =>
      cases hrest : run step r.1 rest with
      | error e => simp [bind, Except.bind, hrest]
      | ok r' =>
        cases hmore : run step r'.1 more with
        | error e => simp [bind, Except.bind, hrest, hmore, pure, Except.pure]
        | ok r'' => simp [bind, Except.bind, hrest, hmore, pure, Except.pure]

/-- What is done next may be read off what came first. -/
theorem andThen_congr {first : Except ε (S × List Out)}
    {next next' : S → Except ε (S × List Out)}
    (h : ∀ s out, first = .ok (s, out) → next s = next' s) :
    andThen first next = andThen first next' := by
  unfold andThen
  cases hfirst : first with
  | error e => rfl
  | ok r =>
    show (next r.1 >>= _) = (next' r.1 >>= _)
    rw [h r.1 r.2 hfirst]

/-! ## States alike -/

section Alike

variable {T : Type} {norm : S → T}

/-- Two computations that give the same output and states that look the same. -/
def Alike (norm : S → T) (x y : Except ε (S × List Out)) : Prop :=
  x.map (Prod.map norm id) = y.map (Prod.map norm id)

/-- Steps that cannot tell two states apart make runs that cannot. -/
theorem run_alike
    (hstep : ∀ s t item, norm s = norm t → Alike norm (step s item) (step t item))
    {t : S} (h : norm s = norm t) : Alike norm (run step s items) (run step t items) := by
  induction items generalizing s t with
  | nil => exact congrArg (fun u => Except.ok (u, [])) h
  | cons item rest ih =>
    have hfirst := hstep s t item h
    simp only [run]
    unfold Alike at hfirst ih ⊢
    cases hs : step s item with
    | error e =>
      cases ht : step t item with
      | error e' =>
        rw [hs, ht] at hfirst
        exact hfirst
      | ok r =>
        rw [hs, ht] at hfirst
        cases hfirst
    | ok r =>
      cases ht : step t item with
      | error e' =>
        rw [hs, ht] at hfirst
        cases hfirst
      | ok r' =>
        rw [hs, ht] at hfirst
        obtain ⟨hnorm, hout⟩ := Prod.mk.inj (Except.ok.inj hfirst)
        have hrest := ih (s := r.1) (t := r'.1) hnorm
        have hout : r.2 = r'.2 := hout
        simp only [bind, Except.bind]
        cases hr : run step r.1 rest with
        | error e =>
          cases hr' : run step r'.1 rest with
          | error e' =>
            rw [hr, hr'] at hrest
            exact hrest
          | ok q =>
            rw [hr, hr'] at hrest
            cases hrest
        | ok q =>
          cases hr' : run step r'.1 rest with
          | error e' =>
            rw [hr, hr'] at hrest
            cases hrest
          | ok q' =>
            rw [hr, hr'] at hrest
            obtain ⟨hlast, hmore⟩ := Prod.mk.inj (Except.ok.inj hrest)
            have hmore : q.2 = q'.2 := hmore
            show Except.ok (norm q.1, r.2 ++ q.2) = Except.ok (norm q'.1, r'.2 ++ q'.2)
            rw [show norm q.1 = norm q'.1 from hlast, hout, hmore]

end Alike

end Gather
