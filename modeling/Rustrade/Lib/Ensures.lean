import Mathlib.Tactic.Common

/-!
# What a fallible computation ensures

A postcondition on the value a computation gives, together with a set of errors it does not end in.
One rule for each way a computation is put together.
-/

set_option autoImplicit false

universe u v

namespace Except

variable {ε : Type u} {α β : Type v} {bad : ε → Prop} {x : Except ε α} {post : α → Prop}

/-- A successful sequence is its two successful parts. -/
theorem bind_eq_ok {f : α → Except ε β} {b : β} :
    x >>= f = .ok b ↔ ∃ a, x = .ok a ∧ f a = .ok b := by
  cases x <;> simp [bind, Except.bind]

theorem pure_eq_ok {a b : α} : (pure a : Except ε α) = .ok b ↔ a = b := by
  simp [pure, Except.pure]

/-- A map over a list fails nowhere if it fails at none of its items. -/
theorem mapM_eq_ok {ι : Type u} {f : ι → Except ε α} {g : ι → α} {items : List ι}
    (h : ∀ item ∈ items, f item = .ok (g item)) : items.mapM f = .ok (items.map g) := by
  induction items with
  | nil => rfl
  | cons item items ih =>
    rw [List.mapM_cons, h item (List.mem_cons_self ..),
      ih fun item' hitem => h item' (List.mem_cons_of_mem _ hitem)]
    rfl

/-- What a map over a list gives, one of its items gives. -/
theorem mem_of_mapM_eq_ok {ι : Type u} {f : ι → Except ε α} {items : List ι} {given : List α}
    (h : items.mapM f = .ok given) : ∀ a ∈ given, ∃ item ∈ items, f item = .ok a := by
  induction items generalizing given with
  | nil =>
    cases pure_eq_ok.1 h
    exact fun a ha => absurd ha List.not_mem_nil
  | cons item items ih =>
    rw [List.mapM_cons] at h
    obtain ⟨first, hfirst, h⟩ := bind_eq_ok.1 h
    obtain ⟨rest, hrest, h⟩ := bind_eq_ok.1 h
    cases pure_eq_ok.1 h
    intro a ha
    rcases List.mem_cons.1 ha with rfl | ha
    · exact ⟨item, List.mem_cons_self .., hfirst⟩
    · obtain ⟨found, hfound, heq⟩ := ih hrest a ha
      exact ⟨found, List.mem_cons_of_mem _ hfound, heq⟩

/-- `x` gives a value of `post`, or fails with an error that is not `bad`. -/
def Ensures (bad : ε → Prop) (x : Except ε α) (post : α → Prop) : Prop :=
  match x with
  | .ok a => post a
  | .error e => ¬ bad e

namespace Ensures

theorem ok {a : α} (h : post a) : Ensures bad (.ok a) post := h

theorem pure {a : α} (h : post a) : Ensures bad (Pure.pure a) post := h

theorem error {e : ε} (h : ¬ bad e) : Ensures bad (.error e : Except ε α) post := h

theorem throw {e : ε} (h : ¬ bad e) :
    Ensures bad (MonadExcept.throw e : Except ε α) post := h

theorem mono {post' : α → Prop} (h : Ensures bad x post) (hpost : ∀ a, post a → post' a) :
    Ensures bad x post' := by
  cases x with
  | ok a => exact hpost a h
  | error e => exact h

theorem bind {f : α → Except ε β} {post' : β → Prop} (h : Ensures bad x post)
    (hf : ∀ a, post a → Ensures bad (f a) post') : Ensures bad (x >>= f) post' := by
  cases x with
  | ok a => exact hf a h
  | error e => exact h

theorem and {post' : α → Prop} (h : Ensures bad x post) (h' : Ensures bad x post') :
    Ensures bad x fun a => post a ∧ post' a := by
  cases x with
  | ok a => exact ⟨h, h'⟩
  | error e => exact h

/-- What each step of a fold ensures again, the fold ensures. -/
theorem foldlM {ι : Type u} {f : α → ι → Except ε α} (inv : α → Prop)
    (hf : ∀ a i, inv a → Ensures bad (f a i) inv) {a : α} (ha : inv a) (is : List ι) :
    Ensures bad (List.foldlM f a is) inv := by
  induction is generalizing a with
  | nil => exact ha
  | cons i is ih => exact (hf a i ha).bind fun b hb => ih hb

/-- The same with an invariant that may read what is left to fold over. -/
theorem foldlM_rest {ι : Type u} {f : α → ι → Except ε α} (inv : α → List ι → Prop)
    (hf : ∀ a i is, inv a (i :: is) → Ensures bad (f a i) fun b => inv b is) {a : α} {is : List ι}
    (ha : inv a is) : Ensures bad (List.foldlM f a is) fun b => inv b [] := by
  induction is generalizing a with
  | nil => exact ha
  | cons i is ih => exact (hf a i is ha).bind fun b hb => ih hb

/-- What each item of a map over a list gives. -/
theorem mapM {ι : Type u} {f : ι → Except ε α} {g : ι → α}
    (hf : ∀ item, Ensures bad (f item) fun a => a = g item) {items : List ι} :
    Ensures bad (items.mapM f) fun given => given = items.map g := by
  induction items with
  | nil => exact Ensures.pure rfl
  | cons item items ih =>
    rw [List.mapM_cons]
    apply (hf item).bind
    rintro _ rfl
    apply ih.bind
    rintro _ rfl
    exact Ensures.pure rfl

/-- What is ensured of the value a computation gave. -/
theorem result {a : α} (h : Ensures bad x post) (hx : x = .ok a) : post a := by
  subst hx
  exact h

/-- What is ensured of the error a computation failed with. -/
theorem refused {e : ε} (h : Ensures bad x post) (hx : x = .error e) : ¬ bad e := by
  subst hx
  exact h

/-- The postcondition, and which value it is of. -/
theorem eq (h : Ensures bad x post) : Ensures bad x fun a => post a ∧ x = .ok a := by
  cases x with
  | ok a => exact ⟨h, rfl⟩
  | error e => exact h

end Ensures

/-- What holds of the value `x` gives, if it gives one. -/
abbrev Gives (x : Except ε α) (post : α → Prop) : Prop := x.Ensures (fun _ => False) post

/-- A fold of steps that commute with `g` commutes with it. -/
theorem foldlM_map {ι : Type u} {f : α → ι → Except ε α} {g : α → α}
    (h : ∀ a i, f (g a) i = (f a i).map g) (a : α) (is : List ι) :
    List.foldlM f (g a) is = (List.foldlM f a is).map g := by
  induction is generalizing a with
  | nil => rfl
  | cons i is ih =>
    rw [List.foldlM_cons, List.foldlM_cons, h]
    cases f a i with
    | error e => rfl
    | ok b => exact ih b

/-- What is ensured is given. -/
theorem Ensures.gives (h : Ensures bad x post) : x.Gives post := by
  cases x with
  | ok a => exact h
  | error e => exact id

end Except
