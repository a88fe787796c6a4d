import Mathlib.Data.List.Forall2

/-!
# Lists related element by element

What one list holds of another when each element is related to the one at its place.
-/

set_option autoImplicit false

namespace List.Forall₂

universe u v w

variable {α : Type u} {β : Type v} {γ : Type w} {R : α → β → Prop} {xs : List α} {ys : List β}

theorem exists_right (h : Forall₂ R xs ys) {x : α} (hx : x ∈ xs) : ∃ y ∈ ys, R x y := by
  induction h with
  | nil => exact absurd hx List.not_mem_nil
  | cons hxy _ ih =>
    rcases List.mem_cons.1 hx with rfl | hx
    · exact ⟨_, List.mem_cons_self .., hxy⟩
    · obtain ⟨y, hy, hR⟩ := ih hx
      exact ⟨y, List.mem_cons_of_mem _ hy, hR⟩

theorem exists_left (h : Forall₂ R xs ys) {y : β} (hy : y ∈ ys) : ∃ x ∈ xs, R x y :=
  h.flip.exists_right hy

theorem map_eq (h : Forall₂ R xs ys) {f : α → γ} {g : β → γ} (hfg : ∀ x y, R x y → f x = g y) :
    xs.map f = ys.map g := by
  induction h with
  | nil => rfl
  | cons hxy _ ih => rw [List.map_cons, List.map_cons, hfg _ _ hxy, ih]

theorem append_right {ys' : List β} (h : Forall₂ R xs (ys ++ ys')) :
    ∃ early late, xs = early ++ late ∧ Forall₂ R early ys ∧ Forall₂ R late ys' := by
  induction ys generalizing xs with
  | nil => exact ⟨[], xs, rfl, .nil, h⟩
  | cons y ys ih =>
    obtain ⟨x, rest, hxy, hrest, rfl⟩ := List.forall₂_cons_right_iff.mp h
    obtain ⟨early, late, rfl, hearly, hlate⟩ := ih hrest
    exact ⟨x :: early, late, rfl, .cons hxy hearly, hlate⟩

/-- A list between two others relates them. -/
theorem comp {zs : List γ} {S : β → γ → Prop} {T : α → γ → Prop}
    (hT : ∀ x y z, R x y → S y z → T x z) (h : Forall₂ R xs ys) (h' : Forall₂ S ys zs) :
    Forall₂ T xs zs := by
  induction h generalizing zs with
  | nil =>
    rw [List.forall₂_nil_left_iff.mp h']
    exact .nil
  | cons hxy _ ih =>
    obtain ⟨z, zs, hyz, hrest, rfl⟩ := List.forall₂_cons_left_iff.mp h'
    exact .cons (hT _ _ _ hxy hyz) (ih hrest)

/-! ## By place -/

/-- Two related lists have a place alike, with related elements there. -/
theorem getElem?_cases (h : Forall₂ R xs ys) (i : ℕ) :
    (xs[i]? = none ∧ ys[i]? = none) ∨
      ∃ x y, xs[i]? = some x ∧ ys[i]? = some y ∧ R x y := by
  induction h generalizing i with
  | nil => exact .inl ⟨rfl, rfl⟩
  | cons hxy _ ih =>
    cases i with
    | zero => exact .inr ⟨_, _, rfl, rfl, hxy⟩
    | succ i => exact ih i

theorem modify {i : ℕ} {f : α → α} {g : β → β} (h : Forall₂ R xs ys)
    (hfg : ∀ x y, xs[i]? = some x → ys[i]? = some y → R x y → R (f x) (g y)) :
    Forall₂ R (xs.modify i f) (ys.modify i g) := by
  induction h generalizing i with
  | nil => simp
  | cons hxy hrest ih =>
    cases i with
    | zero => exact .cons (hfg _ _ rfl rfl hxy) hrest
    | succ i => exact .cons hxy (ih hfg)

theorem zipIdx (h : Forall₂ R xs ys) (i : ℕ) :
    Forall₂ (fun e e' => R e.1 e'.1 ∧ e.2 = e'.2) (xs.zipIdx i) (ys.zipIdx i) := by
  induction h generalizing i with
  | nil => exact .nil
  | cons hxy _ ih => exact .cons ⟨hxy, rfl⟩ (ih (i + 1))

theorem findSome?_eq (h : Forall₂ R xs ys) {f : α → Option γ} {g : β → Option γ}
    (hfg : ∀ x y, R x y → f x = g y) : xs.findSome? f = ys.findSome? g := by
  induction h with
  | nil => rfl
  | cons hxy _ ih => rw [List.findSome?_cons, List.findSome?_cons, hfg _ _ hxy, ih]

theorem any_eq (h : Forall₂ R xs ys) {f : α → Bool} {g : β → Bool}
    (hfg : ∀ x y, R x y → f x = g y) : xs.any f = ys.any g := by
  induction h with
  | nil => rfl
  | cons hxy _ ih => rw [List.any_cons, List.any_cons, hfg _ _ hxy, ih]

end List.Forall₂
