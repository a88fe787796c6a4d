import Mathlib.Data.List.Basic
import Mathlib.Order.Bounds.Basic
import Mathlib.Order.MinMax

/-!
# Boundaries

A function that gives the first boundary after an instant. Nothing is asked of it but that: its
answer is later than the instant, and stands until the instant passes it. The earliest of several
such answers stands as long.
-/

set_option autoImplicit false

universe u v

namespace Boundary

variable {τ : Type u} [LinearOrder τ]

/-- `next` gives the first boundary strictly after an instant. -/
structure Lawful (next : τ → Option τ) : Prop where
  after : ∀ a b, next a = some b → a < b
  stands : ∀ a c, a ≤ c → (∀ b, next a = some b → c < b) → next c = next a

variable {next : τ → Option τ} {ι : Type v} {f : ι → τ → Option τ} {items more : List ι} {a b c : τ}

/-! ## The earliest of several -/

/-- The earliest boundary after an instant among those several functions give. -/
def earliest (f : ι → τ → Option τ) (items : List ι) (after : τ) : Option τ :=
  (items.filterMap fun item => f item after).min?

theorem earliest_eq_some_iff :
    earliest f items a = some b ↔ IsLeast {t | ∃ item ∈ items, f item a = some t} b := by
  unfold earliest
  rw [List.min?_eq_some_iff]
  simp only [List.mem_filterMap, IsLeast, Set.mem_ofPred_eq, mem_lowerBounds]

/-- Only which functions there are matters. -/
theorem earliest_congr (h : ∀ t, (∃ item ∈ items, f item a = some t) ↔
    ∃ item ∈ more, f item a = some t) : earliest f items a = earliest f more a := by
  apply Option.ext
  intro t
  rw [earliest_eq_some_iff, earliest_eq_some_iff]
  have hsame : {t | ∃ item ∈ items, f item a = some t} =
      {t | ∃ item ∈ more, f item a = some t} := Set.ext h
  rw [hsame]

/-- The earliest boundary stands until the instant passes it. -/
theorem earliest_stands (hf : ∀ item ∈ items, Lawful (f item)) (hle : a ≤ c)
    (h : ∀ b, earliest f items a = some b → c < b) : earliest f items c = earliest f items a := by
  have hall : ∀ item ∈ items, f item c = f item a := by
    intro item hitem
    apply (hf item hitem).stands a c hle
    intro b hb
    have hmem : b ∈ items.filterMap fun item => f item a := List.mem_filterMap.2 ⟨item, hitem, hb⟩
    obtain ⟨first, hfirst⟩ : ∃ first, earliest f items a = some first :=
      Option.isSome_iff_exists.1 (List.isSome_min?_of_mem hmem)
    have hleast : first ≤ b := ((List.min?_eq_some_iff.1 hfirst).2 b hmem)
    exact (h first hfirst).trans_le hleast
  unfold earliest
  rw [List.filterMap_congr hall]

/-! ## The first of several instants -/

/-- `first` is the first of the instants, if there are any. -/
def First (instants : Set τ) (first : Option τ) : Prop :=
  first.elim (instants = ∅) (IsLeast instants)

namespace First

variable {s t : Set τ} {first : Option τ} {l m : List τ}

theorem eq_some_iff (h : First s first) {b : τ} : first = some b ↔ IsLeast s b := by
  cases first with
  | none =>
    have hnone : s = ∅ := h
    rw [hnone]
    exact iff_of_false (fun hsome => Option.some_ne_none b hsome.symm) fun hb => hb.1
  | some c =>
    have hleast : IsLeast s c := h
    rw [Option.some_inj]
    exact ⟨fun hc => hc ▸ hleast, hleast.unique⟩

/-- Before the first, none has come. -/
theorem lt (h : First s first) {c : τ} (hfirst : ∀ b, first = some b → c < b) :
    ∀ b ∈ s, c < b := by
  intro b hb
  cases first with
  | none =>
    have hnone : s = ∅ := h
    rw [hnone] at hb
    cases hb
  | some a =>
    have hleast : IsLeast s a := h
    exact (hfirst a rfl).trans_le (hleast.2 hb)

theorem min? (l : List τ) : First {b | b ∈ l} l.min? := by
  cases h : l.min? with
  | none =>
    rw [List.min?_eq_none_iff.1 h]
    exact Set.eq_empty_of_forall_notMem fun _ hb => List.not_mem_nil hb
  | some b =>
    obtain ⟨hmem, hle⟩ := List.min?_eq_some_iff.1 h
    exact ⟨hmem, hle⟩

theorem toList (h : First s first) : First s first.toList.min? := by
  cases first with
  | none => exact h
  | some b => exact h

theorem append (h : First s l.min?) (h' : First t m.min?) : First (s ∪ t) (l ++ m).min? := by
  cases hl : l.min? with
  | none =>
    rw [hl] at h
    have hnone : s = ∅ := h
    rw [List.min?_eq_none_iff.1 hl, hnone, Set.empty_union, List.nil_append]
    exact h'
  | some b =>
    cases hm : m.min? with
    | none =>
      rw [hm] at h'
      have hnone : t = ∅ := h'
      rw [List.min?_eq_none_iff.1 hm, hnone, Set.union_empty, List.append_nil]
      exact h
    | some c =>
      have hboth : (l ++ m).min? = some (Min.min b c) := by
        obtain ⟨hb, hble⟩ := List.min?_eq_some_iff.1 hl
        obtain ⟨hc, hcle⟩ := List.min?_eq_some_iff.1 hm
        apply List.min?_eq_some_iff.2
        constructor
        · rcases min_choice b c with hmin | hmin
          · rw [hmin]
            exact List.mem_append_left m hb
          · rw [hmin]
            exact List.mem_append_right l hc
        · intro d hd
          rcases List.mem_append.1 hd with hd | hd
          · exact (min_le_left b c).trans (hble d hd)
          · exact (min_le_right b c).trans (hcle d hd)
      rw [hboth]
      exact (h.eq_some_iff.1 hl).union (h'.eq_some_iff.1 hm)

end First

theorem earliest_first : First {t | ∃ item ∈ items, f item a = some t} (earliest f items a) := by
  have hmem : {t | ∃ item ∈ items, f item a = some t} =
      {t | t ∈ items.filterMap fun item => f item a} := by
    ext t
    exact List.mem_filterMap.symm
  rw [hmem]
  exact First.min? _

/-! ## The boundaries of a span -/

/-- An instant that is a boundary. -/
def Falls (next : τ → Option τ) (b : τ) : Prop := ∃ a, next a = some b

/-- The boundaries after `a` and through `last`, in order. -/
inductive Through (next : τ → Option τ) (last : τ) : τ → List τ → Prop where
  | stop {a : τ} : (∀ b, next a = some b → last < b) → Through next last a []
  | step {a b : τ} {rest : List τ} : next a = some b → b ≤ last → Through next last b rest →
      Through next last a (b :: rest)

namespace Through

variable {last mid : τ} {l l' : List τ}

theorem within (hnext : Lawful next) (h : Through next last a l) :
    ∀ b ∈ l, a < b ∧ b ≤ last := by
  induction h with
  | stop _ => exact fun b hb => absurd hb List.not_mem_nil
  | step hfirst hle _ ih =>
    have hlt := hnext.after _ _ hfirst
    intro b hb
    rcases List.mem_cons.1 hb with rfl | hrest
    · exact ⟨hlt, hle⟩
    · exact ⟨hlt.trans (ih b hrest).1, (ih b hrest).2⟩

theorem pairwise (hnext : Lawful next) (h : Through next last a l) : l.Pairwise (· < ·) := by
  induction h with
  | stop _ => exact .nil
  | step _ _ hrest ih => exact .cons (fun b hb => (hrest.within hnext b hb).1) ih

/-- Each boundary of the span is there. -/
theorem mem_iff (hnext : Lawful next) (h : Through next last a l) :
    b ∈ l ↔ a < b ∧ b ≤ last ∧ Falls next b := by
  have hfirst : ∀ {a b first}, next a = some first → a < b → Falls next b → first ≤ b := by
    rintro a b first hnexta hlt ⟨c, hc⟩
    by_contra hlater
    rcases le_total c a with hle | hle
    · -- The boundary after `c` is not passed at `a`, so it is the one after `a`.
      have hstands : next a = next c := by
        apply hnext.stands c a hle
        intro d hd
        rw [hc] at hd
        cases hd
        exact hlt
      rw [hnexta, hc] at hstands
      cases hstands
      exact hlater le_rfl
    · have hstands : next c = next a := by
        apply hnext.stands a c hle
        intro d hd
        rw [hnexta] at hd
        cases hd
        exact (hnext.after c b hc).trans (not_le.1 hlater)
      rw [hnexta, hc] at hstands
      cases hstands
      exact hlater le_rfl
  induction h with
  | @stop a hpast =>
    constructor
    · exact fun hb => absurd hb List.not_mem_nil
    · rintro ⟨hlt, hle, hfalls⟩
      exfalso
      cases hnexta : next a with
      | some first =>
        exact absurd (hfirst hnexta hlt hfalls) (not_le.2 (hle.trans_lt (hpast _ hnexta)))
      | none =>
        obtain ⟨c, hc⟩ := hfalls
        rcases le_total c a with hca | hca
        · have hstands : next a = next c := by
            apply hnext.stands c a hca
            intro d hd
            rw [hc] at hd
            cases hd
            exact hlt
          rw [hnexta, hc] at hstands
          cases hstands
        · have hstands : next c = next a := by
            apply hnext.stands a c hca
            intro d hd
            rw [hnexta] at hd
            cases hd
          rw [hnexta, hc] at hstands
          cases hstands
  | @step a first rest hnexta hle hrest ih =>
    rw [List.mem_cons]
    constructor
    · rintro (rfl | hmem)
      · exact ⟨hnext.after _ _ hnexta, hle, ⟨a, hnexta⟩⟩
      · obtain ⟨hlt, hb, hfalls⟩ := ih.1 hmem
        exact ⟨(hnext.after _ _ hnexta).trans hlt, hb, hfalls⟩
    · rintro ⟨hlt, hb, hfalls⟩
      rcases (hfirst hnexta hlt hfalls).eq_or_lt with rfl | hafter
      · exact .inl rfl
      · exact .inr (ih.2 ⟨hafter, hb, hfalls⟩)

/-- The boundaries of two spans that meet are those of both. -/
theorem append (hnext : Lawful next) (h : Through next mid a l) (ha : a ≤ mid)
    (hmid : mid ≤ last) (h' : Through next last mid l') : Through next last a (l ++ l') := by
  induction h with
  | @stop a hpast =>
    have hstands : next mid = next a := hnext.stands a mid ha hpast
    cases h' with
    | stop hpast' =>
      apply stop
      rw [← hstands]
      exact hpast'
    | step hfirst hle hrest =>
      rw [hstands] at hfirst
      exact step hfirst hle hrest
  | step hfirst hle _ ih => exact step hfirst (hle.trans hmid) (ih hle)

theorem unique (h : Through next last a l) (h' : Through next last a l') : l = l' := by
  induction h generalizing l' with
  | stop hpast =>
    cases h' with
    | stop _ => rfl
    | step hfirst hle _ => exact absurd (hpast _ hfirst) (not_lt.2 hle)
  | step hfirst hle _ ih =>
    cases h' with
    | stop hpast => exact absurd (hpast _ hfirst) (not_lt.2 hle)
    | step hfirst' _ hrest =>
      rw [hfirst] at hfirst'
      cases hfirst'
      rw [ih hrest]

end Through

end Boundary
