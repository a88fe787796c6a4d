import Rustrade.Lse.Tape

/-!
# What a stream has emitted

A stream has emitted the ticks of one `Extent` of the tape and its watermark says so (`Marked`).
Where its transformer is `Ready` for the tick it is sent, one tick either continues the extent or
was emitted before and is dropped (`transform_emission`).
-/

set_option autoImplicit false

namespace Rustrade.Lse

variable {Key : Type} [DecidableEq Key] {tape : ℕ → DateTime} {resumes : Key → Bool}

/-- Consecutive ticks, from `position` up to `stop`. -/
def Feeds (frames : List LseFrame) (position stop : ℕ) : Prop :=
  frames.map LseFrame.position = List.range' position frames.length ∧
    position + frames.length = stop

theorem feeds_nil {position : ℕ} : Feeds [] position position := ⟨rfl, rfl⟩

theorem Feeds.append {frames : List LseFrame} {position stop : ℕ} (h : Feeds frames position stop)
    (replay : Bool) : Feeds (frames ++ [⟨stop, replay⟩]) position (stop + 1) := by
  obtain ⟨hframes, rfl⟩ := h
  constructor
  · rw [List.map_append, hframes, List.length_append, List.length_singleton,
      List.range'_1_concat]
    rfl
  · rw [List.length_append, List.length_singleton]
    omega

theorem Feeds.cons {frame : LseFrame} {frames : List LseFrame} {position stop : ℕ}
    (h : Feeds (frame :: frames) position stop) :
    frame.position = position ∧ position < stop ∧ Feeds frames (position + 1) stop := by
  obtain ⟨hframes, hstop⟩ := h
  rw [List.map_cons, List.length_cons, List.range'_succ, List.cons.injEq] at hframes
  rw [List.length_cons] at hstop
  exact ⟨hframes.1, by omega, hframes.2, by omega⟩

/-- The ticks a stream has emitted: none, or those from `first` up to `next`. -/
abbrev Extent := Option (ℕ × ℕ)

def Extent.ticks : Extent → List ℕ
  | none => []
  | some (first, next) => List.range' first (next - first)

/-- From `position` on, the transformer emits what continues the extent. -/
def Ready (tape : ℕ → DateTime) (transformer : LseTransformer) (position : ℕ) : Extent → Prop
  | none => transformer.resume.join = none
  | some (_, next) => Skips tape transformer.resume.join position next

/-- The watermark of a stream that has emitted the extent. -/
def Marked (tape : ℕ → DateTime) (resumes : Bool) (mark : Option LseWatermark) : Extent → Prop
  | none => mark = none
  | some (first, next) =>
    if resumes then ∃ found, mark = some found ∧ Marks tape first next found else mark = none

/-! ## One tick -/

/-- What one tick makes of a transformer that is ready for it. -/
structure Emission (tape : ℕ → DateTime) (resumes : Bool) (position : ℕ) (due due' : Extent)
    (transformer : LseTransformer) (mark mark' : Option LseWatermark) (emits : Bool) : Prop where
  ready : Ready tape transformer (position + 1) due'
  resume : transformer.resume.isSome = resumes
  marked : Marked tape resumes mark' due'
  ticks : due'.ticks = if emits then due.ticks ++ [position] else due.ticks
  proper : ∀ first next, due' = some (first, next) →
    first < next ∧ (next = position + 1 ∨ due = some (first, next))
  later : ∀ found, mark = some found → ∃ found', mark' = some found' ∧
    found.timeExchange ≤ found'.timeExchange

theorem ticks_succ {first next : ℕ} (hlt : first < next) :
    Extent.ticks (some (first, next + 1)) = Extent.ticks (some (first, next)) ++ [next] := by
  show List.range' first (next + 1 - first) = List.range' first (next - first) ++ [next]
  have hlen : next + 1 - first = (next - first) + 1 := by omega
  rw [hlen, List.range'_1_concat]
  congr 2
  omega

theorem ticks_first (position : ℕ) : Extent.ticks (some (position, position + 1)) = [position] := by
  show List.range' position (position + 1 - position) = [position]
  rw [Nat.add_sub_cancel_left]
  rfl

theorem le_advance (time : DateTime) (mark : LseWatermark) :
    mark.timeExchange ≤ (LseResumeState.advance time (some mark)).timeExchange := by
  unfold LseResumeState.advance
  dsimp only
  split
  · rename_i hlt
    exact hlt.le
  · split <;> exact le_rfl

theorem transform_emission (hmono : Monotone tape) {transformer : LseTransformer}
    {state : LseResumeState Key} {key : Key} {position : ℕ} {due : Extent} {resumes : Bool}
    (hready : Ready tape transformer position due) (hresume : transformer.resume.isSome = resumes)
    (hmarked : Marked tape resumes (state key) due)
    (hproper : ∀ first next, due = some (first, next) → first < next) :
    ∃ due', Emission tape resumes position due due'
      (transformer.transform state key (tape position)).1 (state key)
      ((transformer.transform state key (tape position)).2.1 key)
      (transformer.transform state key (tape position)).2.2 := by
  obtain ⟨resume⟩ := transformer
  -- A tick that is emitted: what the extent and the watermark become.
  have hrecord : ∀ hposition : ∀ first next, due = some (first, next) → position = next,
      resumes = true → ∃ first, (due = none → first = position) ∧
        (∀ f n, due = some (f, n) → first = f ∧ position = n) ∧ first < position + 1 ∧
        Marked tape true ((state.record key (tape position)) key) (some (first, position + 1)) := by
    intro hposition hres
    subst hres
    match due with
    | none =>
      refine ⟨position, fun _ => rfl, fun _ _ h => (nomatch h), Nat.lt_succ_self _, ?_⟩
      have hnone : state key = none := hmarked
      refine ⟨_, ?_, marks_first position⟩
      rw [LseResumeState.record, Function.update_self, hnone]
    | some (first, next) =>
      obtain rfl := hposition first next rfl
      have hlt := hproper first position rfl
      obtain ⟨mark, hmark, hmarks⟩ := hmarked
      refine ⟨first, fun h => (nomatch h), ?_, by omega, _, ?_, hmarks.advance hmono hlt⟩
      · intro f n h
        cases h
        exact ⟨rfl, rfl⟩
      · rw [LseResumeState.record, Function.update_self, hmark]
  have hlater : ∀ found, state key = some found →
      ∃ found', (state.record key (tape position)) key = some found' ∧
        found.timeExchange ≤ found'.timeExchange := by
    intro found hfound
    refine ⟨_, by rw [LseResumeState.record, Function.update_self], ?_⟩
    rw [hfound]
    exact le_advance _ _
  have hticks : ∀ first, (due = none → first = position) →
      (∀ f n, due = some (f, n) → first = f ∧ position = n) →
      Extent.ticks (some (first, position + 1)) = due.ticks ++ [position] := by
    intro first hfresh hrunning
    match due with
    | none =>
      rw [hfresh rfl]
      exact ticks_first position
    | some (f, n) =>
      obtain ⟨rfl, rfl⟩ := hrunning f n rfl
      exact ticks_succ (hproper _ _ rfl)
  match resume with
  | none =>
    have hres : resumes = false := hresume.symm
    subst hres
    have hnone : state key = none := by
      match due with
      | none => exact hmarked
      | some (first, next) => exact hmarked
    match due with
    | none =>
      refine ⟨some (position, position + 1), rfl, rfl, hnone, ticks_first position, ?_, ?_⟩
      · intro first next h
        cases h
        exact ⟨Nat.lt_succ_self _, .inl rfl⟩
      · intro found hfound
        exact ⟨found, hfound, le_rfl⟩
    | some (first, next) =>
      have hposition : position = next := hready
      subst hposition
      have hlt := hproper first position rfl
      refine ⟨some (first, position + 1), rfl, rfl, hnone, ticks_succ hlt, ?_, ?_⟩
      · intro f n h
        cases h
        exact ⟨by omega, .inl rfl⟩
      · intro found hfound
        exact ⟨found, hfound, le_rfl⟩
  | some none =>
    have hres : resumes = true := hresume.symm
    subst hres
    have hposition : ∀ first next, due = some (first, next) → position = next := by
      intro first next hdue
      subst hdue
      exact hready
    obtain ⟨first, hfresh, hrunning, hlt, hmarks⟩ := hrecord hposition rfl
    refine ⟨some (first, position + 1), rfl, rfl, hmarks, hticks first hfresh hrunning, ?_, hlater⟩
    intro f n h
    cases h
    exact ⟨hlt, .inl rfl⟩
  | some (some pending) =>
    have hres : resumes = true := hresume.symm
    subst hres
    match due with
    | none => cases hready
    | some (first, next) =>
      have hskips : Skips tape (some pending) position next := hready
      have hlt := hproper first next rfl
      rcases Nat.lt_or_ge position next with hbefore | hreached
      · obtain ⟨hdrop, hafter⟩ := hskips.drop hbefore
        have htransform : LseTransformer.transform ⟨some (some pending)⟩ state key (tape position) =
            (⟨some (some (pending.shouldDrop (tape position)).1)⟩, state, false) := by
          simp only [LseTransformer.transform, hdrop, if_true]
        rw [htransform]
        refine ⟨some (first, next), hafter, rfl, hmarked, rfl, ?_, ?_⟩
        · intro f n h
          cases h
          exact ⟨hlt, .inr rfl⟩
        · intro found hfound
          exact ⟨found, hfound, le_rfl⟩
      · have hposition : position = next := le_antisymm hskips.le hreached
        subst hposition
        obtain ⟨hemit, hafter⟩ := hskips.emit hmono
        have htransform : LseTransformer.transform ⟨some (some pending)⟩ state key (tape position) =
            (⟨some (some (pending.shouldDrop (tape position)).1)⟩,
              state.record key (tape position), true) := by
          simp only [LseTransformer.transform, hemit, Bool.false_eq_true, if_false]
        have hat : ∀ f n, (some (first, position) : Extent) = some (f, n) → position = n := by
          intro f n h
          cases h
          rfl
        obtain ⟨found, hfresh, hrunning, hlt', hmarks⟩ := hrecord hat rfl
        obtain ⟨rfl, -⟩ := hrunning first position rfl
        rw [htransform]
        refine ⟨some (found, position + 1), hafter, rfl, hmarks, hticks found hfresh hrunning, ?_,
          hlater⟩
        intro f n h
        cases h
        exact ⟨hlt', .inl rfl⟩

end Rustrade.Lse
