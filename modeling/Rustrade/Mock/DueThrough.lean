import Mathlib.Data.List.Perm.Basic
import Mathlib.Data.List.Sort
import Rustrade.Mock.Cached

/-!
# What falls due

Each position held is charged by each holding cost model, and each loan owed by the interest model,
at every boundary after the instant charged through and up to the clock's, once and in order. Spans
of time that meet fall due one after the other.
-/

set_option autoImplicit false

namespace Rustrade.Mock

/-! ## The boundaries of one model -/

/-- The boundaries after one instant and through another. -/
def span (next : DateTime → Option DateTime) (after through : DateTime) : List DateTime :=
  (boundariesThrough (fun instant => .ok (next instant)) after through).toOption.getD []

section Span

variable {next : DateTime → Option DateTime} {after through instant : DateTime}

theorem toNat_sub_lt {a b through : ℤ} (hlt : a < b) (hle : b ≤ through) :
    (through - b).toNat < (through - a).toNat := by
  omega

/-- Fuel for every instant left is never spent. -/
theorem boundariesFrom_ok (hnext : Boundary.Lawful next) {fuel : Nat}
    (hfuel : (through - instant).toNat < fuel) :
    ∃ found, boundariesFrom (fun instant => .ok (next instant)) through fuel (next instant) =
      .ok found ∧ Boundary.Through next through instant found := by
  induction fuel generalizing instant with
  | zero => exact absurd hfuel (Nat.not_lt_zero _)
  | succ fuel ih =>
    cases hfirst : next instant with
    | none => exact ⟨[], rfl, .stop fun b hb => absurd (hfirst.symm.trans hb) (by simp)⟩
    | some boundary =>
      by_cases hle : boundary ≤ through
      · have hlt := hnext.after _ _ hfirst
        obtain ⟨found, hfound, hthrough⟩ :=
          ih (Nat.lt_of_lt_of_le (toNat_sub_lt hlt hle) (Nat.lt_succ_iff.1 hfuel))
        refine ⟨boundary :: found, ?_, .step hfirst hle hthrough⟩
        show (if boundary ≤ through then _ else _) = _
        rw [if_pos hle, hfound]
        rfl
      · refine ⟨[], ?_, .stop fun b hb => ?_⟩
        · show (if boundary ≤ through then _ else _) = _
          rw [if_neg hle]
          rfl
        · cases hfirst.symm.trans hb
          exact not_le.1 hle

theorem span_ok (hnext : Boundary.Lawful next) :
    boundariesThrough (fun instant => .ok (next instant)) after through =
      .ok (span next after through) ∧
        Boundary.Through next through after (span next after through) := by
  obtain ⟨found, hfound, hthrough⟩ := @boundariesFrom_ok next through after hnext _
    (Nat.lt_succ_self _)
  have hall : boundariesThrough (fun instant => .ok (next instant)) after through = .ok found :=
    hfound
  have hspan : span next after through = found := by
    unfold span
    rw [hall]
    rfl
  rw [hspan]
  exact ⟨hall, hthrough⟩

theorem mem_span (hnext : Boundary.Lawful next) :
    instant ∈ span next after through ↔
      after < instant ∧ instant ≤ through ∧ Boundary.Falls next instant :=
  (span_ok hnext).2.mem_iff hnext

theorem span_append (hnext : Boundary.Lawful next) {mid : DateTime} (hafter : after ≤ mid)
    (hmid : mid ≤ through) :
    span next after through = span next after mid ++ span next mid through :=
  (span_ok hnext).2.unique
    ((span_ok hnext).2.append hnext hafter hmid (span_ok hnext).2)

end Span

/-! ## The order of the charges -/

namespace Due

theorem rank_injective : Function.Injective rank := by
  intro a b h
  cases a with
  | holding instrument model =>
    cases b with
    | holding instrument' model' =>
      simp only [rank, toLex_inj, Prod.mk.injEq, true_and, Nat.cast_inj] at h
      obtain ⟨hname, rfl⟩ := h
      cases instrument
      cases instrument'
      cases hname
      rfl
    | interest asset principal => simp [rank] at h
  | interest asset principal =>
    cases b with
    | holding instrument model => simp [rank] at h
    | interest asset' principal' =>
      simp only [rank, toLex_inj, Prod.mk.injEq, true_and] at h
      obtain ⟨hname, rfl⟩ := h
      cases asset
      cases asset'
      cases hname
      rfl

theorem before_antisymm {a b : DateTime × Due} (h : before a b = true) (h' : before b a = true) :
    a = b := by
  have hle := of_decide_eq_true h
  have hge := of_decide_eq_true h'
  have heq := toLex_inj.1 (le_antisymm hle hge)
  simp only [Prod.mk.injEq] at heq
  exact Prod.ext heq.1 (rank_injective heq.2)

theorem before_of_lt {a b : DateTime × Due} (h : a.1 < b.1) : before a b = true := by
  apply decide_eq_true
  exact Prod.Lex.toLex_le_toLex.2 (.inl h)

end Due

namespace SimulatedVenue

variable {v : SimulatedVenue} {after mid now : DateTime}

/-! ## What is charged -/

/-- Each instrument held with each holding cost model, and its place. -/
def heldModels (v : SimulatedVenue) : List (InstrumentNameExchange × HoldingCostModel × Nat) :=
  v.positions.toList.flatMap fun e => v.holdingCosts.zipIdx.map fun model => (e.1, model)

theorem mem_heldModels {instrument : InstrumentNameExchange} {model : HoldingCostModel}
    {index : Nat} : (instrument, model, index) ∈ v.heldModels ↔
      v.positions[instrument]?.isSome = true ∧ v.holdingCosts[index]? = some model := by
  unfold heldModels
  rw [List.mem_flatMap]
  constructor
  · rintro ⟨e, hmem, hcost⟩
    obtain ⟨found, hmodel, heq⟩ := List.mem_map.1 hcost
    cases heq
    rw [BTreeMap.mem_toList.1 (show (e.1, e.2) ∈ v.positions.toList from hmem)]
    exact ⟨rfl, List.mem_zipIdx_iff_getElem?.1 hmodel⟩
  · rintro ⟨hheld, hmodel⟩
    obtain ⟨position, hposition⟩ := Option.isSome_iff_exists.1 hheld
    exact ⟨(instrument, position), BTreeMap.mem_toList.2 hposition,
      List.mem_map.2 ⟨(model, index), List.mem_zipIdx_iff_getElem?.2 hmodel, rfl⟩⟩

/-- Each thing charged, with what names its boundaries. -/
def charged (v : SimulatedVenue) : List ((DateTime → Option DateTime) × Due) :=
  (v.heldModels.map fun held => (held.2.1.nextBoundary held.1, .holding held.1 held.2.2)) ++
  v.marginInterest.toList.flatMap fun model => v.account.loans.map fun loan =>
    (model.nextBoundary loan.1, .interest loan.1 loan.2)

/-- What falls due of one thing charged. -/
def falling (after through : DateTime) (charge : (DateTime → Option DateTime) × Due) :
    List (DateTime × Due) :=
  (span charge.1 after through).map fun boundary => (boundary, charge.2)

/-- Everything that falls due after one instant and through another, in the order it is charged. -/
def dueBetween (v : SimulatedVenue) (after through : DateTime) : List (DateTime × Due) :=
  (v.charged.flatMap (falling after through)).mergeSort Due.before

theorem nextBoundary_ok {model : HoldingCostModel} {instrument : InstrumentNameExchange}
    (h : model.Lawful) : nextBoundary model instrument =
      fun instant => .ok (model.nextBoundary instrument instant) := by
  funext instant
  unfold nextBoundary
  cases hnext : model.nextBoundary instrument instant with
  | none => rfl
  | some boundary =>
    have hlater := (h instrument).after _ _ hnext
    simp [assert, hlater]

theorem nextInterestBoundary_ok {model : MarginInterestModel} {asset : AssetNameExchange}
    (h : model.Lawful) : nextInterestBoundary model asset =
      fun instant => .ok (model.nextBoundary asset instant) := by
  funext instant
  unfold nextInterestBoundary
  cases hnext : model.nextBoundary asset instant with
  | none => rfl
  | some boundary =>
    have hlater := (h asset).after _ _ hnext
    simp [assert, hlater]

theorem Lawful.charged (h : v.Lawful) : ∀ charge ∈ v.charged, Boundary.Lawful charge.1 := by
  intro charge hcharge
  rcases List.mem_append.1 hcharge with hheld | howed
  · obtain ⟨held, hmem, rfl⟩ := List.mem_map.1 hheld
    have hmodel := (@mem_heldModels v held.1 held.2.1 held.2.2).1 hmem
    exact h.holdingCosts _ (List.mem_of_getElem? hmodel.2) held.1
  · obtain ⟨model, hmodel, hloan⟩ := List.mem_flatMap.1 howed
    obtain ⟨loan, -, rfl⟩ := List.mem_map.1 hloan
    exact h.marginInterest model (Option.mem_toList.1 hmodel) loan.1

/-- Lawful models are asked for all that falls due. -/
theorem dueThrough_eq (h : v.Lawful) : v.dueThrough after now = .ok (v.dueBetween after now) := by
  have hholding : v.holdingDue after now = .ok (v.heldModels.map fun held =>
      falling after now (held.2.1.nextBoundary held.1, .holding held.1 held.2.2)) := by
    unfold holdingDue
    apply Except.mapM_eq_ok
    rintro ⟨instrument, model, index⟩ hmem
    have hmodel : HoldingCostModel.Lawful model :=
      h.holdingCosts _ (List.mem_of_getElem? (mem_heldModels.1 hmem).2)
    dsimp only
    rw [nextBoundary_ok hmodel, (span_ok (hmodel _)).1]
    rfl
  have hinterest : v.interestDue after now = .ok ((v.marginInterest.toList.flatMap fun model =>
      v.account.loans.map fun loan => (model.nextBoundary loan.1, Due.interest loan.1 loan.2)).map
        (falling after now)) := by
    unfold interestDue
    cases hmodel : v.marginInterest with
    | none => rfl
    | some model =>
      have hlawful : model.Lawful := h.marginInterest model hmodel
      rw [Option.toList_some, List.flatMap_singleton, List.map_map]
      apply Except.mapM_eq_ok
      rintro ⟨asset, principal⟩ _
      dsimp only
      rw [nextInterestBoundary_ok hlawful, (span_ok (hlawful _)).1]
      rfl
  unfold dueThrough
  rw [hholding, hinterest]
  have hjoined : (v.heldModels.map fun held =>
      falling after now (held.2.1.nextBoundary held.1, .holding held.1 held.2.2)).flatten =
      (v.heldModels.map fun held => (held.2.1.nextBoundary held.1,
        Due.holding held.1 held.2.2)).flatMap (falling after now) := by
    rw [List.flatMap_def, List.map_map]
    rfl
  show Except.ok (List.mergeSort (List.flatten (_ ++ _)) Due.before) = _
  unfold dueBetween charged
  rw [List.flatMap_append, List.flatten_append, hjoined, ← List.flatMap_def]

/-! ## Once, and in order -/

theorem mem_falling {charge : (DateTime → Option DateTime) × Due} {due : DateTime × Due}
    (h : Boundary.Lawful charge.1) : due ∈ falling after now charge ↔
      due.2 = charge.2 ∧ after < due.1 ∧ due.1 ≤ now ∧ Boundary.Falls charge.1 due.1 := by
  unfold falling
  rw [List.mem_map]
  constructor
  · rintro ⟨boundary, hboundary, rfl⟩
    exact ⟨rfl, (mem_span h).1 hboundary⟩
  · rintro ⟨hsame, hfalls⟩
    exact ⟨due.1, (mem_span h).2 hfalls, by rw [← hsame]⟩

/-- Due is each boundary of each thing charged, after the one instant and through the other. -/
theorem mem_dueBetween (h : v.Lawful) {due : DateTime × Due} : due ∈ v.dueBetween after now ↔
    ∃ next, (next, due.2) ∈ v.charged ∧ after < due.1 ∧ due.1 ≤ now ∧
      Boundary.Falls next due.1 := by
  unfold dueBetween
  rw [List.mem_mergeSort, List.mem_flatMap]
  constructor
  · rintro ⟨⟨next, charge⟩, hcharge, hdue⟩
    obtain ⟨hsame, hfalls⟩ := (mem_falling (h.charged _ hcharge)).1 hdue
    dsimp only at hsame hfalls
    rw [hsame]
    exact ⟨next, hcharge, hfalls⟩
  · rintro ⟨next, hcharge, hfalls⟩
    exact ⟨(next, due.2), hcharge, (mem_falling (h.charged _ hcharge)).2 ⟨rfl, hfalls⟩⟩

theorem dueBetween_pairwise : (v.dueBetween after now).Pairwise fun a b => Due.before a b := by
  apply List.pairwise_mergeSort
  · intro a b c hab hbc
    exact decide_eq_true ((of_decide_eq_true hab).trans (of_decide_eq_true hbc))
  · intro a b
    simp only [Due.before, Bool.or_eq_true, decide_eq_true_eq]
    exact le_total _ _

/-- Nothing is charged twice at one boundary. -/
theorem charged_nodup : (v.charged.map Prod.snd).Nodup := by
  have hheld : (v.heldModels.map fun held => Due.holding held.1 held.2.2).Nodup := by
    unfold heldModels
    rw [List.map_flatMap, List.nodup_flatMap]
    constructor
    · intro e _
      have hplaces : (v.holdingCosts.zipIdx.map Prod.snd).Nodup := by
        rw [List.zipIdx_map_snd]
        exact List.nodup_range'
      have hdues := hplaces.map (f := Due.holding e.1) fun a b heq => (Due.holding.inj heq).2
      rw [List.map_map] at hdues ⊢
      exact hdues
    · apply BTreeMap.keys_pairwise.imp
      intro a b hlt due hdue hdue'
      obtain ⟨held, hheld, rfl⟩ := List.mem_map.1 hdue
      obtain ⟨held', hheld', heq⟩ := List.mem_map.1 hdue'
      obtain ⟨_, _, rfl⟩ := List.mem_map.1 hheld
      obtain ⟨_, _, rfl⟩ := List.mem_map.1 hheld'
      exact hlt.ne (Due.holding.inj heq).1.symm
  have howed : (v.marginInterest.toList.flatMap fun _ => v.account.loans.map fun loan =>
      Due.interest loan.1 loan.2).Nodup := by
    cases v.marginInterest with
    | none => exact List.nodup_nil
    | some model =>
      rw [Option.toList_some, List.flatMap_singleton]
      have hloans : v.account.loans.Nodup :=
        loans_pairwise.imp fun hlt heq => hlt.ne (congrArg Prod.fst heq)
      exact hloans.map fun a b h => Prod.ext (Due.interest.inj h).1 (Due.interest.inj h).2
  unfold charged
  rw [List.map_append, List.map_map, List.map_flatMap]
  simp only [List.map_map]
  apply List.nodup_append.2 ⟨hheld, howed, ?_⟩
  intro due hdue due' hdue' heq
  obtain ⟨held, -, rfl⟩ := List.mem_map.1 hdue
  obtain ⟨model, -, hloan⟩ := List.mem_flatMap.1 hdue'
  obtain ⟨loan, -, rfl⟩ := List.mem_map.1 hloan
  cases heq

/-- Each thing charged falls due once at a boundary. -/
theorem dueBetween_nodup (h : v.Lawful) : (v.dueBetween after now).Nodup := by
  unfold dueBetween
  rw [(List.mergeSort_perm _ _).nodup_iff, List.nodup_flatMap]
  constructor
  · intro charge hcharge
    have hnext := h.charged charge hcharge
    have hspan : (span charge.1 after now).Nodup :=
      ((span_ok hnext).2.pairwise hnext).imp fun hlt => hlt.ne
    exact hspan.map fun a b heq => (Prod.mk.inj heq).1
  · have hnames : v.charged.Pairwise fun a b => a.2 ≠ b.2 := List.pairwise_map.1 charged_nodup
    apply hnames.imp
    intro a b hne due hdue hdue'
    obtain ⟨_, _, rfl⟩ := List.mem_map.1 hdue
    obtain ⟨_, _, heq⟩ := List.mem_map.1 hdue'
    exact hne (Prod.mk.inj heq).2.symm

/-! ## Spans that meet -/

/-- What falls due over two spans of time that meet falls due over the first, and then over the
    second. -/
theorem dueBetween_append (h : v.Lawful) (hafter : after ≤ mid) (hmid : mid ≤ now) :
    v.dueBetween after now = v.dueBetween after mid ++ v.dueBetween mid now := by
  have hall : ∀ charge ∈ v.charged,
      falling after now charge = falling after mid charge ++ falling mid now charge := by
    intro charge hcharge
    unfold falling
    rw [span_append (h.charged charge hcharge) hafter hmid, List.map_append]
  have hperm : (v.dueBetween after now).Perm (v.dueBetween after mid ++ v.dueBetween mid now) := by
    unfold dueBetween
    have hsplit : (v.charged.flatMap (falling after now)).Perm
        (v.charged.flatMap (falling after mid) ++ v.charged.flatMap (falling mid now)) := by
      rw [List.flatMap_congr hall]
      exact (List.flatMap_append_perm _ _ _).symm
    exact (List.mergeSort_perm _ _).trans (hsplit.trans
      (((List.mergeSort_perm _ _).symm).append (List.mergeSort_perm _ _).symm))
  have hantisymm : ∀ a b, a ∈ v.dueBetween after now →
      b ∈ v.dueBetween after mid ++ v.dueBetween mid now →
        Due.before a b = true → Due.before b a = true → a = b :=
    fun a b _ _ hab hba => Due.before_antisymm hab hba
  apply hperm.eq_of_pairwise hantisymm
  · exact dueBetween_pairwise
  · refine List.pairwise_append.2 ⟨dueBetween_pairwise, dueBetween_pairwise, ?_⟩
    intro a ha b hb
    obtain ⟨_, _, _, hle, _⟩ := (mem_dueBetween h).1 ha
    obtain ⟨_, _, hlt, _, _⟩ := (mem_dueBetween h).1 hb
    exact Due.before_of_lt (hle.trans_lt hlt)

/-- Nothing falls due by an instant already charged through. -/
theorem dueBetween_of_le (h : v.Lawful) (hle : now ≤ after) : v.dueBetween after now = [] := by
  rw [List.eq_nil_iff_forall_not_mem]
  intro due hdue
  obtain ⟨_, _, hlt, hby, _⟩ := (mem_dueBetween h).1 hdue
  exact absurd (hlt.trans_le hby) (not_lt.2 hle)

end SimulatedVenue

end Rustrade.Mock
