import Rustrade.Orders.Change

/-!
# What a tracked order carries

While an order stays tracked, the working state it carries moves one way: the cumulative fill
does not go down, and one call never replaces one venue id by a different one. Over several
calls the second is weaker than it looks. A report without a venue id is applied as it stands,
and the next id is adopted from there, so the id is kept for as long as every state carried has
one (`carried_fill_and_identity`) and no longer (`renamedRun_changes_identity`).
-/

set_option autoImplicit false

namespace Rustrade

namespace Orders

variable {ExchangeKey InstrumentKey : Type}

/-- The working state the order tracked under `cid` carries. -/
def carried (orders : Orders ExchangeKey InstrumentKey) (cid : ClientOrderId) : Option Open :=
  (orders.get? cid).bind fun order => order.state.openMeta

/-- `cid` is tracked. -/
def Tracks (cid : ClientOrderId) (orders : Orders ExchangeKey InstrumentKey) : Prop :=
  (orders.get? cid).isSome = true

instance {cid : ClientOrderId} (orders : Orders ExchangeKey InstrumentKey) :
    Decidable (Tracks cid orders) := inferInstanceAs (Decidable (_ = true))

theorem carried_of_get? {orders : Orders ExchangeKey InstrumentKey} {cid : ClientOrderId}
    {order : Order ExchangeKey InstrumentKey ActiveOrderState}
    (h : orders.get? cid = some order) : orders.carried cid = order.state.openMeta := by
  simp [carried, h]

/-- `next` reports no less filled than `held`, and does not name another venue order. -/
structure Open.Continues (held next : Open) : Prop where
  filled_le : held.filledQuantity ≤ next.filledQuantity
  agrees : held.id.contradicts next.id = false

theorem Open.Continues.refl (open_ : Open) : Open.Continues open_ open_ :=
  ⟨le_refl _, by cases open_.id <;> simp⟩

/-- A move of a tracked order continues the working state it carries. -/
theorem Advance.continues {cid : ClientOrderId}
    {order : Order ExchangeKey InstrumentKey ActiveOrderState}
    {op : Op ExchangeKey InstrumentKey} {state : ActiveOrderState} {held : Open}
    (h : Advance cid order op state) (hheld : order.state.openMeta = some held) :
    ∃ next, state.openMeta = some next ∧ Open.Continues held next := by
  cases h with
  | acknowledged _ was _ _ | cancelReported _ was _ =>
    rw [was] at hheld; exact absurd hheld (by simp)
  | superseded _ was _ agrees newer _ =>
    rw [was] at hheld; cases hheld
    exact ⟨_, rfl, (Open.isSupersededBy_iff.1 newer).1, agrees⟩
  | cancelAdopted _ was _ from_ =>
    rw [was] at hheld; cases hheld
    refine ⟨_, rfl, ?_⟩
    rcases from_ with rfl | ⟨-, agrees, newer⟩
    · exact Open.Continues.refl _
    · exact ⟨(Open.isSupersededBy_iff.1 newer).1, agrees⟩
  | carried _ was _ agrees newer =>
    rw [was] at hheld
    exact ⟨_, rfl, (Open.isSupersededBy_iff.1 (newer held hheld)).1, agrees held hheld⟩
  | cancelRefused _ _ was carries =>
    rw [was] at hheld
    cases carries.symm.trans hheld
    exact ⟨held, rfl, Open.Continues.refl held⟩
  | filled was _ more _ =>
    rw [was] at hheld; cases hheld
    exact ⟨_, rfl, more.le, (Open.Continues.refl held).agrees⟩
  | cancelSent _ _ => exact ⟨held, hheld, Open.Continues.refl held⟩

/-- One call continues what a tracked order carries, if it leaves the order tracked. -/
theorem Change.continues {orders orders' : Orders ExchangeKey InstrumentKey}
    {op : Op ExchangeKey InstrumentKey} (h : Change orders op orders') {cid : ClientOrderId}
    {held : Open} (hheld : orders.carried cid = some held) (hafter : orders'.Tracks cid) :
    ∃ next, orders'.carried cid = some next ∧ Open.Continues held next := by
  have hsame : ∀ {orders'' : Orders ExchangeKey InstrumentKey},
      orders''.get? cid = orders.get? cid →
      ∃ next, orders''.carried cid = some next ∧ Open.Continues held next := by
    intro orders'' heq
    exact ⟨held, by rw [carried, heq]; exact hheld, Open.Continues.refl held⟩
  have huntracked : ∀ {c : ClientOrderId}, orders.get? c = none → cid ≠ c := by
    rintro c hnone rfl
    rw [carried, hnone] at hheld
    exact absurd hheld (by simp)
  cases h with
  | same => exact hsame rfl
  | ended _ _ => exact hsame rfl
  | clear => exact absurd hafter (by simp [Tracks])
  | @advance _ c order state _ tracked adv =>
    by_cases hc : cid = c
    · subst hc
      rw [carried_of_get? tracked] at hheld
      rw [carried, get?_setState, if_pos rfl]
      exact adv.continues hheld
    · exact hsame (by rw [get?_setState, if_neg hc])
  | @retire _ c order _ _ =>
    by_cases hc : cid = c
    · exact absurd hafter (by simp [Tracks, get?_retire, hc])
    · exact hsame (by rw [get?_retire, if_neg hc])
  | @drop response _ _ _ _ _ =>
    by_cases hc : cid = response.key.cid
    · exact absurd hafter (by simp [Tracks, Orders.get?, hc])
    · exact hsame (IndexMap.get?_remove_of_ne hc)
  | report untracked _ _ _ _ =>
    exact hsame (by rw [get?_track, if_neg (huntracked untracked)])
  | sent _ untracked _ =>
    exact hsame (by rw [get?_track, if_neg (huntracked untracked)]; rfl)

/-! ## Over a stretch of a run -/

/-- The order carries a working state the venue has not named. -/
def CarriesUnnamed (cid : ClientOrderId) (orders : Orders ExchangeKey InstrumentKey) : Prop :=
  (orders.carried cid).map (·.id) = some .clientAssigned

theorem carried_run {orders : Orders ExchangeKey InstrumentKey} (hk : orders.Keyed)
    {ops : List (Op ExchangeKey InstrumentKey)} {cid : ClientOrderId} {held : Open}
    (htracked : Transition.Throughout step (Tracks cid) orders ops)
    (hheld : orders.carried cid = some held) :
    ∃ latest, (orders.run ops).carried cid = some latest ∧
      held.filledQuantity ≤ latest.filledQuantity ∧
      (latest.id = held.id ∨ ∃ pre, pre <+: ops ∧ (orders.run pre).CarriesUnnamed cid) := by
  induction ops generalizing orders held with
  | nil => exact ⟨held, hheld, le_refl _, Or.inl rfl⟩
  | cons op ops ih =>
    obtain ⟨next, hnext, hcont⟩ := (step_change hk op).continues hheld htracked.2.head
    obtain ⟨latest, hlatest, hle, hid⟩ := ih (keyed_step hk) htracked.2 hnext
    refine ⟨latest, hlatest, hcont.filled_le.trans hle, ?_⟩
    rcases hid with hid | ⟨pre, hpre, hunnamed⟩
    · cases hi : held.id with
      | clientAssigned =>
        exact Or.inr ⟨[], List.nil_prefix, by
          change (orders.carried cid).map (·.id) = _; rw [hheld, ← hi]; rfl⟩
      | assigned a =>
        cases hn : next.id with
        | clientAssigned =>
          exact Or.inr ⟨[op], List.cons_prefix_cons.2 ⟨rfl, List.nil_prefix⟩, by
            change ((orders.step op).carried cid).map (·.id) = _; rw [hnext, ← hn]; rfl⟩
        | assigned b =>
          have hagrees := hcont.agrees
          rw [hi, hn, VenueOrderId.contradicts_assigned] at hagrees
          have hab : a = b := by simpa using hagrees
          exact Or.inl (by rw [hid, hn, hab])
    · exact Or.inr ⟨op :: pre, List.cons_prefix_cons.2 ⟨rfl, hpre⟩, hunnamed⟩

/-- **While an order stays tracked, its cumulative fill does not decrease, and its venue id is
    kept unless it has carried a state the venue had not named in between.** -/
theorem carried_fill_and_identity (pre mid : List (Op ExchangeKey InstrumentKey))
    (cid : ClientOrderId) (held : Open)
    (htracked : Transition.Throughout step (Tracks cid) (run empty pre) mid)
    (hheld : (run empty pre).carried cid = some held) :
    ∃ latest, (run empty (pre ++ mid)).carried cid = some latest ∧
      held.filledQuantity ≤ latest.filledQuantity ∧
      ∀ a b, held.id = .assigned a → latest.id = .assigned b → a ≠ b →
        ∃ between, between <+: mid ∧ (run empty (pre ++ between)).CarriesUnnamed cid := by
  obtain ⟨latest, hlatest, hle, hid⟩ := carried_run (keyed_run pre keyed_empty) htracked hheld
  refine ⟨latest, by rw [run_append]; exact hlatest, hle, fun a b ha hb hne => ?_⟩
  rcases hid with hid | ⟨between, hbetween, hunnamed⟩
  · rw [ha, hb] at hid; cases hid; exact absurd rfl hne
  · exact ⟨between, hbetween, by rw [run_append]; exact hunnamed⟩

/-- A cancel sent and refused leaves the acknowledged state as it was. -/
theorem carried_fill_and_identity_refused :
    ∃ latest, (run empty ([Sample.sends, Sample.reportsOpen (.assigned ⟨"v-1"⟩) 1 (1 / 4)] ++
        [Sample.sendsCancel 2, Sample.refusesCancel])).carried Sample.cid = some latest ∧
      1 / 4 ≤ latest.filledQuantity :=
  let ⟨latest, hlatest, hle, _⟩ := carried_fill_and_identity
    [Sample.sends, Sample.reportsOpen (.assigned ⟨"v-1"⟩) 1 (1 / 4)]
    [Sample.sendsCancel 2, Sample.refusesCancel] Sample.cid
    ⟨.assigned ⟨"v-1"⟩, 1, 1 / 4⟩ (by decide +kernel) (by decide +kernel)
  ⟨latest, hlatest, hle⟩

/-- A resting order reported under a venue id, then without one, then under another. -/
def renamedRun : List (Op Unit Unit) :=
  [Sample.sends, Sample.reportsOpen (.assigned ⟨"v-1"⟩) 1 0,
    Sample.reportsOpen .clientAssigned 2 0, Sample.reportsOpen (.assigned ⟨"v-2"⟩) 3 0]

/-- The second venue id is adopted, with the order tracked all along. -/
theorem renamedRun_changes_identity :
    Transition.Throughout step (Tracks Sample.cid) (run empty (renamedRun.take 2))
      (renamedRun.drop 2) ∧
    ((run empty (renamedRun.take 2)).carried Sample.cid).map (·.id) =
      some (.assigned ⟨"v-1"⟩) ∧
    ((run empty renamedRun).carried Sample.cid).map (·.id) = some (.assigned ⟨"v-2"⟩) := by
  decide +kernel

end Orders

end Rustrade
