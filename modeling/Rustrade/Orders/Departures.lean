import Rustrade.Orders.Identity
import Rustrade.Orders.Retired

/-!
# The orders that leave

How long an ended order is remembered depends on which others end after it. `gone` is what one
stretch of calls adds to that count: the orders that left tracking, and those a report told of as
ended that were never tracked. A call that only ends orders (`Op.Ending`) counts those it takes out
of tracking and no others.
-/

set_option autoImplicit false

namespace Rustrade

namespace Orders

variable {ExchangeKey InstrumentKey : Type}
  {orders orders' orders'' : Orders ExchangeKey InstrumentKey} {cid : ClientOrderId}
  {op : Op ExchangeKey InstrumentKey}

/-- The orders tracked before and not after. -/
def departed (orders orders' : Orders ExchangeKey InstrumentKey) : Finset ClientOrderId :=
  orders.tracked.keys.toFinset.filter fun cid => orders'.tracked.contains cid = false

/-- The orders tracked before and not after, and those that came to be remembered. -/
def gone (orders orders' : Orders ExchangeKey InstrumentKey) : Finset ClientOrderId :=
  orders.departed orders' ∪ orders.retired.arrivals orders'.retired

@[simp] theorem mem_departed :
    cid ∈ orders.departed orders' ↔ orders.get? cid ≠ none ∧ orders'.get? cid = none := by
  unfold departed
  rw [Finset.mem_filter, List.mem_toFinset, IndexMap.mem_keys_iff, IndexMap.not_contains_iff]
  exact and_congr_left fun _ => Option.ne_none_iff_exists'.symm

theorem departed_subset_gone : orders.departed orders' ⊆ orders.gone orders' :=
  Finset.subset_union_left

/-! ## One call -/

/-- An untracked order whose end is remembered is tracked again only by its own request. -/
theorem Change.stays (h : Change orders op orders') (hbefore : orders.get? cid = none)
    (hremembered : cid ∈ orders.retired.items) (hnot : ¬ op.RecordsOpen cid) :
    orders'.get? cid = none := by
  by_contra hafter
  exact h.forgotten hbefore hafter hnot hremembered

/-- What a call brings to the memory left tracking, or was reported ended untracked. -/
theorem Change.arrives (h : Change orders op orders') (hk : orders.Keyed)
    (harrives : cid ∈ orders.retired.arrivals orders'.retired) :
    cid ∈ orders.departed orders' ∨ op.subject = some cid ∧ orders.get? cid = none := by
  obtain ⟨hin, hout⟩ := BoundedFifo.mem_arrivals.1 harrives
  cases h with
  | same | advance _ _ _ | drop _ _ _ | report _ _ _ _ _ => exact absurd hin hout
  | @retire _ c order _ tracked =>
    have hc : cid = c := by
      rw [← hk c order tracked]
      exact (BoundedFifo.mem_of_mem_insert hin).resolve_left hout
    subst hc
    exact Or.inl (mem_departed.2 ⟨by simp [tracked], by simp [get?_retire]⟩)
  | ended hsubject untracked =>
    rw [(BoundedFifo.mem_of_mem_insert hin).resolve_left hout]
    exact Or.inr ⟨hsubject, untracked⟩
  | sent _ _ _ => exact absurd (List.mem_of_mem_filter hin) hout
  | @clear hash =>
    have hmem := (BoundedFifo.mem_of_mem_insertAll hin).resolve_left hout
    obtain ⟨order, hget⟩ := IndexMap.mem_keys_iff.1 (HashOrder.mem_arrange.1 hmem)
    have hget : orders.get? cid = some order := hget
    exact Or.inl (mem_departed.2 ⟨by simp [hget], rfl⟩)

theorem covered_gone (hk : orders.Keyed) (hd : orders.Separated) {newer : Finset ClientOrderId}
    (h : orders.retired.Covered cid newer) (hnot : ¬ op.RecordsOpen cid) :
    (orders.step op).retired.Covered cid (newer ∪ orders.gone (orders.step op)) :=
  (covered_step hk hd h hnot).mono
    (Finset.union_subset_union_right Finset.subset_union_right)

/-- An order the venue has reported working leaves tracking for the memory. -/
theorem Change.remembered (h : Change orders op orders') (hk : orders.Keyed)
    (hbefore : orders.get? cid ≠ none) (hafter : orders'.get? cid = none)
    (hreported : (orders.carried cid).isSome = true ∨
      ∀ response, op ≠ .updateFromCancelResponse response)
    (hone : op.subject ≠ none) : cid ∈ orders'.retired.items := by
  cases h with
  | same | ended _ _ => exact absurd hafter hbefore
  | advance _ tracked _ =>
    rw [get?_setState] at hafter
    split at hafter
    · exact absurd hafter (by simp)
    · exact absurd hafter hbefore
  | @retire _ c order _ tracked =>
    by_cases hc : cid = c
    · subst hc
      rw [retired_retire, hk cid order tracked]
      exact BoundedFifo.mem_insert_self _ _
    · rw [get?_retire, if_neg hc] at hafter
      exact absurd hafter hbefore
  | @drop response order cancel tracked was carries =>
    by_cases hc : cid = response.key.cid
    · subst hc
      rcases hreported with hreported | hreported
      · rw [carried_of_get? tracked, was, ActiveOrderState.openMeta_cancelInFlight, carries]
          at hreported
        exact absurd hreported (by simp)
      · exact absurd rfl (hreported response)
    · exact absurd ((IndexMap.get?_remove_of_ne hc).symm.trans hafter) hbefore
  | report _ _ _ _ _ =>
    rw [get?_track] at hafter
    split at hafter
    · exact absurd hafter (by simp)
    · exact absurd hafter hbefore
  | sent _ _ _ =>
    rw [get?_track] at hafter
    split at hafter
    · exact absurd hafter (by simp)
    · exact absurd hafter hbefore
  | clear => exact absurd rfl hone

/-- An order that leaves for the memory is covered by what goes with it. -/
theorem covered_of_remembered (hk : orders.Keyed) (hd : orders.Separated)
    (hout : cid ∉ orders.retired.items) (hin : cid ∈ (orders.step op).retired.items) :
    (orders.step op).retired.Covered cid (orders.gone (orders.step op)) := by
  have hcov : (orders.run [op]).retired.Covered cid (orders.remembered [op]) :=
    covered_since_retired hk hd hout hin (by simp)
  refine BoundedFifo.Covered.mono hcov ?_
  rw [Orders.remembered, Orders.remembered, Finset.union_empty]
  exact Finset.subset_union_right

/-- The venue id an order carries it carried before, or a report of it has just told. -/
theorem Change.carried_cases (h : Change orders op orders') {open_ : Open}
    (hcarried : orders'.carried cid = some open_) :
    (∃ held, orders.carried cid = some held ∧ held.id = open_.id) ∨
      ∃ snapshot, op = .updateFromOrderSnapshot snapshot ∧ snapshot.key.cid = cid ∧
        ∃ told, snapshot.state.openMeta = some told ∧ told.id = open_.id := by
  have same : ∀ {orders'' : Orders ExchangeKey InstrumentKey},
      orders''.get? cid = orders.get? cid → orders''.carried cid = some open_ →
      ∃ held, orders.carried cid = some held ∧ held.id = open_.id := by
    intro orders'' heq hopen
    exact ⟨open_, by rw [carried, ← heq]; exact hopen, rfl⟩
  cases h with
  | same => exact Or.inl (same rfl hcarried)
  | ended _ _ => exact Or.inl (same rfl hcarried)
  | @advance _ c order state _ tracked adv =>
    by_cases hc : cid = c
    · subst hc
      rw [carried, get?_setState, if_pos rfl] at hcarried
      rw [carried_of_get? tracked]
      cases adv with
      | acknowledged key _ reports _ | superseded key _ reports _ _ _ =>
        exact Or.inr ⟨_, rfl, key, open_, by rw [reports]; exact hcarried, rfl⟩
      | cancelReported key _ reports =>
        exact Or.inr ⟨_, rfl, key, open_, by rw [reports]; exact hcarried, rfl⟩
      | @cancelAdopted snapshot held latest cancel key was reports from_ =>
        cases hcarried
        rcases from_ with heq | ⟨hlatest, -, -⟩
        · exact Or.inl ⟨held, by rw [was]; rfl, by rw [heq]⟩
        · exact Or.inr ⟨_, rfl, key, open_, by rw [reports]; exact hlatest, rfl⟩
      | @carried snapshot cancel told key was reports _ _ =>
        cases hcarried
        exact Or.inr ⟨_, rfl, key, open_, by rw [reports]; rfl, rfl⟩
      | @cancelRefused response error cancel told _ _ was carries =>
        cases hcarried
        exact Or.inl ⟨open_, by rw [was]; exact carries, rfl⟩
      | @filled orderId filledQuantity held was _ _ _ =>
        cases hcarried
        exact Or.inl ⟨held, by rw [was]; rfl, rfl⟩
      | cancelSent _ _ => exact Or.inl ⟨open_, hcarried, rfl⟩
    · exact Or.inl (same (by rw [get?_setState, if_neg hc]) hcarried)
  | @retire _ c order _ _ =>
    by_cases hc : cid = c
    · rw [carried, get?_retire, if_pos hc] at hcarried
      exact absurd hcarried (by simp)
    · exact Or.inl (same (by rw [get?_retire, if_neg hc]) hcarried)
  | @drop response _ _ _ _ _ =>
    by_cases hc : cid = response.key.cid
    · subst hc
      rw [carried, Orders.get?, IndexMap.get?_remove_self] at hcarried
      exact absurd hcarried (by simp)
    · have hget : ({ orders with tracked := orders.tracked.remove response.key.cid } :
          Orders ExchangeKey InstrumentKey).get? cid = orders.get? cid :=
        IndexMap.get?_remove_of_ne hc
      exact Or.inl (same hget hcarried)
  | @report snapshot update _ _ reports _ _ =>
    by_cases hc : cid = snapshot.key.cid
    · subst hc
      rw [carried, get?_track, if_pos rfl] at hcarried
      obtain ⟨hstate, -, -⟩ := toActive_eq_some reports
      exact Or.inr ⟨snapshot, rfl, rfl, open_, by rw [hstate]; exact hcarried, rfl⟩
    · exact Or.inl (same (by rw [get?_track, if_neg hc]) hcarried)
  | @sent _ order _ _ unanswered =>
    by_cases hc : cid = order.key.cid
    · subst hc
      rw [carried, get?_track, if_pos rfl] at hcarried
      cases hs : order.state with
      | openInFlight _ => simp [hs] at hcarried
      | «open» _ =>
        rw [hs] at unanswered; exact absurd unanswered (by simp [ActiveOrderState.isOpenInFlight])
      | cancelInFlight _ =>
        rw [hs] at unanswered; exact absurd unanswered (by simp [ActiveOrderState.isOpenInFlight])
    · exact Or.inl (same (by rw [get?_track, if_neg hc]; rfl) hcarried)
  | clear => exact absurd hcarried (by simp [carried])

/-! ## Calls that only end orders -/

/-- The call can only advance an order to its end, or stop tracking it. -/
def Op.Ending : Op ExchangeKey InstrumentKey → Prop
  | .updateFromFill _ _ _ | .removeOpen _ _ => True
  | _ => False

theorem Op.Ending.not_recordsOpen (h : op.Ending) : ¬ op.RecordsOpen cid := by
  cases op with
  | updateFromFill _ _ _ | removeOpen _ _ => exact id
  | _ => exact h.elim

/-- Such a call does nothing to an order that is not tracked. -/
theorem Op.Ending.step_eq_self (h : op.Ending) (hsubject : op.subject = some cid)
    (huntracked : orders.get? cid = none) : orders.step op = orders := by
  cases op with
  | updateFromFill c orderId filledQuantity =>
    cases hsubject
    change (Orders.updateFromFill orders cid orderId filledQuantity).1 = orders
    rw [Orders.updateFromFill, huntracked]
  | removeOpen c id =>
    cases hsubject
    change (Orders.removeOpen orders cid id).1 = orders
    rw [Orders.removeOpen, huntracked]
  | _ => exact h.elim

theorem Op.Ending.back (h : op.Ending) (hk : orders.Keyed) (huntracked : orders.get? cid = none) :
    (orders.step op).get? cid = none := by
  by_cases hsubject : op.subject = some cid
  · rw [h.step_eq_self hsubject huntracked]; exact huntracked
  · obtain ⟨c, hc⟩ : ∃ c, op.subject = some c := by
      cases op with
      | updateFromFill c _ _ | removeOpen c _ => exact ⟨c, rfl⟩
      | _ => exact h.elim
    have hne : cid ≠ c := by rintro rfl; exact hsubject hc
    exact ((step_change hk op).get?_of_ne hc hne).trans huntracked

theorem Op.Ending.gone_subset (h : op.Ending) (hk : orders.Keyed) :
    orders.gone (orders.step op) ⊆ orders.departed (orders.step op) := by
  intro c hc
  rcases Finset.mem_union.1 hc with hc | hc
  · exact hc
  · rcases (step_change hk op).arrives hk hc with hc | ⟨hsubject, huntracked⟩
    · exact hc
    · rw [h.step_eq_self hsubject huntracked] at hc
      obtain ⟨hin, hout⟩ := BoundedFifo.mem_arrivals.1 hc
      exact absurd hin hout

/-- `orders'` is `orders` after calls that only end orders. -/
structure Ends (orders orders' : Orders ExchangeKey InstrumentKey) : Prop where
  keyed : orders'.Keyed
  separated : orders'.Separated
  back : ∀ cid, orders.get? cid = none → orders'.get? cid = none
  covered : ∀ cid newer, orders.retired.Covered cid newer →
    orders'.retired.Covered cid (newer ∪ orders.departed orders')
  leaves : ∀ cid, orders.get? cid ≠ none → orders'.get? cid = none →
    orders'.retired.Covered cid (orders.departed orders')
  carries : ∀ cid open_, orders'.carried cid = some open_ →
    ∃ held, orders.carried cid = some held ∧ held.id = open_.id
  continues : ∀ cid, (orders.carried cid).isSome = true → orders'.get? cid ≠ none →
    (orders'.carried cid).isSome = true

theorem Ends.refl (hk : orders.Keyed) (hd : orders.Separated) : Ends orders orders where
  keyed := hk
  separated := hd
  back _ h := h
  covered _ _ h := h.mono Finset.subset_union_left
  leaves _ hbefore hafter := absurd hafter hbefore
  carries _ open_ h := ⟨open_, h, rfl⟩
  continues _ h _ := h

/-- What two stretches take out of tracking, the whole takes out. -/
theorem departed_union_subset (back : ∀ cid, orders.get? cid = none → orders'.get? cid = none)
    (back' : ∀ cid, orders'.get? cid = none → orders''.get? cid = none) :
    orders.departed orders' ∪ orders'.departed orders'' ⊆ orders.departed orders'' := by
  intro cid hcid
  rcases Finset.mem_union.1 hcid with hcid | hcid
  · obtain ⟨hbefore, hafter⟩ := mem_departed.1 hcid
    exact mem_departed.2 ⟨hbefore, back' cid hafter⟩
  · obtain ⟨hbefore, hafter⟩ := mem_departed.1 hcid
    exact mem_departed.2 ⟨fun hnone => hbefore (back cid hnone), hafter⟩

theorem Ends.trans (h : Ends orders orders') (h' : Ends orders' orders'') :
    Ends orders orders'' where
  keyed := h'.keyed
  separated := h'.separated
  back cid hnone := h'.back cid (h.back cid hnone)
  covered cid newer hcov := by
    refine (h'.covered cid _ (h.covered cid newer hcov)).mono ?_
    rw [Finset.union_assoc]
    exact Finset.union_subset_union_right (departed_union_subset h.back h'.back)
  leaves cid hbefore hafter := by
    have hsub := departed_union_subset h.back h'.back
    by_cases hmid : orders'.get? cid = none
    · exact (h'.covered cid _ (h.leaves cid hbefore hmid)).mono hsub
    · exact (h'.leaves cid hmid hafter).mono (Finset.subset_union_right.trans hsub)
  carries cid open_ hopen := by
    obtain ⟨held', hheld', hid'⟩ := h'.carries cid open_ hopen
    obtain ⟨held, hheld, hid⟩ := h.carries cid held' hheld'
    exact ⟨held, hheld, hid.trans hid'⟩
  continues cid hcarried hafter :=
    h'.continues cid (h.continues cid hcarried fun hmid => hafter (h'.back cid hmid)) hafter

/-- A tracked order that carries a working state carries one as long as it is tracked. -/
theorem carried_isSome_step (hk : orders.Keyed) (hcarried : (orders.carried cid).isSome = true)
    (hafter : (orders.step op).get? cid ≠ none) :
    ((orders.step op).carried cid).isSome = true := by
  obtain ⟨held, hheld⟩ := Option.isSome_iff_exists.1 hcarried
  obtain ⟨next, hnext, -⟩ := (step_change hk op).continues hheld (Option.isSome_iff_ne_none.2 hafter)
  rw [hnext]; rfl

variable (op) in
theorem ends_step (h : op.Ending) (hk : orders.Keyed) (hd : orders.Separated) :
    Ends orders (orders.step op) where
  keyed := keyed_step hk
  separated := (step_change hk op).separated hk hd
  back _ := h.back hk
  covered cid newer hcov :=
    (covered_gone hk hd hcov h.not_recordsOpen).mono
      (Finset.union_subset_union_right (h.gone_subset hk))
  leaves cid hbefore hafter := by
    obtain ⟨order, hget⟩ := Option.ne_none_iff_exists'.1 hbefore
    refine (covered_of_remembered hk hd (hd cid order hget) ?_).mono (h.gone_subset hk)
    refine (step_change hk op).remembered hk hbefore hafter (Or.inr ?_) ?_
    · rintro response rfl; exact h
    · cases op with
      | updateFromFill _ _ _ | removeOpen _ _ => simp [Op.subject]
      | _ => exact h.elim
  carries cid open_ hopen := by
    refine ((step_change hk op).carried_cases hopen).resolve_right ?_
    rintro ⟨snapshot, rfl, -⟩
    exact h
  continues _ hcarried hafter := carried_isSome_step hk hcarried hafter

/-- Stopping to track open orders, one after another, only ends orders. -/
theorem ends_removeOpens (hk : orders.Keyed) (hd : orders.Separated)
    (l : List (ClientOrderId × VenueOrderId)) :
    Ends orders (l.foldl (fun orders open_ => (orders.removeOpen open_.1 open_.2).1) orders) := by
  induction l generalizing orders with
  | nil => exact .refl hk hd
  | cons open_ l ih =>
    have hfirst : Ends orders (orders.removeOpen open_.1 open_.2).1 :=
      ends_step (.removeOpen open_.1 open_.2) trivial hk hd
    exact hfirst.trans (ih hfirst.keyed hfirst.separated)

end Orders

end Rustrade
