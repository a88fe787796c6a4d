import Rustrade.Orders.Change

/-!
# Retired orders stay retired

An id is never both tracked and remembered, and a remembered id is not tracked again by a late
report. The memory is bounded, so the second holds only while the id is in it: `Remembers` is
the invariant that an id retired on a run either is still held, with only ids retired later
behind it, or has been displaced by as many other ids as the memory has places.
-/

set_option autoImplicit false

namespace Rustrade

namespace Orders

variable {ExchangeKey InstrumentKey : Type}

/-- No id is both tracked and remembered. -/
def Separated (orders : Orders ExchangeKey InstrumentKey) : Prop :=
  ∀ cid order, orders.get? cid = some order → cid ∉ orders.retired.items

theorem separated_empty : (empty : Orders ExchangeKey InstrumentKey).Separated := by
  intro cid order h; simp at h

theorem Change.separated {orders orders' : Orders ExchangeKey InstrumentKey}
    {op : Op ExchangeKey InstrumentKey} (h : Change orders op orders') (hk : orders.Keyed)
    (hd : orders.Separated) : orders'.Separated := by
  intro c o hget
  cases h with
  | same => exact hd c o hget
  | clear => exact absurd hget (by simp)
  | advance _ tracked _ =>
    rw [get?_setState] at hget
    split at hget
    · rename_i hc; rw [hc]; exact hd _ _ tracked
    · exact hd c o hget
  | retire _ tracked =>
    rw [get?_retire] at hget
    split at hget
    · exact absurd hget (by simp)
    · rename_i hne
      intro hmem
      rcases BoundedFifo.mem_of_mem_insert hmem with hmem | heq
      · exact hd c o hget hmem
      · exact hne (heq.trans (hk _ _ tracked))
  | ended _ untracked =>
    intro hmem
    rcases BoundedFifo.mem_of_mem_insert hmem with hmem | rfl
    · exact hd c o hget hmem
    · exact absurd (untracked.symm.trans hget) (by simp)
  | drop _ _ _ =>
    change IndexMap.get? _ c = _ at hget
    rw [IndexMap.get?_remove] at hget
    split at hget
    · exact absurd hget (by simp)
    · exact hd c o hget
  | report _ forgotten _ _ _ =>
    rw [get?_track] at hget
    split at hget
    · rename_i hc; rw [hc]; exact forgotten
    · exact hd c o hget
  | sent _ _ _ =>
    rw [get?_track] at hget
    split at hget
    · rename_i hc; simp [hc]
    · intro hmem
      exact hd c o hget (List.mem_of_mem_filter hmem)

/-! ## What a call does to the memory -/

/-- A call inserts new ids into the memory, or forgets the one whose open request it records. -/
theorem Change.memory {orders orders' : Orders ExchangeKey InstrumentKey}
    {op : Op ExchangeKey InstrumentKey} (h : Change orders op orders') (hd : orders.Separated) :
    (∃ l : List ClientOrderId, l.Nodup ∧ (∀ cid ∈ l, cid ∉ orders.retired.items) ∧
      orders'.retired = orders.retired.insertAll l) ∨
    ∃ cid, op.RecordsOpen cid ∧ orders'.retired = orders.retired.forget cid := by
  have insertOne : ∀ cid, ∃ l : List ClientOrderId, l.Nodup ∧
      (∀ c ∈ l, c ∉ orders.retired.items) ∧
      orders.retired.insert cid = orders.retired.insertAll l := by
    intro cid
    by_cases hmem : cid ∈ orders.retired.items
    · exact ⟨[], List.nodup_nil, by simp, by simp [BoundedFifo.insert_of_mem hmem]⟩
    · exact ⟨[cid], List.nodup_singleton cid, by simpa using hmem, rfl⟩
  cases h with
  | same | advance _ _ _ | drop _ _ _ | report _ _ _ _ _ =>
    exact Or.inl ⟨[], List.nodup_nil, by simp, rfl⟩
  | retire _ _ | ended _ _ => exact Or.inl (insertOne _)
  | sent records _ _ => exact Or.inr ⟨_, records, rfl⟩
  | @clear hash =>
    refine Or.inl ⟨hash.arrange orders.tracked.keys,
      HashOrder.nodup_arrange.2 orders.tracked.nodup_keys, fun cid hmem => ?_, rfl⟩
    obtain ⟨order, hget⟩ := IndexMap.mem_keys_iff.1 (HashOrder.mem_arrange.1 hmem)
    exact hd cid order hget

/-- Without an open request of its own, an untracked id is tracked only if it is forgotten. -/
theorem Change.forgotten {orders orders' : Orders ExchangeKey InstrumentKey}
    {op : Op ExchangeKey InstrumentKey} (h : Change orders op orders') {cid : ClientOrderId}
    (hbefore : orders.get? cid = none) (hafter : orders'.get? cid ≠ none)
    (hnot : ¬ op.RecordsOpen cid) : cid ∉ orders.retired.items := by
  cases h with
  | same | ended _ _ => exact absurd hbefore hafter
  | clear => exact absurd rfl hafter
  | advance _ tracked _ =>
    rw [get?_setState] at hafter
    split at hafter
    · rename_i hc; rw [hc, tracked] at hbefore; exact absurd hbefore (by simp)
    · exact absurd hbefore hafter
  | retire _ _ =>
    rw [get?_retire] at hafter
    split at hafter
    · exact absurd rfl hafter
    · exact absurd hbefore hafter
  | drop _ _ _ =>
    change IndexMap.get? _ cid ≠ _ at hafter
    rw [IndexMap.get?_remove] at hafter
    split at hafter
    · exact absurd rfl hafter
    · exact absurd hbefore hafter
  | report _ forgotten _ _ _ =>
    rw [get?_track] at hafter
    split at hafter
    · rename_i hc; rw [hc]; exact forgotten
    · exact absurd hbefore hafter
  | sent records _ _ =>
    rw [get?_track] at hafter
    split at hafter
    · rename_i hc; rw [hc] at hnot; exact absurd records hnot
    · exact absurd hbefore hafter

/-! ## Over a run -/

/-- The ids that come to be remembered, call by call, over a run from `orders`. -/
def remembered (orders : Orders ExchangeKey InstrumentKey) :
    List (Op ExchangeKey InstrumentKey) → Finset ClientOrderId
  | [] => ∅
  | op :: ops => orders.retired.arrivals (orders.step op).retired ∪ remembered (orders.step op) ops

theorem covered_step {orders : Orders ExchangeKey InstrumentKey} (hk : orders.Keyed)
    (hd : orders.Separated) {op : Op ExchangeKey InstrumentKey} {cid : ClientOrderId}
    {newer : Finset ClientOrderId} (h : orders.retired.Covered cid newer)
    (hnot : ¬ op.RecordsOpen cid) :
    (orders.step op).retired.Covered cid
      (newer ∪ orders.retired.arrivals (orders.step op).retired) := by
  rcases (step_change hk op).memory hd with ⟨l, hl, hnew, hret⟩ | ⟨c, hrec, hret⟩
  · rw [hret]; exact h.insertAll hl hnew
  · have hne : c ≠ cid := by rintro rfl; exact hnot hrec
    rw [hret]
    exact (h.forget hne).mono Finset.subset_union_left

theorem covered_run {orders : Orders ExchangeKey InstrumentKey}
    {ops : List (Op ExchangeKey InstrumentKey)} {cid : ClientOrderId}
    {newer : Finset ClientOrderId} (hk : orders.Keyed) (hd : orders.Separated)
    (h : orders.retired.Covered cid newer) (hnot : ∀ op ∈ ops, ¬ op.RecordsOpen cid) :
    (orders.run ops).retired.Covered cid (newer ∪ orders.remembered ops) := by
  induction ops generalizing orders newer with
  | nil => simpa [remembered] using h
  | cons op ops ih =>
    have hstep := covered_step hk hd h (hnot op (List.mem_cons_self ..))
    have hrest := ih (keyed_step hk) ((step_change hk op).separated hk hd) hstep
      fun o ho => hnot o (List.mem_cons_of_mem _ ho)
    rwa [Finset.union_assoc] at hrest

theorem keyed_separated_run (ops : List (Op ExchangeKey InstrumentKey)) :
    (run empty ops).Keyed ∧ (run empty ops).Separated :=
  Transition.run_invariant
    (fun orders : Orders ExchangeKey InstrumentKey => orders.Keyed ∧ orders.Separated)
    (fun _ op h => ⟨keyed_step h.1, (step_change h.1 op).separated h.1 h.2⟩) ops
    ⟨keyed_empty, separated_empty⟩

/-- From the call that retires an id, the id stays covered until its own open request. -/
theorem covered_since_retired {orders : Orders ExchangeKey InstrumentKey} (hk : orders.Keyed)
    (hd : orders.Separated) {retiring : Op ExchangeKey InstrumentKey}
    {mid : List (Op ExchangeKey InstrumentKey)} {cid : ClientOrderId}
    (hbefore : cid ∉ orders.retired.items)
    (hremembered : cid ∈ (orders.step retiring).retired.items)
    (hnot : ∀ op ∈ mid, ¬ op.RecordsOpen cid) :
    (orders.run (retiring :: mid)).retired.Covered cid (orders.remembered (retiring :: mid)) := by
  have hcov : (orders.step retiring).retired.Covered cid
      (orders.retired.arrivals (orders.step retiring).retired) := by
    rcases (step_change hk retiring).memory hd with ⟨l, hl, hnew, hret⟩ | ⟨c, -, hret⟩
    · rw [hret] at hremembered ⊢
      exact BoundedFifo.covered_of_insertAll hl hnew hbefore hremembered
    · rw [hret] at hremembered
      exact absurd (List.mem_of_mem_filter hremembered) hbefore
  exact covered_run (keyed_step hk) ((step_change hk retiring).separated hk hd) hcov hnot

/-- **Tracked and remembered ids are apart, the memory is bounded, and a remembered id is not
    tracked again** before an open request of its own is recorded or 64 other ids have come to
    be remembered since. -/
theorem retired_stays_retired (ops : List (Op ExchangeKey InstrumentKey)) :
    ((run empty ops).Separated ∧ (run empty ops).retired.items.Nodup ∧
      (run empty ops).retired.items.length ≤ maxRecentlyRetiredOrders) ∧
    ∀ pre retiring mid retracking cid, ops = pre ++ retiring :: mid ++ [retracking] →
      cid ∉ (run empty pre).retired.items →
      cid ∈ (run empty (pre ++ [retiring])).retired.items →
      (run empty (pre ++ retiring :: mid)).get? cid = none →
      (run empty ops).get? cid ≠ none →
      (∃ op ∈ mid ++ [retracking], op.RecordsOpen cid) ∨
        maxRecentlyRetiredOrders ≤
          ((remembered (run empty pre) (retiring :: mid)).erase cid).card := by
  refine ⟨⟨(keyed_separated_run ops).2, (run empty ops).retired.nodup,
    (run empty ops).retired.length_le⟩, ?_⟩
  rintro pre retiring mid retracking cid rfl hbefore hremembered huntracked hretracked
  by_cases hrecords : ∃ op ∈ mid ++ [retracking], op.RecordsOpen cid
  · exact Or.inl hrecords
  · refine Or.inr ?_
    have hnot : ∀ op ∈ mid ++ [retracking], ¬ op.RecordsOpen cid :=
      fun op hop hrec => hrecords ⟨op, hop, hrec⟩
    obtain ⟨hk, hd⟩ : (run empty pre).Keyed ∧ (run empty pre).Separated :=
      keyed_separated_run pre
    rw [run_concat] at hremembered hretracked
    have hcov : (run empty (pre ++ retiring :: mid)).retired.Covered cid
        (remembered (run empty pre) (retiring :: mid)) := by
      rw [run_append]
      exact covered_since_retired hk hd hbefore hremembered
        fun op hop => hnot op (List.mem_append_left _ hop)
    have hkm := (keyed_separated_run (pre ++ retiring :: mid)).1
    exact hcov.le_card ((step_change hkm retracking).forgotten huntracked hretracked
      (hnot retracking (by simp)))

/-- The window closes by the id's own open request: filled on the first report, an order is
    remembered until the id is sent again. -/
theorem retired_stays_retired_until_sent :
    ∃ op ∈ [Sample.sends], op.RecordsOpen Sample.cid := by
  refine ((retired_stays_retired [Sample.sends, Sample.reportsOpen (.assigned ⟨"v-1"⟩) 1 1,
    Sample.sends]).2 [Sample.sends] (Sample.reportsOpen (.assigned ⟨"v-1"⟩) 1 1) []
    Sample.sends Sample.cid rfl (by decide +kernel) (by decide +kernel) (by decide +kernel)
    (by decide +kernel)).resolve_right (by decide +kernel)

end Orders

end Rustrade
