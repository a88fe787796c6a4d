import Rustrade.Recovery.KnownLive

/-!
# Indexes that agree with the orders

Each index names the orders held and no other. An order comes in, leaves, moves or is given another
id, and the indexes follow. The index by the venue's id needs that no two orders held on one
instrument share an id.
-/

set_option autoImplicit false

namespace Rustrade.Recovery

variable {E A I : Type} [DecidableEq I] {s s' : KnownLiveOrders I} {cid c : ClientOrderId}
  {known k : KnownLive I}

namespace OrdersByInstrument

variable {m : OrdersByInstrument I} {i j : I}

/-- The orders on an instrument. -/
def on (m : OrdersByInstrument I) (i : I) : Finset ClientOrderId := (IndexMap.get? m i).getD ∅

/-- No instrument is there without an order. -/
def NoneEmpty (m : OrdersByInstrument I) : Prop := ∀ i, IndexMap.get? m i ≠ some ∅

theorem mem_on_add : c ∈ (m.add i cid).on j ↔ (j = i ∧ c = cid) ∨ c ∈ m.on j := by
  unfold on add
  rw [IndexMap.get?_insert]
  by_cases h : j = i
  · subst h
    simp
  · simp [h]

theorem mem_on_drop : c ∈ (m.drop i cid).on j ↔ ¬ (j = i ∧ c = cid) ∧ c ∈ m.on j := by
  unfold on drop
  cases hget : IndexMap.get? m i with
  | none =>
    by_cases h : j = i
    · subst h
      simp [hget]
    · simp [h]
  | some cids =>
    by_cases h : j = i
    · subst h
      dsimp only
      split
      · rename_i hempty
        rw [IndexMap.get?_remove_self, hget]
        have hmem : c ∉ cids.erase cid := by
          rw [hempty]
          exact Finset.notMem_empty c
        simpa [Finset.mem_erase] using hmem
      · rw [IndexMap.get?_insert_self, hget]
        simp [Finset.mem_erase]
    · dsimp only
      split
      · rw [IndexMap.get?_remove_of_ne h]
        simp [h]
      · rw [IndexMap.get?_insert_of_ne h]
        simp [h]

theorem noneEmpty_add (h : m.NoneEmpty) : (m.add i cid).NoneEmpty := by
  intro j
  unfold add
  rw [IndexMap.get?_insert]
  split
  · simp
  · exact h j

theorem noneEmpty_drop (h : m.NoneEmpty) : (m.drop i cid).NoneEmpty := by
  intro j
  unfold drop
  split
  · split
    · rw [IndexMap.get?_remove]
      split
      · simp
      · exact h j
    · rename_i hne
      rw [IndexMap.get?_insert]
      split
      · simpa using hne
      · exact h j
  · exact h j

end OrdersByInstrument

theorem get?_unindexed {m : IndexMap (I × OrderId) ClientOrderId} {i j : I}
    {orderId : Option OrderId} {id : OrderId} : (unindexed m i orderId).get? (j, id) =
      if i = j ∧ orderId = some id then none else m.get? (j, id) := by
  cases orderId with
  | none => simp [unindexed]
  | some stale =>
    unfold unindexed
    rw [IndexMap.get?_remove]
    simp only [Prod.mk.injEq, Option.some.injEq, eq_comm]

theorem get?_indexed {m : IndexMap (I × OrderId) ClientOrderId} {i j : I}
    {orderId : Option OrderId} {id : OrderId} : (indexed m i cid orderId).get? (j, id) =
      if i = j ∧ orderId = some id then some cid else m.get? (j, id) := by
  cases orderId with
  | none => simp [indexed]
  | some assigned =>
    unfold indexed
    rw [IndexMap.get?_insert]
    simp only [Prod.mk.injEq, Option.some.injEq, eq_comm]

namespace KnownLiveOrders

/-- No two orders held on one instrument have the same id at the venue. -/
def VenueIdsDiffer (s : KnownLiveOrders I) : Prop :=
  ∀ cid known c k orderId, s.orders.get? cid = some known → s.orders.get? c = some k →
    known.instrument = k.instrument → known.orderId = some orderId → k.orderId = some orderId →
    cid = c

/-- The indexes agree with the orders, which are no more than there is room for. -/
structure Consistent (s : KnownLiveOrders I) : Prop where
  byAge : ∀ seq cid, s.byAge[seq]? = some cid ↔
    ∃ known, s.orders.get? cid = some known ∧ known.seq = seq
  byInstrument : ∀ instrument cid, cid ∈ s.byInstrument.on instrument ↔
    ∃ known, s.orders.get? cid = some known ∧ known.instrument = instrument
  noneEmpty : s.byInstrument.NoneEmpty
  byOrderId : ∀ instrument orderId cid, s.byOrderId.get? (instrument, orderId) = some cid ↔
    ∃ known, s.orders.get? cid = some known ∧ known.instrument = instrument ∧
      known.orderId = some orderId
  seq : ∀ cid known, s.orders.get? cid = some known → known.seq < s.nextSeq
  len : s.orders.len ≤ maxKnownLiveOrders

/-- The two hold the same orders under the same indexes. -/
structure SameOrders (s s' : KnownLiveOrders I) : Prop where
  orders : s'.orders = s.orders
  byOrderId : s'.byOrderId = s.byOrderId
  byInstrument : s'.byInstrument = s.byInstrument
  byAge : s'.byAge = s.byAge
  nextSeq : s'.nextSeq = s.nextSeq

theorem Consistent.same (h : Consistent s) (hsame : SameOrders s s') : Consistent s' := by
  obtain ⟨horders, hbyOrderId, hbyInstrument, hbyAge, hnextSeq⟩ := hsame
  refine ⟨?_, ?_, ?_, ?_, ?_, ?_⟩
  · rw [hbyAge, horders]
    exact h.byAge
  · rw [hbyInstrument, horders]
    exact h.byInstrument
  · rw [hbyInstrument]
    exact h.noneEmpty
  · rw [hbyOrderId, horders]
    exact h.byOrderId
  · rw [horders, hnextSeq]
    exact h.seq
  · rw [horders]
    exact h.len

theorem consistent_new : Consistent (new : KnownLiveOrders I) := by
  refine ⟨?_, ?_, ?_, ?_, ?_, ?_⟩
  · intro seq cid
    simp [new]
  · intro instrument cid
    simp [new, OrdersByInstrument.on]
  · intro instrument
    simp [new]
  · intro instrument orderId cid
    simp [new]
  · intro cid known h
    simp [new] at h
  · exact Nat.zero_le _

/-- Orders of one age are one order. -/
theorem Consistent.seq_inj (h : Consistent s) (hcid : s.orders.get? cid = some known)
    (hc : s.orders.get? c = some k) (hseq : known.seq = k.seq) : cid = c := by
  have hage := (h.byAge known.seq cid).2 ⟨known, hcid, rfl⟩
  have hage' := (h.byAge known.seq c).2 ⟨k, hc, hseq.symm⟩
  exact Option.some.inj (hage.symm.trans hage')

theorem len_remove {K V : Type} [DecidableEq K] {m : IndexMap K V} {a : K} {v : V}
    (h : m.get? a = some v) : (m.remove a).len + 1 = m.len := by
  obtain ⟨front, back, hentries, hremoved⟩ := IndexMap.entries_remove h
  unfold IndexMap.len
  rw [hentries, hremoved]
  simp [Nat.add_assoc]

/-- An order leaves. -/
theorem Consistent.take (h : Consistent s) (hheld : s.orders.get? cid = some known) :
    Consistent (s.take cid known) := by
  refine ⟨?_, ?_, ?_, ?_, ?_, ?_⟩
  · intro seq c
    show (s.byAge.erase known.seq)[seq]? = some c ↔ _
    rw [BTreeMap.get?_erase]
    simp only [KnownLiveOrders.take, IndexMap.get?_remove]
    by_cases hseq : known.seq = seq
    · subst hseq
      rw [if_pos rfl]
      refine iff_of_false (by simp) ?_
      rintro ⟨k, hk, hsame⟩
      rw [Option.ite_none_left_eq_some] at hk
      exact hk.1 (h.seq_inj hk.2 hheld hsame)
    · rw [if_neg hseq, h.byAge]
      constructor
      · rintro ⟨k, hk, rfl⟩
        refine ⟨k, ?_, rfl⟩
        rw [if_neg ?_]
        · exact hk
        · rintro rfl
          cases hheld.symm.trans hk
          exact hseq rfl
      · rintro ⟨k, hk, rfl⟩
        rw [Option.ite_none_left_eq_some] at hk
        exact ⟨k, hk.2, rfl⟩
  · intro instrument c
    show c ∈ (s.byInstrument.drop known.instrument cid).on instrument ↔ _
    rw [OrdersByInstrument.mem_on_drop, h.byInstrument]
    simp only [KnownLiveOrders.take, IndexMap.get?_remove]
    constructor
    · rintro ⟨hne, k, hk, rfl⟩
      refine ⟨k, ?_, rfl⟩
      rw [if_neg ?_]
      · exact hk
      · rintro rfl
        cases hheld.symm.trans hk
        exact hne ⟨rfl, rfl⟩
    · rintro ⟨k, hk, rfl⟩
      rw [Option.ite_none_left_eq_some] at hk
      exact ⟨fun hsame => hk.1 hsame.2, k, hk.2, rfl⟩
  · exact OrdersByInstrument.noneEmpty_drop h.noneEmpty
  · intro instrument orderId c
    show (unindexed s.byOrderId known.instrument known.orderId).get? (instrument, orderId) = some c
      ↔ _
    rw [get?_unindexed]
    simp only [KnownLiveOrders.take, IndexMap.get?_remove]
    by_cases hsame : known.instrument = instrument ∧ known.orderId = some orderId
    · rw [if_pos hsame]
      refine iff_of_false (by simp) ?_
      rintro ⟨k, hk, hinstrument, horderId⟩
      rw [Option.ite_none_left_eq_some] at hk
      have hown := (h.byOrderId instrument orderId cid).2 ⟨known, hheld, hsame⟩
      have hother := (h.byOrderId instrument orderId c).2 ⟨k, hk.2, hinstrument, horderId⟩
      exact hk.1 (Option.some.inj (hother.symm.trans hown))
    · rw [if_neg hsame, h.byOrderId]
      constructor
      · rintro ⟨k, hk, hinstrument, horderId⟩
        refine ⟨k, ?_, hinstrument, horderId⟩
        rw [if_neg ?_]
        · exact hk
        · rintro rfl
          cases hheld.symm.trans hk
          exact hsame ⟨hinstrument, horderId⟩
      · rintro ⟨k, hk, hrest⟩
        rw [Option.ite_none_left_eq_some] at hk
        exact ⟨k, hk.2, hrest⟩
  · intro c k hk
    change (s.orders.remove cid).get? c = some k at hk
    rw [IndexMap.get?_remove, Option.ite_none_left_eq_some] at hk
    exact h.seq c k hk.2
  · have hlen := len_remove hheld
    have hle := h.len
    show (s.orders.remove cid).len ≤ _
    omega

theorem len_insert_held {K V : Type} [DecidableEq K] {m : IndexMap K V} {a : K} {v w : V}
    (h : m.get? a = some v) : (m.insert a w).len = m.len := by
  have hmem : a ∈ m.keys := IndexMap.mem_keys_iff.2 ⟨v, h⟩
  unfold IndexMap.insert
  rw [dif_pos hmem, IndexMap.len_eq_length_keys, IndexMap.len_eq_length_keys, IndexMap.keys_modify]

theorem len_insert_new {K V : Type} [DecidableEq K] {m : IndexMap K V} {a : K} {w : V}
    (h : m.get? a = none) : (m.insert a w).len = m.len + 1 := by
  have hmem : a ∉ m.keys := by
    intro hmem
    obtain ⟨v, hv⟩ := IndexMap.mem_keys_iff.1 hmem
    cases h.symm.trans hv
  unfold IndexMap.len
  rw [IndexMap.entries_insert_of_not_mem hmem]
  simp

/-- What is said of an order but its place is rewritten. -/
theorem Consistent.rewrite (h : Consistent s) (hheld : s.orders.get? cid = some known)
    (hinstrument : k.instrument = known.instrument) (horderId : k.orderId = known.orderId)
    (hseq : k.seq = known.seq) : Consistent { s with orders := s.orders.insert cid k } := by
  -- A fact of an order that reads its place alone holds of it before and after.
  have hsame : ∀ (fact : KnownLive I → Prop), (fact k ↔ fact known) → ∀ c,
      (∃ k', (s.orders.insert cid k).get? c = some k' ∧ fact k') ↔
        ∃ k', s.orders.get? c = some k' ∧ fact k' := by
    intro fact hfact c
    rw [IndexMap.get?_insert]
    by_cases hc : c = cid
    · subst hc
      simp [hheld, hfact]
    · simp [hc]
  refine ⟨?_, ?_, h.noneEmpty, ?_, ?_, ?_⟩
  · intro seq c
    rw [hsame (fun k' => k'.seq = seq) (by rw [hseq])]
    exact h.byAge seq c
  · intro instrument c
    rw [hsame (fun k' => k'.instrument = instrument) (by rw [hinstrument])]
    exact h.byInstrument instrument c
  · intro instrument orderId c
    rw [hsame (fun k' => k'.instrument = instrument ∧ k'.orderId = some orderId)
      (by rw [hinstrument, horderId])]
    exact h.byOrderId instrument orderId c
  · intro c k' hk'
    change (s.orders.insert cid k).get? c = some k' at hk'
    rw [IndexMap.get?_insert] at hk'
    split at hk'
    · cases hk'
      rw [hseq]
      exact h.seq cid known hheld
    · exact h.seq c k' hk'
  · show (s.orders.insert cid k).len ≤ _
    rw [len_insert_held hheld]
    exact h.len

/-- An order comes in, where there is room and its id is no other's. -/
theorem Consistent.hold {key : OrderKey E I} {quantity : Decimal} {kind : OrderKind}
    {orderId : Option OrderId} (h : Consistent s) (hnew : s.orders.get? key.cid = none)
    (hroom : s.orders.len < maxKnownLiveOrders)
    (hdiffer : VenueIdsDiffer (s.hold key quantity kind orderId)) :
    Consistent (s.hold key quantity kind orderId) := by
  obtain ⟨known, hknown, hinstrument, horderId, hseq⟩ :
      ∃ known, (s.hold key quantity kind orderId).orders = s.orders.insert key.cid known ∧
        known.instrument = key.instrument ∧ known.orderId = orderId ∧ known.seq = s.nextSeq :=
    ⟨_, rfl, rfl, rfl, rfl⟩
  have hget : ∀ c, (s.hold key quantity kind orderId).orders.get? c =
      if c = key.cid then some known else s.orders.get? c := by
    intro c
    rw [hknown, IndexMap.get?_insert]
  refine ⟨?_, ?_, ?_, ?_, ?_, ?_⟩
  · intro seq c
    show (s.byAge.insert s.nextSeq key.cid)[seq]? = some c ↔ _
    rw [BTreeMap.get?_insert, hget]
    by_cases hc : c = key.cid
    · subst hc
      by_cases hage : s.nextSeq = seq
      · simp [hage, hseq]
      · rw [if_neg hage, if_pos rfl, h.byAge]
        simp [hnew, hseq, hage]
    · rw [if_neg hc]
      by_cases hage : s.nextSeq = seq
      · rw [if_pos hage]
        refine iff_of_false (by simpa using Ne.symm hc) ?_
        rintro ⟨k, hk, rfl⟩
        exact absurd (h.seq c k hk) (by omega)
      · rw [if_neg hage]
        exact h.byAge seq c
  · intro instrument c
    show c ∈ (s.byInstrument.add key.instrument key.cid).on instrument ↔ _
    rw [OrdersByInstrument.mem_on_add, h.byInstrument, hget]
    by_cases hc : c = key.cid
    · subst hc
      simp [hnew, hinstrument, eq_comm]
    · simp [hc]
  · exact OrdersByInstrument.noneEmpty_add h.noneEmpty
  · intro instrument id c
    show (indexed s.byOrderId key.instrument key.cid orderId).get? (instrument, id) = some c ↔ _
    rw [get?_indexed, hget]
    by_cases hplace : key.instrument = instrument ∧ orderId = some id
    · rw [if_pos hplace]
      by_cases hc : c = key.cid
      · subst hc
        simp [hinstrument, horderId, hplace]
      · rw [if_neg hc]
        refine iff_of_false (by simpa using Ne.symm hc) ?_
        rintro ⟨k, hk, rfl, hid⟩
        refine hc (hdiffer c k key.cid known id ?_ ?_ ?_ hid ?_)
        · rw [hget, if_neg hc]
          exact hk
        · rw [hget, if_pos rfl]
        · rw [hinstrument]
          exact hplace.1.symm
        · rw [horderId]
          exact hplace.2
    · rw [if_neg hplace, h.byOrderId]
      by_cases hc : c = key.cid
      · subst hc
        simp [hnew, hinstrument, horderId]
        exact fun hsame => fun hid => hplace ⟨hsame, hid⟩
      · rw [if_neg hc]
  · intro c k hk
    show k.seq < s.nextSeq + 1
    rw [hget] at hk
    split at hk
    · cases hk
      omega
    · exact (h.seq c k hk).trans (Nat.lt_succ_self _)
  · rw [hknown, len_insert_new hnew]
    omega

/-- An order held moves to another instrument or gets another id, neither shared with another. -/
theorem Consistent.replace {i : I} {byOrderId : IndexMap (I × OrderId) ClientOrderId}
    {byInstrument : OrdersByInstrument I} (h : Consistent s)
    (hheld : s.orders.get? cid = some known) (hseq : k.seq = known.seq)
    (hinstrument : k.instrument = i)
    (hbyOrderId : ∀ j id, byOrderId.get? (j, id) =
      if i = j ∧ k.orderId = some id then some cid
      else if known.instrument = j ∧ known.orderId = some id then none
      else s.byOrderId.get? (j, id))
    (hbyInstrument : ∀ j c, c ∈ byInstrument.on j ↔
      (j = i ∧ c = cid) ∨ (c ≠ cid ∧ c ∈ s.byInstrument.on j))
    (hnoneEmpty : byInstrument.NoneEmpty)
    (hdiffer : VenueIdsDiffer { s with orders := s.orders.insert cid k, byOrderId, byInstrument }) :
    Consistent { s with orders := s.orders.insert cid k, byOrderId, byInstrument } := by
  have hget : ∀ c, (s.orders.insert cid k).get? c =
      if c = cid then some k else s.orders.get? c := fun c => IndexMap.get?_insert
  refine ⟨?_, ?_, hnoneEmpty, ?_, ?_, ?_⟩
  · intro seq c
    show s.byAge[seq]? = some c ↔ ∃ k', (s.orders.insert cid k).get? c = some k' ∧ _
    rw [h.byAge, hget]
    by_cases hc : c = cid
    · subst hc
      simp [hheld, hseq]
    · simp [hc]
  · intro j c
    show c ∈ byInstrument.on j ↔ ∃ k', (s.orders.insert cid k).get? c = some k' ∧ _
    rw [hbyInstrument, h.byInstrument, hget]
    by_cases hc : c = cid
    · subst hc
      simp [hinstrument, eq_comm]
    · simp [hc]
  · intro j id c
    show byOrderId.get? (j, id) = some c ↔ ∃ k', (s.orders.insert cid k).get? c = some k' ∧ _
    rw [hbyOrderId, hget]
    by_cases hplace : i = j ∧ k.orderId = some id
    · rw [if_pos hplace]
      by_cases hc : c = cid
      · subst hc
        simp [hinstrument, hplace]
      · rw [if_neg hc]
        refine iff_of_false (by simpa using Ne.symm hc) ?_
        rintro ⟨k', hk', rfl, hid⟩
        refine hc (hdiffer c k' cid k id ?_ ?_ ?_ hid hplace.2)
        · show (s.orders.insert cid k).get? c = some k'
          rw [hget, if_neg hc]
          exact hk'
        · show (s.orders.insert cid k).get? cid = some k
          rw [hget, if_pos rfl]
        · rw [hinstrument]
          exact hplace.1.symm
    · rw [if_neg hplace]
      have hmoved : ¬ (k.instrument = j ∧ k.orderId = some id) := by
        rw [hinstrument]
        exact hplace
      by_cases hold : known.instrument = j ∧ known.orderId = some id
      · -- The entry under the old place was this order's own, and it is gone.
        rw [if_pos hold]
        have hown := (h.byOrderId j id cid).2 ⟨known, hheld, hold⟩
        refine iff_of_false (by simp) ?_
        rintro ⟨k', hk', hplace'⟩
        by_cases hc : c = cid
        · rw [if_pos hc] at hk'
          cases hk'
          exact hmoved hplace'
        · rw [if_neg hc] at hk'
          have hother := (h.byOrderId j id c).2 ⟨k', hk', hplace'⟩
          exact hc (Option.some.inj (hother.symm.trans hown))
      · rw [if_neg hold, h.byOrderId]
        by_cases hc : c = cid
        · subst hc
          rw [if_pos rfl]
          refine iff_of_false ?_ ?_
          · rintro ⟨k', hk', hplace'⟩
            cases hheld.symm.trans hk'
            exact hold hplace'
          · rintro ⟨k', hk', hplace'⟩
            cases hk'
            exact hmoved hplace'
        · rw [if_neg hc]
  · intro c k' hk'
    change (s.orders.insert cid k).get? c = some k' at hk'
    rw [hget] at hk'
    split at hk'
    · cases hk'
      rw [hseq]
      exact h.seq cid known hheld
    · exact h.seq c k' hk'
  · show (s.orders.insert cid k).len ≤ _
    rw [len_insert_held hheld]
    exact h.len

theorem Consistent.reindex {key : OrderKey E I} {newId : Option OrderId} {updated : KnownLive I}
    (h : Consistent s) (hheld : s.orders.get? key.cid = some known)
    (hinstrument : updated.instrument = known.instrument)
    (horderId : updated.orderId = known.orderId) (hseq : updated.seq = known.seq)
    (hdiffer : VenueIdsDiffer (s.reindex key newId updated)) :
    Consistent (s.reindex key newId updated) := by
  refine h.replace (i := key.instrument) hheld hseq ?_ ?_ ?_ ?_ hdiffer
  · dsimp only
    split
    · rfl
    · rename_i hmoved
      exact not_not.1 hmoved
  · intro i id
    rw [get?_indexed, get?_unindexed, hinstrument, horderId]
  · intro i c
    by_cases hmoved : updated.instrument ≠ key.instrument
    · rw [if_pos hmoved, OrdersByInstrument.mem_on_add, OrdersByInstrument.mem_on_drop,
        h.byInstrument, hinstrument]
      by_cases hc : c = key.cid
      · subst hc
        simp [hheld]
        exact fun hne hsame => absurd hsame.symm hne
      · simp [hc]
    · rw [if_neg hmoved, h.byInstrument]
      rw [not_not, hinstrument] at hmoved
      by_cases hc : c = key.cid
      · subst hc
        simp [hheld, hmoved, eq_comm]
      · simp [hc]
  · split
    · exact OrdersByInstrument.noneEmpty_add (OrdersByInstrument.noneEmpty_drop h.noneEmpty)
    · exact h.noneEmpty

/-- A report of an order held keeps the indexes in step. -/
theorem Consistent.update {key : OrderKey E I} {quantity : Decimal} {kind : OrderKind}
    {orderId : Option OrderId} (h : Consistent s) (hheld : s.orders.get? key.cid = some known)
    (hdiffer : VenueIdsDiffer (s.update key quantity kind orderId known)) :
    Consistent (s.update key quantity kind orderId known) := by
  unfold KnownLiveOrders.update at hdiffer ⊢
  dsimp only at hdiffer ⊢
  by_cases hsame : known.instrument = key.instrument ∧
      (orderId.filter fun id => known.orderId ≠ some id) = none
  · rw [if_pos hsame]
    exact h.rewrite hheld rfl rfl rfl
  · rw [if_neg hsame] at hdiffer ⊢
    exact h.reindex hheld rfl rfl rfl hdiffer

/-- The order forgotten to make room is the oldest. -/
theorem Consistent.forgetOldest_eq (h : Consistent s) (hheld : 0 < s.orders.len) :
    ∃ cid known, s.orders.get? cid = some known ∧
      (∀ c k, s.orders.get? c = some k → known.seq ≤ k.seq) ∧
      s.forgetOldest = { s.take cid known with
        forgetting := true
        forgotten := s.forgotten ++ [⟨cid, !s.forgetting⟩] } := by
  cases hhead : s.byAge.toList.head? with
  | none =>
    obtain ⟨⟨c, k⟩, hentry⟩ := List.exists_mem_of_length_pos hheld
    have hage := (h.byAge k.seq c).2 ⟨k, IndexMap.get?_eq_some_iff.2 hentry, rfl⟩
    rw [List.head?_eq_none_iff] at hhead
    have hmem := BTreeMap.mem_toList.2 hage
    rw [hhead] at hmem
    exact absurd hmem List.not_mem_nil
  | some oldest =>
    obtain ⟨seq, cid⟩ := oldest
    obtain ⟨rest, hlist⟩ := List.head?_eq_some_iff.1 hhead
    have hage : s.byAge[seq]? = some cid := by
      rw [← BTreeMap.mem_toList, hlist]
      exact List.mem_cons_self ..
    obtain ⟨known, hknown, rfl⟩ := (h.byAge seq cid).1 hage
    refine ⟨cid, known, hknown, ?_, ?_⟩
    · intro c k hk
      have hmem := BTreeMap.mem_toList.2 ((h.byAge k.seq c).2 ⟨k, hk, rfl⟩)
      have hascending := BTreeMap.keys_pairwise (m := s.byAge)
      rw [hlist] at hmem hascending
      rcases List.mem_cons.1 hmem with hsame | hmem
      · exact le_of_eq (Prod.mk.inj hsame).1.symm
      · exact le_of_lt ((List.pairwise_cons.1 hascending).1 _ hmem)
    · have herase : (s.byAge.erase known.seq).erase known.seq = s.byAge.erase known.seq := by
        apply BTreeMap.erase_of_get?_none
        simp
      unfold forgetOldest remove
      rw [hhead]
      dsimp only
      rw [hknown]
      simp only [KnownLiveOrders.take, herase]

theorem Consistent.forgetOldest (h : Consistent s) (hheld : 0 < s.orders.len) :
    Consistent s.forgetOldest := by
  obtain ⟨cid, known, hknown, -, heq⟩ := h.forgetOldest_eq hheld
  rw [heq]
  exact (h.take hknown).same ⟨rfl, rfl, rfl, rfl, rfl⟩

theorem Consistent.makeRoom (h : Consistent s) :
    Consistent s.makeRoom ∧ s.makeRoom.orders.len < maxKnownLiveOrders := by
  unfold KnownLiveOrders.makeRoom
  split
  · rename_i hfull
    have hheld : 0 < s.orders.len := lt_of_lt_of_le (by decide) hfull
    obtain ⟨cid, known, hknown, -, heq⟩ := h.forgetOldest_eq hheld
    refine ⟨h.forgetOldest hheld, ?_⟩
    have hlen := len_remove hknown
    have hle := h.len
    rw [heq]
    show (s.orders.remove cid).len < _
    omega
  · rename_i hroom
    split
    · exact ⟨h.same ⟨rfl, rfl, rfl, rfl, rfl⟩, not_le.1 hroom⟩
    · exact ⟨h, not_le.1 hroom⟩

theorem Consistent.ended (h : Consistent s) (cid : ClientOrderId) : Consistent (s.ended cid).1 := by
  unfold KnownLiveOrders.ended remove
  split
  · exact h.same ⟨rfl, rfl, rfl, rfl, rfl⟩
  · rename_i known hknown
    refine Consistent.take ?_ hknown
    exact h.same ⟨rfl, rfl, rfl, rfl, rfl⟩

theorem Consistent.resolveHeld (h : Consistent s) (cid : ClientOrderId) (kind : OrderKind) :
    Consistent (s.resolveHeld cid kind) := by
  unfold KnownLiveOrders.resolveHeld
  split
  · rename_i known hknown
    split
    · exact h.rewrite hknown rfl rfl rfl
    · exact h
  · exact h

theorem Consistent.recallOne (h : Consistent s) (ignored : ℕ) (cid : ClientOrderId)
    (kind : OrderKind) : Consistent (s.recallOne ignored cid kind).1 := by
  unfold KnownLiveOrders.recallOne
  split
  · exact h
  · dsimp only
    split
    · exact h.resolveHeld cid kind
    · exact (h.resolveHeld cid kind).same ⟨rfl, rfl, rfl, rfl, rfl⟩

end KnownLiveOrders

end Rustrade.Recovery
