import Rustrade.Recovery.Indexes

/-!
# Runs of the set of known live orders

What each call can do to the set, and from it what every run keeps: indexes that agree with the
orders, kinds that are resolved where they can be, the oldest order forgotten first, and orders
that have ended kept out while they are remembered.
-/

set_option autoImplicit false

namespace Rustrade.Recovery

variable {E A I : Type} [DecidableEq I] {s s' : KnownLiveOrders I} {cid c : ClientOrderId}
  {known k : KnownLive I} {gone anew : Option ClientOrderId}

/-- A call on the set. -/
inductive Call (E A I : Type) where
  | live (key : OrderKey E I) (quantity : Decimal) (kind : OrderKind) (state : Open)
  | placed (key : OrderKey E I) (quantity : Decimal) (kind : OrderKind) (state : OrderState)
  | placing (cid : ClientOrderId)
  | ended (cid : ClientOrderId)
  | observe (event : AccountEvent E A I)
  | «recall» (kinds : List (ClientOrderId × OrderKind))
  | sending (cid : ClientOrderId) (kind : OrderKind)
  | sent (cid : ClientOrderId) (outcomeUnknown : Bool)

namespace KnownLiveOrders

def apply (self : KnownLiveOrders I) : Call E A I → KnownLiveOrders I
  | .live key quantity kind state => self.live key quantity kind state
  | .placed key quantity kind state => self.placed key quantity kind state
  | .placing cid => self.placing cid
  | .ended cid => (self.ended cid).1
  | .observe event => self.observe event
  | .recall kinds => (self.recall kinds).1
  | .sending cid kind => self.sending cid kind
  | .sent cid outcomeUnknown => (self.sent cid outcomeUnknown).1

def run (self : KnownLiveOrders I) (calls : List (Call E A I)) : KnownLiveOrders I :=
  calls.foldl apply self

/-- The order a live report says has nothing left to fill. -/
def endedLive (key : OrderKey E I) (quantity : Decimal) (state : Open) : Option ClientOrderId :=
  if quantity ≤ state.filledQuantity then some key.cid else none

/-- The order a call records as ended. -/
def endedBy (self : KnownLiveOrders I) : Call E A I → Option ClientOrderId
  | .live key quantity _ state => endedLive key quantity state
  | .placed key quantity _ state =>
    match state with
    | .active (.open state) => endedLive key quantity state
    | .active _ => none
    | .inactive _ => if state.isOutcomeUnknown then none else some key.cid
  | .ended cid => some cid
  | .observe event =>
    match event.kind with
    | .orderSnapshot order =>
      match order.state with
      | .active (.open state) => endedLive order.key order.quantity state
      | .active _ => none
      | .inactive _ => some order.key.cid
    | .orderCancelled response => some response.key.cid
    | .trade trade => self.filledBy trade
    | _ => none
  | .placing _ | .recall _ | .sending _ _ | .sent _ _ => none

/-- The id a call lets name a new order. -/
def placingOf : Call E A I → Option ClientOrderId
  | .placing cid => some cid
  | _ => none

/-- What a call can do: the order it records as ended comes first, and then the id it lets name a
    new one. -/
inductive Step (s : KnownLiveOrders I) :
    Option ClientOrderId → Option ClientOrderId → KnownLiveOrders I → Prop where
  | ended (cid : ClientOrderId) : Step s (some cid) none (s.ended cid).1
  | same : Step s none none s
  | update {E : Type} {key : OrderKey E I} {quantity : Decimal} {kind : OrderKind}
      {orderId : Option OrderId} {known : KnownLive I}
      (held : s.orders.get? key.cid = some known) :
      Step s none none (s.update key quantity kind orderId known)
  | hold {E : Type} {key : OrderKey E I} {quantity : Decimal} {kind : OrderKind}
      {orderId : Option OrderId} (new : s.orders.get? key.cid = none)
      (out : key.cid ∉ s.recentlyEnded.items) :
      Step s none none (s.makeRoom.hold key quantity kind orderId)
  | placing (cid : ClientOrderId) : Step s none (some cid) (s.placing cid)
  | «recall» (kinds : List (ClientOrderId × OrderKind)) : Step s none none (s.recall kinds).1
  | sending (cid : ClientOrderId) (kind : OrderKind) : Step s none none (s.sending cid kind)
  | sent (cid : ClientOrderId) (outcomeUnknown : Bool) :
      Step s none none (s.sent cid outcomeUnknown).1

theorem step_live {key : OrderKey E I} {quantity : Decimal} {kind : OrderKind} {state : Open} :
    Step s (endedLive key quantity state) none (s.live key quantity kind state) := by
  unfold live endedLive
  split
  · exact .ended _
  · split
    · exact .same
    · rename_i hout
      split
      · rename_i known hheld
        exact .update hheld
      · rename_i hnew
        exact .hold hnew fun hin => hout (BoundedFifo.contains_iff.2 hin)

theorem step_apply (call : Call E A I) : Step s (s.endedBy call) (placingOf call) (s.apply call) := by
  cases call with
  | live key quantity kind state => exact step_live
  | placed key quantity kind state =>
    cases state with
    | active state =>
      cases state with
      | openInFlight _ => exact .same
      | «open» state => exact step_live
      | cancelInFlight _ => exact .same
    | inactive state =>
      unfold apply endedBy placed
      dsimp only
      split
      · exact .same
      · exact .ended _
  | placing cid => exact .placing cid
  | ended cid => exact .ended cid
  | observe event =>
    obtain ⟨exchange, kind⟩ := event
    cases kind with
    | orderSnapshot order =>
      obtain ⟨key, side, price, quantity, kind, timeInForce, state⟩ := order
      cases state with
      | active state =>
        cases state with
        | openInFlight _ => exact .same
        | «open» state => exact step_live
        | cancelInFlight _ => exact .same
      | inactive state => exact .ended _
    | orderCancelled response => exact .ended _
    | trade trade =>
      unfold apply endedBy placingOf observe
      dsimp only
      cases s.filledBy trade with
      | none => exact .same
      | some cid => exact .ended cid
    | _ => exact .same
  | «recall» kinds => exact .recall kinds
  | sending cid kind => exact .sending cid kind
  | sent cid outcomeUnknown => exact .sent cid outcomeUnknown

/-! ## Steps that add no order -/

/-- The orders held are the same and of the same age. -/
def Quiet (s s' : KnownLiveOrders I) : Prop :=
  ∀ c, (s'.orders.get? c).map KnownLive.seq = (s.orders.get? c).map KnownLive.seq

omit [DecidableEq I] in
theorem Quiet.refl : Quiet s s := fun _ => rfl

omit [DecidableEq I] in
theorem Quiet.trans {s'' : KnownLiveOrders I} (h : Quiet s s') (h' : Quiet s' s'') :
    Quiet s s'' := fun c => (h' c).trans (h c)

omit [DecidableEq I] in
theorem Quiet.get?_eq_none (h : Quiet s s') :
    s'.orders.get? c = none ↔ s.orders.get? c = none := by
  rw [← Option.map_eq_none_iff (f := KnownLive.seq), h, Option.map_eq_none_iff]

omit [DecidableEq I] in
/-- An order held is rewritten. -/
theorem seq_insert (hheld : s.orders.get? cid = some known) (hseq : k.seq = known.seq) (c) :
    ((s.orders.insert cid k).get? c).map KnownLive.seq =
      (s.orders.get? c).map KnownLive.seq := by
  rw [IndexMap.get?_insert]
  split
  · rename_i hc
    subst hc
    rw [hheld, Option.map_some, Option.map_some, hseq]
  · rfl

omit [DecidableEq I] in
theorem quiet_resolveHeld (cid : ClientOrderId) (kind : OrderKind) :
    Quiet s (s.resolveHeld cid kind) := by
  unfold resolveHeld
  split
  · rename_i known hheld
    split
    · exact seq_insert hheld rfl
    · exact .refl
  · exact .refl

omit [DecidableEq I] in
theorem quiet_recallOne (ignored : ℕ) (cid : ClientOrderId) (kind : OrderKind) :
    Quiet s (s.recallOne ignored cid kind).1 := by
  unfold recallOne
  split
  · exact .refl
  · dsimp only
    split
    · exact quiet_resolveHeld cid kind
    · exact (quiet_resolveHeld cid kind).trans .refl

omit [DecidableEq I] in
/-- What recalling one kind keeps, recalling a list of them keeps. -/
theorem recall_rule {P : KnownLiveOrders I → Prop}
    (hone : ∀ s ignored cid kind, P s → P (s.recallOne ignored cid kind).1) (h : P s)
    (kinds : List (ClientOrderId × OrderKind)) : P (s.recall kinds).1 := by
  have hfold : ∀ (kinds : List (ClientOrderId × OrderKind)) (s : KnownLiveOrders I) (ignored : ℕ),
      P s → P (kinds.foldl
        (fun recalled entry => recalled.1.recallOne recalled.2 entry.1 entry.2) (s, ignored)).1 := by
    intro kinds
    induction kinds with
    | nil => exact fun _ _ h => h
    | cons entry kinds ih =>
      exact fun s ignored h => ih _ _ (hone s ignored entry.1 entry.2 h)
  exact hfold kinds s 0 h

omit [DecidableEq I] in
/-- What releasing a kind and recalling one keep, the answer to a placement keeps. -/
theorem sent_rule {P : KnownLiveOrders I → Prop}
    (hone : ∀ s ignored cid kind, P s → P (s.recallOne ignored cid kind).1)
    (cid : ClientOrderId) (outcomeUnknown : Bool)
    (h : P { s with beingSent := s.beingSent.remove cid }) : P (s.sent cid outcomeUnknown).1 := by
  unfold sent
  dsimp only
  split
  · split
    · exact recall_rule hone h _
    · exact h
  · exact h

omit [DecidableEq I] in
theorem quiet_recall (kinds : List (ClientOrderId × OrderKind)) : Quiet s (s.recall kinds).1 :=
  recall_rule (fun _ ignored cid kind h => h.trans (quiet_recallOne ignored cid kind)) .refl kinds

omit [DecidableEq I] in
theorem quiet_sending (cid : ClientOrderId) (kind : OrderKind) : Quiet s (s.sending cid kind) := by
  unfold sending
  split
  · exact .refl
  · exact (quiet_resolveHeld cid kind).trans .refl

omit [DecidableEq I] in
theorem quiet_sent (cid : ClientOrderId) (outcomeUnknown : Bool) :
    Quiet s (s.sent cid outcomeUnknown).1 :=
  sent_rule (fun _ ignored cid kind h => h.trans (quiet_recallOne ignored cid kind)) cid
    outcomeUnknown .refl

theorem quiet_update {key : OrderKey E I} {quantity : Decimal} {kind : OrderKind}
    {orderId : Option OrderId} (hheld : s.orders.get? key.cid = some known) :
    Quiet s (s.update key quantity kind orderId known) := by
  unfold update
  dsimp only
  split
  · exact seq_insert hheld rfl
  · exact seq_insert hheld rfl

/-! ## Room for one more -/

/-- Room is made by taking out the oldest order, and only where there is none. -/
structure Roomed (s s' : KnownLiveOrders I) : Prop where
  held : ∀ c k, s'.orders.get? c = some k → s.orders.get? c = some k
  gone : ∀ c k, s.orders.get? c = some k → s'.orders.get? c = none →
    s.orders.len = maxKnownLiveOrders ∧ ∀ d j, s.orders.get? d = some j → k.seq ≤ j.seq
  nextSeq : s'.nextSeq = s.nextSeq
  recentlyEnded : s'.recentlyEnded = s.recentlyEnded
  recalled : s'.recalled = s.recalled
  beingSent : s'.beingSent = s.beingSent

theorem Consistent.roomed (h : Consistent s) : Roomed s s.makeRoom := by
  unfold KnownLiveOrders.makeRoom
  split
  · rename_i hfull
    have hheld : 0 < s.orders.len := lt_of_lt_of_le (by decide) hfull
    obtain ⟨cid, known, hknown, holdest, heq⟩ := h.forgetOldest_eq hheld
    rw [heq]
    refine ⟨?_, ?_, rfl, rfl, rfl, rfl⟩
    · intro c k hk
      change (s.orders.remove cid).get? c = some k at hk
      rw [IndexMap.get?_remove, Option.ite_none_left_eq_some] at hk
      exact hk.2
    · intro c k hk hgone
      change (s.orders.remove cid).get? c = none at hgone
      rw [IndexMap.get?_remove] at hgone
      split at hgone
      · rename_i hc
        subst hc
        cases hknown.symm.trans hk
        exact ⟨le_antisymm h.len hfull, holdest⟩
      · cases hk.symm.trans hgone
  · have hsame : ∀ s' : KnownLiveOrders I, s'.orders = s.orders →
        ∀ c k, s.orders.get? c = some k → s'.orders.get? c = none →
          s.orders.len = maxKnownLiveOrders ∧ ∀ d j, s.orders.get? d = some j → k.seq ≤ j.seq := by
      intro s' horders c k hk hgone
      rw [horders] at hgone
      cases hk.symm.trans hgone
    split
    · exact ⟨fun _ _ h => h, hsame _ rfl, rfl, rfl, rfl, rfl⟩
    · exact ⟨fun _ _ h => h, hsame _ rfl, rfl, rfl, rfl, rfl⟩

omit [DecidableEq I] in
theorem Roomed.get?_eq_none (h : Roomed s s') (hnone : s.orders.get? c = none) :
    s'.orders.get? c = none := by
  cases hget : s'.orders.get? c with
  | none => rfl
  | some k => exact absurd (h.held c k hget) (by simp [hnone])

/-! ## Indexes -/

theorem Consistent.step (h : Consistent s) (hstep : Step s gone anew s')
    (hdiffer : VenueIdsDiffer s') : Consistent s' := by
  cases hstep with
  | ended cid => exact h.ended cid
  | same => exact h
  | update held => exact h.update held hdiffer
  | hold new _ => exact h.makeRoom.1.hold (h.roomed.get?_eq_none new) h.makeRoom.2 hdiffer
  | placing cid => exact h.same ⟨rfl, rfl, rfl, rfl, rfl⟩
  | «recall» kinds => exact recall_rule (fun _ ignored cid kind h => h.recallOne ignored cid kind) h _
  | sending cid kind =>
    unfold KnownLiveOrders.sending
    split
    · exact h
    · exact (h.resolveHeld cid kind).same ⟨rfl, rfl, rfl, rfl, rfl⟩
  | sent cid outcomeUnknown =>
    exact sent_rule (fun _ ignored cid kind h => h.recallOne ignored cid kind) cid outcomeUnknown
      (h.same ⟨rfl, rfl, rfl, rfl, rfl⟩)

/-! ## Ages -/

theorem get?_ended (cid c : ClientOrderId) :
    (s.ended cid).1.orders.get? c = if c = cid then none else s.orders.get? c := by
  unfold ended remove
  split
  · rename_i hnone
    split
    · rename_i hc
      subst hc
      exact hnone
    · rfl
  · exact IndexMap.get?_remove

theorem get?_hold (s : KnownLiveOrders I) (key : OrderKey E I) (quantity : Decimal)
    (kind : OrderKind) (orderId : Option OrderId) : ∃ known : KnownLive I, known.seq = s.nextSeq ∧
      (known.kind.isConditionalUnresolved = true → s.suppliedKind key.cid = none ∨
        ∃ supplied, s.suppliedKind key.cid = some supplied ∧
          supplied.isConditionalUnresolved = true) ∧
      ∀ c, (s.hold key quantity kind orderId).orders.get? c =
        if c = key.cid then some known else s.orders.get? c := by
  refine ⟨_, rfl, ?_, fun c => IndexMap.get?_insert⟩
  dsimp only
  cases s.suppliedKind key.cid with
  | none => exact fun _ => .inl rfl
  | some supplied =>
    intro h
    refine .inr ⟨supplied, rfl, ?_⟩
    dsimp only at h
    split at h
    · exact h
    · rename_i hresolved
      exact absurd h hresolved

/-- An order keeps its age while it is held, one that comes in is the newest, and one that is not
    held any more has ended or was the oldest of as many as are held at most. -/
structure Ages (s : KnownLiveOrders I) (gone : Option ClientOrderId) (s' : KnownLiveOrders I) :
    Prop where
  kept : ∀ c k k', s.orders.get? c = some k → s'.orders.get? c = some k' → k'.seq = k.seq
  newest : ∀ c k', s.orders.get? c = none → s'.orders.get? c = some k' →
    ∀ d j, s.orders.get? d = some j → j.seq < k'.seq
  oldest : ∀ c k, s.orders.get? c = some k → s'.orders.get? c = none →
    gone = some c ∨ (s.orders.len = maxKnownLiveOrders ∧
      (∃ d, s.orders.get? d = none ∧ s'.orders.get? d ≠ none) ∧
      ∀ d j, s.orders.get? d = some j → k.seq ≤ j.seq)

omit [DecidableEq I] in
theorem Quiet.ages (h : Quiet s s') : Ages s gone s' := by
  refine ⟨?_, ?_, ?_⟩
  · intro c k k' hk hk'
    have hseq := h c
    rw [hk, hk'] at hseq
    exact Option.some.inj hseq
  · intro c k' hnone hk'
    rw [h.get?_eq_none.2 hnone] at hk'
    cases hk'
  · intro c k hk hgone
    rw [h.get?_eq_none.1 hgone] at hk
    cases hk

theorem Consistent.ages (h : Consistent s) (hstep : Step s gone anew s') : Ages s gone s' := by
  cases hstep with
  | ended cid =>
    refine ⟨?_, ?_, ?_⟩
    · intro c k k' hk hk'
      rw [get?_ended, Option.ite_none_left_eq_some] at hk'
      cases hk.symm.trans hk'.2
      rfl
    · intro c k' hnone hk'
      rw [get?_ended, Option.ite_none_left_eq_some] at hk'
      cases hnone.symm.trans hk'.2
    · intro c k hk hgone
      rw [get?_ended] at hgone
      split at hgone
      · rename_i hc
        rw [hc]
        exact .inl rfl
      · cases hk.symm.trans hgone
  | same => exact Quiet.refl.ages
  | update held => exact (quiet_update held).ages
  | @hold _ key quantity kind orderId new out =>
    have hroomed := h.roomed
    obtain ⟨known, hseq, -, hget⟩ := get?_hold s.makeRoom key quantity kind orderId
    refine ⟨?_, ?_, ?_⟩
    · intro c k k' hk hk'
      rw [hget] at hk'
      split at hk'
      · rename_i hc
        rw [hc, new] at hk
        cases hk
      · cases hk.symm.trans (hroomed.held c k' hk')
        rfl
    · intro c k' hnone hk' d j hj
      rw [hget] at hk'
      split at hk'
      · cases hk'
        rw [hseq, hroomed.nextSeq]
        exact h.seq d j hj
      · cases hnone.symm.trans (hroomed.held c k' hk')
    · intro c k hk hgone
      rw [hget] at hgone
      split at hgone
      · cases hgone
      · obtain ⟨hfull, holdest⟩ := hroomed.gone c k hk hgone
        refine .inr ⟨hfull, ⟨key.cid, new, ?_⟩, holdest⟩
        rw [hget, if_pos rfl]
        simp
  | placing cid =>
    have hquiet : Quiet s (s.placing cid) := fun _ => rfl
    exact hquiet.ages
  | «recall» kinds => exact (quiet_recall kinds).ages
  | sending cid kind => exact (quiet_sending cid kind).ages
  | sent cid outcomeUnknown => exact (quiet_sent cid outcomeUnknown).ages

/-! ## Kinds -/

/-- The kinds supplied are resolved, and an order of an unresolved kind has none supplied. -/
structure Kinds (s : KnownLiveOrders I) : Prop where
  recalled : ∀ cid kind, s.recalled.get? cid = some kind → kind.isConditionalUnresolved = false
  beingSent : ∀ cid kind, s.beingSent.get? cid = some kind → kind.isConditionalUnresolved = false
  held : ∀ cid known, s.orders.get? cid = some known →
    known.kind.isConditionalUnresolved = true →
    s.recalled.get? cid = none ∧ s.beingSent.get? cid = none

omit [DecidableEq I] in
theorem kinds_new : Kinds (new : KnownLiveOrders I) := by
  refine ⟨?_, ?_, ?_⟩
  · intro cid kind h
    simp [new] at h
  · intro cid kind h
    simp [new] at h
  · intro cid known h
    simp [new] at h

omit [DecidableEq I] in
theorem Kinds.suppliedKind (h : Kinds s) {kind : OrderKind} (hkind : s.suppliedKind cid = some kind) :
    kind.isConditionalUnresolved = false := by
  unfold KnownLiveOrders.suppliedKind at hkind
  rcases Option.or_eq_some_iff.1 hkind with hsent | ⟨-, hrecalled⟩
  · exact h.beingSent cid kind hsent
  · exact h.recalled cid kind hrecalled

omit [DecidableEq I] in
/-- A resolved kind takes the place of an unresolved one, and no other order changes. -/
theorem get?_resolveHeld {kind : OrderKind} (hkind : kind.isConditionalUnresolved = false)
    (hheld : (s.resolveHeld cid kind).orders.get? c = some known)
    (hunresolved : known.kind.isConditionalUnresolved = true) :
    c ≠ cid ∧ s.orders.get? c = some known := by
  unfold resolveHeld at hheld
  split at hheld
  · rename_i was hwas
    split at hheld
    · change (s.orders.insert cid _).get? c = some known at hheld
      rw [IndexMap.get?_insert] at hheld
      split at hheld
      · cases hheld
        cases hkind.symm.trans hunresolved
      · rename_i hc
        exact ⟨hc, hheld⟩
    · rename_i hresolved
      refine ⟨?_, hheld⟩
      rintro rfl
      cases hwas.symm.trans hheld
      exact hresolved hunresolved
  · rename_i hnone
    refine ⟨?_, hheld⟩
    rintro rfl
    cases hnone.symm.trans hheld

omit [DecidableEq I] in
/-- A resolved kind is supplied for an order that, if held, is given it. -/
theorem Kinds.supply (h : Kinds s) (cid : ClientOrderId) {kind : OrderKind}
    (hkind : kind.isConditionalUnresolved = false)
    {m n : IndexMap ClientOrderId OrderKind}
    (hrecalled : ∀ c, m.get? c = s.recalled.get? c ∨ c = cid ∧ m.get? c = some kind)
    (hbeingSent : ∀ c, n.get? c = s.beingSent.get? c ∨ c = cid ∧ n.get? c = some kind) :
    Kinds { s.resolveHeld cid kind with recalled := m, beingSent := n } := by
  refine ⟨?_, ?_, ?_⟩
  · intro c other hother
    change m.get? c = some other at hother
    rcases hrecalled c with hsame | ⟨-, hnew⟩
    · rw [hsame] at hother
      exact h.recalled c other hother
    · cases hnew.symm.trans hother
      exact hkind
  · intro c other hother
    change n.get? c = some other at hother
    rcases hbeingSent c with hsame | ⟨-, hnew⟩
    · rw [hsame] at hother
      exact h.beingSent c other hother
    · cases hnew.symm.trans hother
      exact hkind
  · intro c known hheld hunresolved
    obtain ⟨hc, hheld⟩ := get?_resolveHeld hkind hheld hunresolved
    obtain ⟨hnone, hnone'⟩ := h.held c known hheld hunresolved
    refine ⟨?_, ?_⟩
    · rcases hrecalled c with hsame | ⟨hsame, -⟩
      · exact hsame.trans hnone
      · exact absurd hsame hc
    · rcases hbeingSent c with hsame | ⟨hsame, -⟩
      · exact hsame.trans hnone'
      · exact absurd hsame hc

omit [DecidableEq I] in
theorem resolveHeld_rest (cid : ClientOrderId) (kind : OrderKind) :
    (s.resolveHeld cid kind).recalled = s.recalled ∧
      (s.resolveHeld cid kind).beingSent = s.beingSent ∧
      (s.resolveHeld cid kind).recentlyEnded = s.recentlyEnded := by
  unfold resolveHeld
  split
  · split
    · exact ⟨rfl, rfl, rfl⟩
    · exact ⟨rfl, rfl, rfl⟩
  · exact ⟨rfl, rfl, rfl⟩

theorem get?_insert_or {m : IndexMap ClientOrderId OrderKind} {kind : OrderKind} :
    (m.insert cid kind).get? c = m.get? c ∨ c = cid ∧ (m.insert cid kind).get? c = some kind := by
  rw [IndexMap.get?_insert]
  split
  · exact .inr ⟨‹_›, rfl⟩
  · exact .inl rfl

omit [DecidableEq I] in
theorem Kinds.recallOne (h : Kinds s) (ignored : ℕ) (cid : ClientOrderId) (kind : OrderKind) :
    Kinds (s.recallOne ignored cid kind).1 := by
  unfold KnownLiveOrders.recallOne
  split
  · exact h
  · rename_i hout
    have hkind : kind.isConditionalUnresolved = false := by
      simp only [Bool.or_eq_true, not_or, Bool.not_eq_true] at hout
      exact hout.1
    obtain ⟨hrecalled, hbeingSent, -⟩ := resolveHeld_rest (s := s) cid kind
    dsimp only
    split
    · have hsupplied := h.supply cid hkind (fun c => .inl rfl) fun c => .inl rfl
      rw [← hrecalled, ← hbeingSent] at hsupplied
      exact hsupplied
    · have hsupplied := h.supply cid (m := s.recalled.insert cid kind) hkind
        (fun c => get?_insert_or) fun c => .inl rfl
      rw [← hrecalled, ← hbeingSent] at hsupplied
      exact hsupplied

omit [DecidableEq I] in
theorem Kinds.sending (h : Kinds s) (cid : ClientOrderId) (kind : OrderKind) :
    Kinds (s.sending cid kind) := by
  unfold KnownLiveOrders.sending
  split
  · exact h
  · rename_i hkind
    obtain ⟨hrecalled, hbeingSent, -⟩ := resolveHeld_rest (s := s) cid kind
    have hsupplied := h.supply cid (n := s.beingSent.insert cid kind) (Bool.eq_false_iff.2 hkind)
      (fun c => .inl rfl) fun c => get?_insert_or
    rw [← hrecalled, ← hbeingSent] at hsupplied
    exact hsupplied

omit [DecidableEq I] in
/-- Orders go, and kinds supplied go: what is left is as it was. -/
theorem Kinds.shrink (h : Kinds s)
    (horders : ∀ c k, s'.orders.get? c = some k → s.orders.get? c = some k)
    (hrecalled : ∀ c kind, s'.recalled.get? c = some kind → s.recalled.get? c = some kind)
    (hbeingSent : ∀ c kind, s'.beingSent.get? c = some kind → s.beingSent.get? c = some kind) :
    Kinds s' := by
  refine ⟨fun c kind hkind => h.recalled c kind (hrecalled c kind hkind),
    fun c kind hkind => h.beingSent c kind (hbeingSent c kind hkind), ?_⟩
  intro c known hheld hunresolved
  obtain ⟨hnone, hnone'⟩ := h.held c known (horders c known hheld) hunresolved
  constructor
  · rw [Option.eq_none_iff_forall_ne_some]
    intro kind hkind
    cases hnone.symm.trans (hrecalled c kind hkind)
  · rw [Option.eq_none_iff_forall_ne_some]
    intro kind hkind
    cases hnone'.symm.trans (hbeingSent c kind hkind)

theorem ended_rest (cid : ClientOrderId) :
    (s.ended cid).1.recalled = s.recalled.remove cid ∧
      (s.ended cid).1.beingSent = s.beingSent ∧
      (s.ended cid).1.recentlyEnded = s.recentlyEnded.put cid := by
  unfold ended remove
  split <;> exact ⟨rfl, rfl, rfl⟩

/-- The kind of an order held after a report of it is the one it had, or one that is resolved. -/
theorem kind_update {key : OrderKey E I} {quantity : Decimal} {kind : OrderKind}
    {orderId : Option OrderId} (hheld : s.orders.get? key.cid = some known)
    (hk : (s.update key quantity kind orderId known).orders.get? c = some k)
    (hunresolved : k.kind.isConditionalUnresolved = true) :
    ∃ was, s.orders.get? c = some was ∧ was.kind.isConditionalUnresolved = true := by
  have hkind : ∀ now : KnownLive I, now.kind =
      (if known.kind.isConditionalUnresolved && !kind.isConditionalUnresolved then kind
        else known.kind) → (s.orders.insert key.cid now).get? c = some k →
      ∃ was, s.orders.get? c = some was ∧ was.kind.isConditionalUnresolved = true := by
    intro now hnow hget
    rw [IndexMap.get?_insert] at hget
    split at hget
    · rename_i hc
      cases hget
      refine ⟨known, hc ▸ hheld, ?_⟩
      rw [hnow] at hunresolved
      split at hunresolved
      · rename_i hresolves
        simp only [Bool.and_eq_true] at hresolves
        exact hresolves.1
      · exact hunresolved
    · exact ⟨k, hget, hunresolved⟩
  unfold update at hk
  dsimp only at hk
  split at hk
  · exact hkind _ rfl hk
  · exact hkind _ rfl hk

theorem update_rest (key : OrderKey E I) (quantity : Decimal) (kind : OrderKind)
    (orderId : Option OrderId) (known : KnownLive I) :
    (s.update key quantity kind orderId known).recalled = s.recalled ∧
      (s.update key quantity kind orderId known).beingSent = s.beingSent ∧
      (s.update key quantity kind orderId known).recentlyEnded = s.recentlyEnded := by
  unfold update
  dsimp only
  split <;> exact ⟨rfl, rfl, rfl⟩

theorem Kinds.step (h : Kinds s) (hconsistent : Consistent s) (hstep : Step s gone anew s') :
    Kinds s' := by
  cases hstep with
  | ended cid =>
    obtain ⟨hrecalled, hbeingSent, -⟩ := ended_rest (s := s) cid
    refine h.shrink ?_ ?_ ?_
    · intro c k hk
      rw [get?_ended, Option.ite_none_left_eq_some] at hk
      exact hk.2
    · intro c kind hkind
      rw [hrecalled, IndexMap.get?_remove, Option.ite_none_left_eq_some] at hkind
      exact hkind.2
    · rw [hbeingSent]
      exact fun _ _ => id
  | same => exact h
  | @update _ key quantity kind orderId known held =>
    obtain ⟨hrecalled, hbeingSent, -⟩ := update_rest (s := s) key quantity kind orderId known
    refine ⟨?_, ?_, ?_⟩
    · rw [hrecalled]
      exact h.recalled
    · rw [hbeingSent]
      exact h.beingSent
    · intro c k hk hunresolved
      obtain ⟨was, hwas, hunresolved⟩ := kind_update held hk hunresolved
      rw [hrecalled, hbeingSent]
      exact h.held c was hwas hunresolved
  | @hold _ key quantity kind orderId new out =>
    have hroomed := hconsistent.roomed
    obtain ⟨known, -, hkind, hget⟩ := get?_hold s.makeRoom key quantity kind orderId
    have hroom : Kinds s.makeRoom := by
      refine h.shrink hroomed.held ?_ ?_
      · rw [hroomed.recalled]
        exact fun _ _ => id
      · rw [hroomed.beingSent]
        exact fun _ _ => id
    refine ⟨hroom.recalled, hroom.beingSent, ?_⟩
    intro c k hk hunresolved
    rw [hget] at hk
    split at hk
    · rename_i hc
      cases hk
      rcases hkind hunresolved with hnone | ⟨supplied, hsupplied, hunresolved⟩
      · unfold KnownLiveOrders.suppliedKind at hnone
        rw [Option.or_eq_none_iff] at hnone
        rw [hc]
        exact ⟨hnone.2, hnone.1⟩
      · cases (hroom.suppliedKind hsupplied).symm.trans hunresolved
    · exact hroom.held c k hk hunresolved
  | placing cid => exact ⟨h.recalled, h.beingSent, h.held⟩
  | «recall» kinds => exact recall_rule (fun _ ignored cid kind h => h.recallOne ignored cid kind) h _
  | sending cid kind => exact h.sending cid kind
  | sent cid outcomeUnknown =>
    refine sent_rule (fun _ ignored cid kind h => h.recallOne ignored cid kind) cid outcomeUnknown ?_
    refine h.shrink (fun _ _ => id) (fun _ _ => id) ?_
    intro c kind hkind
    change (s.beingSent.remove cid).get? c = some kind at hkind
    rw [IndexMap.get?_remove, Option.ite_none_left_eq_some] at hkind
    exact hkind.2

/-! ## Ended orders -/

omit [DecidableEq I] in
theorem recallOne_recentlyEnded (ignored : ℕ) (cid : ClientOrderId) (kind : OrderKind) :
    (s.recallOne ignored cid kind).1.recentlyEnded = s.recentlyEnded := by
  unfold recallOne
  split
  · rfl
  · dsimp only
    split
    · exact (resolveHeld_rest cid kind).2.2
    · exact (resolveHeld_rest cid kind).2.2

/-- The memory of ended orders after one has ended, or after an id is let name a new one. -/
def remembered (memory : BoundedFifo ClientOrderId recentlyEndedCapacity) :
    Option ClientOrderId → Option ClientOrderId →
      BoundedFifo ClientOrderId recentlyEndedCapacity
  | some cid, _ => memory.put cid
  | none, some cid => memory.forget cid
  | none, none => memory

theorem Step.recentlyEnded (hconsistent : Consistent s) (hstep : Step s gone anew s') :
    s'.recentlyEnded = remembered s.recentlyEnded gone anew := by
  cases hstep with
  | ended cid => exact (ended_rest cid).2.2
  | same => rfl
  | @update _ key quantity kind orderId known _ =>
    exact (update_rest key quantity kind orderId known).2.2
  | hold _ _ => exact hconsistent.roomed.recentlyEnded
  | placing cid => rfl
  | «recall» kinds =>
    exact recall_rule (P := fun t => t.recentlyEnded = s.recentlyEnded)
      (fun t ignored cid kind h => (recallOne_recentlyEnded ignored cid kind).trans h) rfl kinds
  | sending cid kind =>
    unfold KnownLiveOrders.sending
    split
    · rfl
    · exact (resolveHeld_rest cid kind).2.2
  | sent cid outcomeUnknown =>
    exact sent_rule (P := fun t => t.recentlyEnded = s.recentlyEnded)
      (fun t ignored cid kind h => (recallOne_recentlyEnded ignored cid kind).trans h) cid
      outcomeUnknown rfl

/-- No order that is remembered as ended is held. -/
def EndedOut (s : KnownLiveOrders I) : Prop :=
  ∀ cid ∈ s.recentlyEnded.items, s.orders.get? cid = none

theorem EndedOut.step (h : EndedOut s) (hconsistent : Consistent s)
    (hstep : Step s gone anew s') : EndedOut s' := by
  have hmemory := hstep.recentlyEnded hconsistent
  have hquiet : Quiet s s' → s'.recentlyEnded = s.recentlyEnded → EndedOut s' := by
    intro hquiet hsame cid hcid
    rw [hsame] at hcid
    exact hquiet.get?_eq_none.2 (h cid hcid)
  cases hstep with
  | ended cid =>
    intro c hc
    rw [hmemory] at hc
    rw [get?_ended]
    split
    · rfl
    · rename_i hne
      exact h c ((BoundedFifo.mem_of_mem_put hc).resolve_right hne)
  | same => exact h
  | update held => exact hquiet (quiet_update held) hmemory
  | @hold _ key quantity kind orderId new out =>
    obtain ⟨known, -, -, hget⟩ := get?_hold s.makeRoom key quantity kind orderId
    intro c hc
    rw [hmemory] at hc
    rw [hget]
    split
    · rename_i hsame
      exact absurd (hsame ▸ hc) out
    · exact hconsistent.roomed.get?_eq_none (h c hc)
  | placing cid =>
    intro c hc
    exact h c (List.mem_of_mem_filter hc)
  | «recall» kinds => exact hquiet (quiet_recall kinds) hmemory
  | sending cid kind => exact hquiet (quiet_sending cid kind) hmemory
  | sent cid outcomeUnknown => exact hquiet (quiet_sent cid outcomeUnknown) hmemory

/-! ## Runs -/

variable {calls : List (Call E A I)} {call : Call E A I}

theorem run_append (calls calls' : List (Call E A I)) :
    s.run (calls ++ calls') = (s.run calls).run calls' := List.foldl_append

theorem run_concat : s.run (calls ++ [call]) = (s.run calls).apply call := run_append calls [call]

/-- The venue's ids tell the orders held on an instrument apart, all along a run. -/
def IdsDiffer (s : KnownLiveOrders I) (calls : List (Call E A I)) : Prop :=
  ∀ front, front <+: calls → VenueIdsDiffer (s.run front)

theorem IdsDiffer.tail (h : IdsDiffer s (call :: calls)) : IdsDiffer (s.apply call) calls :=
  fun front hfront => h (call :: front) (List.cons_prefix_cons.2 ⟨rfl, hfront⟩)

theorem IdsDiffer.head (h : IdsDiffer s (call :: calls)) : VenueIdsDiffer (s.apply call) :=
  h [call] (List.cons_prefix_cons.2 ⟨rfl, List.nil_prefix⟩)

/-- What every run keeps. -/
structure Sound (s : KnownLiveOrders I) : Prop where
  consistent : Consistent s
  kinds : Kinds s
  endedOut : EndedOut s

theorem Sound.step (h : Sound s) (hstep : Step s gone anew s') (hdiffer : VenueIdsDiffer s') :
    Sound s' :=
  ⟨h.consistent.step hstep hdiffer, h.kinds.step h.consistent hstep,
    h.endedOut.step h.consistent hstep⟩

theorem sound_new : Sound (new : KnownLiveOrders I) := by
  refine ⟨consistent_new, kinds_new, ?_⟩
  intro cid hcid
  exact absurd hcid List.not_mem_nil

theorem Sound.run (h : Sound s) (hdiffer : IdsDiffer s calls) : Sound (s.run calls) := by
  induction calls generalizing s with
  | nil => exact h
  | cons call calls ih => exact ih (h.step (step_apply call) hdiffer.head) hdiffer.tail

/-- The ids that a run of calls records as ended. -/
def endedIn (s : KnownLiveOrders I) : List (Call E A I) → List ClientOrderId
  | [] => []
  | call :: calls => (s.endedBy call).toList ++ endedIn (s.apply call) calls

/-- An id is remembered as ended with only ids behind it that have ended since. -/
theorem covered_run {newer : Finset ClientOrderId} (h : Sound s) (hdiffer : IdsDiffer s calls)
    (hplacing : .placing cid ∉ calls) (hcovered : s.recentlyEnded.Covered cid newer) :
    (s.run calls).recentlyEnded.Covered cid (newer ∪ (endedIn s calls).toFinset) := by
  induction calls generalizing s newer with
  | nil => exact hcovered.mono Finset.subset_union_left
  | cons call calls ih =>
    have hstep := step_apply (s := s) call
    have hmemory := hstep.recentlyEnded h.consistent
    have hnext : (s.apply call).recentlyEnded.Covered cid (newer ∪ (s.endedBy call).toList.toFinset) := by
      rw [hmemory]
      cases s.endedBy call with
      | some c =>
        by_cases hc : c = cid
        · subst hc
          exact BoundedFifo.covered_put_self.mono (Finset.empty_subset _)
        · refine (hcovered.put hc).mono ?_
          simp
      | none =>
        cases hanew : placingOf call with
        | none => exact hcovered.mono Finset.subset_union_left
        | some c =>
          have hne : c ≠ cid := by
            rintro rfl
            cases call with
            | placing c =>
              cases hanew
              exact hplacing (List.mem_cons_self ..)
            | _ => cases hanew
          exact (hcovered.forget hne).mono Finset.subset_union_left
    have hrest := ih (h.step hstep hdiffer.head) hdiffer.tail
      (fun hmem => hplacing (List.mem_cons_of_mem call hmem)) hnext
    rw [endedIn, List.toFinset_append, ← Finset.union_assoc]
    exact hrest

/-- An id recorded as ended stays out until it is let name a new order, or until as many others
    have ended since as are remembered. -/
theorem stays_out (h : Sound s) (hover : s.endedBy call = some cid)
    (hdiffer : IdsDiffer s (call :: calls)) (hplacing : .placing cid ∉ calls)
    (hcard : ((endedIn (s.apply call) calls).toFinset.erase cid).card < recentlyEndedCapacity) :
    ((s.apply call).run calls).orders.get? cid = none := by
  have hstep := step_apply (s := s) call
  have hnext := h.step hstep hdiffer.head
  have hmemory := hstep.recentlyEnded h.consistent
  rw [hover] at hmemory
  have hcovered : (s.apply call).recentlyEnded.Covered cid ∅ := by
    rw [hmemory]
    exact BoundedFifo.covered_put_self
  have hlater := covered_run hnext hdiffer.tail hplacing hcovered
  rw [Finset.empty_union] at hlater
  exact (hnext.run hdiffer.tail).endedOut cid (hlater.mem hcard)

omit [DecidableEq I] in
theorem venueIdsDiffer_iff : VenueIdsDiffer s ↔ ∀ e ∈ s.orders.entries, ∀ f ∈ s.orders.entries,
    e.2.instrument = f.2.instrument → e.2.orderId ≠ none → e.2.orderId = f.2.orderId →
    e.1 = f.1 := by
  constructor
  · rintro h ⟨cid, known⟩ he ⟨c, k⟩ hf hinstrument hassigned hsame
    obtain ⟨orderId, hid⟩ := Option.ne_none_iff_exists'.1 hassigned
    exact h cid known c k orderId (IndexMap.get?_eq_some_iff.2 he) (IndexMap.get?_eq_some_iff.2 hf)
      hinstrument hid (hsame ▸ hid)
  · intro h cid known c k orderId hcid hc hinstrument hid hid'
    exact h (cid, known) (IndexMap.get?_eq_some_iff.1 hcid) (c, k) (IndexMap.get?_eq_some_iff.1 hc)
      hinstrument (by simp [hid]) (hid.trans hid'.symm)

/-- A live report of an order on the only instrument. -/
def reportedLive (cid orderId : String) : Call Unit Unit Unit :=
  .live ⟨(), (), ⟨"strategy"⟩, ⟨cid⟩⟩ 1 .limit ⟨.assigned ⟨orderId⟩, 0, 0⟩

end KnownLiveOrders

end Rustrade.Recovery
