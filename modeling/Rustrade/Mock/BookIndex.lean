import Rustrade.Mock.Ledger

/-!
# The indices of the book stay in step

Every open order stands in the index its placement names: a priced one in its queue, at its price,
its time and its number, unless it was held; a held one on its instrument's list. An order with a
deadline is in the expiries. Entering, holding, handing out the held and removing keep all of that.
-/

set_option autoImplicit false

namespace Rustrade.Mock

namespace QueuePosition

variable {side : Side} {price : Decimal} {timeExchange : DateTime}

theorem le_iff {p q : QueuePosition} : p ≤ q ↔
    toLex (p.priceRank, toLex (p.timeExchange, p.seq)) ≤
      toLex (q.priceRank, toLex (q.timeExchange, q.seq)) := Iff.rfl

/-- The first position a price and an arrival allow is before every other they allow. -/
theorem new_zero_le (seq : Nat) : new side price timeExchange 0 ≤ new side price timeExchange seq := by
  rw [le_iff]
  simp [new, Prod.Lex.toLex_le_toLex]

end QueuePosition

namespace OpenOrders

variable (book : OpenOrders)

/-- The queue an order stands in. -/
def queueKey (order : OpenOrder) : QueueKey := ⟨order.key.instrument, order.side⟩

/-- `cid` stands at `position` in the queue of `key`. -/
def QueuedAt (key : QueueKey) (position : QueuePosition) (cid : ClientOrderId) : Prop :=
  ∃ queue, book.queues[key]? = some queue ∧ queue[position]? = some cid

/-- The indices agree with the orders they index. -/
structure Indexed : Prop where
  keyed : ∀ (cid : ClientOrderId) (resting : RestingOrder),
    book.byId[cid]? = some resting → resting.order.key.cid = cid
  /-- An empty queue is dropped. -/
  queues : ∀ (key : QueueKey) (queue : BTreeMap QueuePosition ClientOrderId),
    book.queues[key]? = some queue → queue ≠ ∅
  /-- What stands in a queue is a priced order that was not held, where its fields rank it. -/
  queued : ∀ key position cid, book.QueuedAt key position cid →
    ∃ resting price, book.byId[cid]? = some resting ∧ cid ∉ book.unqueued ∧
      resting.order.price = some price ∧ key = queueKey resting.order ∧
      position = .new resting.order.side price resting.order.state.timeExchange position.seq ∧
      position.seq ≤ book.seq
  /-- Each position has a number of its own, and each order stands in one. -/
  once : ∀ key position cid key' position' cid', book.QueuedAt key position cid →
    book.QueuedAt key' position' cid' → (position.seq = position'.seq ↔ cid = cid')
  /-- A priced order that was not held stands in its queue. -/
  complete : ∀ (cid : ClientOrderId) (resting : RestingOrder),
    book.byId[cid]? = some resting → resting.order.price.isSome = true → cid ∉ book.unqueued →
      ∃ position, book.QueuedAt (queueKey resting.order) position cid
  unqueued : ∀ cid ∈ book.unqueued, ∃ resting, book.byId[cid]? = some resting ∧
    resting.order.price.isSome = true
  held : ∀ (instrument : InstrumentNameExchange) (cids : List ClientOrderId),
    book.held[instrument]? = some cids → cids ≠ [] ∧ cids.Nodup ∧
      ∀ cid ∈ cids, ∃ resting, book.byId[cid]? = some resting ∧
        resting.order.key.instrument = instrument ∧
        (resting.order.price.isSome = true → cid ∈ book.unqueued)
  expiries : ∀ (expiry : DateTime) (cid : ClientOrderId), (⟨expiry, cid⟩ : Deadline) ∈ book.expiries ↔
    ∃ resting, book.byId[cid]? = some resting ∧ deadlineOf resting.order = some expiry

variable {book : OpenOrders} {order : OpenOrder} {reservation : Option Reservation}
  {cid : ClientOrderId}

/-! ## Ids that are not open -/

namespace Indexed

theorem not_queuedAt (h : book.Indexed) (hnone : book.byId[cid]? = none) {key : QueueKey}
    {position : QueuePosition} : ¬ book.QueuedAt key position cid := by
  intro hat
  obtain ⟨_, _, hsome, _⟩ := h.queued _ _ _ hat
  simp [hnone] at hsome

theorem not_unqueued (h : book.Indexed) (hnone : book.byId[cid]? = none) :
    cid ∉ book.unqueued := by
  intro hmem
  obtain ⟨_, hsome, _⟩ := h.unqueued _ hmem
  simp [hnone] at hsome

/-- A held order is held on its own instrument. -/
theorem mem_heldOn (h : book.Indexed) {instrument : InstrumentNameExchange}
    (hmem : cid ∈ book.heldOn instrument) : ∃ resting, book.byId[cid]? = some resting ∧
      resting.order.key.instrument = instrument ∧
      (resting.order.price.isSome = true → cid ∈ book.unqueued) := by
  unfold heldOn at hmem
  cases hcids : book.held[instrument]? with
  | none => simp [hcids] at hmem
  | some cids =>
    rw [hcids] at hmem
    exact (h.held _ _ hcids).2.2 cid hmem

theorem nodup_heldOn (h : book.Indexed) (instrument : InstrumentNameExchange) :
    (book.heldOn instrument).Nodup := by
  unfold heldOn
  cases hcids : book.held[instrument]? with
  | none => exact List.nodup_nil
  | some cids => exact (h.held _ _ hcids).2.1

end Indexed

/-! ## The empty book -/

theorem default_indexed : default.Indexed where
  keyed := by simp [default]
  queues := by simp [default]
  queued := by
    rintro key position cid ⟨queue, hqueue, -⟩
    simp [default] at hqueue
  once := by
    rintro key position cid _ _ _ ⟨queue, hqueue, -⟩
    simp [default] at hqueue
  complete := by simp [default]
  unqueued := by simp [default]
  held := by simp [default]
  expiries := by simp [default]

/-! ## Entering -/

/-- The expiries of a book with one more order. -/
def expiriesWith (book : OpenOrders) (order : OpenOrder) : BTreeSet Deadline :=
  match deadlineOf order with
  | some expiry => book.expiries.insert ⟨expiry, order.key.cid⟩
  | none => book.expiries

/-- The queues of a book with one more order, at the back of its price. -/
def queuesWith (book : OpenOrders) (order : OpenOrder) (price : Decimal) :
    BTreeMap QueueKey (BTreeMap QueuePosition ClientOrderId) :=
  book.queues.insert (queueKey order)
    ((book.queues[queueKey order]?.getD ∅).insert
      (.new order.side price order.state.timeExchange (book.seq + 1)) order.key.cid)

/-- What entering an order does. -/
theorem index_ok {queue : Bool} {after : OpenOrders}
    (h : book.index order reservation queue = .ok after) :
    book.byId[order.key.cid]? = none ∧
      after = { book with
        byId := book.byId.insert order.key.cid ⟨order, reservation⟩
        expiries := book.expiriesWith order
        queues := (order.price.filter fun _ => queue).elim book.queues (book.queuesWith order)
        seq := (order.price.filter fun _ => queue).elim book.seq fun _ => book.seq + 1 } := by
  cases hget : book.byId[order.key.cid]? with
  | some resting =>
    simp only [index, hget] at h
    cases h
  | none =>
    refine ⟨rfl, ?_⟩
    simp only [index, hget] at h
    rw [← Except.ok.inj h]
    unfold expiriesWith
    cases hplaced : order.price.filter fun _ => queue <;> cases deadlineOf order <;> rfl

/-- An entry is refused only where another is open under its id. -/
theorem index_error {queue : Bool} {refused : AlreadyResting}
    (h : book.index order reservation queue = .error refused) :
    book.contains order.key.cid = true := by
  cases hget : book.byId[order.key.cid]? with
  | some resting =>
    rw [contains, Std.ExtTreeMap.contains_eq_isSome_getElem?, hget]
    rfl
  | none =>
    simp only [index, hget] at h
    cases h

theorem queuedAt_queuesWith {price : Decimal} {key : QueueKey} {position : QueuePosition} :
    ({ book with queues := book.queuesWith order price } : OpenOrders).QueuedAt key position cid ↔
      if key = queueKey order ∧
          position = .new order.side price order.state.timeExchange (book.seq + 1) then
        cid = order.key.cid
      else book.QueuedAt key position cid := by
  unfold QueuedAt queuesWith
  dsimp only
  by_cases hkey : key = queueKey order
  · subst hkey
    simp only [BTreeMap.get?_insert, if_true, Option.some.injEq, exists_eq_left', true_and]
    simp only [eq_comm (a := position)]
    split
    · simp [eq_comm]
    · cases hqueue : book.queues[queueKey order]? <;> simp
  · simp [BTreeMap.get?_insert, Ne.symm hkey, hkey]

/-- The orders of a book with one more. -/
def byIdWith (book : OpenOrders) (order : OpenOrder) (reservation : Option Reservation) :
    BTreeMap ClientOrderId RestingOrder :=
  book.byId.insert order.key.cid ⟨order, reservation⟩

section

variable (h : book.Indexed) (hnone : book.byId[order.key.cid]? = none)

include hnone in
theorem byIdWith_of_some {resting : RestingOrder} (hsome : book.byId[cid]? = some resting) :
    (book.byIdWith order reservation)[cid]? = some resting := by
  rw [byIdWith, BTreeMap.get?_insert_of_ne, hsome]
  rintro rfl
  simp [hnone] at hsome

theorem byIdWith_self :
    (book.byIdWith order reservation)[order.key.cid]? = some ⟨order, reservation⟩ :=
  Std.ExtTreeMap.getElem?_insert_self

theorem byIdWith_cases {resting : RestingOrder}
    (hsome : (book.byIdWith order reservation)[cid]? = some resting) :
    cid = order.key.cid ∧ resting = ⟨order, reservation⟩ ∨
      cid ≠ order.key.cid ∧ book.byId[cid]? = some resting := by
  rw [byIdWith, BTreeMap.get?_insert] at hsome
  split at hsome
  · rename_i heq
    cases hsome
    exact .inl ⟨heq.symm, rfl⟩
  · rename_i hne
    exact .inr ⟨Ne.symm hne, hsome⟩

include h in
theorem keyed_with {resting : RestingOrder}
    (hsome : (book.byIdWith order reservation)[cid]? = some resting) :
    resting.order.key.cid = cid := by
  obtain ⟨rfl, rfl⟩ | ⟨-, hold⟩ := byIdWith_cases hsome
  · rfl
  · exact h.keyed _ _ hold

include h hnone in
theorem expiries_with {expiry : DateTime} : (⟨expiry, cid⟩ : Deadline) ∈ book.expiriesWith order ↔
    ∃ resting, (book.byIdWith order reservation)[cid]? = some resting ∧
      deadlineOf resting.order = some expiry := by
  by_cases hcid : cid = order.key.cid
  · subst hcid
    have hfresh : (⟨expiry, order.key.cid⟩ : Deadline) ∉ book.expiries := by
      rw [h.expiries]
      simp [hnone]
    unfold expiriesWith
    cases hdeadline : deadlineOf order with
    | none => simp [hfresh, byIdWith_self, hdeadline]
    | some deadline =>
      simp [hfresh, byIdWith_self, hdeadline]
  · have hsame : (book.byIdWith order reservation)[cid]? = book.byId[cid]? :=
      BTreeMap.get?_insert_of_ne (Ne.symm hcid)
    rw [hsame, ← h.expiries]
    unfold expiriesWith
    cases deadlineOf order with
    | none => rfl
    | some deadline => simp [Ne.symm hcid]

end

/-- An order put in its queue, or left out of every queue for want of a price. -/
theorem insert_indexed {after : OpenOrders} (h : book.Indexed)
    (hok : book.insert order reservation = .ok after) : after.Indexed := by
  obtain ⟨hnone, rfl⟩ := index_ok hok
  have hfresh : order.key.cid ∉ book.unqueued := h.not_unqueued hnone
  have hheld : ∀ (instrument : InstrumentNameExchange) (cids : List ClientOrderId),
      book.held[instrument]? = some cids → cids ≠ [] ∧ cids.Nodup ∧
        ∀ cid ∈ cids, ∃ resting, (book.byIdWith order reservation)[cid]? = some resting ∧
          resting.order.key.instrument = instrument ∧
          (resting.order.price.isSome = true → cid ∈ book.unqueued) := by
    intro instrument cids hcids
    obtain ⟨hne, hnodup, hall⟩ := h.held _ _ hcids
    refine ⟨hne, hnodup, fun cid hcid => ?_⟩
    obtain ⟨resting, hsome, hrest⟩ := hall cid hcid
    exact ⟨resting, byIdWith_of_some hnone hsome, hrest⟩
  have hunqueued : ∀ cid ∈ book.unqueued, ∃ resting,
      (book.byIdWith order reservation)[cid]? = some resting ∧
        resting.order.price.isSome = true := by
    intro cid hcid
    obtain ⟨resting, hsome, hprice⟩ := h.unqueued cid hcid
    exact ⟨resting, byIdWith_of_some hnone hsome, hprice⟩
  cases hprice : order.price with
  | none =>
    simp only [Option.filter_none, Option.elim_none]
    refine
      { keyed := fun _ _ => keyed_with h
        queues := h.queues
        queued := ?_
        once := h.once
        complete := ?_
        unqueued := hunqueued
        held := hheld
        expiries := fun _ _ => expiries_with h hnone }
    · intro key position cid hat
      obtain ⟨resting, price, hsome, hrest⟩ := h.queued _ _ _ hat
      exact ⟨resting, price, byIdWith_of_some hnone hsome, hrest⟩
    · intro cid resting hsome hpriced hnot
      obtain ⟨rfl, rfl⟩ | ⟨-, hold⟩ := byIdWith_cases hsome
      · simp [hprice] at hpriced
      · exact h.complete _ _ hold hpriced hnot
  | some price =>
    simp only [Option.filter_some, if_true, Option.elim_some]
    -- Where the order is put: no position has its number yet.
    set place := QueuePosition.new order.side price order.state.timeExchange (book.seq + 1)
      with hplace
    have hseq : place.seq = book.seq + 1 := rfl
    set after : OpenOrders := { book with
      byId := book.byIdWith order reservation
      expiries := book.expiriesWith order
      queues := book.queuesWith order price
      seq := book.seq + 1 } with hafter
    show after.Indexed
    have hat : ∀ key position cid, after.QueuedAt key position cid →
        key = queueKey order ∧ position = place ∧ cid = order.key.cid ∨
          cid ≠ order.key.cid ∧ book.QueuedAt key position cid := by
      intro key position cid hqueued
      have := queuedAt_queuesWith.1 hqueued
      split at this
      · rename_i hsame
        exact .inl ⟨hsame.1, hsame.2, this⟩
      · refine .inr ⟨?_, this⟩
        rintro rfl
        exact h.not_queuedAt hnone this
    have hlow : ∀ key position cid, book.QueuedAt key position cid →
        position.seq ≤ book.seq := by
      intro key position cid hqueued
      obtain ⟨_, _, _, _, _, _, _, hle⟩ := h.queued _ _ _ hqueued
      exact hle
    have hold : ∀ key position cid, book.QueuedAt key position cid →
        after.QueuedAt key position cid := by
      intro key position cid hqueued
      apply queuedAt_queuesWith.2
      rw [if_neg]
      · exact hqueued
      · rintro ⟨-, rfl⟩
        have := hlow _ _ _ hqueued
        rw [← hplace, hseq] at this
        omega
    refine
      { keyed := fun _ _ => keyed_with h
        queues := ?_
        queued := ?_
        once := ?_
        complete := ?_
        unqueued := hunqueued
        held := hheld
        expiries := fun _ _ => expiries_with h hnone }
    · intro key queue hqueue
      simp only [hafter, queuesWith, BTreeMap.get?_insert] at hqueue
      split at hqueue
      · cases hqueue
        intro hempty
        have := congrArg (fun q : BTreeMap QueuePosition ClientOrderId => q[place]?) hempty
        simp [hplace] at this
      · exact h.queues _ _ hqueue
    · intro key position cid hqueued
      obtain ⟨rfl, rfl, rfl⟩ | ⟨-, hqueued⟩ := hat _ _ _ hqueued
      · exact ⟨_, price, byIdWith_self, hfresh, hprice, rfl, rfl, le_rfl⟩
      · obtain ⟨resting, found, hsome, hnot, hfound, hkey, hposition, hle⟩ :=
          h.queued _ _ _ hqueued
        exact ⟨resting, found, byIdWith_of_some hnone hsome, hnot, hfound, hkey, hposition,
          Nat.le_succ_of_le hle⟩
    · intro key position cid key' position' cid' hqueued hqueued'
      obtain ⟨rfl, rfl, rfl⟩ | ⟨hne, hqueued⟩ := hat _ _ _ hqueued
      · obtain ⟨rfl, rfl, rfl⟩ | ⟨hne, hqueued'⟩ := hat _ _ _ hqueued'
        · simp
        · have := hlow _ _ _ hqueued'
          constructor
          · intro hsame
            omega
          · intro hsame
            exact absurd hsame.symm hne
      · obtain ⟨rfl, rfl, rfl⟩ | ⟨-, hqueued'⟩ := hat _ _ _ hqueued'
        · have := hlow _ _ _ hqueued
          constructor
          · intro hsame
            omega
          · intro hsame
            exact absurd hsame hne
        · exact h.once _ _ _ _ _ _ hqueued hqueued'
    · intro cid resting hsome hpriced hnot
      obtain ⟨rfl, rfl⟩ | ⟨-, hprior⟩ := byIdWith_cases hsome
      · exact ⟨place, queuedAt_queuesWith.2 (by rw [if_pos ⟨rfl, rfl⟩])⟩
      · obtain ⟨position, hqueued⟩ := h.complete _ _ hprior hpriced hnot
        exact ⟨position, hold _ _ _ hqueued⟩

/-- What holding an order does. -/
theorem hold_ok {after : OpenOrders} (h : book.hold order reservation = .ok after) :
    book.byId[order.key.cid]? = none ∧
      after = { book with
        byId := book.byIdWith order reservation
        expiries := book.expiriesWith order
        unqueued := if order.price.isSome then book.unqueued.insert order.key.cid
          else book.unqueued
        held := book.held.insert order.key.instrument
          (book.heldOn order.key.instrument ++ [order.key.cid]) } := by
  obtain ⟨entered, hentered, h⟩ := Except.bind_eq_ok.1 h
  obtain ⟨hnone, rfl⟩ := index_ok hentered
  rw [← Except.pure_eq_ok.1 h]
  refine ⟨hnone, ?_⟩
  cases order.price <;> rfl

theorem hold_indexed {after : OpenOrders} (h : book.Indexed)
    (hok : book.hold order reservation = .ok after) : after.Indexed := by
  obtain ⟨hnone, hafter⟩ := hold_ok hok
  have hunq : ∀ cid, cid ∈ after.unqueued ↔
      cid ∈ book.unqueued ∨ cid = order.key.cid ∧ order.price.isSome = true := by
    intro cid
    rw [hafter]
    cases order.price with
    | none => simp
    | some price =>
      simp only [Option.isSome_some, if_true, BTreeSet.mem_insert, and_true]
      rw [or_comm, eq_comm]
  have hbyId : after.byId = book.byIdWith order reservation := by rw [hafter]
  have hqueues : after.queues = book.queues := by rw [hafter]
  have hat : ∀ key position cid, after.QueuedAt key position cid ↔
      book.QueuedAt key position cid := by
    intro key position cid
    unfold QueuedAt
    rw [hqueues]
  have hseq : after.seq = book.seq := by rw [hafter]
  have hheldAt : after.held = book.held.insert order.key.instrument
      (book.heldOn order.key.instrument ++ [order.key.cid]) := by rw [hafter]
  have hexpiries : after.expiries = book.expiriesWith order := by rw [hafter]
  refine
    { keyed := ?_
      queues := ?_
      queued := ?_
      once := ?_
      complete := ?_
      unqueued := ?_
      held := ?_
      expiries := ?_ }
  · rw [hbyId]
    exact fun _ _ => keyed_with h
  · rw [hqueues]
    exact h.queues
  · intro key position cid hqueued
    rw [hat] at hqueued
    obtain ⟨resting, price, hsome, hnot, hrest⟩ := h.queued _ _ _ hqueued
    rw [hbyId, hseq]
    refine ⟨resting, price, byIdWith_of_some hnone hsome, ?_, hrest⟩
    rw [hunq]
    rintro (hmem | ⟨rfl, -⟩)
    · exact hnot hmem
    · simp [hnone] at hsome
  · intro key position cid key' position' cid' hqueued hqueued'
    exact h.once _ _ _ _ _ _ ((hat _ _ _).1 hqueued) ((hat _ _ _).1 hqueued')
  · intro cid resting hsome hpriced hnot
    rw [hbyId] at hsome
    rw [hunq, not_or] at hnot
    obtain ⟨rfl, rfl⟩ | ⟨-, hprior⟩ := byIdWith_cases hsome
    · exact absurd ⟨rfl, hpriced⟩ hnot.2
    · obtain ⟨position, hqueued⟩ := h.complete _ _ hprior hpriced hnot.1
      exact ⟨position, (hat _ _ _).2 hqueued⟩
  · intro cid hmem
    rw [hbyId]
    obtain hmem | ⟨rfl, hpriced⟩ := (hunq cid).1 hmem
    · obtain ⟨resting, hsome, hpriced⟩ := h.unqueued cid hmem
      exact ⟨resting, byIdWith_of_some hnone hsome, hpriced⟩
    · exact ⟨_, byIdWith_self, hpriced⟩
  · intro instrument cids hcids
    rw [hheldAt, BTreeMap.get?_insert] at hcids
    have hkept : ∀ cid ∈ book.heldOn instrument, ∃ resting,
        after.byId[cid]? = some resting ∧ resting.order.key.instrument = instrument ∧
          (resting.order.price.isSome = true → cid ∈ after.unqueued) := by
      intro cid hcid
      obtain ⟨resting, hsome, hinstrument, hunqueued⟩ := h.mem_heldOn hcid
      rw [hbyId]
      exact ⟨resting, byIdWith_of_some hnone hsome, hinstrument,
        fun hpriced => (hunq cid).2 (.inl (hunqueued hpriced))⟩
    split at hcids
    · rename_i hsame
      subst hsame
      cases hcids
      refine ⟨by simp, ?_, ?_⟩
      · rw [List.nodup_append]
        refine ⟨h.nodup_heldOn _, List.nodup_singleton _, ?_⟩
        intro cid hcid other hother
        rw [List.mem_singleton.1 hother]
        rintro rfl
        obtain ⟨resting, hsome, -⟩ := h.mem_heldOn hcid
        simp [hnone] at hsome
      · intro cid hcid
        obtain hcid | hcid := List.mem_append.1 hcid
        · exact hkept cid hcid
        · rw [List.mem_singleton.1 hcid, hbyId]
          exact ⟨_, byIdWith_self, rfl, fun hpriced => (hunq _).2 (.inr ⟨rfl, hpriced⟩)⟩
    · obtain ⟨hne, hnodup, -⟩ := h.held _ _ hcids
      refine ⟨hne, hnodup, fun cid hcid => hkept cid ?_⟩
      simpa [heldOn, hcids] using hcid
  · intro expiry cid
    rw [hexpiries, hbyId]
    exact expiries_with h hnone

/-! ## Handing out the held -/

theorem takeHeld_indexed (h : book.Indexed) (instrument : InstrumentNameExchange) :
    (book.takeHeld instrument).2.Indexed :=
  { h with
    held := by
      intro other cids hcids
      simp only [takeHeld, BTreeMap.get?_erase] at hcids
      split at hcids
      · cases hcids
      · exact h.held _ _ hcids }

/-! ## Leaving -/

/-- `after` is `before` without the order open under `cid`. -/
structure Removed (before : OpenOrders) (cid : ClientOrderId) (after : OpenOrders) : Prop where
  byId : after.byId = before.byId.erase cid
  unqueued : after.unqueued = before.unqueued.erase cid
  queues : ∀ (key : QueueKey) (queue : BTreeMap QueuePosition ClientOrderId),
    after.queues[key]? = some queue → queue ≠ ∅
  queuedAt : ∀ key position other, after.QueuedAt key position other ↔
    other ≠ cid ∧ before.QueuedAt key position other
  held : ∀ (instrument : InstrumentNameExchange) (cids : List ClientOrderId),
    after.held[instrument]? = some cids → cids ≠ []
  heldOn : ∀ instrument,
    after.heldOn instrument = (before.heldOn instrument).filter fun other => other ≠ cid
  expiries : ∀ expiry other, (⟨expiry, other⟩ : Deadline) ∈ after.expiries ↔
    other ≠ cid ∧ (⟨expiry, other⟩ : Deadline) ∈ before.expiries
  seq : after.seq = before.seq

namespace Removed

variable {after : OpenOrders}

theorem refl (h : book.Indexed) (hnone : book.byId[cid]? = none) : Removed book cid book where
  byId := (BTreeMap.erase_of_get?_none hnone).symm
  unqueued := (BTreeSet.erase_of_not_mem (h.not_unqueued hnone)).symm
  queues := h.queues
  queuedAt := by
    intro key position other
    refine ⟨fun hat => ⟨?_, hat⟩, And.right⟩
    rintro rfl
    exact h.not_queuedAt hnone hat
  held _ _ hcids := (h.held _ _ hcids).1
  heldOn := by
    intro instrument
    rw [List.filter_eq_self.2]
    intro other hmem
    obtain ⟨resting, hsome, -⟩ := h.mem_heldOn hmem
    simp only [ne_eq, decide_not, Bool.not_eq_true', decide_eq_false_iff_not]
    rintro rfl
    simp [hnone] at hsome
  expiries := by
    intro expiry other
    refine ⟨fun hmem => ⟨?_, hmem⟩, And.right⟩
    rintro rfl
    obtain ⟨resting, hsome, -⟩ := (h.expiries _ _).1 hmem
    simp [hnone] at hsome
  seq := rfl

theorem byId_of_some (h : Removed book cid after) {other : ClientOrderId} {resting : RestingOrder}
    (hsome : after.byId[other]? = some resting) :
    other ≠ cid ∧ book.byId[other]? = some resting := by
  rw [h.byId, BTreeMap.get?_erase] at hsome
  split at hsome
  · cases hsome
  · rename_i hne
    exact ⟨Ne.symm hne, hsome⟩

theorem byId_of_ne (h : Removed book cid after) {other : ClientOrderId} {resting : RestingOrder}
    (hne : other ≠ cid) (hsome : book.byId[other]? = some resting) :
    after.byId[other]? = some resting := by
  rw [h.byId, BTreeMap.get?_erase_of_ne (Ne.symm hne), hsome]

theorem indexed (h : Removed book cid after) (hbook : book.Indexed) : after.Indexed where
  keyed other resting hsome := hbook.keyed _ _ (h.byId_of_some hsome).2
  queues := h.queues
  queued := by
    intro key position other hat
    obtain ⟨hne, hat⟩ := (h.queuedAt _ _ _).1 hat
    obtain ⟨resting, price, hsome, hnot, hrest⟩ := hbook.queued _ _ _ hat
    refine ⟨resting, price, h.byId_of_ne hne hsome, ?_, by rw [h.seq]; exact hrest⟩
    rw [h.unqueued, BTreeSet.mem_erase]
    exact fun hmem => hnot hmem.2
  once key position other key' position' other' hat hat' :=
    hbook.once _ _ _ _ _ _ ((h.queuedAt _ _ _).1 hat).2 ((h.queuedAt _ _ _).1 hat').2
  complete := by
    intro other resting hsome hpriced hnot
    obtain ⟨hne, hsome⟩ := h.byId_of_some hsome
    rw [h.unqueued, BTreeSet.mem_erase, not_and] at hnot
    obtain ⟨position, hat⟩ := hbook.complete _ _ hsome hpriced (hnot (Ne.symm hne))
    exact ⟨position, (h.queuedAt _ _ _).2 ⟨hne, hat⟩⟩
  unqueued := by
    intro other hmem
    rw [h.unqueued, BTreeSet.mem_erase] at hmem
    obtain ⟨resting, hsome, hpriced⟩ := hbook.unqueued _ hmem.2
    exact ⟨resting, h.byId_of_ne (Ne.symm hmem.1) hsome, hpriced⟩
  held := by
    intro instrument cids hcids
    have hfilter : cids = (book.heldOn instrument).filter fun other => other ≠ cid := by
      rw [← h.heldOn, OpenOrders.heldOn, hcids]
      rfl
    refine ⟨h.held _ _ hcids, ?_, ?_⟩
    · rw [hfilter]
      exact (hbook.nodup_heldOn _).filter _
    · intro other hmem
      rw [hfilter, List.mem_filter] at hmem
      have hne : other ≠ cid := by simpa using hmem.2
      obtain ⟨resting, hsome, hinstrument, hunqueued⟩ := hbook.mem_heldOn hmem.1
      refine ⟨resting, h.byId_of_ne hne hsome, hinstrument, fun hpriced => ?_⟩
      rw [h.unqueued, BTreeSet.mem_erase]
      exact ⟨Ne.symm hne, hunqueued hpriced⟩
  expiries := by
    intro expiry other
    rw [h.expiries, hbook.expiries]
    constructor
    · rintro ⟨hne, resting, hsome, hdeadline⟩
      exact ⟨resting, h.byId_of_ne hne hsome, hdeadline⟩
    · rintro ⟨resting, hsome, hdeadline⟩
      obtain ⟨hne, hsome⟩ := h.byId_of_some hsome
      exact ⟨hne, resting, hsome, hdeadline⟩

end Removed

/-- The queues without what stands at `position` of `key`. -/
def queuesWithout (book : OpenOrders) (key : QueueKey)
    (queue : BTreeMap QueuePosition ClientOrderId) (position : QueuePosition) :
    BTreeMap QueueKey (BTreeMap QueuePosition ClientOrderId) :=
  if (queue.erase position).isEmpty then book.queues.erase key
  else book.queues.insert key (queue.erase position)

theorem queuesWithout_get {key other : QueueKey} {queue : BTreeMap QueuePosition ClientOrderId}
    {position : QueuePosition} :
    (book.queuesWithout key queue position)[other]? =
      if key = other then
        if (queue.erase position).isEmpty then none else some (queue.erase position)
      else book.queues[other]? := by
  unfold queuesWithout
  split
  · rw [BTreeMap.get?_erase]
    split <;> rfl
  · rw [BTreeMap.get?_insert]
    split <;> rfl

/-- A queued order is found by value, and leaves its queue. -/
theorem dequeue_ok [Build] {price : Decimal} {queue : BTreeMap QueuePosition ClientOrderId}
    {position : QueuePosition} (hprice : order.price = some price)
    (hqueue : book.queues[queueKey order]? = some queue)
    (hat : queue[position]? = some order.key.cid)
    (hposition : position =
      .new order.side price order.state.timeExchange position.seq)
    (honce : ∀ other : QueuePosition, queue[other]? = some order.key.cid → other = position) :
    book.dequeue order =
      .ok { book with queues := book.queuesWithout (queueKey order) queue position } := by
  have hfound : (queue.toList.find? fun e =>
      QueuePosition.new order.side price order.state.timeExchange 0 ≤ e.1 &&
        e.2 = order.key.cid).map Prod.fst = some position := by
    cases hfind : queue.toList.find? fun e =>
      decide (QueuePosition.new order.side price order.state.timeExchange 0 ≤ e.1) &&
        decide (e.2 = order.key.cid) with
    | none =>
      have hnone := List.find?_eq_none.1 hfind (position, order.key.cid)
        (BTreeMap.mem_toList.2 hat)
      rw [hposition] at hnone
      simp [QueuePosition.new_zero_le] at hnone
    | some found =>
      have hmem := BTreeMap.mem_toList.1 (List.mem_of_find?_eq_some hfind)
      have hcid : found.2 = order.key.cid := by
        have := List.find?_some hfind
        simp only [Bool.and_eq_true, decide_eq_true_eq] at this
        exact this.2
      rw [hcid] at hmem
      simp [honce _ hmem]
  unfold dequeue
  rw [hprice]
  dsimp only
  have hkey : queueKey order = ⟨order.key.instrument, order.side⟩ := rfl
  rw [← hkey, hqueue]
  dsimp only
  rw [hfound]
  have hassert : debugAssert .dequeue ((some position).isSome = true) = .ok () := by
    simp [debugAssert]
  rw [hassert]
  rfl

/-- What taking an order out of the held index leaves on each instrument's list. -/
theorem unhold_heldOn (instrument : InstrumentNameExchange) :
    (book.unhold order).heldOn instrument =
      if order.key.instrument = instrument then
        (book.heldOn instrument).filter fun other => other ≠ order.key.cid
      else book.heldOn instrument := by
  unfold unhold
  cases hheld : book.held[order.key.instrument]? with
  | none =>
    dsimp only
    split
    · rename_i hsame
      subst hsame
      simp [heldOn, hheld]
    · rfl
  | some cids =>
    dsimp only
    split
    · rename_i hempty
      simp only [heldOn, BTreeMap.get?_erase]
      split
      · rename_i hsame
        subst hsame
        simpa [hheld] using hempty
      · rfl
    · simp only [heldOn, BTreeMap.get?_insert]
      split
      · rename_i hsame
        subst hsame
        simp [hheld]
      · rfl

theorem unhold_held {instrument : InstrumentNameExchange} {cids : List ClientOrderId}
    (h : (book.unhold order).held[instrument]? = some cids)
    (hbook : ∀ (instrument : InstrumentNameExchange) (cids : List ClientOrderId),
      book.held[instrument]? = some cids → cids ≠ []) : cids ≠ [] := by
  unfold unhold at h
  cases hheld : book.held[order.key.instrument]? with
  | none =>
    rw [hheld] at h
    exact hbook _ _ h
  | some found =>
    rw [hheld] at h
    dsimp only at h
    split at h
    · rw [BTreeMap.get?_erase] at h
      split at h
      · cases h
      · exact hbook _ _ h
    · rename_i hleft
      rw [BTreeMap.get?_insert] at h
      split at h
      · cases h
        simpa using hleft
      · exact hbook _ _ h

theorem unhold_same : book.unhold order = { book with held := (book.unhold order).held } := by
  unfold unhold
  cases book.held[order.key.instrument]? <;> rfl

/-- The expiries without the deadline of an order. -/
def expiriesWithout (book : OpenOrders) (order : OpenOrder) : BTreeSet Deadline :=
  match deadlineOf order with
  | some expiry => book.expiries.erase ⟨expiry, order.key.cid⟩
  | none => book.expiries

theorem mem_expiriesWithout (h : book.Indexed) {resting : RestingOrder}
    (hsome : book.byId[cid]? = some resting) {expiry : DateTime} {other : ClientOrderId} :
    (⟨expiry, other⟩ : Deadline) ∈ book.expiriesWithout resting.order ↔
      other ≠ cid ∧ (⟨expiry, other⟩ : Deadline) ∈ book.expiries := by
  have hcid : resting.order.key.cid = cid := h.keyed _ _ hsome
  have hown : ∀ expiry, (⟨expiry, cid⟩ : Deadline) ∈ book.expiries ↔
      deadlineOf resting.order = some expiry := by
    intro expiry
    rw [h.expiries]
    simp [hsome]
  unfold expiriesWithout
  cases hdeadline : deadlineOf resting.order with
  | none =>
    refine ⟨fun hmem => ⟨?_, hmem⟩, And.right⟩
    rintro rfl
    rw [hown, hdeadline] at hmem
    cases hmem
  | some deadline =>
    rw [BTreeSet.mem_erase, hcid]
    refine and_congr_left fun hmem => ?_
    constructor
    · rintro hne rfl
      rw [hown, hdeadline] at hmem
      cases hmem
      exact hne rfl
    · rintro hne heq
      cases heq
      exact hne rfl

/-- An order that was held, or has no price, stands in no queue. -/
theorem Indexed.unqueued_not_queuedAt (h : book.Indexed) {resting : RestingOrder}
    (hsome : book.byId[cid]? = some resting)
    (hout : (book.unqueued.contains cid || resting.order.price.isNone) = true)
    {key : QueueKey} {position : QueuePosition} : ¬ book.QueuedAt key position cid := by
  intro hat
  obtain ⟨found, price, hfound, hnot, hprice, -⟩ := h.queued _ _ _ hat
  rw [hsome] at hfound
  cases hfound
  rw [Bool.or_eq_true, Std.ExtTreeSet.contains_iff_mem] at hout
  obtain hmem | hnone := hout
  · exact hnot hmem
  · simp [hprice] at hnone

/-- An order open under its id is removed from every index, and no assertion fails. -/
theorem remove_ok [Build] (h : book.Indexed) (cid : ClientOrderId) :
    ∃ after, book.remove cid = .ok (book.byId[cid]?, after) ∧ Removed book cid after := by
  cases hsome : book.byId[cid]? with
  | none =>
    refine ⟨book, ?_, Removed.refl h hsome⟩
    simp only [remove, hsome]
  | some resting =>
    obtain rfl : resting.order.key.cid = cid := h.keyed _ _ hsome
    set base : OpenOrders := { book with byId := book.byId.erase resting.order.key.cid } with hbase
    -- Whatever takes the order out of the index it stands in leaves the expiries to `unindex`.
    have hfinish : ∀ unranked, base.unrank resting.order = .ok unranked →
        unranked.expiries = book.expiries →
        book.remove resting.order.key.cid = .ok (some resting,
          { unranked with expiries := book.expiriesWithout resting.order }) := by
      intro unranked hunranked hsame
      simp only [remove, hsome]
      show (do
        let book ← base.unindex resting.order
        return (some resting, book) : Except Fault _) = _
      unfold unindex
      rw [hunranked]
      unfold expiriesWithout
      rw [← hsame]
      cases deadlineOf resting.order <;> rfl
    have hexpiries : ∀ expiry other, (⟨expiry, other⟩ : Deadline) ∈
        book.expiriesWithout resting.order ↔ other ≠ resting.order.key.cid ∧
          (⟨expiry, other⟩ : Deadline) ∈ book.expiries :=
      fun expiry other => mem_expiriesWithout h hsome
    by_cases hout : (book.unqueued.contains resting.order.key.cid ||
        resting.order.price.isNone) = true
    · set taken : OpenOrders :=
        { base with unqueued := book.unqueued.erase resting.order.key.cid } with htaken
      have hunranked : base.unrank resting.order = .ok (taken.unhold resting.order) := by
        unfold unrank
        rw [if_pos hout]
      refine ⟨_, hfinish _ hunranked (by rw [unhold_same]), ?_⟩
      rw [unhold_same]
      refine
        { byId := rfl
          unqueued := rfl
          queues := h.queues
          queuedAt := ?_
          held := ?_
          heldOn := ?_
          expiries := hexpiries
          seq := rfl }
      · intro key position other
        refine ⟨fun hat => ⟨?_, hat⟩, And.right⟩
        rintro rfl
        exact h.unqueued_not_queuedAt hsome hout hat
      · intro instrument cids hcids
        have hheld : (taken.unhold resting.order).held[instrument]? = some cids := hcids
        exact unhold_held hheld fun instrument cids hcids => (h.held instrument cids hcids).1
      · intro instrument
        refine (unhold_heldOn instrument).trans ?_
        split
        · rfl
        · rename_i hother
          refine (List.filter_eq_self.2 ?_).symm
          intro other hmem
          obtain ⟨found, hfound, hinstrument, -⟩ := h.mem_heldOn hmem
          simp only [ne_eq, decide_not, Bool.not_eq_true', decide_eq_false_iff_not]
          rintro rfl
          rw [hsome] at hfound
          cases hfound
          exact hother hinstrument
    · -- A priced order that was not held: it is in its queue, and on no list of held orders.
      have hin : resting.order.price.isSome = true ∧
          resting.order.key.cid ∉ book.unqueued := by
        simp only [Bool.or_eq_true, Std.ExtTreeSet.contains_iff_mem, not_or] at hout
        refine ⟨?_, hout.1⟩
        cases hprice : resting.order.price <;> simp_all
      obtain ⟨position, queue, hqueue, hat⟩ := h.complete _ _ hsome hin.1 hin.2
      obtain ⟨found, price, hfound, -, hprice, -, hposition, -⟩ := h.queued _ _ _ ⟨queue, hqueue, hat⟩
      rw [hsome] at hfound
      cases hfound
      have honce : ∀ other : QueuePosition,
          queue[other]? = some resting.order.key.cid → other = position := by
        intro other hother
        obtain ⟨found, price', hfound, -, hprice', -, hplace, -⟩ :=
          h.queued _ _ _ ⟨queue, hqueue, hother⟩
        rw [hsome] at hfound
        cases hfound
        rw [hprice] at hprice'
        cases hprice'
        have hseq := (h.once _ _ _ _ _ _ ⟨queue, hqueue, hother⟩ ⟨queue, hqueue, hat⟩).2 rfl
        rw [hplace, hposition, hseq]
      have hunranked : base.unrank resting.order = .ok { base with
          queues := book.queuesWithout (queueKey resting.order) queue position } := by
        unfold unrank
        rw [if_neg hout]
        exact dequeue_ok hprice hqueue hat hposition honce
      refine ⟨_, hfinish _ hunranked rfl, ?_⟩
      refine
        { byId := rfl
          unqueued := (BTreeSet.erase_of_not_mem hin.2).symm
          queues := ?_
          queuedAt := ?_
          held := fun instrument cids hcids => (h.held instrument cids hcids).1
          heldOn := ?_
          expiries := hexpiries
          seq := rfl }
      · intro key left hleft
        rw [queuesWithout_get] at hleft
        split at hleft
        · split at hleft
          · cases hleft
          · rename_i hne
            cases hleft
            rwa [Std.ExtTreeMap.isEmpty_iff] at hne
        · exact h.queues _ _ hleft
      · intro key place other
        constructor
        · rintro ⟨left, hleft, hother⟩
          rw [queuesWithout_get] at hleft
          split at hleft
          · rename_i hkey
            subst hkey
            split at hleft
            · cases hleft
            · cases hleft
              rw [BTreeMap.get?_erase] at hother
              split at hother
              · cases hother
              · rename_i hne
                refine ⟨?_, queue, hqueue, hother⟩
                rintro rfl
                exact hne (honce _ hother).symm
          · rename_i hkey
            refine ⟨?_, left, hleft, hother⟩
            rintro rfl
            obtain ⟨found, _, hfound, -, -, hqueued, -⟩ := h.queued _ _ _ ⟨left, hleft, hother⟩
            rw [hsome] at hfound
            cases hfound
            exact hkey hqueued.symm
        · rintro ⟨hne, left, hleft, hother⟩
          by_cases hkey : queueKey resting.order = key
          · subst hkey
            rw [hqueue] at hleft
            cases hleft
            have hplace : position ≠ place := by
              rintro rfl
              rw [hat] at hother
              cases hother
              exact hne rfl
            have hkept : (queue.erase position)[place]? = some other := by
              rw [BTreeMap.get?_erase_of_ne hplace, hother]
            refine ⟨queue.erase position, ?_, hkept⟩
            show (book.queuesWithout _ queue position)[_]? = _
            rw [queuesWithout_get, if_pos rfl, if_neg]
            rw [Std.ExtTreeMap.isEmpty_iff]
            intro hempty
            rw [hempty, BTreeMap.get?_empty] at hkept
            cases hkept
          · refine ⟨left, ?_, hother⟩
            show (book.queuesWithout _ queue position)[key]? = _
            rw [queuesWithout_get, if_neg hkey, hleft]
      · intro instrument
        refine (List.filter_eq_self.2 ?_).symm
        intro other hmem
        obtain ⟨found, hfound, -, hheld⟩ := h.mem_heldOn hmem
        simp only [ne_eq, decide_not, Bool.not_eq_true', decide_eq_false_iff_not]
        rintro rfl
        rw [hsome] at hfound
        cases hfound
        exact hin.2 (hheld hin.1)

end OpenOrders

end Rustrade.Mock
