import Rustrade.Mock.Attained

/-!
# A book rebuilt from what it lists

The snapshot of a venue lists its open orders, each with where it stands, and restoring enters them
again. The rebuilt book numbers its queues anew, so it is another book, but one that no call tells
from the first: whatever is asked of the two, they answer alike and still read alike.
-/

set_option autoImplicit false

namespace Rustrade.Mock

/-! ## Lists that rank alike -/

/-- The order of two members of a sublist is their order in any list without repeats it is of. -/
theorem idxOf_lt_iff_of_sublist {α : Type} [DecidableEq α] {l l' s : List α} (hs : s.Sublist l)
    (hs' : s.Sublist l') (hl : l.Nodup) (hl' : l'.Nodup) {a b : α} (ha : a ∈ s) (hb : b ∈ s) :
    l.idxOf a < l.idxOf b ↔ l'.idxOf a < l'.idxOf b := by
  have hordered {l : List α} (hl : l.Nodup) : l.Pairwise fun a b => l.idxOf a < l.idxOf b := by
    rw [List.pairwise_iff_getElem]
    intro i j hi hj hij
    rw [hl.idxOf_getElem, hl.idxOf_getElem]
    exact hij
  have hboth : s.Pairwise fun a b => l.idxOf a < l.idxOf b ∧ l'.idxOf a < l'.idxOf b :=
    ((hordered hl).sublist hs).and ((hordered hl').sublist hs')
  have hiff := List.Pairwise.forall_of_forall_of_flip
    (R := fun a b => l.idxOf a < l.idxOf b ↔ l'.idxOf a < l'.idxOf b) (fun _ _ => by simp)
    (hboth.imp fun h => iff_of_true h.1 h.2) (hboth.imp fun h => iff_of_false h.1.asymm h.2.asymm)
  exact hiff ha hb

/-- Of keys that are there once, one is this one, and the others add nothing. -/
theorem flatMap_single {α β : Type} {l : List α} {f : α → List β} {k : α} (hl : l.Nodup)
    (hother : ∀ a ∈ l, a ≠ k → f a = []) (hnone : k ∉ l → f k = []) : l.flatMap f = f k := by
  classical
  induction l with
  | nil => exact (hnone List.not_mem_nil).symm
  | cons first rest ih =>
    obtain ⟨hfirst, hrest⟩ := List.nodup_cons.1 hl
    rw [List.flatMap_cons]
    by_cases hk : first = k
    · subst hk
      have hempty : rest.flatMap f = [] := by
        rw [List.flatMap_eq_nil_iff]
        intro a ha
        exact hother a (List.mem_cons_of_mem _ ha) fun h => hfirst (h ▸ ha)
      rw [hempty, List.append_nil]
    · rw [hother first List.mem_cons_self hk, List.nil_append]
      apply ih hrest fun a ha => hother a (List.mem_cons_of_mem _ ha)
      intro hmem
      apply hnone
      intro hin
      rcases List.mem_cons.1 hin with h | h
      · exact hk h.symm
      · exact hmem h

namespace Entered

variable {entries others : List Entered}

def isQueued (self : Entered) : Bool := self.place = .queued

/-- How a book lists an order: one handed out as held. -/
def listed (self : Entered) : OpenOrderEntry :=
  ⟨self.resting, match self.place with
    | .queued => .queued
    | .held | .taken => .held
    | .unranked => .unranked⟩

/-- The same orders are open, each where it stands, in each rank one behind another as in the
    other. -/
structure Alike (entries others : List Entered) : Prop where
  perm : entries.Perm others
  queued : entries.filter isQueued = others.filter isQueued
  held : ∀ instrument, entries.filter (fun entry => entry.isHeldOn instrument) =
    others.filter fun entry => entry.isHeldOn instrument

/-- Of two orders of a queue at most one is ahead. -/
theorem Ahead.asymm {side : Side} {a b : OpenOrder} (h : Ahead entries side a b) :
    ¬ Ahead entries side b a := by
  intro hback
  obtain ⟨price, price', hprice, hprice', hab⟩ := h
  obtain ⟨_, _, hprice₁, hprice₁', hba⟩ := hback
  rw [hprice'] at hprice₁
  rw [hprice] at hprice₁'
  cases hprice₁
  cases hprice₁'
  cases side with
  | buy => grind
  | sell => grind

namespace Alike

theorem cids (h : Alike entries others) : (entries.map cid).Perm (others.map cid) :=
  h.perm.map cid

theorem heldOn (h : Alike entries others) (instrument : InstrumentNameExchange) :
    Entered.heldOn entries instrument = Entered.heldOn others instrument := by
  unfold Entered.heldOn
  rw [h.held]

theorem enter (h : Alike entries others) (entry : Entered) :
    Alike (Entered.enter entries entry).1 (Entered.enter others entry).1 ∧
      (Entered.enter entries entry).2 = (Entered.enter others entry).2 := by
  unfold Entered.enter
  by_cases hopen : entry.cid ∈ entries.map cid
  · rw [if_pos hopen, if_pos (h.cids.mem_iff.1 hopen)]
    exact ⟨h, rfl⟩
  · rw [if_neg hopen, if_neg (mt h.cids.mem_iff.2 hopen)]
    refine ⟨⟨h.perm.append_right _, ?_, fun instrument => ?_⟩, rfl⟩
    · simp only [List.filter_append, h.queued]
    · simp only [List.filter_append, h.held]

/-- Handing out what is held on an instrument leaves every rank but that one. -/
theorem takeHeld (h : Alike entries others) (instrument : InstrumentNameExchange) :
    Alike (Entered.call entries (.takeHeld instrument)).1
      (Entered.call others (.takeHeld instrument)).1 := by
  set mark : Entered → Entered := fun entry =>
    if entry.isHeldOn instrument then { entry with place := .taken } else entry with hmark
  -- A rank of the marked is what is left of the rank, marked.
  have hrank {rank : Entered → Bool} (hself : ∀ entry, rank (mark entry) =
      (!entry.isHeldOn instrument && rank entry)) (hranked : entries.filter rank =
        others.filter rank) : (entries.map mark).filter rank = (others.map mark).filter rank := by
    have hcomp : rank ∘ mark = fun entry => !entry.isHeldOn instrument && rank entry :=
      funext hself
    rw [List.filter_map, List.filter_map, hcomp, ← List.filter_filter, ← List.filter_filter,
      hranked]
  refine ⟨h.perm.map mark, hrank (fun entry => ?_) h.queued,
    fun other => hrank (fun entry => ?_) (h.held other)⟩
  · rw [hmark]
    dsimp only
    cases hon : entry.isHeldOn instrument with
    | false => rfl
    | true => rfl
  · rw [hmark]
    dsimp only
    cases hon : entry.isHeldOn instrument with
    | false => rfl
    | true => rfl

theorem remove (h : Alike entries others) (cid : ClientOrderId) :
    Alike (entries.filter fun entry => entry.cid ≠ cid)
      (others.filter fun entry => entry.cid ≠ cid) := by
  refine ⟨h.perm.filter _, ?_, fun instrument => ?_⟩
  · rw [List.filter_comm, h.queued, List.filter_comm]
  · rw [List.filter_comm, h.held, List.filter_comm]

end Alike

end Entered

/-! ## Books that read alike -/

namespace OpenOrders

variable {book other : OpenOrders} {entries others : List Entered} {cid : ClientOrderId}

/-- What is read of a book is what is read of the other. -/
structure ReadsAs (book other : OpenOrders) : Prop where
  byId : book.byId = other.byId
  held : book.held = other.held
  unqueued : book.unqueued = other.unqueued
  expiries : book.expiries = other.expiries
  resting : ∀ instrument side, book.resting instrument side = other.resting instrument side
  entries : book.entries = other.entries

/-- Two books stand for lists that rank alike. -/
def Mirrors (book other : OpenOrders) : Prop :=
  ∃ entries others, book.Lists entries ∧ other.Lists others ∧ Entered.Alike entries others

/-! ### The listing -/

/-- The queued orders, in the order they were queued. -/
def queuedIds (self : OpenOrders) : List ClientOrderId :=
  ((self.queues.toList.flatMap fun e => e.2.toList).mergeSort
    fun a b => a.1.seq ≤ b.1.seq).map Prod.snd

/-- The orders that are neither queued nor held. -/
def unrankedIds (self : OpenOrders) : List ClientOrderId :=
  (self.byId.toList.filter fun e => e.2.order.price.isNone &&
    !(self.heldOn e.2.order.key.instrument).contains e.1).map Prod.fst

/-- The orders handed out and not removed. -/
def takenIds (self : OpenOrders) : List ClientOrderId :=
  self.unqueued.toList.filter fun cid => self.byId[cid]?.any fun resting =>
    !(self.heldOn resting.order.key.instrument).contains cid

/-- The open orders of a list of ids, as they stand. -/
def listedAs (self : OpenOrders) (placement : OrderPlacement) (cids : List ClientOrderId) :
    List OpenOrderEntry :=
  cids.filterMap fun cid => self.byId[cid]?.map fun resting => ⟨resting, placement⟩

theorem entries_eq : book.entries = book.listedAs .queued book.queuedIds ++
    book.listedAs .held (book.heldAll ++ book.takenIds) ++
      book.listedAs .unranked book.unrankedIds := by
  unfold OpenOrders.entries listedAs
  simp only [List.filterMap_append, List.filterMap_map, queuedIds, unrankedIds]
  rfl

namespace Lists

/-- Each position of a queue is another order's, and each order's number another. -/
theorem queuedAt_unique (h : book.Lists entries) {key key' : QueueKey}
    {position position' : QueuePosition} (hat : book.QueuedAt key position cid)
    (hat' : book.QueuedAt key' position' cid) : key = key' ∧ position = position' := by
  obtain ⟨resting, price, hsome, -, hprice, hkey, hposition, -⟩ := h.indexed.queued _ _ _ hat
  obtain ⟨resting', price', hsome', -, hprice', hkey', hposition', -⟩ :=
    h.indexed.queued _ _ _ hat'
  rw [hsome] at hsome'
  cases hsome'
  rw [hprice] at hprice'
  cases hprice'
  have hseq := (h.indexed.once _ _ _ _ _ _ hat hat').2 rfl
  refine ⟨hkey.trans hkey'.symm, ?_⟩
  rw [hposition, hposition', hseq]

/-- The queued are listed as they were entered. -/
theorem queuedIds_eq (h : book.Lists entries) :
    book.queuedIds = (entries.filter Entered.isQueued).map Entered.cid := by
  unfold OpenOrders.queuedIds
  set listed := book.queues.toList.flatMap fun e => e.2.toList with hdef
  have hlisted (e : QueuePosition × ClientOrderId) : e ∈ listed ↔
      ∃ key, book.QueuedAt key e.1 e.2 := by
    rw [hdef, List.mem_flatMap]
    constructor
    · rintro ⟨⟨key, queue⟩, hqueue, he⟩
      exact ⟨key, queue, BTreeMap.mem_toList.1 hqueue, BTreeMap.mem_toList.1 he⟩
    · rintro ⟨key, queue, hqueue, he⟩
      exact ⟨(key, queue), BTreeMap.mem_toList.2 hqueue, BTreeMap.mem_toList.2 he⟩
  have hnodup : listed.Nodup := by
    refine List.nodup_flatMap.2 ⟨fun e _ => BTreeMap.nodup_toList, ?_⟩
    apply BTreeMap.keys_pairwise.imp_of_mem
    intro a b ha hb hlt e he he'
    have hat : book.QueuedAt a.1 e.1 e.2 :=
      ⟨a.2, BTreeMap.mem_toList.1 ha, BTreeMap.mem_toList.1 he⟩
    have hat' : book.QueuedAt b.1 e.1 e.2 :=
      ⟨b.2, BTreeMap.mem_toList.1 hb, BTreeMap.mem_toList.1 he'⟩
    exact hlt.ne (h.queuedAt_unique hat hat').1
  set sorted := listed.mergeSort fun a b => a.1.seq ≤ b.1.seq with hsortdef
  have hperm : sorted.Perm listed := List.mergeSort_perm _ _
  have hmem (e : QueuePosition × ClientOrderId) (he : e ∈ sorted) :
      ∃ key, book.QueuedAt key e.1 e.2 := (hlisted e).1 (hperm.mem_iff.1 he)
  have hsorted : sorted.Pairwise fun a b => decide (a.1.seq ≤ b.1.seq) = true := by
    apply List.pairwise_mergeSort
    · intro a b c hab hbc
      exact decide_eq_true ((of_decide_eq_true hab).trans (of_decide_eq_true hbc))
    · intro a b
      simpa using Nat.le_total a.1.seq b.1.seq
  -- Numbers rise strictly, as each position has its own.
  have hbefore : (sorted.map Prod.snd).Pairwise fun x y => ∀ key position key' position',
      book.QueuedAt key position x → book.QueuedAt key' position' y →
        position.seq < position'.seq := by
    rw [List.pairwise_map]
    refine (hsorted.and (hperm.nodup_iff.2 hnodup)).imp_of_mem ?_
    intro a b ha hb ⟨hle, hne⟩ key position key' position' hat hat'
    obtain ⟨_, hata⟩ := hmem a ha
    obtain ⟨_, hatb⟩ := hmem b hb
    rw [(h.queuedAt_unique hat hata).2, (h.queuedAt_unique hat' hatb).2]
    refine lt_of_le_of_ne (of_decide_eq_true hle) fun hseq => hne ?_
    have hcid : a.2 = b.2 := (h.indexed.once _ _ _ _ _ _ hata hatb).1 hseq
    rw [← hcid] at hatb
    exact Prod.ext (h.queuedAt_unique hata hatb).2 hcid
  have hentered : ((entries.filter Entered.isQueued).map Entered.cid).Pairwise fun x y =>
      ∀ key position key' position', book.QueuedAt key position x →
        book.QueuedAt key' position' y → position.seq < position'.seq :=
    List.pairwise_map.2 (h.numbered.sublist List.filter_sublist)
  have hsame (cid : ClientOrderId) : cid ∈ sorted.map Prod.snd ↔
      cid ∈ (entries.filter Entered.isQueued).map Entered.cid := by
    constructor
    · intro hcid
      obtain ⟨e, he, rfl⟩ := List.mem_map.1 hcid
      obtain ⟨key, hat⟩ := hmem e he
      obtain ⟨entry, hentry, hentered, hqueued, -⟩ := h.of_queuedAt hat
      exact List.mem_map.2 ⟨entry, List.mem_filter.2 ⟨hentry, decide_eq_true hqueued⟩, hentered⟩
    · intro hcid
      obtain ⟨entry, hentry, rfl⟩ := List.mem_map.1 hcid
      obtain ⟨hentry, hqueued⟩ := List.mem_filter.1 hentry
      obtain ⟨position, hat⟩ :=
        (h.queuedAt_iff hentry (queueKey entry.order)).2 ⟨of_decide_eq_true hqueued, rfl⟩
      exact List.mem_map.2
        ⟨(position, entry.cid), hperm.mem_iff.2 ((hlisted _).2 ⟨_, hat⟩), rfl⟩
  have hstands (cid : ClientOrderId) (hcid : cid ∈ sorted.map Prod.snd) :
      ∃ key position, book.QueuedAt key position cid := by
    obtain ⟨e, he, rfl⟩ := List.mem_map.1 hcid
    obtain ⟨key, hat⟩ := hmem e he
    exact ⟨key, e.1, hat⟩
  apply List.Perm.eq_of_pairwise _ hbefore hentered
  · refine (List.perm_ext_iff_of_nodup ?_ (h.nodup.sublist (List.filter_sublist.map _))).2 hsame
    refine hbefore.imp_of_mem ?_
    rintro x _ hx - hlt rfl
    obtain ⟨_, _, hat⟩ := hstands x hx
    exact (hlt _ _ _ _ hat hat).false
  · intro x y hx hy hxy hyx
    obtain ⟨_, _, hatx⟩ := hstands x hx
    obtain ⟨_, _, haty⟩ := hstands y ((hsame y).2 hy)
    exact absurd (hxy _ _ _ _ hatx haty) (hyx _ _ _ _ haty hatx).asymm

/-- What is held on an instrument, as the map of the held has it. -/
theorem held_get (h : book.Lists entries) (instrument : InstrumentNameExchange) :
    book.held[instrument]? = if Entered.heldOn entries instrument = [] then none
      else some (Entered.heldOn entries instrument) := by
  rw [← h.held]
  unfold OpenOrders.heldOn
  cases hcids : book.held[instrument]? with
  | none => rfl
  | some cids => exact (if_neg (h.indexed.held _ _ hcids).1).symm

end Lists

/-! ### Calls -/

namespace Mirrors

theorem byId (h : book.Mirrors other) : book.byId = other.byId := by
  obtain ⟨entries, others, hlists, hlists', halike⟩ := h
  apply BTreeMap.ext_get?
  intro cid
  apply Option.ext
  intro resting
  refine (hlists.byId cid resting).trans (Iff.trans ?_ (hlists'.byId cid resting).symm)
  simp only [halike.perm.mem_iff]

theorem held (h : book.Mirrors other) : book.held = other.held := by
  obtain ⟨entries, others, hlists, hlists', halike⟩ := h
  apply BTreeMap.ext_get?
  intro instrument
  rw [hlists.held_get, hlists'.held_get, halike.heldOn]

theorem unqueued (h : book.Mirrors other) : book.unqueued = other.unqueued := by
  obtain ⟨entries, others, hlists, hlists', halike⟩ := h
  have hmem {cid : ClientOrderId} (hcid : cid ∈ entries.map Entered.cid) :
      cid ∈ book.unqueued ↔ cid ∈ other.unqueued := by
    obtain ⟨entry, hentry, rfl⟩ := List.mem_map.1 hcid
    rw [hlists.unqueued entry hentry, hlists'.unqueued entry (halike.perm.mem_iff.1 hentry)]
  apply BTreeSet.ext_mem
  intro cid
  constructor
  · intro hcid
    exact (hmem (hlists.agrees.open' cid (.inr (.inr hcid)))).1 hcid
  · intro hcid
    exact (hmem (halike.cids.mem_iff.2 (hlists'.agrees.open' cid (.inr (.inr hcid))))).2 hcid

theorem expiries (h : book.Mirrors other) : book.expiries = other.expiries := by
  have hbyId := h.byId
  obtain ⟨entries, others, hlists, hlists', -⟩ := h
  apply BTreeSet.ext_mem
  intro deadline
  rw [hlists.indexed.expiries, hlists'.indexed.expiries, hbyId]

theorem listed (h : book.Mirrors other) : book.entries = other.entries := by
  have hqueued : book.queuedIds = other.queuedIds := by
    obtain ⟨entries, others, hlists, hlists', halike⟩ := h
    rw [hlists.queuedIds_eq, hlists'.queuedIds_eq, halike.queued]
  rw [entries_eq, entries_eq, hqueued]
  unfold listedAs heldAll takenIds unrankedIds heldOn
  rw [h.byId, h.held, h.unqueued]

theorem resting (h : book.Mirrors other) (instrument : InstrumentNameExchange) (side : Side) :
    book.resting instrument side = other.resting instrument side := by
  obtain ⟨entries, others, hlists, hlists', halike⟩ := h
  obtain ⟨hnodup, hmem, hordered⟩ := hlists.resting instrument side
  obtain ⟨hnodup', hmem', hordered'⟩ := hlists'.resting instrument side
  have hqueued {order : OpenOrder} (horder : order ∈ book.resting instrument side) :
      order.key.cid ∈ (entries.filter Entered.isQueued).map Entered.cid := by
    obtain ⟨entry, hentry, hplace, rfl, -⟩ := (hmem order).1 horder
    exact List.mem_map_of_mem (List.mem_filter.2 ⟨hentry, decide_eq_true hplace⟩)
  have hsublist : ((entries.filter Entered.isQueued).map Entered.cid).Sublist
      (others.map Entered.cid) := by
    rw [halike.queued]
    exact List.filter_sublist.map _
  have hsame (order : OpenOrder) : order ∈ book.resting instrument side ↔
      order ∈ other.resting instrument side := by
    rw [hmem, hmem']
    simp only [halike.perm.mem_iff]
  -- Between orders of one queue, who was entered first does not depend on the list.
  have hahead {a b : OpenOrder} (ha : a ∈ book.resting instrument side)
      (hb : b ∈ book.resting instrument side) (hab : Entered.Ahead others side a b) :
      Entered.Ahead entries side a b := by
    unfold Entered.Ahead at hab ⊢
    rw [idxOf_lt_iff_of_sublist (List.filter_sublist.map Entered.cid) hsublist hlists.nodup
      hlists'.nodup (hqueued ha) (hqueued hb)]
    exact hab
  apply List.Perm.eq_of_pairwise _ hordered
  · refine hordered'.imp_of_mem ?_
    intro a b ha hb hab
    exact hahead ((hsame a).2 ha) ((hsame b).2 hb) hab
  · exact (List.perm_ext_iff_of_nodup hnodup.of_map hnodup'.of_map).2 hsame
  · exact fun a b _ _ hab hba => absurd hba hab.asymm

/-- A caller reads the one as the other. -/
theorem readsAs (h : book.Mirrors other) : book.ReadsAs other :=
  ⟨h.byId, h.held, h.unqueued, h.expiries, h.resting, h.listed⟩

variable [Build]

/-- Asked the same, the two answer alike, and still mirror each other. -/
theorem call (h : book.Mirrors other) (asked : BookCall) : ∃ after after' answer,
    book.call asked = .ok (after, answer) ∧ other.call asked = .ok (after', answer) ∧
      after.Mirrors after' := by
  have hbyId := h.byId
  obtain ⟨entries, others, hlists, hlists', halike⟩ := h
  obtain ⟨after, hcall, hafter⟩ := hlists.call asked
  obtain ⟨after', hcall', hafter'⟩ := hlists'.call asked
  have hcalled : Entered.Alike (Entered.call entries asked).1 (Entered.call others asked).1 ∧
      (Entered.call entries asked).2 = (Entered.call others asked).2 := by
    cases asked with
    | insert order reservation => exact halike.enter _
    | hold order reservation => exact halike.enter _
    | takeHeld instrument =>
      exact ⟨halike.takeHeld instrument, congrArg BookAnswer.handedOut (halike.heldOn instrument)⟩
    | remove cid =>
      refine ⟨halike.remove cid, congrArg BookAnswer.removed ?_⟩
      rw [← hlists.find, ← hlists'.find, hbyId]
  rw [← hcalled.2] at hcall'
  exact ⟨after, after', _, hcall, hcall', _, _, hafter, hafter', hcalled.1⟩

theorem calls (h : book.Mirrors other) (asked : List BookCall) : ∃ after after' answers,
    book.calls asked = .ok (after, answers) ∧ other.calls asked = .ok (after', answers) ∧
      after.Mirrors after' := by
  induction asked generalizing book other with
  | nil => exact ⟨book, other, [], rfl, rfl, h⟩
  | cons first rest ih =>
    obtain ⟨called, called', answer, hcall, hcall', hcalled⟩ := h.call first
    obtain ⟨after, after', answers, hrest, hrest', hafter⟩ := ih hcalled
    refine ⟨after, after', answer :: answers, ?_, ?_, hafter⟩
    · unfold OpenOrders.calls
      rw [hcall]
      show (called.calls rest >>= _) = _
      rw [hrest]
      rfl
    · unfold OpenOrders.calls
      rw [hcall']
      show (called'.calls rest >>= _) = _
      rw [hrest']
      rfl

end Mirrors

/-! ### Entering what was listed again -/

namespace Lists

/-- What is listed of some of the orders, each where it stands. -/
theorem listedAs_map (h : book.Lists entries) {some : List Entered} {placement : OrderPlacement}
    (hsome : ∀ entry ∈ some, entry ∈ entries ∧ entry.listed = ⟨entry.resting, placement⟩) :
    book.listedAs placement (some.map Entered.cid) = some.map Entered.listed := by
  induction some with
  | nil => rfl
  | cons first rest ih =>
    obtain ⟨hfirst, hrest⟩ := List.forall_mem_cons.1 hsome
    have hget : book.byId[first.cid]? = Option.some first.resting :=
      (h.byId _ _).2 ⟨first, hfirst.1, rfl, rfl⟩
    have htail := ih hrest
    unfold OpenOrders.listedAs at htail ⊢
    rw [List.map_cons, List.map_cons, List.filterMap_cons, hget, htail, hfirst.2]
    rfl

/-- The held, as the map of the held goes through them. -/
theorem heldAll_eq (h : book.Lists entries) : book.heldAll = (book.held.toList.flatMap fun e =>
    entries.filter fun entry => entry.isHeldOn e.1).map Entered.cid := by
  unfold OpenOrders.heldAll
  rw [List.map_flatMap]
  apply List.flatMap_congr
  intro e he
  have hget : book.held[e.1]? = some e.2 := BTreeMap.mem_toList.1 he
  have hheld := h.held e.1
  unfold OpenOrders.heldOn at hheld
  rw [hget] at hheld
  exact hheld

/-- With none handed out, whatever is off the queues is held. -/
theorem takenIds_eq (h : book.Lists entries)
    (htaken : ∀ entry ∈ entries, entry.place ≠ .taken) : book.takenIds = [] := by
  apply List.filter_eq_nil_iff.2
  intro cid hcid
  have hunqueued : cid ∈ book.unqueued := Std.ExtTreeSet.mem_toList.1 hcid
  obtain ⟨entry, hentry, rfl⟩ := List.mem_map.1 (h.agrees.open' cid (.inr (.inr hunqueued)))
  have hget : book.byId[entry.cid]? = some entry.resting := (h.byId _ _).2 ⟨entry, hentry, rfl, rfl⟩
  have hheld : entry.place = .held :=
    ((h.unqueued entry hentry).1 hunqueued).2.resolve_right (htaken entry hentry)
  have hon : entry.cid ∈ book.heldOn entry.resting.order.key.instrument :=
    (h.mem_heldOn_iff hentry _).2 ⟨hheld, rfl⟩
  simp [hget, hon]

theorem unrankedIds_eq (h : book.Lists entries)
    (htaken : ∀ entry ∈ entries, entry.place ≠ .taken) : ∃ unranked : List Entered,
      book.unrankedIds = unranked.map Entered.cid ∧ unranked.Nodup ∧
        ∀ entry, entry ∈ unranked ↔ entry ∈ entries ∧ entry.place = .unranked := by
  set listed := book.byId.toList.filter fun e => e.2.order.price.isNone &&
    !(book.heldOn e.2.order.key.instrument).contains e.1 with hdef
  have hcid : book.unrankedIds =
      (listed.map fun e => (⟨e.2, .unranked⟩ : Entered)).map Entered.cid := by
    rw [List.map_map]
    apply List.map_congr_left
    intro e he
    exact (h.indexed.keyed _ _ (BTreeMap.mem_toList.1 (List.mem_filter.1 he).1)).symm
  refine ⟨_, hcid, .of_map Entered.cid ?_, fun entry => ?_⟩
  · rw [← hcid]
    exact BTreeMap.nodup_keys.sublist (List.filter_sublist.map _)
  · rw [List.mem_map]
    constructor
    · rintro ⟨e, he, rfl⟩
      obtain ⟨hmem, hfree⟩ := List.mem_filter.1 he
      obtain ⟨found, hfound, hcid, hresting⟩ := (h.byId _ _).1 (BTreeMap.mem_toList.1 hmem)
      rw [Bool.and_eq_true, Option.isNone_iff_eq_none, Bool.not_eq_true', ← hcid, ← hresting]
        at hfree
      have hplace : found.place = .unranked := by
        cases hplace : found.place with
        | queued =>
          have hpriced := h.priced found hfound hplace
          rw [show found.order.price = none from hfree.1] at hpriced
          cases hpriced
        | held =>
          have hon := (h.mem_heldOn_iff hfound found.order.key.instrument).2 ⟨hplace, rfl⟩
          have hnot := hfree.2
          rw [List.contains_eq_mem, decide_eq_false_iff_not] at hnot
          exact absurd hon hnot
        | taken => exact absurd hplace (htaken found hfound)
        | unranked => rfl
      obtain rfl : found = ⟨e.2, .unranked⟩ := by
        cases found
        cases hresting
        cases hplace
        rfl
      exact ⟨hfound, rfl⟩
    · rintro ⟨hentry, hplace⟩
      refine ⟨(entry.cid, entry.resting), List.mem_filter.2
        ⟨BTreeMap.mem_toList.2 ((h.byId _ _).2 ⟨entry, hentry, rfl, rfl⟩), ?_⟩, ?_⟩
      · have hnot : entry.cid ∉ book.heldOn entry.resting.order.key.instrument := by
          intro hon
          rw [((h.mem_heldOn_iff hentry _).1 hon).1] at hplace
          cases hplace
        have hprice : entry.resting.order.price = none := h.unpriced entry hentry hplace
        simp [hprice, hnot]
      · cases entry
        cases hplace
        rfl

/-- A book lists its orders each where it stands, in each rank as they were entered. -/
theorem entries_eq (h : book.Lists entries)
    (htaken : ∀ entry ∈ entries, entry.place ≠ .taken) : ∃ others,
      book.entries = others.map Entered.listed ∧ Entered.Alike entries others := by
  obtain ⟨unranked, hunranked, hnodup, hmem⟩ := h.unrankedIds_eq htaken
  set held := book.held.toList.flatMap fun e => entries.filter fun entry => entry.isHeldOn e.1
    with hheld
  have hmemHeld (entry : Entered) : entry ∈ held ↔ entry ∈ entries ∧ entry.place = .held := by
    rw [hheld, List.mem_flatMap]
    constructor
    · rintro ⟨e, -, hentry⟩
      obtain ⟨hentry, hon⟩ := List.mem_filter.1 hentry
      rw [Entered.isHeldOn, Bool.and_eq_true, decide_eq_true_eq] at hon
      exact ⟨hentry, hon.1⟩
    · rintro ⟨hentry, hplace⟩
      have hon : entry.isHeldOn entry.order.key.instrument = true := by
        simp [Entered.isHeldOn, hplace]
      have hin : entry ∈ entries.filter fun entry' =>
          entry'.isHeldOn entry.order.key.instrument := List.mem_filter.2 ⟨hentry, hon⟩
      have hsome : Entered.heldOn entries entry.order.key.instrument ≠ [] :=
        List.ne_nil_of_mem (List.mem_map_of_mem hin)
      have hget := h.held_get entry.order.key.instrument
      rw [if_neg hsome] at hget
      exact ⟨(_, _), BTreeMap.mem_toList.2 hget, hin⟩
  have hqueued (entry : Entered) : entry ∈ entries.filter Entered.isQueued ↔
      entry ∈ entries ∧ entry.place = .queued := by
    rw [List.mem_filter]
    exact and_congr_right fun _ => decide_eq_true_iff
  refine ⟨entries.filter Entered.isQueued ++ held ++ unranked, ?_, ?_⟩
  · rw [OpenOrders.entries_eq, h.queuedIds_eq, h.heldAll_eq, h.takenIds_eq htaken, List.append_nil,
      hunranked, List.map_append, List.map_append]
    congr 1
    · congr 1
      · apply h.listedAs_map
        intro entry hentry
        obtain ⟨hentry, hplace⟩ := (hqueued entry).1 hentry
        exact ⟨hentry, by rw [Entered.listed, hplace]⟩
      · apply h.listedAs_map
        intro entry hentry
        obtain ⟨hentry, hplace⟩ := (hmemHeld entry).1 hentry
        exact ⟨hentry, by rw [Entered.listed, hplace]⟩
    · apply h.listedAs_map
      intro entry hentry
      obtain ⟨hentry, hplace⟩ := (hmem entry).1 hentry
      exact ⟨hentry, by rw [Entered.listed, hplace]⟩
  have hentries : entries.Nodup := .of_map _ h.nodup
  have hnodupHeld : held.Nodup := by
    refine List.nodup_flatMap.2 ⟨fun e _ => hentries.filter _, ?_⟩
    apply BTreeMap.keys_pairwise.imp
    intro a b hlt entry hon hon'
    have hon := (List.mem_filter.1 hon).2
    have hon' := (List.mem_filter.1 hon').2
    simp only [Entered.isHeldOn, Bool.and_eq_true, decide_eq_true_eq] at hon hon'
    exact hlt.ne (hon.2.symm.trans hon'.2)
  refine ⟨(List.perm_ext_iff_of_nodup hentries ?_).2 fun entry => ?_, ?_, fun instrument => ?_⟩
  · refine ((hentries.filter _).append hnodupHeld ?_).append hnodup ?_
    · intro entry hentry hentry'
      have hplace := ((hqueued entry).1 hentry).2
      rw [((hmemHeld entry).1 hentry').2] at hplace
      cases hplace
    · intro entry hentry hentry'
      have hplace := ((hmem entry).1 hentry').2
      rcases List.mem_append.1 hentry with hentry | hentry
      · rw [((hqueued entry).1 hentry).2] at hplace
        cases hplace
      · rw [((hmemHeld entry).1 hentry).2] at hplace
        cases hplace
  · rw [List.mem_append, List.mem_append, hqueued, hmemHeld, hmem]
    constructor
    · intro hentry
      cases hplace : entry.place with
      | queued => exact .inl (.inl ⟨hentry, rfl⟩)
      | held => exact .inl (.inr ⟨hentry, rfl⟩)
      | taken => exact absurd hplace (htaken entry hentry)
      | unranked => exact .inr ⟨hentry, rfl⟩
    · intro hentry
      rcases hentry with (hentry | hentry) | hentry
      · exact hentry.1
      · exact hentry.1
      · exact hentry.1
  · have hnotHeld : held.filter Entered.isQueued = [] := by
      apply List.filter_eq_nil_iff.2
      intro entry hentry
      simp [Entered.isQueued, ((hmemHeld entry).1 hentry).2]
    have hnotUnranked : unranked.filter Entered.isQueued = [] := by
      apply List.filter_eq_nil_iff.2
      intro entry hentry
      simp [Entered.isQueued, ((hmem entry).1 hentry).2]
    simp [hnotHeld, hnotUnranked]
  · have hnotQueued : (entries.filter Entered.isQueued).filter
        (fun entry => entry.isHeldOn instrument) = [] := by
      apply List.filter_eq_nil_iff.2
      intro entry hentry
      simp [Entered.isHeldOn, ((hqueued entry).1 hentry).2]
    have hnotUnranked : unranked.filter (fun entry => entry.isHeldOn instrument) = [] := by
      apply List.filter_eq_nil_iff.2
      intro entry hentry
      simp [Entered.isHeldOn, ((hmem entry).1 hentry).2]
    rw [List.filter_append, List.filter_append, hnotQueued, hnotUnranked, List.nil_append,
      List.append_nil]
    -- Of the instruments gone through, one is this one.
    have hself : (entries.filter fun entry => entry.isHeldOn instrument).filter
        (fun entry => entry.isHeldOn instrument) =
          entries.filter fun entry => entry.isHeldOn instrument := by
      simp
    have hthis := flatMap_single (l := book.held.toList.map Prod.fst) (k := instrument)
      (f := fun name => (entries.filter fun entry => entry.isHeldOn name).filter
        fun entry => entry.isHeldOn instrument) BTreeMap.nodup_keys ?_ ?_
    · rw [hself, List.flatMap_map] at hthis
      rw [hheld, List.filter_flatMap]
      exact hthis.symm
    · intro name _ hname
      apply List.filter_eq_nil_iff.2
      intro entry hentry hon
      have hon' := (List.mem_filter.1 hentry).2
      simp only [Entered.isHeldOn, Bool.and_eq_true, decide_eq_true_eq] at hon hon'
      exact hname (hon'.2.symm.trans hon.2)
    · intro hnone
      rw [hself]
      have hget := h.held_get instrument
      by_cases hempty : Entered.heldOn entries instrument = []
      · exact List.map_eq_nil_iff.1 hempty
      · rw [if_neg hempty] at hget
        exact absurd (List.mem_map_of_mem (BTreeMap.mem_toList.2 hget)) hnone

end Lists

/-- An id that is not open is entered. -/
theorem index_fresh {order : OpenOrder} (reservation : Option Reservation) (queue : Bool)
    (hnone : book.byId[order.key.cid]? = none) :
    ∃ after, book.index order reservation queue = .ok after := by
  cases hindex : book.index order reservation queue with
  | ok after => exact ⟨after, rfl⟩
  | error refused =>
    have hcontains := index_error hindex
    rw [contains, Std.ExtTreeMap.contains_eq_isSome_getElem?, hnone] at hcontains
    cases hcontains

/-- Orders listed and entered again behind those of a book. -/
theorem Lists.enter_all (h : book.Lists entries) (more : List Entered)
    (hnodup : ((entries ++ more).map Entered.cid).Nodup)
    (hmore : ∀ entry ∈ more, entry.place ≠ .taken ∧
      (entry.place = .queued → entry.order.price.isSome = true) ∧
        (entry.place = .unranked → entry.order.price = none)) :
    ∃ after, (more.map Entered.listed).foldlM OpenOrders.enter book = .ok after ∧
      after.Lists (entries ++ more) := by
  induction more generalizing book entries with
  | nil => exact ⟨book, rfl, by rwa [List.append_nil]⟩
  | cons first rest ih =>
    obtain ⟨⟨hnot, hpriced, hunpriced⟩, hrest⟩ := List.forall_mem_cons.1 hmore
    have hfresh : first.cid ∉ entries.map Entered.cid := by
      intro hmem
      rw [List.map_append, List.map_cons] at hnodup
      exact List.disjoint_of_nodup_append hnodup hmem List.mem_cons_self
    have hentered : ∃ after, book.enter first.listed = .ok after ∧
        after.Lists (entries ++ [first]) := by
      obtain ⟨⟨order, reservation⟩, place⟩ := first
      have hnone : book.byId[order.key.cid]? = none := h.byId_none.2 hfresh
      obtain ⟨inserted, hinsert⟩ := index_fresh reservation true hnone
      have hlists := h.insert hinsert
      cases place with
      | queued =>
        have hprice : order.price.isSome = true := hpriced rfl
        rw [hprice] at hlists
        exact ⟨inserted, hinsert, hlists⟩
      | held =>
        obtain ⟨indexed, hindexed⟩ := index_fresh reservation false hnone
        have hhold : ∃ after, book.hold order reservation = .ok after := by
          unfold OpenOrders.hold
          rw [hindexed]
          exact ⟨_, rfl⟩
        obtain ⟨after, hheld⟩ := hhold
        exact ⟨after, hheld, h.hold hheld⟩
      | taken => exact absurd rfl hnot
      | unranked =>
        have hprice : order.price = none := hunpriced rfl
        rw [hprice] at hlists
        refine ⟨inserted, ?_, hlists⟩
        rw [← hinsert]
        show book.index order reservation false = book.index order reservation true
        unfold OpenOrders.index
        rw [hprice]
        rfl
    obtain ⟨entered, hentered, hlists⟩ := hentered
    rw [List.append_cons] at hnodup ⊢
    obtain ⟨after, hafter, hall⟩ := ih hlists hnodup hrest
    refine ⟨after, ?_, hall⟩
    rw [List.map_cons, List.foldlM_cons, hentered]
    exact hafter

/-- A book whose orders all stand somewhere is rebuilt from what it lists. -/
theorem Places.rebuilt (h : book.Places ∅) : ∃ rebuilt,
    OpenOrders.fromEntries book.entries = .ok rebuilt ∧ book.Mirrors rebuilt := by
  obtain ⟨entries, hlists, htaken⟩ := h
  have htaken : ∀ entry ∈ entries, entry.place ≠ .taken :=
    fun entry hentry hplace => htaken entry hentry hplace
  obtain ⟨others, hlisted, halike⟩ := hlists.entries_eq htaken
  obtain ⟨rebuilt, hok, hrebuilt⟩ := default_lists.enter_all others
    (halike.cids.nodup_iff.1 hlists.nodup) fun entry hentry => by
      have hentry := halike.perm.mem_iff.2 hentry
      exact ⟨htaken entry hentry, hlists.priced entry hentry, hlists.unpriced entry hentry⟩
  refine ⟨rebuilt, ?_, entries, others, hlists, hrebuilt, halike⟩
  unfold OpenOrders.fromEntries
  rw [hlisted]
  exact hok

end OpenOrders

namespace SimulatedVenue.Attained

/-- A contract is held, and a sell of it rests. -/
theorem close_rests : ∃ (_ : Build) (_ : RandomStream) (_ : DecimalScale) (v : SimulatedVenue),
    Attained v ∧ (v.account.ordersOpen.resting ⟨"C"⟩ .sell).map (fun order => order.key.cid) =
      [⟨"close"⟩] := by
  let _ : Build := ⟨true⟩
  let _ : RandomStream := ⟨fun _ _ => 0, fun _ _ => by norm_num⟩
  let _ : DecimalScale := ⟨fun _ => 0⟩
  have hrests : chargedBy [] (buysAll ++ [.openOrder sellToClose]) (fun v =>
      decide ((v.account.ordersOpen.resting ⟨"C"⟩ .sell).map (fun order => order.key.cid) =
        [⟨"close"⟩])) = true := by
    decide +kernel
  obtain ⟨v, hattained, hchecked⟩ := of_chargedBy (by simp) hrests
  exact ⟨_, _, _, v, hattained, of_decide_eq_true hchecked⟩

variable [Build] [RandomStream] [DecimalScale] {v : SimulatedVenue}

/-- The open orders of a venue are rebuilt from what they are listed as, and no call tells the
    rebuilt book from the one it was listed of: the two answer alike, and read alike after. -/
theorem book_rebuilt (h : Attained v) : ∃ rebuilt,
    OpenOrders.fromEntries v.account.ordersOpen.entries = .ok rebuilt ∧
      ∀ asked : List BookCall, ∃ after after' answers,
        v.account.ordersOpen.calls asked = .ok (after, answers) ∧
          rebuilt.calls asked = .ok (after', answers) ∧ after.ReadsAs after' := by
  obtain ⟨rebuilt, hok, hmirrors⟩ := h.places.rebuilt
  refine ⟨rebuilt, hok, fun asked => ?_⟩
  obtain ⟨after, after', answers, hcall, hcall', hafter⟩ := hmirrors.calls asked
  exact ⟨after, after', answers, hcall, hcall', hafter.readsAs⟩

omit [Build] [RandomStream] [DecimalScale] in
theorem book_rebuilt_resting : ∃ (_ : Build) (v : SimulatedVenue) (rebuilt : OpenOrders),
    (v.account.ordersOpen.resting ⟨"C"⟩ .sell).map (fun order => order.key.cid) = [⟨"close"⟩] ∧
      OpenOrders.fromEntries v.account.ordersOpen.entries = .ok rebuilt ∧
        ∀ asked : List BookCall, ∃ after after' answers,
          v.account.ordersOpen.calls asked = .ok (after, answers) ∧
            rebuilt.calls asked = .ok (after', answers) ∧ after.ReadsAs after' := by
  obtain ⟨_, _, _, v, hattained, hrests⟩ := close_rests
  obtain ⟨rebuilt, hrebuilt⟩ := hattained.book_rebuilt
  exact ⟨_, v, rebuilt, hrests, hrebuilt⟩

end SimulatedVenue.Attained

end Rustrade.Mock
