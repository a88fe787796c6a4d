import Rustrade.Mock.BookIndex

/-!
# Price-time priority over every run

A book of open orders stands for the list of what was entered and not removed, in the order it was
entered, each with where it stands. Whatever is inserted, held, handed out and removed, the two
answer alike: a side of an instrument rests by price, then arrival, then entry; the held are handed
out as they arrived.
-/

set_option autoImplicit false

namespace Rustrade.Mock

/-! ## The list a book stands for -/

/-- Where an open order stands: in its queue, held, handed out and not yet removed, or nowhere. -/
inductive Place where
  | queued
  | held
  | taken
  | unranked
  deriving DecidableEq

/-- An order entered and not removed. -/
structure Entered where
  resting : RestingOrder
  place : Place

namespace Entered

def order (self : Entered) : OpenOrder := self.resting.order

def cid (self : Entered) : ClientOrderId := self.order.key.cid

def isHeldOn (self : Entered) (instrument : InstrumentNameExchange) : Bool :=
  self.place = .held && self.order.key.instrument = instrument

end Entered

/-- What is asked of a book. -/
inductive BookCall where
  | insert (order : OpenOrder) (reservation : Option Reservation)
  | hold (order : OpenOrder) (reservation : Option Reservation)
  | takeHeld (instrument : InstrumentNameExchange)
  | remove (cid : ClientOrderId)

/-- What a book answers. -/
inductive BookAnswer where
  | entered
  | refused (resting : RestingOrder)
  | handedOut (cids : List ClientOrderId)
  | removed (resting : Option RestingOrder)

namespace Entered

/-- Enter an order behind every other, unless one is open under its id. -/
def enter (entries : List Entered) (entry : Entered) : List Entered × BookAnswer :=
  if entry.cid ∈ entries.map cid then (entries, .refused entry.resting)
  else (entries ++ [entry], .entered)

/-- What is held on an instrument, as it arrived. -/
def heldOn (entries : List Entered) (instrument : InstrumentNameExchange) : List ClientOrderId :=
  (entries.filter fun entry => entry.isHeldOn instrument).map cid

def call (entries : List Entered) : BookCall → List Entered × BookAnswer
  | .insert order reservation =>
      enter entries ⟨⟨order, reservation⟩, if order.price.isSome then .queued else .unranked⟩
  | .hold order reservation => enter entries ⟨⟨order, reservation⟩, .held⟩
  | .takeHeld instrument =>
      (entries.map fun entry =>
        if entry.isHeldOn instrument then { entry with place := .taken } else entry,
        .handedOut (heldOn entries instrument))
  | .remove cid =>
      (entries.filter fun entry => entry.cid ≠ cid,
        .removed ((entries.find? fun entry => entry.cid = cid).map resting))

def calls (entries : List Entered) : List BookCall → List Entered × List BookAnswer
  | [] => (entries, [])
  | first :: rest =>
      let (called, answer) := call entries first
      let (last, answers) := calls called rest
      (last, answer :: answers)

/-- A better price comes first, then an earlier arrival, then an earlier entry. -/
def Ahead (entries : List Entered) (side : Side) (a b : OpenOrder) : Prop :=
  ∃ price price', a.price = some price ∧ b.price = some price' ∧
    ((match side with
      | .buy => price' < price
      | .sell => price < price') ∨ price = price' ∧
      (a.state.timeExchange < b.state.timeExchange ∨ a.state.timeExchange = b.state.timeExchange ∧
        (entries.map cid).idxOf a.key.cid < (entries.map cid).idxOf b.key.cid))

end Entered

namespace OpenOrders

def call [Build] (self : OpenOrders) : BookCall → Except Fault (OpenOrders × BookAnswer)
  | .insert order reservation => match self.insert order reservation with
    | .ok book => .ok (book, .entered)
    | .error resting => .ok (self, .refused resting.refused)
  | .hold order reservation => match self.hold order reservation with
    | .ok book => .ok (book, .entered)
    | .error resting => .ok (self, .refused resting.refused)
  | .takeHeld instrument =>
      let (cids, book) := self.takeHeld instrument
      .ok (book, .handedOut cids)
  | .remove cid => do
      let (resting, book) ← self.remove cid
      return (book, .removed resting)

def calls [Build] (self : OpenOrders) : List BookCall → Except Fault (OpenOrders × List BookAnswer)
  | [] => .ok (self, [])
  | first :: rest => do
      let (book, answer) ← self.call first
      let (last, answers) ← book.calls rest
      return (last, answer :: answers)

/-! ## A book and its list -/

/-- The book stands for the list. -/
structure Lists (book : OpenOrders) (entries : List Entered) : Prop where
  indexed : book.Indexed
  nodup : (entries.map Entered.cid).Nodup
  byId : ∀ (cid : ClientOrderId) (resting : RestingOrder), book.byId[cid]? = some resting ↔
    ∃ entry ∈ entries, entry.cid = cid ∧ entry.resting = resting
  unqueued : ∀ entry ∈ entries, entry.cid ∈ book.unqueued ↔
    entry.order.price.isSome = true ∧ (entry.place = .held ∨ entry.place = .taken)
  priced : ∀ entry ∈ entries, entry.place = .queued → entry.order.price.isSome = true
  unpriced : ∀ entry ∈ entries, entry.place = .unranked → entry.order.price = none
  held : ∀ instrument, book.heldOn instrument = Entered.heldOn entries instrument
  numbered : entries.Pairwise fun a b => ∀ key position key' position',
    book.QueuedAt key position a.cid → book.QueuedAt key' position' b.cid →
      position.seq < position'.seq

variable {book after : OpenOrders} {entries : List Entered} {entry : Entered}
  {order : OpenOrder} {reservation : Option Reservation} {cid : ClientOrderId}

/-- A refused entry comes back as it was. -/
theorem refused_of_index {queue : Bool} {refused : AlreadyResting}
    (h : book.index order reservation queue = .error refused) :
    refused.refused = ⟨order, reservation⟩ := by
  cases hget : book.byId[order.key.cid]? with
  | some resting =>
    simp only [index, hget] at h
    cases h
    rfl
  | none =>
    simp only [index, hget] at h
    cases h

theorem default_lists : default.Lists [] where
  indexed := default_indexed
  nodup := List.nodup_nil
  byId := by simp [default]
  unqueued := by simp
  priced := by simp
  unpriced := by simp
  held := by simp [default, heldOn, Entered.heldOn]
  numbered := List.Pairwise.nil

namespace Lists

theorem byId_none (h : book.Lists entries) : book.byId[cid]? = none ↔
    cid ∉ entries.map Entered.cid := by
  rw [Option.eq_none_iff_forall_ne_some]
  constructor
  · intro hnone hmem
    obtain ⟨entry, hentry, rfl⟩ := List.mem_map.1 hmem
    exact hnone entry.resting ((h.byId _ _).2 ⟨entry, hentry, rfl, rfl⟩)
  · intro hnot resting hsome
    obtain ⟨entry, hentry, rfl, -⟩ := (h.byId _ _).1 hsome
    exact hnot (List.mem_map_of_mem hentry)

/-- What entering an order at the back of the list asks of the book. -/
theorem enter (h : book.Lists entries) (entry : Entered) (hafter : after.Indexed)
    (hfresh : entry.cid ∉ entries.map Entered.cid)
    (hbyId : after.byId = book.byIdWith entry.order entry.resting.reservation)
    (hunqueued : ∀ cid, cid ∈ after.unqueued ↔ cid ∈ book.unqueued ∨
      cid = entry.cid ∧ entry.order.price.isSome = true ∧ entry.place = .held)
    (hpriced : entry.place = .queued → entry.order.price.isSome = true)
    (hunpriced : entry.place = .unranked → entry.order.price = none)
    (htaken : entry.place ≠ .taken)
    (hheld : ∀ instrument, after.heldOn instrument =
      book.heldOn instrument ++ if entry.isHeldOn instrument then [entry.cid] else [])
    (hqueued : ∀ key position cid, after.QueuedAt key position cid →
      book.QueuedAt key position cid ∨ cid = entry.cid ∧ book.seq < position.seq) :
    after.Lists (entries ++ [entry]) where
  indexed := hafter
  nodup := by
    rw [List.map_append, List.map_singleton, List.nodup_append]
    refine ⟨h.nodup, List.nodup_singleton _, ?_⟩
    rintro a ha b hb rfl
    exact hfresh (List.mem_singleton.1 hb ▸ ha)
  byId := by
    have hnone : book.byId[entry.order.key.cid]? = none := h.byId_none.2 hfresh
    intro cid resting
    rw [hbyId]
    constructor
    · intro hsome
      obtain ⟨rfl, rfl⟩ | ⟨-, hold⟩ := byIdWith_cases hsome
      · exact ⟨entry, by simp, rfl, rfl⟩
      · obtain ⟨old, hmem, hcid, hresting⟩ := (h.byId _ _).1 hold
        exact ⟨old, List.mem_append_left _ hmem, hcid, hresting⟩
    · rintro ⟨found, hmem, rfl, rfl⟩
      rcases List.mem_append.1 hmem with hmem | hmem
      · exact byIdWith_of_some hnone ((h.byId _ _).2 ⟨found, hmem, rfl, rfl⟩)
      · rw [List.mem_singleton.1 hmem]
        exact byIdWith_self
  unqueued := by
    intro found hmem
    rw [hunqueued]
    rcases List.mem_append.1 hmem with hmem | hmem
    · rw [h.unqueued found hmem]
      refine or_iff_left ?_
      rintro ⟨hcid, -⟩
      exact hfresh (hcid ▸ List.mem_map_of_mem hmem)
    · rw [List.mem_singleton.1 hmem]
      have hnot : entry.cid ∉ book.unqueued := h.indexed.not_unqueued (h.byId_none.2 hfresh)
      simp [hnot, htaken]
  priced := by
    intro found hmem
    rcases List.mem_append.1 hmem with hmem | hmem
    · exact h.priced found hmem
    · rw [List.mem_singleton.1 hmem]
      exact hpriced
  unpriced := by
    intro found hmem
    rcases List.mem_append.1 hmem with hmem | hmem
    · exact h.unpriced found hmem
    · rw [List.mem_singleton.1 hmem]
      exact hunpriced
  held := by
    intro instrument
    rw [hheld, h.held]
    unfold Entered.heldOn
    rw [List.filter_append, List.map_append]
    cases hon : entry.isHeldOn instrument <;> simp [hon]
  numbered := by
    rw [List.pairwise_append]
    have hold {found : Entered} (hmem : found ∈ entries) {key : QueueKey}
        {position : QueuePosition} (hat : after.QueuedAt key position found.cid) :
        book.QueuedAt key position found.cid := by
      rcases hqueued _ _ _ hat with hat | ⟨hcid, -⟩
      · exact hat
      · exact absurd (hcid ▸ List.mem_map_of_mem hmem) hfresh
    refine ⟨?_, List.pairwise_singleton _ _, ?_⟩
    · refine h.numbered.imp_of_mem ?_
      intro a b ha hb hlt key position key' position' hat hat'
      exact hlt _ _ _ _ (hold ha hat) (hold hb hat')
    · intro a ha b hb key position key' position' hat hat'
      rw [List.mem_singleton.1 hb] at hat'
      -- The newest number is above every number given before.
      obtain ⟨_, _, -, -, -, -, -, hle⟩ := h.indexed.queued _ _ _ (hold ha hat)
      rcases hqueued _ _ _ hat' with hat' | ⟨-, hnew⟩
      · exact absurd hat' (h.indexed.not_queuedAt (h.byId_none.2 hfresh))
      · exact hle.trans_lt hnew

theorem insert (h : book.Lists entries) (hok : book.insert order reservation = .ok after) :
    after.Lists (entries ++
      [⟨⟨order, reservation⟩, if order.price.isSome then .queued else .unranked⟩]) := by
  have hindexed := insert_indexed h.indexed hok
  obtain ⟨hnone, hafter⟩ := index_ok hok
  have hfresh : order.key.cid ∉ entries.map Entered.cid := h.byId_none.1 hnone
  apply h.enter ⟨⟨order, reservation⟩, if order.price.isSome then .queued else .unranked⟩ hindexed
    hfresh
  · rw [hafter]
    rfl
  · intro cid
    rw [hafter]
    cases order.price <;> simp
  · cases hprice : order.price <;> simp [Entered.order, hprice]
  · cases hprice : order.price <;> simp [Entered.order, hprice]
  · cases order.price <;> simp
  · intro instrument
    rw [hafter]
    cases order.price <;> simp [Entered.isHeldOn, heldOn]
  · intro key position cid hat
    rw [hafter] at hat
    cases hprice : order.price with
    | none =>
      rw [hprice] at hat
      exact .inl hat
    | some price =>
      rw [hprice] at hat
      have hat : ({ book with queues := book.queuesWith order price } : OpenOrders).QueuedAt key
        position cid := hat
      rw [queuedAt_queuesWith] at hat
      split at hat
      · rename_i hplace
        refine .inr ⟨hat, ?_⟩
        rw [hplace.2]
        exact Nat.lt_succ_self _
      · exact .inl hat

theorem hold (h : book.Lists entries) (hok : book.hold order reservation = .ok after) :
    after.Lists (entries ++ [⟨⟨order, reservation⟩, .held⟩]) := by
  have hindexed := hold_indexed h.indexed hok
  obtain ⟨hnone, hafter⟩ := hold_ok hok
  have hfresh : order.key.cid ∉ entries.map Entered.cid := h.byId_none.1 hnone
  apply h.enter ⟨⟨order, reservation⟩, .held⟩ hindexed hfresh
  · rw [hafter]
    rfl
  · intro cid
    rw [hafter]
    cases hprice : order.price with
    | none => simp [Entered.order, hprice]
    | some price =>
      simp only [Option.isSome_some, if_true, BTreeSet.mem_insert, Entered.order, hprice, and_true]
      exact or_comm.trans (or_congr_right eq_comm)
  · exact nofun
  · exact nofun
  · exact nofun
  · intro instrument
    rw [hafter]
    unfold heldOn
    rw [BTreeMap.get?_insert]
    by_cases hsame : order.key.instrument = instrument
    · subst hsame
      simp [Entered.isHeldOn, Entered.order, Entered.cid]
    · simp [Entered.isHeldOn, Entered.order, hsame]
  · intro key position cid hat
    rw [hafter] at hat
    exact .inl hat

/-- Handed out, an order keeps its place in the list, and in no queue. -/
theorem takeHeld (h : book.Lists entries) (instrument : InstrumentNameExchange) :
    (book.takeHeld instrument).2.Lists (Entered.call entries (.takeHeld instrument)).1 := by
  set mark : Entered → Entered := fun entry =>
    if entry.isHeldOn instrument then { entry with place := .taken } else entry with hmark
  have hresting (entry : Entered) : (mark entry).resting = entry.resting := by
    rw [hmark]
    dsimp only
    split <;> rfl
  have hcid (entry : Entered) : (mark entry).cid = entry.cid :=
    congrArg (fun resting => resting.order.key.cid) (hresting entry)
  have horder (entry : Entered) : (mark entry).order = entry.order :=
    congrArg RestingOrder.order (hresting entry)
  have hplace (entry : Entered) : (mark entry).place =
      if entry.isHeldOn instrument then .taken else entry.place := by
    rw [hmark]
    dsimp only
    split <;> rfl
  have hheld {entry : Entered} (hon : entry.isHeldOn instrument = true) : entry.place = .held := by
    simp only [Entered.isHeldOn, Bool.and_eq_true, decide_eq_true_eq] at hon
    exact hon.1
  show (book.takeHeld instrument).2.Lists (entries.map mark)
  have hcids : (entries.map mark).map Entered.cid = entries.map Entered.cid := by
    rw [List.map_map]
    exact List.map_congr_left fun entry _ => hcid entry
  refine
    { indexed := takeHeld_indexed h.indexed instrument
      nodup := hcids ▸ h.nodup
      byId := ?_
      unqueued := ?_
      priced := ?_
      unpriced := ?_
      held := ?_
      numbered := ?_ }
  · intro cid resting
    refine (h.byId cid resting).trans ?_
    constructor
    · rintro ⟨entry, hentry, rfl, rfl⟩
      exact ⟨mark entry, List.mem_map_of_mem hentry, hcid entry, hresting entry⟩
    · rintro ⟨found, hfound, rfl, rfl⟩
      obtain ⟨entry, hentry, rfl⟩ := List.mem_map.1 hfound
      exact ⟨entry, hentry, (hcid entry).symm, (hresting entry).symm⟩
  · intro found hfound
    obtain ⟨entry, hentry, rfl⟩ := List.mem_map.1 hfound
    rw [hcid, horder, hplace]
    refine (h.unqueued entry hentry).trans ?_
    split
    · rename_i hon
      simp [hheld hon]
    · rfl
  · intro found hfound
    obtain ⟨entry, hentry, rfl⟩ := List.mem_map.1 hfound
    rw [horder, hplace]
    split
    · exact nofun
    · exact h.priced entry hentry
  · intro found hfound
    obtain ⟨entry, hentry, rfl⟩ := List.mem_map.1 hfound
    rw [horder, hplace]
    split
    · exact nofun
    · exact h.unpriced entry hentry
  · intro other
    have hon (entry : Entered) : (mark entry).isHeldOn other =
        (entry.isHeldOn other && !entry.isHeldOn instrument) := by
      unfold Entered.isHeldOn
      rw [horder, hplace]
      unfold Entered.isHeldOn
      cases entry.place with
      | held =>
        by_cases hinstrument : entry.order.key.instrument = instrument
        · simp [hinstrument]
        · simp [hinstrument]
      | _ => simp
    unfold heldOn OpenOrders.takeHeld Entered.heldOn
    dsimp only
    rw [BTreeMap.get?_erase, List.filter_map, List.map_map]
    have hsame : (Entered.cid ∘ mark) = Entered.cid := funext hcid
    have hkept : ((fun entry => entry.isHeldOn other) ∘ mark) =
        fun entry : Entered => entry.isHeldOn other && !entry.isHeldOn instrument := funext hon
    rw [hsame, hkept]
    by_cases heq : instrument = other
    · subst heq
      simp
    · rw [if_neg heq]
      refine (h.held other).trans ?_
      unfold Entered.heldOn
      congr 1
      apply List.filter_congr
      intro entry _
      unfold Entered.isHeldOn
      by_cases hother : entry.order.key.instrument = other
      · simp [hother, Ne.symm heq]
      · simp [hother]
  · rw [List.pairwise_map]
    refine h.numbered.imp ?_
    intro a b hlt key position key' position' hat hat'
    rw [hcid] at hat hat'
    exact hlt _ _ _ _ hat hat'

theorem removed (h : book.Lists entries) (hremoved : Removed book cid after) :
    after.Lists (entries.filter fun entry => entry.cid ≠ cid) := by
  have hmem {entry : Entered} : entry ∈ entries.filter (fun entry => entry.cid ≠ cid) ↔
      entry ∈ entries ∧ entry.cid ≠ cid := by simp
  refine
    { indexed := hremoved.indexed h.indexed
      nodup := h.nodup.sublist (List.filter_sublist.map _)
      byId := ?_
      unqueued := ?_
      priced := fun entry hentry => h.priced entry (hmem.1 hentry).1
      unpriced := fun entry hentry => h.unpriced entry (hmem.1 hentry).1
      held := ?_
      numbered := ?_ }
  · intro other resting
    constructor
    · intro hsome
      obtain ⟨hne, hsome⟩ := hremoved.byId_of_some hsome
      obtain ⟨entry, hentry, rfl, hresting⟩ := (h.byId _ _).1 hsome
      exact ⟨entry, hmem.2 ⟨hentry, hne⟩, rfl, hresting⟩
    · rintro ⟨entry, hentry, rfl, hresting⟩
      obtain ⟨hentry, hne⟩ := hmem.1 hentry
      exact hremoved.byId_of_ne hne ((h.byId _ _).2 ⟨entry, hentry, rfl, hresting⟩)
  · intro entry hentry
    obtain ⟨hentry, hne⟩ := hmem.1 hentry
    rw [hremoved.unqueued, BTreeSet.mem_erase, ← h.unqueued entry hentry]
    exact and_iff_right (Ne.symm hne)
  · intro instrument
    rw [hremoved.heldOn, h.held]
    unfold Entered.heldOn
    rw [List.filter_map, List.filter_filter, List.filter_filter]
    congr 1
    apply List.filter_congr
    intro entry _
    simp [Bool.and_comm]
  · refine (h.numbered.sublist List.filter_sublist).imp ?_
    intro a b hlt key position key' position' hat hat'
    exact hlt _ _ _ _ ((hremoved.queuedAt _ _ _).1 hat).2 ((hremoved.queuedAt _ _ _).1 hat').2

theorem find (h : book.Lists entries) (cid : ClientOrderId) : book.byId[cid]? =
    (entries.find? fun entry => entry.cid = cid).map Entered.resting := by
  cases hfound : entries.find? fun entry => decide (entry.cid = cid) with
  | none =>
    apply h.byId_none.2
    intro hmem
    obtain ⟨entry, hentry, hcid⟩ := List.mem_map.1 hmem
    simpa [hcid] using List.find?_eq_none.1 hfound entry hentry
  | some entry =>
    have hcid : entry.cid = cid := by simpa using List.find?_some hfound
    exact (h.byId _ _).2 ⟨entry, List.mem_of_find?_eq_some hfound, hcid, rfl⟩

/-- An order that is refused is one whose id is open, and changes nothing. -/
theorem enter_refused (h : book.Lists entries) (entry : Entered)
    (hcontains : book.contains entry.cid = true) :
    Entered.enter entries entry = (entries, .refused entry.resting) := by
  unfold Entered.enter
  rw [if_pos]
  by_contra hfresh
  rw [← h.byId_none] at hfresh
  rw [contains, Std.ExtTreeMap.contains_eq_isSome_getElem?, hfresh] at hcontains
  cases hcontains

/-- Asked the same, the book and the list answer alike, and still stand for each other. -/
theorem call [Build] (h : book.Lists entries) (asked : BookCall) :
    ∃ after, book.call asked = .ok (after, (Entered.call entries asked).2) ∧
      after.Lists (Entered.call entries asked).1 := by
  cases asked with
  | insert order reservation =>
    unfold OpenOrders.call
    dsimp only
    cases hinsert : book.insert order reservation with
    | ok after =>
      have hlists := h.insert hinsert
      obtain ⟨hnone, -⟩ := index_ok hinsert
      have hfresh : order.key.cid ∉ entries.map Entered.cid := h.byId_none.1 hnone
      have hentered : Entered.call entries (.insert order reservation) =
          (entries ++ [⟨⟨order, reservation⟩, if order.price.isSome then .queued else .unranked⟩],
            .entered) := if_neg hfresh
      rw [hentered]
      exact ⟨after, rfl, hlists⟩
    | error refused =>
      have hcontains := index_error hinsert
      have hresting : refused.refused = ⟨order, reservation⟩ := refused_of_index hinsert
      have hrefused : Entered.call entries (.insert order reservation) =
          (entries, .refused ⟨order, reservation⟩) := h.enter_refused ⟨⟨order, reservation⟩, _⟩ hcontains
      rw [hrefused]
      refine ⟨book, ?_, h⟩
      show Except.ok (book, BookAnswer.refused refused.refused) = _
      rw [hresting]
  | hold order reservation =>
    unfold OpenOrders.call
    dsimp only
    cases hhold : book.hold order reservation with
    | ok after =>
      have hlists := h.hold hhold
      obtain ⟨hnone, -⟩ := hold_ok hhold
      have hfresh : order.key.cid ∉ entries.map Entered.cid := h.byId_none.1 hnone
      have hentered : Entered.call entries (.hold order reservation) =
          (entries ++ [⟨⟨order, reservation⟩, .held⟩], .entered) := if_neg hfresh
      rw [hentered]
      exact ⟨after, rfl, hlists⟩
    | error refused =>
      have hindex : book.index order reservation false = .error refused := by
        cases hindex : book.index order reservation false with
        | ok entered =>
          unfold OpenOrders.hold at hhold
          rw [hindex] at hhold
          cases hhold
        | error again =>
          unfold OpenOrders.hold at hhold
          rw [hindex] at hhold
          cases hhold
          rfl
      have hcontains := index_error hindex
      have hresting : refused.refused = ⟨order, reservation⟩ := refused_of_index hindex
      have hrefused : Entered.call entries (.hold order reservation) =
          (entries, .refused ⟨order, reservation⟩) := h.enter_refused ⟨⟨order, reservation⟩, _⟩ hcontains
      rw [hrefused]
      refine ⟨book, ?_, h⟩
      show Except.ok (book, BookAnswer.refused refused.refused) = _
      rw [hresting]
  | takeHeld instrument =>
    refine ⟨_, ?_, h.takeHeld instrument⟩
    show Except.ok (_, BookAnswer.handedOut (book.heldOn instrument)) = _
    rw [h.held]
    rfl
  | remove cid =>
    obtain ⟨after, hremove, hremoved⟩ := remove_ok h.indexed cid
    refine ⟨after, ?_, h.removed hremoved⟩
    unfold OpenOrders.call
    dsimp only
    rw [hremove]
    rw [h.find cid]
    rfl

theorem calls [Build] (h : book.Lists entries) (asked : List BookCall) :
    ∃ after, book.calls asked = .ok (after, (Entered.calls entries asked).2) ∧
      after.Lists (Entered.calls entries asked).1 := by
  induction asked generalizing book entries with
  | nil => exact ⟨book, rfl, h⟩
  | cons first rest ih =>
    obtain ⟨called, hcall, hcalled⟩ := h.call first
    obtain ⟨last, hrest, hlast⟩ := ih hcalled
    refine ⟨last, ?_, hlast⟩
    unfold OpenOrders.calls
    rw [hcall]
    show (do
      let (last, answers) ← called.calls rest
      return (last, (Entered.call entries first).2 :: answers) : Except Fault _) = _
    rw [hrest]
    rfl

/-! ## What is read -/

/-- An order stands in a queue exactly where it was queued, and only in its own. -/
theorem queuedAt_iff (h : book.Lists entries) (hentry : entry ∈ entries) (key : QueueKey) :
    (∃ position, book.QueuedAt key position entry.cid) ↔
      entry.place = .queued ∧ key = queueKey entry.order := by
  have hsome : book.byId[entry.cid]? = some entry.resting :=
    (h.byId _ _).2 ⟨entry, hentry, rfl, rfl⟩
  constructor
  · rintro ⟨position, hat⟩
    obtain ⟨resting, price, hfound, hnot, hprice, hkey, -⟩ := h.indexed.queued _ _ _ hat
    rw [hsome] at hfound
    cases hfound
    have hpriced : entry.order.price.isSome = true := by
      show entry.resting.order.price.isSome = true
      rw [hprice]
      rfl
    rw [h.unqueued entry hentry, not_and, not_or] at hnot
    obtain ⟨hheld, htaken⟩ := hnot hpriced
    refine ⟨?_, hkey⟩
    cases hplace : entry.place with
    | queued => rfl
    | held => exact absurd hplace hheld
    | taken => exact absurd hplace htaken
    | unranked =>
      rw [h.unpriced entry hentry hplace] at hpriced
      cases hpriced
  · rintro ⟨hqueued, rfl⟩
    apply h.indexed.complete _ _ hsome (h.priced entry hentry hqueued)
    rw [h.unqueued entry hentry, hqueued]
    rintro ⟨-, habsurd | habsurd⟩ <;> cases habsurd

theorem mem_heldOn_iff (h : book.Lists entries) (hentry : entry ∈ entries)
    (instrument : InstrumentNameExchange) : entry.cid ∈ book.heldOn instrument ↔
      entry.place = .held ∧ entry.order.key.instrument = instrument := by
  rw [h.held, Entered.heldOn, List.mem_map]
  constructor
  · rintro ⟨found, hfound, hcid⟩
    obtain ⟨hfound, hon⟩ := List.mem_filter.1 hfound
    obtain rfl : found = entry := List.inj_on_of_nodup_map h.nodup hfound hentry hcid
    simpa [Entered.isHeldOn] using hon
  · intro hon
    exact ⟨entry, List.mem_filter.2 ⟨hentry, by simpa [Entered.isHeldOn] using hon⟩, rfl⟩

theorem get_eq (h : book.Lists entries) (hentry : entry ∈ entries) :
    book.get entry.cid = some entry.order := by
  unfold OpenOrders.get
  rw [(h.byId _ _).2 ⟨entry, hentry, rfl, rfl⟩]
  rfl

/-- What a position of a queue holds: an order queued there, ranked by its fields. -/
theorem of_queuedAt (h : book.Lists entries) {key : QueueKey} {position : QueuePosition}
    (hat : book.QueuedAt key position cid) : ∃ entry ∈ entries, entry.cid = cid ∧
      entry.place = .queued ∧ key = queueKey entry.order ∧ ∃ price, entry.order.price = some price ∧
        position = .new entry.order.side price entry.order.state.timeExchange position.seq := by
  obtain ⟨resting, price, hsome, -, hprice, -, hposition, -⟩ := h.indexed.queued _ _ _ hat
  obtain ⟨entry, hentry, rfl, rfl⟩ := (h.byId _ _).1 hsome
  obtain ⟨hqueued, hkey⟩ := (h.queuedAt_iff hentry key).1 ⟨position, hat⟩
  exact ⟨entry, hentry, rfl, hqueued, hkey, price, hprice, hposition⟩

/-- Of two queued orders the one with the lesser number was entered first. -/
theorem entered_before (h : book.Lists entries) {a b : Entered} (ha : a ∈ entries)
    (hb : b ∈ entries) {key key' : QueueKey} {position position' : QueuePosition}
    (hat : book.QueuedAt key position a.cid) (hat' : book.QueuedAt key' position' b.cid)
    (hlt : position.seq < position'.seq) :
    (entries.map Entered.cid).idxOf a.cid < (entries.map Entered.cid).idxOf b.cid := by
  have hnumbered : (entries.map Entered.cid).Pairwise fun x y => ∀ key position key' position',
      book.QueuedAt key position x → book.QueuedAt key' position' y →
        position.seq < position'.seq := List.pairwise_map.2 h.numbered
  have hia : (entries.map Entered.cid).idxOf a.cid < (entries.map Entered.cid).length :=
    List.idxOf_lt_length_iff.2 (List.mem_map_of_mem ha)
  have hib : (entries.map Entered.cid).idxOf b.cid < (entries.map Entered.cid).length :=
    List.idxOf_lt_length_iff.2 (List.mem_map_of_mem hb)
  by_contra hnot
  rcases (not_lt.1 hnot).lt_or_eq with hback | hsame
  · have hless := List.pairwise_iff_getElem.1 hnumbered _ _ hib hia hback key' position' key position
      (by rw [List.getElem_idxOf]; exact hat') (by rw [List.getElem_idxOf]; exact hat)
    omega
  · have hcid : b.cid = a.cid := by
      have hb' := List.getElem_idxOf hib
      have ha' := List.getElem_idxOf hia
      rw [← hb', ← ha']
      congr 1
    rw [hcid] at hat'
    have hseq := (h.indexed.once _ _ _ _ _ _ hat hat').2 rfl
    omega

/-- One side of an instrument's book: each order queued there once, the better ahead. -/
theorem resting (h : book.Lists entries) (instrument : InstrumentNameExchange) (side : Side) :
    ((book.resting instrument side).map fun order => order.key.cid).Nodup ∧
      (∀ order, order ∈ book.resting instrument side ↔ ∃ entry ∈ entries, entry.place = .queued ∧
        entry.order = order ∧ order.key.instrument = instrument ∧ order.side = side) ∧
      (book.resting instrument side).Pairwise (Entered.Ahead entries side) := by
  unfold OpenOrders.resting
  cases hqueue : book.queues[(⟨instrument, side⟩ : QueueKey)]? with
  | none =>
    refine ⟨List.nodup_nil, ?_, List.Pairwise.nil⟩
    intro order
    refine iff_of_false List.not_mem_nil ?_
    rintro ⟨entry, hentry, hqueued, rfl, rfl, rfl⟩
    obtain ⟨position, queue, hfound, -⟩ := (h.queuedAt_iff hentry (queueKey entry.order)).2
      ⟨hqueued, rfl⟩
    rw [queueKey, hqueue] at hfound
    cases hfound
  | some queue =>
    dsimp only
    have hat {position : QueuePosition} {cid : ClientOrderId} (hmem : (position, cid) ∈ queue.toList) :
        book.QueuedAt ⟨instrument, side⟩ position cid := ⟨queue, hqueue, BTreeMap.mem_toList.1 hmem⟩
    -- Each position holds an order, so nothing is filtered out.
    have hread {e : QueuePosition × ClientOrderId} (hmem : e ∈ queue.toList) {order : OpenOrder}
        (hget : book.get e.2 = some order) : ∃ entry ∈ entries, entry.cid = e.2 ∧
          entry.order = order ∧ entry.place = .queued ∧ queueKey order = ⟨instrument, side⟩ ∧
          ∃ price, order.price = some price ∧
            e.1 = .new side price order.state.timeExchange e.1.seq := by
      obtain ⟨entry, hentry, hcid, hqueued, hkey, price, hprice, hposition⟩ := h.of_queuedAt (hat hmem)
      rw [← hcid, h.get_eq hentry] at hget
      cases hget
      have hside : entry.order.side = side := (congrArg QueueKey.side hkey).symm
      rw [hside] at hposition
      exact ⟨entry, hentry, hcid, rfl, hqueued, hkey.symm, price, hprice, hposition⟩
    have hordered : (queue.toList.filterMap fun e => book.get e.2).Pairwise
        (Entered.Ahead entries side) := by
      rw [List.pairwise_filterMap]
      refine BTreeMap.keys_pairwise.imp_of_mem ?_
      intro e e' he he' hlt order hget order' hget'
      obtain ⟨entry, hentry, hcid, rfl, -, -, price, hprice, hposition⟩ := hread he hget
      obtain ⟨entry', hentry', hcid', rfl, -, -, price', hprice', hposition'⟩ := hread he' hget'
      refine ⟨price, price', hprice, hprice', ?_⟩
      have hranked : toLex (e.1.priceRank, toLex (e.1.timeExchange, e.1.seq)) <
          toLex (e'.1.priceRank, toLex (e'.1.timeExchange, e'.1.seq)) := hlt
      have hat₁ := hat he
      have hat₂ := hat he'
      rw [← hcid] at hat₁
      rw [← hcid'] at hat₂
      have hbefore := fun hseq => h.entered_before hentry hentry' hat₁ hat₂ hseq
      rw [hposition, hposition'] at hranked
      simp only [QueuePosition.new, Prod.Lex.toLex_lt_toLex] at hranked
      cases side with
      | buy =>
        simp only [neg_lt_neg_iff, neg_inj] at hranked
        rcases hranked with hbetter | ⟨hprices, htimes⟩
        · exact .inl hbetter
        · refine .inr ⟨hprices, ?_⟩
          rcases htimes with hearlier | ⟨hsame, hseq⟩
          · exact .inl hearlier
          · exact .inr ⟨hsame, hbefore hseq⟩
      | sell =>
        rcases hranked with hbetter | ⟨hprices, htimes⟩
        · exact .inl hbetter
        · refine .inr ⟨hprices, ?_⟩
          rcases htimes with hearlier | ⟨hsame, hseq⟩
          · exact .inl hearlier
          · exact .inr ⟨hsame, hbefore hseq⟩
    refine ⟨?_, ?_, hordered⟩
    · rw [List.nodup_iff_pairwise_ne, List.pairwise_map, List.pairwise_filterMap]
      refine BTreeMap.keys_pairwise.imp_of_mem ?_
      intro e e' he he' hlt order hget order' hget' hsame
      obtain ⟨entry, -, hcid, rfl, -, -, price, hprice, hposition⟩ := hread he hget
      obtain ⟨entry', -, hcid', rfl, -, -, price', hprice', hposition'⟩ := hread he' hget'
      have hcids : e.2 = e'.2 := by
        rw [← hcid, ← hcid']
        exact hsame
      -- An order stands at one number, so at one position.
      have hseq := (h.indexed.once _ _ _ _ _ _ (hat he) (hat he')).2 hcids
      rw [hcids, hget'] at hget
      rw [← Option.some.inj hget, hprice'] at hprice
      rw [← Option.some.inj hget, ← Option.some.inj hprice, hseq, ← hposition'] at hposition
      exact absurd hposition hlt.ne
    · intro order
      rw [List.mem_filterMap]
      constructor
      · rintro ⟨e, he, hget⟩
        obtain ⟨entry, hentry, -, rfl, hqueued, hkey, -⟩ := hread he hget
        exact ⟨entry, hentry, hqueued, rfl, congrArg QueueKey.instrument hkey,
          congrArg QueueKey.side hkey⟩
      · rintro ⟨entry, hentry, hqueued, rfl, rfl, rfl⟩
        obtain ⟨position, found, hfound, hposition⟩ :=
          (h.queuedAt_iff hentry (queueKey entry.order)).2 ⟨hqueued, rfl⟩
        rw [queueKey, hqueue] at hfound
        cases hfound
        exact ⟨(position, entry.cid), BTreeMap.mem_toList.2 hposition, h.get_eq hentry⟩

/-- A prefix a sorted list satisfies is all that satisfies it. -/
theorem mem_takeWhile {α : Type} {l : List α} {p : α → Bool}
    (hsorted : l.Pairwise fun a b => p b = true → p a = true) {a : α} :
    a ∈ l.takeWhile p ↔ a ∈ l ∧ p a = true := by
  induction l with
  | nil => simp
  | cons first rest ih =>
    obtain ⟨hfirst, hrest⟩ := List.pairwise_cons.1 hsorted
    by_cases hp : p first = true
    · rw [List.takeWhile_cons_of_pos hp, List.mem_cons, ih hrest, List.mem_cons]
      constructor
      · rintro (rfl | ⟨hmem, hpa⟩)
        · exact ⟨.inl rfl, hp⟩
        · exact ⟨.inr hmem, hpa⟩
      · rintro ⟨rfl | hmem, hpa⟩
        · exact .inl rfl
        · exact .inr ⟨hmem, hpa⟩
    · rw [List.takeWhile_cons_of_neg hp]
      refine iff_of_false List.not_mem_nil ?_
      rintro ⟨hmem, hpa⟩
      rcases List.mem_cons.1 hmem with rfl | hmem
      · exact hp hpa
      · exact hp (hfirst a hmem hpa)

/-- What has expired is every open order with a deadline that was reached, each once. -/
theorem expiredAsOf (h : book.Lists entries) (now : DateTime) : (book.expiredAsOf now).Nodup ∧
    ∀ cid, cid ∈ book.expiredAsOf now ↔ ∃ entry ∈ entries, entry.cid = cid ∧
      ∃ expiry, deadlineOf entry.order = some expiry ∧ expiry ≤ now := by
  have hordered : book.expiries.toList.Pairwise fun a b => a < b :=
    Std.ExtTreeSet.ordered_toList.imp fun hlt => compare_lt_iff_lt.1 hlt
  have hprefix : book.expiries.toList.Pairwise fun a b =>
      decide (b.expiry ≤ now) = true → decide (a.expiry ≤ now) = true := by
    apply hordered.imp
    intro a b hlt hb
    have hlex : toLex (a.expiry, a.cid) < toLex (b.expiry, b.cid) := hlt
    rw [Prod.Lex.toLex_lt_toLex] at hlex
    simp only [decide_eq_true_eq] at hb ⊢
    rcases hlex with hless | ⟨hsame, -⟩
    · exact hless.le.trans hb
    · exact (show a.expiry = b.expiry from hsame).trans_le hb
  have hmem {expiry : DateTime} {cid : ClientOrderId} :
      (⟨expiry, cid⟩ : Deadline) ∈ book.expiries.toList ↔
        ∃ entry ∈ entries, entry.cid = cid ∧ deadlineOf entry.order = some expiry := by
    rw [Std.ExtTreeSet.mem_toList, h.indexed.expiries]
    constructor
    · rintro ⟨resting, hsome, hdeadline⟩
      obtain ⟨entry, hentry, hcid, rfl⟩ := (h.byId _ _).1 hsome
      exact ⟨entry, hentry, hcid, hdeadline⟩
    · rintro ⟨entry, hentry, hcid, hdeadline⟩
      exact ⟨entry.resting, (h.byId _ _).2 ⟨entry, hentry, hcid, rfl⟩, hdeadline⟩
  unfold OpenOrders.expiredAsOf
  constructor
  · rw [List.nodup_iff_pairwise_ne, List.pairwise_map]
    refine (hordered.sublist (List.takeWhile_sublist _)).imp_of_mem ?_
    intro a b ha hb hlt hsame
    obtain ⟨entry, hentry, hcid, hdeadline⟩ := hmem.1 (List.takeWhile_subset _ ha)
    obtain ⟨entry', hentry', hcid', hdeadline'⟩ := hmem.1 (List.takeWhile_subset _ hb)
    obtain rfl : entry = entry' := List.inj_on_of_nodup_map h.nodup hentry hentry' (by
      rw [hcid, hcid', hsame])
    rw [hdeadline] at hdeadline'
    have heq : a = b := by
      cases a; cases b
      simp_all
    exact absurd heq hlt.ne
  · intro cid
    rw [List.mem_map]
    constructor
    · rintro ⟨deadline, hdeadline, rfl⟩
      obtain ⟨hin, hreached⟩ := (mem_takeWhile hprefix).1 hdeadline
      obtain ⟨entry, hentry, hcid, hexpiry⟩ := hmem.1 hin
      exact ⟨entry, hentry, hcid, _, hexpiry, by simpa using hreached⟩
    · rintro ⟨entry, hentry, rfl, expiry, hexpiry, hreached⟩
      refine ⟨⟨expiry, entry.cid⟩, (mem_takeWhile hprefix).2 ⟨?_, by simpa using hreached⟩, rfl⟩
      exact hmem.2 ⟨entry, hentry, rfl, hexpiry⟩

end Lists

/-- What the indices and the queries say of a list of entered orders: each stands in exactly the
    index of its place. -/
structure Agrees (book : OpenOrders) (entries : List Entered) : Prop where
  nodup : (entries.map Entered.cid).Nodup
  orders : ∀ (cid : ClientOrderId) (resting : RestingOrder), book.byId[cid]? = some resting ↔
    ∃ entry ∈ entries, entry.cid = cid ∧ entry.resting = resting
  queued : ∀ entry ∈ entries, ∀ key, (∃ position, book.QueuedAt key position entry.cid) ↔
    entry.place = .queued ∧ key = queueKey entry.order
  held : ∀ entry ∈ entries, ∀ instrument, entry.cid ∈ book.heldOn instrument ↔
    entry.place = .held ∧ entry.order.key.instrument = instrument
  /-- The orders that are in no index of their rank are those handed out, and those without a
      price. -/
  unqueued : ∀ entry ∈ entries, entry.cid ∈ book.unqueued ↔
    entry.order.price.isSome = true ∧ (entry.place = .held ∨ entry.place = .taken)
  priced : ∀ entry ∈ entries, (entry.place = .queued → entry.order.price.isSome = true) ∧
    (entry.place = .unranked → entry.order.price = none)
  /-- No index names an order that is not open. -/
  open' : ∀ cid, ((∃ key position, book.QueuedAt key position cid) ∨
    (∃ instrument, cid ∈ book.heldOn instrument) ∨ cid ∈ book.unqueued) →
      cid ∈ entries.map Entered.cid
  expiries : ∀ (expiry : DateTime) (cid : ClientOrderId), (⟨expiry, cid⟩ : Deadline) ∈ book.expiries ↔
    ∃ entry ∈ entries, entry.cid = cid ∧ deadlineOf entry.order = some expiry
  resting : ∀ instrument side,
    ((book.resting instrument side).map fun order => order.key.cid).Nodup ∧
      (∀ order, order ∈ book.resting instrument side ↔ ∃ entry ∈ entries, entry.place = .queued ∧
        entry.order = order ∧ order.key.instrument = instrument ∧ order.side = side) ∧
      (book.resting instrument side).Pairwise (Entered.Ahead entries side)
  handedOut : ∀ instrument, book.heldOn instrument = Entered.heldOn entries instrument
  expired : ∀ now, (book.expiredAsOf now).Nodup ∧ ∀ cid, cid ∈ book.expiredAsOf now ↔
    ∃ entry ∈ entries, entry.cid = cid ∧
      ∃ expiry, deadlineOf entry.order = some expiry ∧ expiry ≤ now

theorem Lists.agrees (h : book.Lists entries) : book.Agrees entries where
  nodup := h.nodup
  orders := h.byId
  queued _ hentry key := h.queuedAt_iff hentry key
  held _ hentry instrument := h.mem_heldOn_iff hentry instrument
  unqueued := h.unqueued
  priced entry hentry := ⟨h.priced entry hentry, h.unpriced entry hentry⟩
  open' := by
    intro cid hnamed
    have hopen : ∃ resting, book.byId[cid]? = some resting := by
      rcases hnamed with ⟨key, position, hat⟩ | ⟨instrument, hheld⟩ | hunqueued
      · obtain ⟨resting, -, hsome, -⟩ := h.indexed.queued _ _ _ hat
        exact ⟨resting, hsome⟩
      · obtain ⟨resting, hsome, -⟩ := h.indexed.mem_heldOn hheld
        exact ⟨resting, hsome⟩
      · obtain ⟨resting, hsome, -⟩ := h.indexed.unqueued cid hunqueued
        exact ⟨resting, hsome⟩
    obtain ⟨resting, hsome⟩ := hopen
    obtain ⟨entry, hentry, rfl, -⟩ := (h.byId _ _).1 hsome
    exact List.mem_map_of_mem hentry
  expiries := by
    intro expiry cid
    rw [h.indexed.expiries]
    constructor
    · rintro ⟨resting, hsome, hdeadline⟩
      obtain ⟨entry, hentry, hcid, rfl⟩ := (h.byId _ _).1 hsome
      exact ⟨entry, hentry, hcid, hdeadline⟩
    · rintro ⟨entry, hentry, hcid, hdeadline⟩
      exact ⟨entry.resting, (h.byId _ _).2 ⟨entry, hentry, hcid, rfl⟩, hdeadline⟩
  resting := h.resting
  handedOut := h.held
  expired := h.expiredAsOf

/-- Whatever is asked of a book, it answers as the list of what was entered and not removed does,
    no assertion fails, and its indices and queries agree with that list. -/
theorem keeps_priority [Build] (asked : List BookCall) :
    ∃ book, default.calls asked = .ok (book, (Entered.calls [] asked).2) ∧
      book.Agrees (Entered.calls [] asked).1 := by
  obtain ⟨book, hcalls, hlists⟩ := default_lists.calls asked
  exact ⟨book, hcalls, hlists.agrees⟩

end OpenOrders

end Rustrade.Mock
