import Rustrade.Execution.ReduceOnly

/-!
# The book of reduce-only orders against a log that forgets nothing

`SentLog` keeps every reduce-only order that ended, where the book keeps the last ones. A client
order id registered again takes its earlier order out of both. So an order leaves the book too early
only if at some time since it ended as many as the book keeps stood behind it in the log.
-/

set_option autoImplicit false

namespace Rustrade

namespace ReduceOnlyBook

/-- Record that an order ended. -/
def retire (self : ReduceOnlyBook) (cid : ClientOrderId) : ReduceOnlyBook :=
  match self.live.get? cid with
  | none => self
  | some order =>
    if order.reduceOnly.isReduceOnly then
      { live := self.live.remove cid
        retired := self.retired.insert cid order
        liveReduceOnly := self.liveReduceOnly - 1 }
    else { self with live := self.live.remove cid }

inductive Op where
  | register (cid : ClientOrderId) (reduceOnly : ReduceOnly)
  | acknowledge (cid : ClientOrderId) (venueId : OrderId)
  | retire (cid : ClientOrderId)
  | retireUntracked (isTracked : ClientOrderId → Bool)
  | clear

def apply (self : ReduceOnlyBook) : Op → ReduceOnlyBook
  | .register cid reduceOnly => self.register cid reduceOnly
  | .acknowledge cid venueId => self.acknowledge cid venueId
  | .retire cid => self.retire cid
  | .retireUntracked isTracked => self.retireUntracked isTracked
  | .clear => self.clear

def run (ops : List Op) : ReduceOnlyBook := ops.foldl apply empty

/-- How many of the live orders are reduce-only. -/
def countLive (live : IndexMap ClientOrderId SentOrder) : ℕ :=
  (live.values.filter fun order => order.reduceOnly.isReduceOnly).length

/-- No order is both live and retired, those retired are reduce-only and no more than the book
keeps, and the reduce-only ones that are live are counted. -/
structure Normal (book : ReduceOnlyBook) : Prop where
  disjoint : ∀ cid ∈ book.live.keys, cid ∉ book.retired.map.keys
  reduceOnly : ∀ order ∈ book.retired.map.values, order.reduceOnly.isReduceOnly = true
  bounded : book.retired.map.len ≤ retiredCapacity
  counted : book.liveReduceOnly = countLive book.live

end ReduceOnlyBook

/-- Every order that is live, in the order sent, and every reduce-only one that ended, in the order
they did, unless its client order id was registered again. -/
structure SentLog where
  live : List (ClientOrderId × ReduceOnly)
  retired : List (ClientOrderId × ReduceOnly)

namespace SentLog

open ReduceOnlyBook (Op)

def empty : SentLog := ⟨[], []⟩

def register (self : SentLog) (cid : ClientOrderId) (reduceOnly : ReduceOnly) : SentLog where
  live := self.live.filter (fun order => order.1 ≠ cid) ++ [(cid, reduceOnly)]
  retired := self.retired.filter fun order => order.1 ≠ cid

def retireUntracked (self : SentLog) (isTracked : ClientOrderId → Bool) : SentLog where
  live := self.live.filter fun order => isTracked order.1
  retired := self.retired ++
    self.live.filter fun order => !isTracked order.1 && order.2.isReduceOnly

def apply (self : SentLog) : Op → SentLog
  | .register cid reduceOnly => self.register cid reduceOnly
  | .acknowledge _ _ => self
  | .retire cid => self.retireUntracked fun other => other ≠ cid
  | .retireUntracked isTracked => self.retireUntracked isTracked
  | .clear => empty

def run (ops : List Op) : SentLog := ops.foldl apply empty

/-- The client order ids of the retired orders, in the order those ended. -/
def ended (self : SentLog) : List ClientOrderId := self.retired.map Prod.fst

/-- As many orders as a book keeps stand behind the order in the log. -/
def Crowded (self : SentLog) (cid : ClientOrderId) : Prop :=
  ∃ front back, self.ended = front ++ cid :: back ∧ ReduceOnlyBook.retiredCapacity ≤ back.length

/-- At some time since the order ended, as many as a book keeps stood behind it. -/
def PushedOut (ops : List Op) (cid : ClientOrderId) : Prop :=
  ∃ earlier later, ops = earlier ++ later ∧
    (∀ middle, middle <+: later → cid ∈ (run (earlier ++ middle)).ended) ∧
    (run earlier).Crowded cid

theorem run_snoc (ops : List Op) (op : Op) : run (ops ++ [op]) = (run ops).apply op := by
  unfold run
  rw [List.foldl_append]
  rfl

theorem PushedOut.ended {ops : List Op} {cid : ClientOrderId} (h : PushedOut ops cid) :
    cid ∈ (run ops).ended := by
  obtain ⟨earlier, later, rfl, hended, -⟩ := h
  exact hended later List.prefix_rfl

/-- One more operation pushes out what it leaves crowded, and what was pushed out and stays. -/
theorem pushedOut_snoc {ops : List Op} {op : Op} {cid : ClientOrderId} :
    PushedOut (ops ++ [op]) cid ↔ cid ∈ (run (ops ++ [op])).ended ∧
      ((run (ops ++ [op])).Crowded cid ∨ PushedOut ops cid) := by
  constructor
  · intro h
    refine ⟨h.ended, ?_⟩
    obtain ⟨earlier, later, hops, hended, hcrowded⟩ := h
    rcases List.eq_nil_or_concat later with rfl | ⟨front, last, rfl⟩
    · rw [List.append_nil] at hops
      rw [hops]
      exact .inl hcrowded
    · rw [List.concat_eq_append, ← List.append_assoc] at hops
      obtain ⟨rfl, -⟩ := List.append_inj' hops rfl
      refine .inr ⟨earlier, front, rfl, ?_, hcrowded⟩
      intro middle hmiddle
      exact hended middle (hmiddle.trans (List.concat_eq_append ▸ List.prefix_append _ _))
  · rintro ⟨hended, hcrowded | ⟨earlier, later, rfl, hstays, hcrowded⟩⟩
    · refine ⟨ops ++ [op], [], (List.append_nil _).symm, ?_, hcrowded⟩
      intro middle hmiddle
      rw [List.prefix_nil.1 hmiddle, List.append_nil]
      exact hended
    · refine ⟨earlier, later ++ [op], List.append_assoc _ _ _, ?_, hcrowded⟩
      intro middle hmiddle
      rcases List.prefix_concat_iff.1 hmiddle with rfl | hmiddle
      · rw [← List.append_assoc]
        exact hended
      · exact hstays middle hmiddle

end SentLog

/-! ## The book follows the log -/

open ReduceOnlyBook SentLog

/-- What the log keeps of an order. -/
def sentAs (entry : ClientOrderId × SentOrder) : ClientOrderId × ReduceOnly :=
  (entry.1, entry.2.reduceOnly)

/-- The book has the log's live orders, and the last of its retired ones. -/
structure SentLog.Follows (book : ReduceOnlyBook) (log : SentLog) : Prop where
  live : book.live.entries.map sentAs = log.live
  retired : book.retired.map.entries.map sentAs <:+ log.retired
  nodup : (log.live.map Prod.fst ++ log.ended).Nodup
  reduceOnly : ∀ order ∈ log.retired, order.2.isReduceOnly = true
  counted : book.liveReduceOnly = countLive book.live

section

variable {book : ReduceOnlyBook} {log : SentLog} {cid : ClientOrderId}

theorem map_fst_sentAs (m : IndexMap ClientOrderId SentOrder) :
    (m.entries.map sentAs).map Prod.fst = m.keys := by
  unfold IndexMap.keys
  rw [List.map_map]
  rfl

theorem SentLog.Follows.ended (h : Follows book log) : book.retired.map.keys <:+ log.ended := by
  rw [← map_fst_sentAs]
  exact h.retired.map Prod.fst

theorem SentLog.Follows.normal (h : Follows book log) : Normal book := by
  have hlive : log.live.map Prod.fst = book.live.keys := by
    rw [← h.live, map_fst_sentAs]
  refine ⟨?_, ?_, book.retired.len_le, h.counted⟩
  · intro cid hcid hretired
    have hended := h.ended.subset hretired
    rw [← hlive] at hcid
    exact (List.nodup_append.1 h.nodup).2.2 cid hcid cid hended rfl
  · intro order horder
    obtain ⟨entry, hentry, rfl⟩ := List.mem_map.1 horder
    exact h.reduceOnly _ (h.retired.subset (List.mem_map_of_mem hentry))

/-- The book finds an order where the log has it, and it was not evicted. -/
theorem SentLog.Follows.lookupIds (h : Follows book log) {orderId : OrderId} {found : BookedOrder} :
    book.lookupIds (some cid) orderId = some found ↔ found.cid = cid ∧
      ((cid, found.reduceOnly) ∈ log.live ∨
        ((cid, found.reduceOnly) ∈ log.retired ∧ cid ∈ book.retired.map.keys)) := by
  have hsent : ∀ (m : IndexMap ClientOrderId SentOrder) (reduceOnly : ReduceOnly),
      (cid, reduceOnly) ∈ m.entries.map sentAs ↔
        ∃ order, m.get? cid = some order ∧ order.reduceOnly = reduceOnly := by
    intro m reduceOnly
    rw [List.mem_map]
    constructor
    · rintro ⟨⟨other, order⟩, hmem, heq⟩
      cases heq
      exact ⟨order, IndexMap.get?_eq_some_iff.2 hmem, rfl⟩
    · rintro ⟨order, hget, rfl⟩
      exact ⟨(cid, order), IndexMap.get?_eq_some_iff.1 hget, rfl⟩
  have hretired : (cid, found.reduceOnly) ∈ log.retired ∧ cid ∈ book.retired.map.keys ↔
      (cid, found.reduceOnly) ∈ book.retired.map.entries.map sentAs := by
    constructor
    · rintro ⟨hlogged, hkept⟩
      obtain ⟨⟨other, order⟩, hmem, rfl⟩ := List.mem_map.1 hkept
      have hsame := h.retired.subset (List.mem_map_of_mem (f := sentAs) hmem)
      have hnodup : (log.retired.map Prod.fst).Nodup := (List.nodup_append.1 h.nodup).2.1
      rw [List.inj_on_of_nodup_map hnodup hlogged hsame rfl]
      exact List.mem_map_of_mem hmem
    · intro hmem
      refine ⟨h.retired.subset hmem, ?_⟩
      rw [← map_fst_sentAs]
      exact List.mem_map_of_mem (f := Prod.fst) hmem
  rw [hretired, ← h.live, hsent, hsent]
  unfold ReduceOnlyBook.lookupIds
  constructor
  · intro hfound
    obtain ⟨order, horder, rfl⟩ := Option.map_eq_some_iff.1 hfound
    refine ⟨rfl, ?_⟩
    rcases Option.or_eq_some_iff.1 horder with hlive | ⟨-, hretired⟩
    · exact .inl ⟨order, hlive, rfl⟩
    · exact .inr ⟨order, hretired, rfl⟩
  · rintro ⟨rfl, ⟨order, hget, hsame⟩ | ⟨order, hget, hsame⟩⟩
    · show Option.map _ (Option.or (book.live.get? found.cid) _) = _
      rw [hget, Option.some_or, Option.map_some, hsame]
    · have hnone : book.live.get? found.cid = none := by
        cases hlive : book.live.get? found.cid with
        | none => rfl
        | some other =>
          exact absurd (IndexMap.mem_keys_iff.2 ⟨order, hget⟩)
            (h.normal.disjoint _ (IndexMap.mem_keys_iff.2 ⟨other, hlive⟩))
      have hget' : book.retired.get? found.cid = some order := hget
      show Option.map _ (Option.or (book.live.get? found.cid) _) = _
      rw [hnone, Option.none_or, hget', Option.map_some, hsame]

/-! ## What one operation keeps -/

/-- The log's next orders are the book's next ones, and what ended stays in the book unless the log
has as many behind it as the book keeps. -/
structure SentLog.Keeps (book : ReduceOnlyBook) (log : SentLog) (book' : ReduceOnlyBook)
    (log' : SentLog) : Prop where
  follows : Follows book' log'
  kept : ∀ cid ∈ log'.ended, cid ∈ book'.retired.map.keys ↔
    ¬ log'.Crowded cid ∧ (cid ∈ log.ended → cid ∈ book.retired.map.keys)

theorem eq_behind {α : Type} {a : α} {front back front' back' : List α}
    (hnodup : (front ++ a :: back).Nodup) (h : front ++ a :: back = front' ++ a :: back') :
    back = back' := by
  obtain ⟨-, hback, hfront⟩ := List.nodup_append.1 hnodup
  have hnot : a ∉ front := fun hmem => hfront a hmem a List.mem_cons_self rfl
  exact ((List.append_cons_inj_of_notMem hnot (List.nodup_cons.1 hback).1).1 h).2.2

/-- What is in the book is not crowded out of it. -/
theorem SentLog.Follows.not_crowded (h : Follows book log) (hkept : cid ∈ book.retired.map.keys) :
    ¬ log.Crowded cid := by
  rintro ⟨front, back, hended, hfull⟩
  obtain ⟨evicted, hsplit⟩ := h.ended
  obtain ⟨front', back', hkeys⟩ := List.append_of_mem hkept
  have hnodup : log.ended.Nodup := (List.nodup_append.1 h.nodup).2.1
  have hback : back' = back := by
    rw [hkeys, ← List.append_assoc] at hsplit
    rw [← hsplit] at hnodup
    exact eq_behind hnodup (hsplit.trans hended)
  have hlen : book.retired.map.keys.length ≤ retiredCapacity := by
    rw [← IndexMap.len_eq_length_keys]
    exact book.retired.len_le
  rw [hkeys, List.length_append, List.length_cons, hback] at hlen
  omega

/-- An operation that retires nothing keeps of each retired order what it leaves in the log. -/
theorem SentLog.Keeps.of_follows {book' : ReduceOnlyBook} {log' : SentLog}
    (h : Follows book' log') (hended : ∀ cid ∈ log'.ended, cid ∈ log.ended)
    (hkept : ∀ cid ∈ log'.ended, cid ∈ book'.retired.map.keys ↔ cid ∈ book.retired.map.keys) :
    Keeps book log book' log' := by
  refine ⟨h, ?_⟩
  intro cid hcid
  constructor
  · intro hin
    exact ⟨h.not_crowded hin, fun _ => (hkept cid hcid).1 hin⟩
  · rintro ⟨-, hin⟩
    exact (hkept cid hcid).2 (hin (hended cid hcid))

/-- How the live reduce-only orders are counted as the log has them. -/
theorem countLive_eq (m : IndexMap ClientOrderId SentOrder) :
    countLive m = (m.entries.map sentAs).countP fun order => order.2.isReduceOnly := by
  unfold countLive IndexMap.values
  rw [← List.countP_eq_length_filter, List.countP_map, List.countP_map]
  rfl

theorem SentLog.Follows.acknowledge (h : Follows book log) (venueId : OrderId) :
    Keeps book log (book.acknowledge cid venueId) log := by
  have hsent : ∀ m : IndexMap ClientOrderId SentOrder,
      (m.modify cid fun order => { order with venueId := some venueId }).entries.map sentAs =
        m.entries.map sentAs := by
    intro m
    unfold IndexMap.modify IndexMap.mapValues
    rw [List.map_map]
    apply List.map_congr_left
    intro entry _
    show sentAs (entry.1, if entry.1 = cid then _ else _) = sentAs entry
    split <;> rfl
  unfold ReduceOnlyBook.acknowledge
  split
  · refine .of_follows ⟨(hsent _).trans h.live, h.retired, h.nodup, h.reduceOnly, ?_⟩
      (fun _ hended => hended) (fun _ _ => Iff.rfl)
    rw [countLive_eq, hsent, ← countLive_eq]
    exact h.counted
  · refine .of_follows ⟨h.live, ?_, h.nodup, h.reduceOnly, h.counted⟩ (fun _ hended => hended) ?_
    · show (book.retired.map.modify cid _).entries.map sentAs <:+ _
      rw [hsent]
      exact h.retired
    · intro other _
      show other ∈ (book.retired.map.modify cid _).keys ↔ _
      rw [IndexMap.keys_modify]

/-- Taking an order out takes it out of the count. -/
theorem countLive_remove (m : IndexMap ClientOrderId SentOrder) (cid : ClientOrderId) :
    countLive (m.remove cid) + ((m.get? cid).map fun order => count order.reduceOnly).getD 0 =
      countLive m := by
  cases hget : m.get? cid with
  | none =>
    rw [IndexMap.remove_of_none hget]
    rfl
  | some order =>
    obtain ⟨front, back, hentries, hremoved⟩ := IndexMap.entries_remove hget
    rw [countLive_eq, countLive_eq, hentries, hremoved, List.map_append, List.map_append,
      List.map_cons, List.countP_append, List.countP_append, List.countP_cons]
    show _ + _ + count order.reduceOnly = _
    unfold count sentAs
    cases order.reduceOnly.isReduceOnly
    · simp
    · simp
      omega

theorem SentLog.Follows.register (h : Follows book log) (reduceOnly : ReduceOnly) :
    Keeps book log (book.register cid reduceOnly) (log.register cid reduceOnly) := by
  have hfilter : ∀ m : IndexMap ClientOrderId SentOrder, (m.remove cid).entries.map sentAs =
      (m.entries.map sentAs).filter fun order => order.1 ≠ cid := by
    intro m
    rw [List.filter_map]
    rfl
  have hnot : cid ∉ (book.live.remove cid).keys := by
    rw [IndexMap.mem_keys_iff]
    rintro ⟨order, hget⟩
    rw [IndexMap.get?_remove_self] at hget
    cases hget
  have hlive : (book.register cid reduceOnly).live.entries.map sentAs =
      (log.register cid reduceOnly).live := by
    show ((book.live.remove cid).insert cid ⟨reduceOnly, none⟩).entries.map sentAs = _
    rw [IndexMap.entries_insert_of_not_mem hnot, List.map_append, hfilter, h.live]
    rfl
  have hended : (log.register cid reduceOnly).ended = log.ended.filter fun other => other ≠ cid := by
    unfold SentLog.ended SentLog.register
    rw [List.filter_map]
    rfl
  have hids : (log.register cid reduceOnly).live.map Prod.fst =
      (log.live.map Prod.fst).filter (fun other => other ≠ cid) ++ [cid] := by
    unfold SentLog.register
    rw [List.map_append, List.filter_map]
    rfl
  refine .of_follows ⟨hlive, ?_, ?_, ?_, ?_⟩ ?_ ?_
  · show (book.retired.map.remove cid).entries.map sentAs <:+ _
    rw [hfilter]
    obtain ⟨evicted, hsplit⟩ := h.retired
    show _ <:+ log.retired.filter _
    rw [← hsplit, List.filter_append]
    exact List.suffix_append _ _
  · rw [hids, hended, List.append_assoc]
    have hfiltered := h.nodup.filter fun other => decide (other ≠ cid)
    rw [List.filter_append] at hfiltered
    refine (List.perm_middle.nodup_iff).2 (List.nodup_cons.2 ⟨?_, hfiltered⟩)
    simp
  · intro order horder
    exact h.reduceOnly order (List.mem_of_mem_filter horder)
  · show book.liveReduceOnly - _ + count reduceOnly = _
    have hinserted : countLive ((book.live.remove cid).insert cid ⟨reduceOnly, none⟩) =
        countLive (book.live.remove cid) + count reduceOnly := by
      rw [countLive_eq, countLive_eq, IndexMap.entries_insert_of_not_mem hnot, List.map_append,
        List.countP_append]
      unfold count
      cases hflag : reduceOnly.isReduceOnly <;> simp [sentAs, hflag]
    have hremoved := countLive_remove book.live cid
    rw [h.counted, ← hremoved, Nat.add_sub_cancel]
    exact hinserted.symm
  · intro other hother
    rw [hended] at hother
    exact List.mem_of_mem_filter hother
  · intro other hother
    rw [hended] at hother
    have hne : other ≠ cid := of_decide_eq_true (List.mem_filter.1 hother).2
    show other ∈ (book.retired.map.remove cid).keys ↔ _
    rw [IndexMap.mem_keys_iff, IndexMap.mem_keys_iff, IndexMap.get?_remove_of_ne hne]

/-- Whatever is live and no longer tracked ends, and only that which is reduce-only is kept. -/
theorem SentLog.Follows.retireUntracked (h : Follows book log) (isTracked : ClientOrderId → Bool) :
    Keeps book log (book.retireUntracked isTracked) (log.retireUntracked isTracked) := by
  obtain ⟨hlive, hretired, hnodup, hreduceOnly, hcounted⟩ := id h
  set new := book.live.entries.filter fun e => !isTracked e.1 && e.2.reduceOnly.isReduceOnly
    with hnewDef
  have hnew : new.map sentAs =
      log.live.filter fun order => !isTracked order.1 && order.2.isReduceOnly := by
    rw [← hlive, List.filter_map]
    rfl
  have hids : (log.retireUntracked isTracked).ended = log.ended ++ new.map Prod.fst := by
    show (log.retired ++ _).map Prod.fst = _
    rw [← hnew, List.map_append, List.map_map]
    rfl
  have hkeys : book.live.keys = log.live.map Prod.fst := by
    rw [← hlive, map_fst_sentAs]
  obtain ⟨hnodupLive, hnodupEnded, hdisjoint⟩ := List.nodup_append.1 hnodup
  have hnewLive : ∀ cid ∈ new.map Prod.fst, cid ∈ log.live.map Prod.fst := by
    intro cid hcid
    rw [← hkeys]
    exact (List.filter_sublist.map Prod.fst).subset hcid
  have hnodupNew : (new.map Prod.fst).Nodup :=
    book.live.nodup.sublist (List.filter_sublist.map Prod.fst)
  have hfresh : ∀ cid ∈ new.map Prod.fst, cid ∉ book.retired.map.keys := by
    intro cid hcid hmem
    exact hdisjoint cid (hnewLive cid hcid) cid (h.ended.subset hmem) rfl
  have hentries : (book.retireUntracked isTracked).retired.map.entries =
      (book.retired.map.entries ++ new).rtake retiredCapacity :=
    BoundedMap.entries_foldl_insert hnodupNew hfresh
  have hfollows : Follows (book.retireUntracked isTracked) (log.retireUntracked isTracked) := by
    refine ⟨?_, ?_, ?_, ?_, ?_⟩
    · show (book.live.entries.filter _).map sentAs = log.live.filter _
      rw [← hlive, List.filter_map]
      rfl
    · rw [hentries]
      have hdropped : ((book.retired.map.entries ++ new).rtake retiredCapacity).map sentAs <:+
          (book.retired.map.entries ++ new).map sentAs := (List.drop_suffix _ _).map sentAs
      refine hdropped.trans ?_
      obtain ⟨evicted, hsplit⟩ := hretired
      show _ <:+ log.retired ++ _
      rw [List.map_append, hnew, ← hsplit, List.append_assoc]
      exact List.suffix_append _ _
    · rw [hids, List.nodup_append, List.nodup_append]
      have hstays : ((log.retireUntracked isTracked).live.map Prod.fst).Sublist
          (log.live.map Prod.fst) := List.filter_sublist.map Prod.fst
      refine ⟨hnodupLive.sublist hstays, ⟨hnodupEnded, hnodupNew, ?_⟩, ?_⟩
      · intro cid hcid other hother heq
        exact hdisjoint other (hnewLive other hother) cid hcid heq.symm
      · intro cid hcid other hother heq
        subst heq
        rcases List.mem_append.1 hother with hother | hother
        · exact hdisjoint cid (hstays.subset hcid) cid hother rfl
        · obtain ⟨order, horder, rfl⟩ := List.mem_map.1 hcid
          obtain ⟨entry, hentry, hsame⟩ := List.mem_map.1 hother
          have htracked := (List.mem_filter.1 horder).2
          have hnot := (List.mem_filter.1 hentry).2
          rw [Bool.and_eq_true, hsame, htracked] at hnot
          cases hnot.1
    · intro order horder
      rcases List.mem_append.1 horder with horder | horder
      · exact hreduceOnly order horder
      · have hflags := (List.mem_filter.1 horder).2
        rw [Bool.and_eq_true] at hflags
        exact hflags.2
    · show book.liveReduceOnly - new.length = countLive (book.live.retain fun cid _ => isTracked cid)
      have hcount : ∀ m : IndexMap ClientOrderId SentOrder,
          countLive m = m.entries.countP fun e => e.2.reduceOnly.isReduceOnly := by
        intro m
        rw [countLive_eq, List.countP_map]
        rfl
      have hlength : new.length = (book.live.entries.filter fun e => !isTracked e.1).countP
          fun e => e.2.reduceOnly.isReduceOnly := by
        rw [hnewDef, List.countP_filter, List.countP_eq_length_filter]
        congr 2
        funext e
        rw [Bool.and_comm]
      rw [hcounted, hcount, hcount, hlength, List.countP_eq_countP_filter_add _ _
        fun e => isTracked e.1]
      exact Nat.add_sub_cancel _ _
  refine ⟨hfollows, ?_⟩
  intro cid hcid
  have hkept : (book.retireUntracked isTracked).retired.map.keys =
      (book.retired.map.keys ++ new.map Prod.fst).rtake retiredCapacity := by
    unfold IndexMap.keys
    rw [hentries, ← List.map_append]
    simp [List.rtake, List.map_drop]
  constructor
  · intro hin
    refine ⟨hfollows.not_crowded hin, ?_⟩
    intro hbefore
    rw [hkept] at hin
    rcases List.mem_append.1 (List.mem_of_mem_drop hin) with hold | hnewer
    · exact hold
    · exact absurd rfl (hdisjoint cid (hnewLive cid hnewer) cid hbefore)
  · rintro ⟨hroom, hstayed⟩
    rw [hids] at hcid
    have hin : cid ∈ book.retired.map.keys ++ new.map Prod.fst := by
      rcases List.mem_append.1 hcid with hbefore | hnewer
      · exact List.mem_append_left _ (hstayed hbefore)
      · exact List.mem_append_right _ hnewer
    obtain ⟨front, back, hsplit⟩ := List.append_of_mem hin
    have hback : back.length < retiredCapacity := by
      by_contra hfull
      obtain ⟨evicted, hevicted⟩ := h.ended
      refine hroom ⟨evicted ++ front, back, ?_, not_lt.1 hfull⟩
      rw [hids, ← hevicted, List.append_assoc, hsplit, List.append_assoc]
    rw [hkept, hsplit]
    unfold List.rtake
    rw [List.drop_append_of_le_length (by rw [List.length_append, List.length_cons]; omega)]
    exact List.mem_append_right _ List.mem_cons_self

theorem SentLog.Follows.clear : Keeps book log book.clear SentLog.empty :=
  .of_follows ⟨rfl, List.suffix_rfl, List.nodup_nil, fun _ h => absurd h List.not_mem_nil, rfl⟩
    (fun _ h => absurd h List.not_mem_nil) (fun _ h => absurd h List.not_mem_nil)

/-- Retiring an order is retiring what else is not tracked. -/
theorem retire_eq (book : ReduceOnlyBook) (cid : ClientOrderId) :
    book.retire cid = book.retireUntracked fun other => other ≠ cid := by
  have hends : book.live.entries.filter
      (fun e => !decide (e.1 ≠ cid) && e.2.reduceOnly.isReduceOnly) =
        ((book.live.get? cid).filter fun order => order.reduceOnly.isReduceOnly).toList.map
          fun order => (cid, order) := by
    cases hget : book.live.get? cid with
    | none =>
      rw [List.filter_eq_nil_iff.2]
      · rfl
      · rintro ⟨other, order⟩ hmem
        have hne : other ≠ cid := by
          rintro rfl
          rw [IndexMap.get?_eq_some_iff.2 hmem] at hget
          cases hget
        simp [hne]
    | some order =>
      obtain ⟨front, back, hentries, hremoved⟩ := IndexMap.entries_remove hget
      have hother : ∀ e ∈ front ++ back, e.1 ≠ cid := by
        intro e he
        rw [← hremoved] at he
        exact of_decide_eq_true (List.mem_filter.1 he).2
      have hnone : ∀ l : List (ClientOrderId × SentOrder), (∀ e ∈ l, e.1 ≠ cid) →
          l.filter (fun e => !decide (e.1 ≠ cid) && e.2.reduceOnly.isReduceOnly) = [] := by
        intro l hl
        rw [List.filter_eq_nil_iff]
        intro e he
        simp [hl e he]
      rw [hentries, List.filter_append,
        hnone front fun e he => hother e (List.mem_append_left _ he), List.filter_cons,
        hnone back fun e he => hother e (List.mem_append_right _ he)]
      cases hflag : order.reduceOnly.isReduceOnly with
      | false => simp [hflag]
      | true => simp [Option.filter, hflag]
  unfold ReduceOnlyBook.retire ReduceOnlyBook.retireUntracked
  rw [hends]
  cases hget : book.live.get? cid with
  | none =>
    have hsame : book.live.retain (fun other _ => decide (other ≠ cid)) = book.live :=
      IndexMap.remove_of_none hget
    rw [hsame]
    rfl
  | some order =>
    cases hflag : order.reduceOnly.isReduceOnly with
    | false =>
      simp only [Option.filter, hflag]
      rfl
    | true =>
      simp only [Option.filter, hflag]
      rfl

theorem SentLog.Follows.apply (h : Follows book log) (op : Op) :
    Keeps book log (book.apply op) (log.apply op) := by
  cases op with
  | register cid reduceOnly => exact h.register reduceOnly
  | acknowledge cid venueId => exact h.acknowledge venueId
  | retire cid =>
    show Keeps book log (book.retire cid) _
    rw [retire_eq]
    exact h.retireUntracked _
  | retireUntracked isTracked => exact h.retireUntracked isTracked
  | clear => exact SentLog.Follows.clear

/-! ## Whole histories -/

theorem run_follows (ops : List Op) : Follows (ReduceOnlyBook.run ops) (SentLog.run ops) ∧
    ∀ cid ∈ (SentLog.run ops).ended,
      cid ∈ (ReduceOnlyBook.run ops).retired.map.keys ↔ ¬ PushedOut ops cid := by
  induction ops using List.reverseRecOn with
  | nil =>
    exact ⟨⟨rfl, List.suffix_rfl, List.nodup_nil, fun _ h => absurd h List.not_mem_nil, rfl⟩,
      fun _ h => absurd h List.not_mem_nil⟩
  | append_singleton ops op ih =>
    obtain ⟨hfollows, hkept⟩ := ih
    have hbook : ReduceOnlyBook.run (ops ++ [op]) = (ReduceOnlyBook.run ops).apply op := by
      unfold ReduceOnlyBook.run
      rw [List.foldl_append]
      rfl
    obtain ⟨hfollows', hkept'⟩ := hfollows.apply op
    rw [← run_snoc, ← hbook] at hfollows' hkept'
    refine ⟨hfollows', ?_⟩
    intro cid hcid
    rw [hkept' cid hcid, pushedOut_snoc, not_and, not_or]
    constructor
    · rintro ⟨hroom, hstays⟩ _
      refine ⟨hroom, ?_⟩
      intro hpushed
      exact (hkept cid hpushed.ended).1 (hstays hpushed.ended) hpushed
    · intro hnot
      obtain ⟨hroom, hpushed⟩ := hnot hcid
      exact ⟨hroom, fun hbefore => (hkept cid hbefore).2 hpushed⟩

end

end Rustrade
