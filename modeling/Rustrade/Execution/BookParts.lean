import Rustrade.Execution.SentLog

/-!
# A book of reduce-only orders serialised and loaded

What a self-describing format holds of a book, and what is loaded from it: either form of a retired
order, a flag or a name for what an order was sent as, and either part left out. Loading normalises
whatever it finds, and gives back a book that was serialised as it was.
-/

set_option autoImplicit false

namespace Rustrade

/-- A value of a self-describing format. -/
inductive Content where
  | null
  | bool (flag : Bool)
  | str (text : String)
  | map (fields : List (String × Content))

namespace Content

/-- The field of that name, `none` if it is left out. A field given twice is refused. -/
def field? (fields : List (String × Content)) (name : String) : Option (Option Content) :=
  match fields.filter fun field => field.1 = name with
  | [] => some none
  | [field] => some (some field.2)
  | _ => none

end Content

namespace ReduceOnly

def serialize : ReduceOnly → Content
  | .no => .str "no"
  | .position => .str "position"
  | .positionAndFreeBase => .str "position_and_free_base"

def deserialize : Content → Option ReduceOnly
  | .bool flag => some (if flag then .position else .no)
  | .str name =>
    if name = "no" then some .no
    else if name = "position" then some .position
    else if name = "position_and_free_base" then some .positionAndFreeBase
    else none
  | _ => none

theorem deserialize_serialize (self : ReduceOnly) : deserialize self.serialize = some self := by
  cases self <;> rfl

end ReduceOnly

namespace SentOrder

def serializeId : Option OrderId → Content
  | none => .null
  | some id => .str id.val

def deserializeId : Content → Option (Option OrderId)
  | .null => some none
  | .str id => some (some ⟨id⟩)
  | _ => none

def serialize (self : SentOrder) : Content :=
  .map [("reduce_only", self.reduceOnly.serialize), ("venue_id", serializeId self.venueId)]

/-- An order without an id has none. -/
def deserialize : Content → Option SentOrder
  | .map fields => do
    let reduceOnly ← (← Content.field? fields "reduce_only")
    let reduceOnly ← ReduceOnly.deserialize reduceOnly
    let venueId ← match ← Content.field? fields "venue_id" with
      | none => some none
      | some id => deserializeId id
    return ⟨reduceOnly, venueId⟩
  | _ => none

/-- A retired order, in the form it was kept in before its `ReduceOnly` was. -/
def bare (venueId : Option OrderId) : SentOrder := ⟨.position, venueId⟩

def deserializeRetired : Content → Option SentOrder
  | .str id => some (bare (some ⟨id⟩))
  | .null => some (bare none)
  | .map fields => deserialize (.map fields)
  | .bool _ => none

theorem deserializeId_serializeId (venueId : Option OrderId) :
    deserializeId (serializeId venueId) = some venueId := by
  cases venueId <;> rfl

theorem deserialize_serialize (self : SentOrder) : deserialize self.serialize = some self := by
  have hreduceOnly : Content.field? [("reduce_only", self.reduceOnly.serialize),
      ("venue_id", serializeId self.venueId)] "reduce_only" =
        some (some self.reduceOnly.serialize) := by
    simp [Content.field?]
  have hvenueId : Content.field? [("reduce_only", self.reduceOnly.serialize),
      ("venue_id", serializeId self.venueId)] "venue_id" =
        some (some (serializeId self.venueId)) := by
    simp [Content.field?]
  unfold serialize deserialize
  simp only [hreduceOnly, hvenueId, Option.bind_eq_bind, Option.bind_some,
    ReduceOnly.deserialize_serialize, deserializeId_serializeId]
  rfl

end SentOrder

namespace ReduceOnlyBook

/-- What is serialised of a book. -/
structure BookParts where
  live : IndexMap ClientOrderId SentOrder
  retired : IndexMap ClientOrderId SentOrder

/-- The orders of a map, in its order. A client order id given again takes the earlier one's
place. -/
def deserializeOrders (order : Content → Option SentOrder) :
    List (String × Content) → IndexMap ClientOrderId SentOrder →
      Option (IndexMap ClientOrderId SentOrder)
  | [], orders => some orders
  | (cid, content) :: rest, orders => do
    deserializeOrders order rest (orders.insert ⟨cid⟩ (← order content))

/-- A part of a book, empty if it is left out. -/
def deserializePart (fields : List (String × Content)) (name : String)
    (order : Content → Option SentOrder) : Option (IndexMap ClientOrderId SentOrder) := do
  match ← Content.field? fields name with
  | none => some .empty
  | some (.map orders) => deserializeOrders order orders .empty
  | some _ => none

namespace BookParts

def deserialize : Content → Option BookParts
  | .map fields => do
    let live ← deserializePart fields "live" SentOrder.deserialize
    let retired ← deserializePart fields "retired" SentOrder.deserializeRetired
    return ⟨live, retired⟩
  | _ => none

/-- The book those parts are of: an order is live or retired, never both, and only the last
reduce-only ones are retired. -/
def toBook (self : BookParts) : ReduceOnlyBook :=
  let retired := (self.retired.retain fun _ order => order.reduceOnly.isReduceOnly).retain
    fun cid _ => !self.live.contains cid
  { live := self.live
    retired := .latest retired
    liveReduceOnly := countLive self.live }

end BookParts

def serializeOrders (orders : IndexMap ClientOrderId SentOrder) : Content :=
  .map (orders.entries.map fun entry => (entry.1.val, entry.2.serialize))

def serialize (self : ReduceOnlyBook) : Content :=
  .map [("live", serializeOrders self.live), ("retired", serializeOrders self.retired.map)]

def load (content : Content) : Option ReduceOnlyBook :=
  (BookParts.deserialize content).map BookParts.toBook

/-! ## What is loaded -/

/-- Whatever the parts, the book they load as is normal. -/
theorem BookParts.toBook_normal (parts : BookParts) : parts.toBook.Normal := by
  have hretired : ∀ entry ∈ parts.toBook.retired.map.entries,
      entry.2.reduceOnly.isReduceOnly = true ∧ parts.live.contains entry.1 = false := by
    intro entry hentry
    have hkept := List.mem_filter.1 (List.mem_of_mem_drop hentry)
    refine ⟨(List.mem_filter.1 hkept.1).2, ?_⟩
    rw [← Bool.not_eq_true']
    exact hkept.2
  refine ⟨?_, ?_, parts.toBook.retired.len_le, rfl⟩
  · intro cid hlive hended
    obtain ⟨entry, hentry, rfl⟩ := List.mem_map.1 hended
    have hnot : parts.toBook.live.contains entry.1 = false := (hretired entry hentry).2
    rw [IndexMap.mem_keys_iff_contains.1 hlive] at hnot
    cases hnot
  · intro order horder
    obtain ⟨entry, hentry, rfl⟩ := List.mem_map.1 horder
    exact (hretired entry hentry).1

theorem load_normal {content : Content} {book : ReduceOnlyBook} (h : load content = some book) :
    book.Normal := by
  obtain ⟨parts, -, rfl⟩ := Option.map_eq_some_iff.1 h
  exact parts.toBook_normal

/-! ## A book serialised and loaded -/

/-- Orders serialised are read back in their order. -/
theorem deserializeOrders_serialize {order : Content → Option SentOrder}
    (horder : ∀ sent : SentOrder, order sent.serialize = some sent)
    (entries : List (ClientOrderId × SentOrder)) (orders : IndexMap ClientOrderId SentOrder)
    (hnodup : (orders.keys ++ entries.map Prod.fst).Nodup) :
    ∃ all, deserializeOrders order
        (entries.map fun entry => (entry.1.val, entry.2.serialize)) orders = some all ∧
      all.entries = orders.entries ++ entries := by
  induction entries generalizing orders with
  | nil => exact ⟨orders, rfl, (List.append_nil _).symm⟩
  | cons entry entries ih =>
    have hnew : entry.1 ∉ orders.keys := by
      intro hmem
      exact (List.nodup_append.1 hnodup).2.2 entry.1 hmem entry.1 List.mem_cons_self rfl
    have hinserted : (orders.insert entry.1 entry.2).entries = orders.entries ++ [entry] :=
      IndexMap.entries_insert_of_not_mem hnew
    have hkeys : (orders.insert entry.1 entry.2).keys = orders.keys ++ [entry.1] := by
      unfold IndexMap.keys
      rw [hinserted, List.map_append]
      rfl
    obtain ⟨all, hall, hentries⟩ := ih (orders.insert entry.1 entry.2) (by
      rw [hkeys, List.append_assoc]
      exact hnodup)
    refine ⟨all, ?_, ?_⟩
    · show (order entry.2.serialize).bind _ = _
      rw [horder]
      exact hall
    · rw [hentries, hinserted, List.append_assoc]
      rfl

theorem deserializePart_serialize {order : Content → Option SentOrder}
    (horder : ∀ sent : SentOrder, order sent.serialize = some sent)
    {fields : List (String × Content)} {name : String} (m : IndexMap ClientOrderId SentOrder)
    (hfield : Content.field? fields name = some (some (serializeOrders m))) :
    deserializePart fields name order = some m := by
  obtain ⟨all, hall, hentries⟩ := deserializeOrders_serialize horder m.entries .empty m.nodup
  unfold deserializePart
  rw [hfield]
  show deserializeOrders order _ .empty = _
  rw [hall, show all = m from IndexMap.ext hentries]

/-- A normal book serialised loads as it was, its retired orders in the order they ended. -/
theorem load_serialize {book : ReduceOnlyBook} (h : book.Normal) :
    load book.serialize = some book := by
  have hretired : ∀ sent : SentOrder, SentOrder.deserializeRetired sent.serialize = some sent :=
    SentOrder.deserialize_serialize
  have hparts : BookParts.deserialize book.serialize = some ⟨book.live, book.retired.map⟩ := by
    show (deserializePart _ "live" SentOrder.deserialize).bind _ = _
    rw [deserializePart_serialize SentOrder.deserialize_serialize book.live rfl]
    show (deserializePart _ "retired" SentOrder.deserializeRetired).bind _ = _
    rw [deserializePart_serialize hretired book.retired.map rfl]
    rfl
  have hkept : (book.retired.map.retain fun _ order => order.reduceOnly.isReduceOnly).retain
      (fun cid _ => !book.live.contains cid) = book.retired.map := by
    apply IndexMap.ext
    have hfirst : book.retired.map.entries.filter
        (fun entry => entry.2.reduceOnly.isReduceOnly) = book.retired.map.entries :=
      List.filter_eq_self.2 fun entry hentry => h.reduceOnly _ (List.mem_map_of_mem hentry)
    show (book.retired.map.entries.filter _).filter _ = _
    rw [hfirst, List.filter_eq_self]
    intro entry hentry
    rw [Bool.not_eq_true']
    by_contra hlive
    rw [Bool.not_eq_false, ← IndexMap.mem_keys_iff_contains] at hlive
    exact h.disjoint entry.1 hlive (List.mem_map_of_mem hentry)
  unfold load
  rw [hparts]
  show some (BookParts.toBook ⟨book.live, book.retired.map⟩) = some book
  unfold BookParts.toBook
  dsimp only
  rw [hkept, BoundedMap.latest_map, ← h.counted]

/-- Whatever was registered, acknowledged, retired or cleared, the book is normal; it finds by its
client order id the latest order registered under it if that is live, or was reduce-only and has at
no time since it ended had as many behind it as the book keeps; and it is loaded as it was. Whatever
is loaded is normal. -/
theorem refines_log (ops : List Op) :
    (run ops).Normal ∧
      (∀ cid orderId found, (run ops).lookupIds (some cid) orderId = some found ↔
        found.cid = cid ∧ ((cid, found.reduceOnly) ∈ (SentLog.run ops).live ∨
          ((cid, found.reduceOnly) ∈ (SentLog.run ops).retired ∧ ¬ SentLog.PushedOut ops cid))) ∧
      (∀ parts : BookParts, parts.toBook.Normal) ∧
      (∀ content book, load content = some book → book.Normal) ∧
      load (run ops).serialize = some (run ops) := by
  obtain ⟨hfollows, hkept⟩ := run_follows ops
  refine ⟨hfollows.normal, ?_, BookParts.toBook_normal, fun _ _ h => load_normal h,
    load_serialize hfollows.normal⟩
  intro cid orderId found
  rw [hfollows.lookupIds]
  have hstays : (cid, found.reduceOnly) ∈ (SentLog.run ops).retired ∧
      cid ∈ (run ops).retired.map.keys ↔
        (cid, found.reduceOnly) ∈ (SentLog.run ops).retired ∧ ¬ SentLog.PushedOut ops cid := by
    refine and_congr_right ?_
    intro hmem
    exact hkept cid (List.mem_map_of_mem (f := Prod.fst) hmem)
  rw [hstays]

/-- A reduce-only order that is sent and ends. -/
def sendAndEnd (id : String) : List Op := [.register ⟨id⟩ .position, .retire ⟨id⟩]

/-- An order is still found when as many reduce-only orders as the book keeps have ended after it,
where one reused the client order id of another. And one that none ended after is not found, once
the book is cleared. -/
theorem found_behind_capacity :
    let later := (List.range 63).flatMap (fun id => sendAndEnd (toString id)) ++ sendAndEnd "0"
    (later.countP fun op => op matches .retire _) = retiredCapacity ∧
      (run (sendAndEnd "order" ++ later)).lookupIds (some ⟨"order"⟩) ⟨"venue"⟩ =
        some ⟨⟨"order"⟩, .position⟩ ∧
      (run (sendAndEnd "order" ++ [.clear])).lookupIds (some ⟨"order"⟩) ⟨"venue"⟩ = none := by
  decide +kernel

end ReduceOnlyBook

end Rustrade
