import Mathlib.Data.Finset.Basic
import Rustrade.Execution.AccountEvent
import Rustrade.Lib.BTreeMap
import Rustrade.Lib.BoundedMap
import Rustrade.Lib.LruCache

/-!
# The orders a client has seen live

`KnownLiveOrders` holds the orders a client has seen live and not yet seen end, with an index of
them by the venue's id, one by instrument and one by age, and remembers the orders seen to end
lately. What it would log, with the names and limits that go with it, is left out, but for the
orders it forgot.
-/

set_option autoImplicit false

namespace Rustrade

def OrderKind.isConditionalUnresolved : OrderKind → Bool
  | .conditionalUnresolved _ _ => true
  | _ => false

namespace Recovery

def maxKnownLiveOrders : ℕ := 4096

abbrev recentlyEndedCapacity : ℕ := 1024

instance (priority := 2000) recentlyEndedCapacity_neZero : NeZero recentlyEndedCapacity :=
  ⟨by decide⟩

/-- An order forgotten to make room, and whether it was the first of an episode. -/
structure Forgotten where
  cid : ClientOrderId
  first : Bool
deriving DecidableEq

/-- What is kept about one order. -/
structure KnownLive (InstrumentKey : Type) where
  instrument : InstrumentKey
  orderId : Option OrderId
  quantity : Decimal
  kind : OrderKind
  seq : ℕ
deriving DecidableEq

/-- The orders held, by instrument. An instrument is there only while it has one. -/
abbrev OrdersByInstrument (InstrumentKey : Type) := IndexMap InstrumentKey (Finset ClientOrderId)

variable {E A I : Type} [DecidableEq I]

namespace OrdersByInstrument

def add (self : OrdersByInstrument I) (instrument : I) (cid : ClientOrderId) :
    OrdersByInstrument I :=
  IndexMap.insert self instrument (insert cid ((IndexMap.get? self instrument).getD ∅))

def drop (self : OrdersByInstrument I) (instrument : I) (cid : ClientOrderId) :
    OrdersByInstrument I :=
  match IndexMap.get? self instrument with
  | some cids =>
    if cids.erase cid = ∅ then IndexMap.remove self instrument
    else IndexMap.insert self instrument (cids.erase cid)
  | none => self

end OrdersByInstrument

/-- The entry of an order goes, if the venue gave it an id. -/
def unindexed (byOrderId : IndexMap (I × OrderId) ClientOrderId) (instrument : I) :
    Option OrderId → IndexMap (I × OrderId) ClientOrderId
  | some orderId => byOrderId.remove (instrument, orderId)
  | none => byOrderId

def indexed (byOrderId : IndexMap (I × OrderId) ClientOrderId) (instrument : I)
    (cid : ClientOrderId) : Option OrderId → IndexMap (I × OrderId) ClientOrderId
  | some orderId => byOrderId.insert (instrument, orderId) cid
  | none => byOrderId

structure KnownLiveOrders (InstrumentKey : Type) where
  orders : IndexMap ClientOrderId (KnownLive InstrumentKey)
  byOrderId : IndexMap (InstrumentKey × OrderId) ClientOrderId
  byInstrument : OrdersByInstrument InstrumentKey
  byAge : BTreeMap ℕ ClientOrderId
  recentlyEnded : BoundedFifo ClientOrderId recentlyEndedCapacity
  recalled : IndexMap ClientOrderId OrderKind
  beingSent : IndexMap ClientOrderId OrderKind
  nextSeq : ℕ
  forgetting : Bool
  forgotten : List Forgotten

namespace KnownLiveOrders

def new : KnownLiveOrders I where
  orders := .empty
  byOrderId := .empty
  byInstrument := .empty
  byAge := ∅
  recentlyEnded := .empty
  recalled := .empty
  beingSent := .empty
  nextSeq := 0
  forgetting := false
  forgotten := []

/-- The kind an order is being placed with, or else one recalled for it. -/
def suppliedKind (self : KnownLiveOrders I) (cid : ClientOrderId) : Option OrderKind :=
  (self.beingSent.get? cid).or (self.recalled.get? cid)

def kindOf (self : KnownLiveOrders I) (cid : ClientOrderId) : Option OrderKind :=
  ((self.orders.get? cid).map KnownLive.kind).or (self.suppliedKind cid)

/-- An order leaves every index. -/
def take (self : KnownLiveOrders I) (cid : ClientOrderId) (known : KnownLive I) :
    KnownLiveOrders I :=
  { self with
    orders := self.orders.remove cid
    byAge := self.byAge.erase known.seq
    byInstrument := self.byInstrument.drop known.instrument cid
    byOrderId := unindexed self.byOrderId known.instrument known.orderId }

/-- `remove`, with whether the order was held. -/
def remove (self : KnownLiveOrders I) (cid : ClientOrderId) : KnownLiveOrders I × Bool :=
  match self.orders.get? cid with
  | none => (self, false)
  | some known => (self.take cid known, true)

/-- The entry `pop_first` takes from `by_age` is the one of the least key. -/
def forgetOldest (self : KnownLiveOrders I) : KnownLiveOrders I :=
  match self.byAge.toList.head? with
  | none => self
  | some (seq, cid) =>
    let (removed, _) := { self with byAge := self.byAge.erase seq }.remove cid
    { removed with
      forgetting := true
      forgotten := self.forgotten ++ [⟨cid, !self.forgetting⟩] }

def ended (self : KnownLiveOrders I) (cid : ClientOrderId) : KnownLiveOrders I × Bool :=
  { self with
    recentlyEnded := self.recentlyEnded.put cid
    recalled := self.recalled.remove cid }.remove cid

/-- Indexed from scratch, so an entry under an id or instrument it no longer has goes. -/
def reindex (self : KnownLiveOrders I) (key : OrderKey E I) (newId : Option OrderId)
    (known : KnownLive I) : KnownLiveOrders I :=
  let moved := known.instrument ≠ key.instrument
  let orderId := newId.or known.orderId
  { self with
    orders := self.orders.insert key.cid { known with
      instrument := if moved then key.instrument else known.instrument
      orderId }
    byInstrument :=
      if moved then (self.byInstrument.drop known.instrument key.cid).add key.instrument key.cid
      else self.byInstrument
    byOrderId := indexed (unindexed self.byOrderId known.instrument known.orderId) key.instrument
      key.cid orderId }

/-- A report of an order held. A partial fill, which gives it no other instrument or id, leaves the
    indexes alone. -/
def update (self : KnownLiveOrders I) (key : OrderKey E I) (quantity : Decimal) (kind : OrderKind)
    (orderId : Option OrderId) (known : KnownLive I) : KnownLiveOrders I :=
  let updated := { known with
    quantity
    kind := if known.kind.isConditionalUnresolved && !kind.isConditionalUnresolved then kind
      else known.kind }
  let newId := orderId.filter fun id => known.orderId ≠ some id
  if known.instrument = key.instrument ∧ newId = none then
    { self with orders := self.orders.insert key.cid updated }
  else self.reindex key newId updated

/-- Room for one more order: the oldest goes if there is none. -/
def makeRoom (self : KnownLiveOrders I) : KnownLiveOrders I :=
  if maxKnownLiveOrders ≤ self.orders.len then self.forgetOldest
  else if self.orders.len ≤ maxKnownLiveOrders * 3 / 4 then { self with forgetting := false }
  else self

/-- An order not held comes in as the newest. -/
def hold (self : KnownLiveOrders I) (key : OrderKey E I) (quantity : Decimal) (kind : OrderKind)
    (orderId : Option OrderId) : KnownLiveOrders I :=
  let kind := match self.suppliedKind key.cid with
    | some supplied => if kind.isConditionalUnresolved then supplied else kind
    | none => kind
  { self with
    nextSeq := self.nextSeq + 1
    byAge := self.byAge.insert self.nextSeq key.cid
    byInstrument := self.byInstrument.add key.instrument key.cid
    byOrderId := indexed self.byOrderId key.instrument key.cid orderId
    orders := self.orders.insert key.cid
      ⟨key.instrument, orderId, quantity, kind, self.nextSeq⟩ }

def live (self : KnownLiveOrders I) (key : OrderKey E I) (quantity : Decimal) (kind : OrderKind)
    (state : Open) : KnownLiveOrders I :=
  if quantity ≤ state.filledQuantity then (self.ended key.cid).1
  else if self.recentlyEnded.contains key.cid then self
  else match self.orders.get? key.cid with
    | some known => self.update key quantity kind state.id.assigned? known
    | none => self.makeRoom.hold key quantity kind state.id.assigned?

def resolveHeld (self : KnownLiveOrders I) (cid : ClientOrderId) (kind : OrderKind) :
    KnownLiveOrders I :=
  match self.orders.get? cid with
  | some known =>
    if known.kind.isConditionalUnresolved then
      { self with orders := self.orders.insert cid { known with kind } }
    else self
  | none => self

/-- One kind recalled, counted where it is past the limit. -/
def recallOne (self : KnownLiveOrders I) (ignored : ℕ) (cid : ClientOrderId) (kind : OrderKind) :
    KnownLiveOrders I × ℕ :=
  if kind.isConditionalUnresolved || self.recentlyEnded.contains cid then (self, ignored)
  else
    let resolved := self.resolveHeld cid kind
    if maxKnownLiveOrders ≤ resolved.recalled.len && !resolved.recalled.contains cid then
      (resolved, ignored + 1)
    else ({ resolved with recalled := resolved.recalled.insert cid kind }, ignored)

def «recall» (self : KnownLiveOrders I) (kinds : List (ClientOrderId × OrderKind)) :
    KnownLiveOrders I × ℕ :=
  kinds.foldl (fun (self, ignored) (cid, kind) => self.recallOne ignored cid kind) (self, 0)

/-- Hold a kind for an order about to be sent. One that is unresolved is not held: this is the
    check of the shared set, whose only caller this is. -/
def sending (self : KnownLiveOrders I) (cid : ClientOrderId) (kind : OrderKind) :
    KnownLiveOrders I :=
  if kind.isConditionalUnresolved then self
  else
    let resolved := self.resolveHeld cid kind
    { resolved with beingSent := resolved.beingSent.insert cid kind }

/-- The kind is released, and recalled where the outcome is unknown. The answer is whether it was
    past the limit. -/
def sent (self : KnownLiveOrders I) (cid : ClientOrderId) (outcomeUnknown : Bool) :
    KnownLiveOrders I × Bool :=
  let released := { self with beingSent := self.beingSent.remove cid }
  match self.beingSent.get? cid with
  | some kind =>
    if outcomeUnknown then
      let (recalled, ignored) := released.recall [(cid, kind)]
      (recalled, decide (0 < ignored))
    else (released, false)
  | none => (released, false)

def placed (self : KnownLiveOrders I) (key : OrderKey E I) (quantity : Decimal) (kind : OrderKind)
    (state : OrderState) : KnownLiveOrders I :=
  match state with
  | .active (.open state) => self.live key quantity kind state
  | .active _ => self
  | .inactive _ => if state.isOutcomeUnknown then self else (self.ended key.cid).1

def placing (self : KnownLiveOrders I) (cid : ClientOrderId) : KnownLiveOrders I :=
  { self with recentlyEnded := self.recentlyEnded.forget cid }

/-- The order a fill brings to its full quantity, found by the venue's id. -/
def filledBy (self : KnownLiveOrders I) (trade : Trade A I) : Option ClientOrderId := do
  let filled ← trade.orderFilledQuantity
  let cid ← self.byOrderId.get? (trade.instrument, trade.orderId)
  let known ← self.orders.get? cid
  if known.quantity ≤ filled then some cid else none

def observe (self : KnownLiveOrders I) (event : AccountEvent E A I) : KnownLiveOrders I :=
  match event.kind with
  | .orderSnapshot order =>
    match order.state with
    | .active (.open state) => self.live order.key order.quantity order.kind state
    | .active _ => self
    | .inactive _ => (self.ended order.key.cid).1
  | .orderCancelled response => (self.ended response.key.cid).1
  | .trade trade =>
    match self.filledBy trade with
    | some cid => (self.ended cid).1
    | none => self
  | _ => self

end KnownLiveOrders

end Recovery

end Rustrade
