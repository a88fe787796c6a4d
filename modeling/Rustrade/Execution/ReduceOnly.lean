import Rustrade.Execution.Order
import Rustrade.Lib.BoundedMap

/-!
# Which orders were sent reduce-only

Neither an order nor a venue's report of one carries the reduce-only flag, so whoever sends the
request keeps it. `ReduceOnlyBook` is that record: every live order it was told of, and the last
reduce-only ones that ended. An order is found by its client order id, or, for a fill that names
only the venue's id, by that.
-/

set_option autoImplicit false

namespace Rustrade

/-- What an order was sent as, and its venue order id once acknowledged. -/
structure SentOrder where
  reduceOnly : ReduceOnly
  venueId : Option OrderId
  deriving DecidableEq

/-- An order the book holds. -/
structure BookedOrder where
  cid : ClientOrderId
  reduceOnly : ReduceOnly
  deriving DecidableEq

namespace ReduceOnlyBook

/-- How many ended reduce-only orders a book keeps. -/
abbrev retiredCapacity : Nat := 64

end ReduceOnlyBook

structure ReduceOnlyBook where
  live : IndexMap ClientOrderId SentOrder
  retired : BoundedMap ClientOrderId SentOrder ReduceOnlyBook.retiredCapacity
  /-- How many of `live` are reduce-only. -/
  liveReduceOnly : Nat
  deriving DecidableEq

namespace ReduceOnlyBook

def empty : ReduceOnlyBook := ⟨.empty, .empty, 0⟩

instance : Inhabited ReduceOnlyBook := ⟨empty⟩

def hasReduceOnly (self : ReduceOnlyBook) : Bool :=
  0 < self.liveReduceOnly || !self.retired.isEmpty

/-- `usize::from(reduce_only.is_reduce_only())`. -/
def count (reduceOnly : ReduceOnly) : Nat := reduceOnly.isReduceOnly.toNat

/-- Record an order as sent, replacing what an earlier order left under its id. -/
def register (self : ReduceOnlyBook) (cid : ClientOrderId) (reduceOnly : ReduceOnly) :
    ReduceOnlyBook :=
  let earlier := ((self.live.get? cid).map fun order => count order.reduceOnly).getD 0
  { live := (self.live.remove cid).insert cid ⟨reduceOnly, none⟩
    retired := self.retired.remove cid
    liveReduceOnly := self.liveReduceOnly - earlier + count reduceOnly }

/-- Note the venue order id of an order. -/
def acknowledge (self : ReduceOnlyBook) (cid : ClientOrderId) (venueId : OrderId) :
    ReduceOnlyBook :=
  if self.live.contains cid then
    { self with live := self.live.modify cid fun order => { order with venueId := some venueId } }
  else
    { self with
      retired := self.retired.modify cid fun order => { order with venueId := some venueId } }

/-- Retire every live order that is no longer tracked, in the order sent; only the reduce-only
    ones are kept. -/
def retireUntracked (self : ReduceOnlyBook) (isTracked : ClientOrderId → Bool) :
    ReduceOnlyBook :=
  let ended := self.live.entries.filter fun e => !isTracked e.1 && e.2.reduceOnly.isReduceOnly
  { live := self.live.retain fun cid _ => isTracked cid
    retired := ended.foldl (fun retired e => retired.insert e.1 e.2) self.retired
    liveReduceOnly := self.liveReduceOnly - ended.length }

/-- The order a fill is of: by its client order id if it names one, else by its venue order
    id, live orders first. -/
def lookupIds (self : ReduceOnlyBook) (cid : Option ClientOrderId) (orderId : OrderId) :
    Option BookedOrder :=
  match cid with
  | some cid =>
      ((self.live.get? cid).or (self.retired.get? cid)).map fun order =>
        ⟨cid, order.reduceOnly⟩
  | none =>
      let byVenueId := fun e : ClientOrderId × SentOrder => decide (e.2.venueId = some orderId)
      ((self.live.entries.find? byVenueId).or (self.retired.map.entries.find? byVenueId)).map
        fun e => ⟨e.1, e.2.reduceOnly⟩

def clear (_self : ReduceOnlyBook) : ReduceOnlyBook := empty

end ReduceOnlyBook

end Rustrade
