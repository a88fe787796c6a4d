import Rustrade.Orders

/-!
# What one call on an `Orders` can do

`Change orders op orders'` lists every effect a call has: nothing, a tracked order's state
replaced (`Advance`, with the reason), an order retired, an ended one remembered, one dropped
without being remembered, one tracked from a report or from the engine's own request, and the
drain. `step_change` is the only proof that opens the functions; every invariant of a run is
read off the constructors.
-/

set_option autoImplicit false

namespace Rustrade

namespace Orders

variable {ExchangeKey InstrumentKey : Type}

/-! ## The subject of a call -/

/-- The one order a call is about; the drain is about all of them. -/
def Op.subject : Op ExchangeKey InstrumentKey → Option ClientOrderId
  | .recordInFlightOpen request _ => some request.key.cid
  | .recordInFlightCancel request _ => some request.key.cid
  | .updateFromOrderSnapshot snapshot => some snapshot.key.cid
  | .updateFromCancelResponse response => some response.key.cid
  | .updateFromFill cid _ _ => some cid
  | .removeOpen cid _ => some cid
  | .clear _ => none

/-- The call records an open request of this engine under `cid`: the in-flight record itself, or
    a snapshot in state `OpenInFlight`, which no venue reports. -/
def Op.RecordsOpen (cid : ClientOrderId) : Op ExchangeKey InstrumentKey → Prop
  | .recordInFlightOpen request _ => request.key.cid = cid
  | .updateFromOrderSnapshot snapshot =>
      snapshot.key.cid = cid ∧ ∃ sent, snapshot.state = .active (.openInFlight sent)
  | _ => False

/-! ## The moves of a tracked order -/

/-- The call replaces the state of `order`, tracked under `cid`. -/
inductive Advance (cid : ClientOrderId) (order : Order ExchangeKey InstrumentKey ActiveOrderState) :
    Op ExchangeKey InstrumentKey → ActiveOrderState → Prop
  /-- The venue's first report of a request. -/
  | acknowledged {snapshot : Order ExchangeKey InstrumentKey OrderState} {sent : OpenInFlight}
      {open_ : Open} (key : snapshot.key.cid = cid) (was : order.state = .openInFlight sent)
      (reports : snapshot.state = .active (.open open_))
      (left : open_.quantityRemaining snapshot.quantity ≠ 0) :
      Advance cid order (.updateFromOrderSnapshot snapshot) (.open open_)
  /-- A report that a cancel is in flight for a request not yet answered. -/
  | cancelReported {snapshot : Order ExchangeKey InstrumentKey OrderState} {sent : OpenInFlight}
      {cancel : CancelInFlight} (key : snapshot.key.cid = cid)
      (was : order.state = .openInFlight sent)
      (reports : snapshot.state = .active (.cancelInFlight cancel)) :
      Advance cid order (.updateFromOrderSnapshot snapshot) (.cancelInFlight cancel)
  /-- A newer report of a working order. -/
  | superseded {snapshot : Order ExchangeKey InstrumentKey OrderState} {held open_ : Open}
      (key : snapshot.key.cid = cid) (was : order.state = .open held)
      (reports : snapshot.state = .active (.open open_))
      (agrees : held.id.contradicts open_.id = false) (newer : held.isSupersededBy open_ = true)
      (left : open_.quantityRemaining snapshot.quantity ≠ 0) :
      Advance cid order (.updateFromOrderSnapshot snapshot) (.open open_)
  /-- A report that a cancel is in flight for a working order: the newer of the two states is
      the one the cancel carries. -/
  | cancelAdopted {snapshot : Order ExchangeKey InstrumentKey OrderState} {held latest : Open}
      {cancel : CancelInFlight} (key : snapshot.key.cid = cid) (was : order.state = .open held)
      (reports : snapshot.state = .active (.cancelInFlight cancel))
      (from_ : latest = held ∨ cancel.order = some latest ∧
        held.id.contradicts latest.id = false ∧ held.isSupersededBy latest = true) :
      Advance cid order (.updateFromOrderSnapshot snapshot)
        (.cancelInFlight ⟨some latest, cancel.timeSent⟩)
  /-- A newer report of a working order while its cancel is in flight. -/
  | carried {snapshot : Order ExchangeKey InstrumentKey OrderState} {cancel : CancelInFlight}
      {open_ : Open} (key : snapshot.key.cid = cid) (was : order.state = .cancelInFlight cancel)
      (reports : snapshot.state = .active (.open open_))
      (agrees : ∀ held, cancel.order = some held → held.id.contradicts open_.id = false)
      (newer : ∀ held, cancel.order = some held → held.isSupersededBy open_ = true) :
      Advance cid order (.updateFromOrderSnapshot snapshot)
        (.cancelInFlight ⟨some open_, cancel.timeSent⟩)
  /-- A cancel refused: the order works again as last reported. -/
  | cancelRefused {response : OrderResponseCancel ExchangeKey InstrumentKey} {error : OrderError}
      {cancel : CancelInFlight} {open_ : Open} (key : response.key.cid = cid)
      (refused : response.state = .error error) (was : order.state = .cancelInFlight cancel)
      (carries : cancel.order = some open_) :
      Advance cid order (.updateFromCancelResponse response) (.open open_)
  /-- A fill that leaves something to fill. -/
  | filled {orderId : OrderId} {filledQuantity : Decimal} {open_ : Open}
      (was : order.state = .open open_) (same : open_.id = .assigned orderId)
      (more : open_.filledQuantity < filledQuantity) (left : filledQuantity < order.quantity) :
      Advance cid order (.updateFromFill cid orderId filledQuantity)
        (.open { open_ with filledQuantity := filledQuantity })
  /-- A cancel sent. -/
  | cancelSent {request : OrderRequestCancel ExchangeKey InstrumentKey} {timeSent : DateTime}
      (key : request.key.cid = cid)
      (was : ∀ cancel, order.state ≠ .cancelInFlight cancel) :
      Advance cid order (.recordInFlightCancel request timeSent)
        (.cancelInFlight ⟨order.state.openMeta, timeSent⟩)

/-! ## The changes of the whole -/

/-- Every effect one call has on an `Orders`. -/
inductive Change (orders : Orders ExchangeKey InstrumentKey) :
    Op ExchangeKey InstrumentKey → Orders ExchangeKey InstrumentKey → Prop
  | same {op : Op ExchangeKey InstrumentKey} : Change orders op orders
  | advance {op : Op ExchangeKey InstrumentKey} {cid : ClientOrderId}
      {order : Order ExchangeKey InstrumentKey ActiveOrderState} {state : ActiveOrderState}
      (subject : op.subject = some cid) (tracked : orders.get? cid = some order)
      (adv : Advance cid order op state) : Change orders op (orders.setState cid order state)
  | retire {op : Op ExchangeKey InstrumentKey} {cid : ClientOrderId}
      {order : Order ExchangeKey InstrumentKey ActiveOrderState} (subject : op.subject = some cid)
      (tracked : orders.get? cid = some order) : Change orders op (orders.retire cid order)
  | ended {op : Op ExchangeKey InstrumentKey} {cid : ClientOrderId}
      (subject : op.subject = some cid) (untracked : orders.get? cid = none) :
      Change orders op { orders with retired := orders.retired.insert cid }
  /-- The one removal that is not remembered: the venue has reported nothing of the order. -/
  | drop {response : OrderResponseCancel ExchangeKey InstrumentKey}
      {order : Order ExchangeKey InstrumentKey ActiveOrderState} {cancel : CancelInFlight}
      (tracked : orders.get? response.key.cid = some order)
      (was : order.state = .cancelInFlight cancel) (carries : cancel.order = none) :
      Change orders (.updateFromCancelResponse response)
        { orders with tracked := orders.tracked.remove response.key.cid }
  | report {snapshot : Order ExchangeKey InstrumentKey OrderState}
      {update : Order ExchangeKey InstrumentKey ActiveOrderState}
      (untracked : orders.get? snapshot.key.cid = none)
      (forgotten : snapshot.key.cid ∉ orders.retired.items)
      (reports : snapshot.toActive = some update) (notSent : update.state.isOpenInFlight = false)
      (left : ∀ open_, update.state = .open open_ →
        open_.quantityRemaining update.quantity ≠ 0) :
      Change orders (.updateFromOrderSnapshot snapshot) (orders.track snapshot.key.cid update)
  | sent {op : Op ExchangeKey InstrumentKey}
      {order : Order ExchangeKey InstrumentKey ActiveOrderState}
      (records : op.RecordsOpen order.key.cid) (untracked : orders.get? order.key.cid = none)
      (unanswered : order.state.isOpenInFlight = true) :
      Change orders op ({ orders with
        retired := orders.retired.forget order.key.cid }.track order.key.cid order)
  | clear {hash : HashOrder} : Change orders (.clear hash) (orders.clear hash)

theorem Op.RecordsOpen.subject {cid : ClientOrderId} {op : Op ExchangeKey InstrumentKey}
    (h : op.RecordsOpen cid) : op.subject = some cid := by
  cases op with
  | recordInFlightOpen request timeSent => exact congrArg some h
  | updateFromOrderSnapshot snapshot => exact congrArg some h.1
  | _ => exact h.elim

/-! ## Every call is one of the changes -/

/-- Every order is tracked under its own client order id. -/
def Keyed (orders : Orders ExchangeKey InstrumentKey) : Prop :=
  ∀ cid order, orders.get? cid = some order → order.key.cid = cid

theorem toActive_eq_some {snapshot : Order ExchangeKey InstrumentKey OrderState}
    {update : Order ExchangeKey InstrumentKey ActiveOrderState}
    (h : snapshot.toActive = some update) :
    snapshot.state = .active update.state ∧ update.quantity = snapshot.quantity ∧
      update.key = snapshot.key := by
  unfold Order.toActive at h
  split at h
  · rename_i state hs; cases h; exact ⟨hs, rfl, rfl⟩
  · exact absurd h (by simp)

theorem updateUntracked_change {orders : Orders ExchangeKey InstrumentKey}
    {snapshot : Order ExchangeKey InstrumentKey OrderState}
    (hnone : orders.get? snapshot.key.cid = none) :
    Change orders (.updateFromOrderSnapshot snapshot)
      (orders.updateUntracked snapshot snapshot.toActive) := by
  cases hu : snapshot.toActive with
  | none =>
    simp only [updateUntracked]
    split
    · exact .same
    · exact .ended rfl hnone
  | some update =>
    obtain ⟨hstate, _, hkey⟩ := toActive_eq_some hu
    simp only [updateUntracked]
    split
    · exact .same
    · rename_i hadmit
      cases hs : update.state with
      | openInFlight sent =>
        have hcid : update.key.cid = snapshot.key.cid := by rw [hkey]
        rw [← hcid] at hnone ⊢
        exact .sent ⟨hcid.symm, sent, by rw [hstate, hs]⟩ hnone (by rw [hs]; rfl)
      | «open» open_ =>
        simp only
        split
        · exact .ended rfl hnone
        · rename_i hleft
          refine .report hnone ?_ hu (by rw [hs]; rfl) ?_
          · simpa [hs, ActiveOrderState.isOpenInFlight] using hadmit
          · intro o ho; rw [hs] at ho; cases ho; exact hleft
      | cancelInFlight cancel =>
        refine .report hnone ?_ hu (by rw [hs]; rfl) ?_
        · simpa [hs, ActiveOrderState.isOpenInFlight] using hadmit
        · intro o ho; rw [hs] at ho; exact absurd ho (by simp)

theorem updateTracked_change {orders : Orders ExchangeKey InstrumentKey}
    {snapshot : Order ExchangeKey InstrumentKey OrderState}
    {current update : Order ExchangeKey InstrumentKey ActiveOrderState}
    (hcur : orders.get? snapshot.key.cid = some current)
    (hup : snapshot.toActive = some update) :
    Change orders (.updateFromOrderSnapshot snapshot)
      (orders.updateTracked snapshot.key.cid current update) := by
  obtain ⟨hstate, hqty, _⟩ := toActive_eq_some hup
  cases hc : current.state with
  | openInFlight sent =>
    cases hs : update.state with
    | openInFlight _ => simp only [updateTracked, hc, hs]; exact .same
    | «open» open_ =>
      simp only [updateTracked, hc, hs]
      split
      · exact .retire rfl hcur
      · rename_i hleft
        exact .advance rfl hcur
          (.acknowledged rfl hc (by rw [hstate, hs]) (by rwa [← hqty]))
    | cancelInFlight cancel =>
      simp only [updateTracked, hc, hs]
      exact .advance rfl hcur (.cancelReported rfl hc (by rw [hstate, hs]))
  | «open» held =>
    cases hs : update.state with
    | openInFlight _ => simp only [updateTracked, hc, hs]; exact .same
    | «open» open_ =>
      simp only [updateTracked, hc, hs]
      split
      · exact .same
      · rename_i hagree
        split
        · rename_i hnewer
          split
          · exact .retire rfl hcur
          · rename_i hleft
            exact .advance rfl hcur (.superseded rfl hc (by rw [hstate, hs])
              (by simpa using hagree) hnewer (by rwa [← hqty]))
        · exact .same
    | cancelInFlight cancel =>
      simp only [updateTracked, hc, hs]
      refine .advance rfl hcur (.cancelAdopted rfl hc (by rw [hstate, hs]) ?_)
      cases hf : cancel.order.filter fun carried =>
          !held.id.contradicts carried.id && held.isSupersededBy carried with
      | none => exact Or.inl rfl
      | some carried =>
        rw [Option.filter_eq_some_iff] at hf
        refine Or.inr ⟨hf.1, ?_⟩
        simpa using hf.2
  | cancelInFlight cancel =>
    cases hs : update.state with
    | openInFlight _ => simp only [updateTracked, hc, hs]; exact .same
    | «open» open_ =>
      simp only [updateTracked, hc, hs]
      split
      · exact .same
      · rename_i hagree
        split
        · rename_i hnewer
          refine .advance rfl hcur (.carried rfl hc (by rw [hstate, hs]) ?_ ?_)
          · intro held hh; simpa [hh] using hagree
          · intro held hh; simpa [hh] using hnewer
        · exact .same
    | cancelInFlight _ => simp only [updateTracked, hc, hs]; exact .same

theorem updateFromOrderSnapshot_change {orders : Orders ExchangeKey InstrumentKey}
    {snapshot : Order ExchangeKey InstrumentKey OrderState} :
    Change orders (.updateFromOrderSnapshot snapshot)
      (orders.updateFromOrderSnapshot snapshot) := by
  unfold updateFromOrderSnapshot
  split
  · exact .same
  · cases hc : orders.get? snapshot.key.cid with
    | none => exact updateUntracked_change hc
    | some current =>
      cases hu : snapshot.toActive with
      | none =>
        simp only
        split
        · exact .same
        · exact .retire rfl hc
      | some update => exact updateTracked_change hc hu

theorem updateFromCancelResponse_change {orders : Orders ExchangeKey InstrumentKey}
    {response : OrderResponseCancel ExchangeKey InstrumentKey} :
    Change orders (.updateFromCancelResponse response)
      (orders.updateFromCancelResponse response) := by
  unfold updateFromCancelResponse
  cases hc : orders.get? response.key.cid with
  | none => exact .same
  | some current =>
    cases hr : response.state with
    | ok cancelled => exact .retire rfl hc
    | error error =>
      cases hs : current.state with
      | openInFlight _ => simp only [hs]; exact .same
      | «open» _ => simp only [hs]; exact .same
      | cancelInFlight cancel =>
        simp only [hs]
        cases ho : cancel.order with
        | none => exact .drop hc hs ho
        | some open_ => exact .advance rfl hc (.cancelRefused rfl hr hs ho)

theorem updateFromFill_change {orders : Orders ExchangeKey InstrumentKey} (hk : orders.Keyed)
    {cid : ClientOrderId} {orderId : OrderId} {filledQuantity : Decimal} :
    Change orders (.updateFromFill cid orderId filledQuantity)
      (orders.updateFromFill cid orderId filledQuantity).1 := by
  unfold updateFromFill
  cases hc : orders.get? cid with
  | none => exact .same
  | some order =>
    cases hs : order.state with
    | openInFlight _ => simp only [hs]; exact .same
    | cancelInFlight _ => simp only [hs]; exact .same
    | «open» open_ =>
      simp only [hs]
      split
      · exact .same
      · rename_i hid
        split
        · exact .same
        · rename_i hmore
          split
          · have h : Change orders (.updateFromFill cid orderId filledQuantity)
                (orders.retire cid order) := .retire rfl hc
            unfold Orders.retire at h
            rwa [hk cid order hc] at h
          · rename_i hleft
            refine .advance rfl hc (.filled hs ?_ (not_le.1 hmore) ?_)
            · exact VenueOrderId.assigned?_eq_some.1 (by simpa using hid)
            · simpa [Open.quantityRemaining] using hleft

theorem removeOpen_change {orders : Orders ExchangeKey InstrumentKey} (hk : orders.Keyed)
    {cid : ClientOrderId} {id : VenueOrderId} :
    Change orders (.removeOpen cid id) (orders.removeOpen cid id).1 := by
  unfold removeOpen
  cases hc : orders.get? cid with
  | none => exact .same
  | some order =>
    cases hs : order.state with
    | openInFlight _ => simp only [hs]; exact .same
    | cancelInFlight _ => simp only [hs]; exact .same
    | «open» open_ =>
      simp only [hs]
      split
      · have h : Change orders (.removeOpen cid id) (orders.retire cid order) := .retire rfl hc
        unfold Orders.retire at h
        rwa [hk cid order hc] at h
      · exact .same

theorem recordInFlightCancel_change {orders : Orders ExchangeKey InstrumentKey}
    {request : OrderRequestCancel ExchangeKey InstrumentKey} {timeSent : DateTime} :
    Change orders (.recordInFlightCancel request timeSent)
      (orders.recordInFlightCancel request timeSent) := by
  unfold recordInFlightCancel
  cases hc : orders.get? request.key.cid with
  | none => exact .same
  | some order =>
    cases hs : order.state with
    | cancelInFlight _ => simp only [hs]; exact .same
    | openInFlight _ =>
      simp only [hs]
      rw [← hs]
      exact .advance rfl hc (.cancelSent rfl (by simp [hs]))
    | «open» _ =>
      simp only [hs]
      rw [← hs]
      exact .advance rfl hc (.cancelSent rfl (by simp [hs]))

theorem recordInFlightOpen_change {orders : Orders ExchangeKey InstrumentKey}
    {request : OrderRequestOpen ExchangeKey InstrumentKey} {timeSent : DateTime} :
    Change orders (.recordInFlightOpen request timeSent)
      (orders.recordInFlightOpen request timeSent) := by
  unfold recordInFlightOpen
  split
  · exact .same
  · rename_i huntracked
    have hnone : orders.get? request.key.cid = none :=
      IndexMap.not_contains_iff.1 (by simpa using huntracked)
    have hkey : (Order.openInFlight request timeSent).key.cid = request.key.cid := rfl
    rw [← hkey] at hnone ⊢
    exact .sent rfl hnone rfl

/-- **One call, all it can do.** -/
theorem step_change {orders : Orders ExchangeKey InstrumentKey} (hk : orders.Keyed)
    (op : Op ExchangeKey InstrumentKey) : Change orders op (orders.step op) := by
  cases op with
  | recordInFlightOpen request timeSent => exact recordInFlightOpen_change
  | recordInFlightCancel request timeSent => exact recordInFlightCancel_change
  | updateFromOrderSnapshot snapshot => exact updateFromOrderSnapshot_change
  | updateFromCancelResponse response => exact updateFromCancelResponse_change
  | updateFromFill cid orderId filledQuantity => exact updateFromFill_change hk
  | removeOpen cid id => exact removeOpen_change hk
  | clear hash => exact .clear

/-! ## Keys, and what a call leaves alone -/

theorem keyed_empty : (empty : Orders ExchangeKey InstrumentKey).Keyed := by
  intro cid order h; simp at h

theorem Change.keyed {orders orders' : Orders ExchangeKey InstrumentKey}
    {op : Op ExchangeKey InstrumentKey} (hk : orders.Keyed) (h : Change orders op orders') :
    orders'.Keyed := by
  intro c o hget
  cases h with
  | same => exact hk c o hget
  | ended _ _ => exact hk c o hget
  | clear => simp at hget
  | advance _ tracked _ =>
    rw [get?_setState] at hget
    split at hget
    · rename_i hc; cases hget; exact (hk _ _ tracked).trans hc.symm
    · exact hk c o hget
  | retire _ _ =>
    rw [get?_retire] at hget
    split at hget
    · exact absurd hget (by simp)
    · exact hk c o hget
  | drop _ _ _ =>
    change IndexMap.get? _ c = _ at hget
    rw [IndexMap.get?_remove] at hget
    split at hget
    · exact absurd hget (by simp)
    · exact hk c o hget
  | report _ _ reports _ _ =>
    rw [get?_track] at hget
    split at hget
    · rename_i hc; cases hget; rw [hc, (toActive_eq_some reports).2.2]
    · exact hk c o hget
  | sent _ _ _ =>
    rw [get?_track] at hget
    split at hget
    · rename_i hc; cases hget; exact hc.symm
    · exact hk c o hget

theorem keyed_step {orders : Orders ExchangeKey InstrumentKey} {op : Op ExchangeKey InstrumentKey}
    (hk : orders.Keyed) : (orders.step op).Keyed := (step_change hk op).keyed hk

theorem keyed_run {orders : Orders ExchangeKey InstrumentKey}
    (ops : List (Op ExchangeKey InstrumentKey)) (hk : orders.Keyed) : (orders.run ops).Keyed :=
  Transition.run_invariant Keyed (fun _ _ h => keyed_step h) ops hk

/-- A call about one order leaves every other where it was. -/
theorem Change.get?_of_ne {orders orders' : Orders ExchangeKey InstrumentKey}
    {op : Op ExchangeKey InstrumentKey} (h : Change orders op orders') {cid c : ClientOrderId}
    (hs : op.subject = some cid) (hne : c ≠ cid) : orders'.get? c = orders.get? c := by
  cases h with
  | same => rfl
  | ended _ _ => rfl
  | clear => exact absurd hs (by simp [Op.subject])
  | advance subject _ _ =>
    rw [subject] at hs; cases hs; rw [get?_setState, if_neg hne]
  | retire subject _ =>
    rw [subject] at hs; cases hs; rw [get?_retire, if_neg hne]
  | drop _ _ _ =>
    cases hs; exact IndexMap.get?_remove_of_ne hne
  | report _ _ _ _ _ =>
    cases hs; rw [get?_track, if_neg hne]
  | sent records _ _ =>
    rw [records.subject] at hs; cases hs; rw [get?_track, if_neg hne]; rfl

end Orders

end Rustrade
