import Rustrade.Orders.Change

/-!
# An open order has something left to fill

The rule of the order manager is that an order with nothing left to fill is not kept as a
working one. Each arm that writes an `Open` looks at the remaining quantity, except the return
to `Open` when a cancel is refused: the state a `CancelInFlight` carries was taken from a report
without the look, and the refusal brings it back. `live_iff_refusals_find_room` says that this
is the only way out: over a run of faithful reports the rule holds throughout exactly if no
cancel is refused for an order whose carried state is complete.
-/

set_option autoImplicit false

namespace Rustrade

namespace Orders

variable {ExchangeKey InstrumentKey : Type}

/-- Every order tracked as `Open` has something left to fill. -/
def Live (orders : Orders ExchangeKey InstrumentKey) : Prop :=
  ∀ cid order open_, orders.get? cid = some order → order.state = .open open_ →
    open_.filledQuantity < order.quantity

/-- A snapshot carries the quantity its order is tracked with, and reports a cumulative fill of
    at most that. Every other call is unconstrained. -/
def Faithful (orders : Orders ExchangeKey InstrumentKey) : Op ExchangeKey InstrumentKey → Prop
  | .updateFromOrderSnapshot snapshot =>
      (∀ order ∈ orders.get? snapshot.key.cid, order.quantity = snapshot.quantity) ∧
      ∀ open_ ∈ snapshot.state.openMeta, open_.filledQuantity ≤ snapshot.quantity
  | _ => True

/-- The tracked order is one whose refused cancel would leave something to fill: what its
    `CancelInFlight` carries, if anything, is not complete. -/
def CancelFindsRoom (order : Order ExchangeKey InstrumentKey ActiveOrderState) : Prop :=
  match order.state with
  | .cancelInFlight cancel => ∀ open_ ∈ cancel.order, open_.filledQuantity < order.quantity
  | _ => True

/-- If the call refuses a cancel, the order it is for has something left to fill. -/
def RefusalFindsRoom (orders : Orders ExchangeKey InstrumentKey) :
    Op ExchangeKey InstrumentKey → Prop
  | .updateFromCancelResponse response =>
      match response.state with
      | .ok _ => True
      | .error _ => ∀ order ∈ orders.get? response.key.cid, CancelFindsRoom order
  | _ => True

instance (orders : Orders ExchangeKey InstrumentKey) (op : Op ExchangeKey InstrumentKey) :
    Decidable (Faithful orders op) :=
  match op with
  | .updateFromOrderSnapshot _ => inferInstanceAs (Decidable (_ ∧ _))
  | .recordInFlightOpen .. | .recordInFlightCancel .. | .updateFromCancelResponse ..
  | .updateFromFill .. | .removeOpen .. | .clear .. => isTrue trivial

/-- What a report leaves to fill is positive once it is not zero. -/
theorem filled_lt_of_left {open_ : Open} {quantity : Decimal}
    (hle : open_.filledQuantity ≤ quantity) (hleft : open_.quantityRemaining quantity ≠ 0) :
    open_.filledQuantity < quantity :=
  lt_of_le_of_ne hle fun heq => hleft (sub_eq_zero.2 heq.symm)

/-- The states an order moves to keep the rule, if the report is faithful and a refusal finds
    room. -/
theorem Advance.live {orders : Orders ExchangeKey InstrumentKey} {cid : ClientOrderId}
    {order : Order ExchangeKey InstrumentKey ActiveOrderState}
    {op : Op ExchangeKey InstrumentKey} {state : ActiveOrderState} {open_ : Open}
    (h : Advance cid order op state) (htracked : orders.get? cid = some order)
    (hfaithful : Faithful orders op) (hroom : RefusalFindsRoom orders op)
    (hopen : state = .open open_) : open_.filledQuantity < order.quantity := by
  cases h with
  | acknowledged key was reports left | superseded key was reports agrees newer left =>
    cases hopen
    rw [hfaithful.1 order (by rw [key]; exact htracked)]
    exact filled_lt_of_left (hfaithful.2 open_ (by rw [reports]; rfl)) left
  | cancelRefused key refused was carries =>
    cases hopen
    have hcancel : CancelFindsRoom order := by
      simp only [RefusalFindsRoom, refused] at hroom
      exact hroom order (by rw [key]; exact htracked)
    simp only [CancelFindsRoom, was] at hcancel
    exact hcancel open_ carries
  | filled was same more left => cases hopen; exact left
  | cancelReported _ _ _ | cancelAdopted _ _ _ _ | carried _ _ _ _ _ | cancelSent _ _ =>
    exact absurd hopen (by simp)

theorem Change.live {orders orders' : Orders ExchangeKey InstrumentKey}
    {op : Op ExchangeKey InstrumentKey} (h : Change orders op orders') (hlive : orders.Live)
    (hfaithful : Faithful orders op) (hroom : RefusalFindsRoom orders op) : orders'.Live := by
  intro c o open_ hget hopen
  cases h with
  | same => exact hlive c o open_ hget hopen
  | ended _ _ => exact hlive c o open_ hget hopen
  | clear => exact absurd hget (by simp)
  | advance _ tracked adv =>
    rw [get?_setState] at hget
    split at hget
    · cases hget; exact adv.live tracked hfaithful hroom hopen
    · exact hlive c o open_ hget hopen
  | retire _ _ =>
    rw [get?_retire] at hget
    split at hget
    · exact absurd hget (by simp)
    · exact hlive c o open_ hget hopen
  | drop _ _ _ =>
    change IndexMap.get? _ c = _ at hget
    rw [IndexMap.get?_remove] at hget
    split at hget
    · exact absurd hget (by simp)
    · exact hlive c o open_ hget hopen
  | report untracked _ reports _ left =>
    rw [get?_track] at hget
    split at hget
    · cases hget
      obtain ⟨hstate, hqty, _⟩ := toActive_eq_some reports
      have hle := hfaithful.2 open_ (by rw [hstate, hopen]; rfl)
      rw [← hqty] at hle
      exact filled_lt_of_left hle (left open_ hopen)
    · exact hlive c o open_ hget hopen
  | sent _ _ unanswered =>
    rw [get?_track] at hget
    split at hget
    · cases hget
      rw [hopen] at unanswered
      exact absurd unanswered (by simp [ActiveOrderState.isOpenInFlight])
    · exact hlive c o open_ hget hopen

/-- A refusal that finds no room breaks the rule in the state it leaves. -/
theorem refusalFindsRoom_of_live {orders : Orders ExchangeKey InstrumentKey}
    {op : Op ExchangeKey InstrumentKey} (h : (orders.step op).Live) :
    RefusalFindsRoom orders op := by
  cases op with
  | updateFromCancelResponse response =>
    cases hr : response.state with
    | ok _ => simp [RefusalFindsRoom, hr]
    | error error =>
      simp only [RefusalFindsRoom, hr]
      intro order horder
      cases hs : order.state with
      | openInFlight _ => simp [CancelFindsRoom, hs]
      | «open» _ => simp [CancelFindsRoom, hs]
      | cancelInFlight cancel =>
        simp only [CancelFindsRoom, hs]
        intro open_ hopen
        have hget : orders.get? response.key.cid = some order := horder
        have hstep : orders.step (.updateFromCancelResponse response) =
            orders.setState response.key.cid order (.open open_) := by
          have hcarries : cancel.order = some open_ := hopen
          simp [step, updateFromCancelResponse, hget, hr, hs, hcarries]
        refine h response.key.cid { order with state := .open open_ } open_ ?_ rfl
        rw [hstep, get?_setState, if_pos rfl]
  | _ => trivial

theorem live_empty : (empty : Orders ExchangeKey InstrumentKey).Live := by
  intro cid order open_ h; simp at h

/-- **The rule holds throughout a run of faithful reports exactly if every refused cancel finds
    something left to fill.** -/
theorem live_iff_refusals_find_room {ops : List (Op ExchangeKey InstrumentKey)}
    (hfaithful : Transition.Guarded step Faithful empty ops) :
    (∀ pre, pre <+: ops → (run empty pre).Live) ↔
      Transition.Guarded step RefusalFindsRoom empty ops := by
  constructor
  · intro hlive
    rw [Transition.guarded_iff_prefix]
    rintro pre op post rfl
    have hnext := hlive (pre ++ [op]) ⟨post, by simp⟩
    rw [run_concat] at hnext
    exact refusalFindsRoom_of_live hnext
  · intro hroom pre hpre
    have hguard := Transition.guarded_and.2 ⟨hfaithful.of_prefix hpre, hroom.of_prefix hpre⟩
    have hinv : (run empty pre).Keyed ∧ (run empty pre).Live :=
      hguard.invariant (fun orders => orders.Keyed ∧ orders.Live)
        (fun orders op hok hinv =>
          ⟨keyed_step hinv.1, (step_change hinv.1 op).live hinv.2 hok.1 hok.2⟩)
        ⟨keyed_empty, live_empty⟩
    exact hinv.2

/-! ## The refused cancel -/

theorem live_iff_refusals_find_room_on_run :
    (∀ pre, pre <+: Sample.refusedCancelRun → (run empty pre).Live) ↔
      Transition.Guarded step RefusalFindsRoom empty Sample.refusedCancelRun :=
  live_iff_refusals_find_room (by decide +kernel)

/-- The refused cancel leaves the order tracked as open with nothing left to fill. -/
theorem refusedCancelRun_not_live :
    Transition.Guarded step Faithful empty Sample.refusedCancelRun ∧
      ¬ (run empty Sample.refusedCancelRun).Live := by
  refine ⟨by decide +kernel, fun hlive => ?_⟩
  have hget : (run empty Sample.refusedCancelRun).get? Sample.cid =
      some (Sample.order (.open ⟨.assigned ⟨"v-1"⟩, 3, 1⟩)) := by decide +kernel
  exact absurd (hlive _ _ _ hget rfl) (lt_irrefl 1)

end Orders

end Rustrade
