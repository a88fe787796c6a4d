import Rustrade.Orders.Change
import Rustrade.Lib.Join

/-!
# Reports of one order, in any order

An order tracked as open under a venue id is reported by two streams: snapshots, ordered by
stamp and cumulative fill, and fills, advanced to the greater cumulative. `absorb` is what one
report does to the order as a whole, with the retired memory standing for `none`; the functions
refine it (`standing_step`). On an order with something left to fill, absorbing is a join of
cumulative quantities, and the order is retired by the first report of all of it; so the verdict
depends on the reports and not on their delivery (`settles_iff_room`).

An order already complete when the reports arrive is the exception. A fill of the full quantity
is then stale, and so is a snapshot stamped before the tracked state, so the order can stay
tracked after a report of all of it.
-/

set_option autoImplicit false

namespace Rustrade

namespace Orders

variable {ExchangeKey InstrumentKey : Type}

/-! ## Reports -/

/-- One report of an order the venue has named: a snapshot of it working, or a fill. -/
inductive Report (ExchangeKey InstrumentKey : Type) where
  | snapshot (order : Order ExchangeKey InstrumentKey Open)
  | fill (filledQuantity : Decimal)
  deriving DecidableEq

namespace Report

def cumulative : Report ExchangeKey InstrumentKey → Decimal
  | .snapshot order => order.state.filledQuantity
  | .fill filledQuantity => filledQuantity

/-- The call that delivers the report of the venue order `id`, known here as `cid`. -/
def op (cid : ClientOrderId) (id : OrderId) :
    Report ExchangeKey InstrumentKey → Op ExchangeKey InstrumentKey
  | .snapshot order => .updateFromOrderSnapshot { order with state := .active (.open order.state) }
  | .fill filledQuantity => .updateFromFill cid id filledQuantity

/-- The report is one of `order` under `id`, for at most its quantity. -/
def Of (order : Order ExchangeKey InstrumentKey ActiveOrderState) (id : OrderId)
    (r : Report ExchangeKey InstrumentKey) : Prop :=
  (match r with
    | .snapshot report => report.key.cid = order.key.cid ∧ report.quantity = order.quantity ∧
        report.state.id = .assigned id
    | .fill _ => True) ∧
  0 ≤ r.cumulative ∧ r.cumulative ≤ order.quantity

/-- The report is a snapshot stamped at `since` or later. -/
def SnapshotSince (since : DateTime) : Report ExchangeKey InstrumentKey → Prop
  | .snapshot report => since ≤ report.state.timeExchange
  | .fill _ => False

end Report

/-! ## What a report does -/

/-- The effect of a report on an order of the given quantity: `none` once it is retired. -/
def absorb (quantity : Decimal) :
    Option Open → Report ExchangeKey InstrumentKey → Option Open
  | none, _ => none
  | some held, .snapshot report =>
      if held.isSupersededBy report.state then
        if report.state.quantityRemaining quantity = 0 then none else some report.state
      else some held
  | some held, .fill filledQuantity =>
      if filledQuantity ≤ held.filledQuantity then some held
      else if quantity - filledQuantity ≤ 0 then none
      else some { held with filledQuantity := filledQuantity }

/-- `orders` has `order` in the standing `standing`: open under `id` with that state, or retired
    and remembered. -/
def Stands (orders : Orders ExchangeKey InstrumentKey)
    (order : Order ExchangeKey InstrumentKey ActiveOrderState) (id : OrderId) :
    Option Open → Prop
  | some held => orders.get? order.key.cid = some { order with state := .open held } ∧
      held.id = .assigned id
  | none => orders.get? order.key.cid = none ∧ order.key.cid ∈ orders.retired.items

theorem updateFromOrderSnapshot_active {orders : Orders ExchangeKey InstrumentKey}
    {snapshot : Order ExchangeKey InstrumentKey OrderState} {state : ActiveOrderState}
    (h : snapshot.state = .active state) :
    orders.updateFromOrderSnapshot snapshot =
      match orders.get? snapshot.key.cid with
      | none => orders.updateUntracked snapshot (some { snapshot with state := state })
      | some current =>
          orders.updateTracked snapshot.key.cid current { snapshot with state := state } := by
  have hignore : orders.isFailedOpenToIgnore snapshot = false := by
    simp [isFailedOpenToIgnore, isContradictedNeverPlaced, OrderState.isOutcomeUnknown, h]
  have hactive : snapshot.toActive = some { snapshot with state := state } := by
    simp [Order.toActive, h]
  unfold updateFromOrderSnapshot
  rw [hignore, hactive]
  cases orders.get? snapshot.key.cid <;> rfl

/-- **The functions refine `absorb`.** -/
theorem standing_step {orders : Orders ExchangeKey InstrumentKey}
    {order : Order ExchangeKey InstrumentKey ActiveOrderState} {id : OrderId}
    {standing : Option Open} {r : Report ExchangeKey InstrumentKey} (hr : r.Of order id)
    (h : Stands orders order id standing) :
    Stands (orders.step (r.op order.key.cid id)) order id (absorb order.quantity standing r) := by
  cases r with
  | snapshot report =>
    obtain ⟨⟨hcid, hqty, hid⟩, -, -⟩ := hr
    simp only [Report.op, step]
    rw [updateFromOrderSnapshot_active rfl]
    simp only [hcid]
    cases standing with
    | none =>
      obtain ⟨hnone, hmem⟩ := h
      rw [hnone]
      have hignored : BoundedFifo.contains orders.retired report.key.cid = true := by
        rw [hcid]; exact BoundedFifo.contains_iff.2 hmem
      simp [updateUntracked, ActiveOrderState.isOpenInFlight, hignored, Stands, absorb, hnone, hmem]
    | some held =>
      obtain ⟨hget, hheld⟩ := h
      rw [hget]
      have hagrees : held.id.contradicts report.state.id = false := by simp [hheld, hid]
      simp only [updateTracked, hagrees, hqty, absorb]
      by_cases hnewer : held.isSupersededBy report.state = true
      · by_cases hleft : report.state.quantityRemaining order.quantity = 0
        · simp [hnewer, hleft, Stands, get?_retire, BoundedFifo.mem_insert_self]
        · simp [hnewer, hleft, Stands, get?_setState, hid]
      · simp [hnewer, Stands, hget, hheld]
  | fill filledQuantity =>
    simp only [Report.op, step, updateFromFill]
    cases standing with
    | none => obtain ⟨hnone, hmem⟩ := h; simp [hnone, Stands, absorb, hmem]
    | some held =>
      obtain ⟨hget, hheld⟩ := h
      simp only [hget, hheld, VenueOrderId.assigned?_assigned, absorb, Open.quantityRemaining]
      by_cases hstale : filledQuantity ≤ held.filledQuantity
      · simp [hstale, Stands, hget, hheld]
      · by_cases hleft : order.quantity - filledQuantity ≤ 0
        · simp only [hstale, hleft, ne_eq, not_true_eq_false, if_true, if_false, Stands]
          exact ⟨IndexMap.get?_remove_self, BoundedFifo.mem_insert_self _ _⟩
        · simp [hstale, hleft, Stands, get?_setState]

theorem standing_run {orders : Orders ExchangeKey InstrumentKey}
    {order : Order ExchangeKey InstrumentKey ActiveOrderState} {id : OrderId}
    {standing : Option Open} {delivered : List (Report ExchangeKey InstrumentKey)}
    (hr : ∀ r ∈ delivered, r.Of order id) (h : Stands orders order id standing) :
    Stands (orders.run (delivered.map (Report.op order.key.cid id))) order id
      (delivered.foldl (absorb order.quantity) standing) := by
  induction delivered generalizing orders standing with
  | nil => exact h
  | cons r rs ih =>
    exact ih (fun r' hr' => hr r' (List.mem_cons_of_mem _ hr'))
      (standing_step (hr r (List.mem_cons_self ..)) h)

/-! ## Absorbing is a join -/

@[simp] theorem foldl_absorb_none {quantity : Decimal}
    {rs : List (Report ExchangeKey InstrumentKey)} : rs.foldl (absorb quantity) none = none := by
  induction rs with
  | nil => rfl
  | cons r rs ih => exact ih

/-- A report of all of an order with something left to fill retires it. -/
theorem absorb_complete {quantity : Decimal} {held : Open} {r : Report ExchangeKey InstrumentKey}
    (hroom : held.filledQuantity < quantity) (hall : r.cumulative = quantity) :
    absorb quantity (some held) r = none := by
  cases r with
  | snapshot report =>
    have hcum : report.state.filledQuantity = quantity := hall
    have hnewer : held.isSupersededBy report.state = true :=
      Open.isSupersededBy_iff.2 ⟨by rw [hcum]; exact hroom.le, Or.inr (by rw [hcum]; exact hroom)⟩
    simp [absorb, hnewer, Open.quantityRemaining, hcum]
  | fill filledQuantity =>
    have hcum : filledQuantity = quantity := hall
    simp [absorb, hcum, not_le.2 hroom]

/-- A report of less than all of it takes the greater cumulative. -/
theorem absorb_partial {quantity : Decimal} (held : Open) {r : Report ExchangeKey InstrumentKey}
    (hless : r.cumulative < quantity) :
    ∃ next, absorb quantity (some held) r = some next ∧
      next.filledQuantity = held.filledQuantity ⊔ r.cumulative := by
  cases r with
  | snapshot report =>
    have hcum : report.state.filledQuantity < quantity := hless
    by_cases hnewer : held.isSupersededBy report.state = true
    · refine ⟨report.state, ?_, ?_⟩
      · simp [absorb, hnewer, Open.quantityRemaining, sub_eq_zero, hcum.ne']
      · exact (sup_eq_right.2 (Open.isSupersededBy_iff.1 hnewer).1).symm
    · refine ⟨held, by simp [absorb, hnewer], ?_⟩
      rw [Open.isSupersededBy_iff] at hnewer
      refine (sup_eq_left.2 ?_).symm
      by_contra hmore
      exact hnewer ⟨(not_le.1 hmore).le, Or.inr (not_le.1 hmore)⟩
  | fill filledQuantity =>
    have hcum : filledQuantity < quantity := hless
    by_cases hstale : filledQuantity ≤ held.filledQuantity
    · exact ⟨held, by simp [absorb, hstale], (sup_eq_left.2 hstale).symm⟩
    · refine ⟨{ held with filledQuantity := filledQuantity }, ?_, ?_⟩
      · simp [absorb, hstale, not_le.2 hcum]
      · exact (sup_eq_right.2 (not_le.1 hstale).le).symm

/-- Reports of an order with something left to fill retire it if one reports all of it, -/
theorem foldl_absorb_complete {quantity : Decimal} {held : Open}
    {rs : List (Report ExchangeKey InstrumentKey)} (hroom : held.filledQuantity < quantity)
    (hle : ∀ r ∈ rs, r.cumulative ≤ quantity) (hall : ∃ r ∈ rs, r.cumulative = quantity) :
    rs.foldl (absorb quantity) (some held) = none := by
  induction rs generalizing held with
  | nil => exact absurd hall (by simp)
  | cons r rs ih =>
    rw [List.foldl_cons]
    rcases lt_or_eq_of_le (hle r (List.mem_cons_self ..)) with hless | heq
    · obtain ⟨next, hnext, hfilled⟩ := absorb_partial held hless
      rw [hnext]
      refine ih ?_ (fun r' hr' => hle r' (List.mem_cons_of_mem _ hr')) ?_
      · rw [hfilled]; exact sup_lt_iff.2 ⟨hroom, hless⟩
      · obtain ⟨r', hr', heq⟩ := hall
        rcases List.mem_cons.1 hr' with rfl | hr'
        · exact absurd heq hless.ne
        · exact ⟨r', hr', heq⟩
    · rw [absorb_complete hroom heq, foldl_absorb_none]

/-- and otherwise leave it at the greatest cumulative. -/
theorem foldl_absorb_partial {quantity : Decimal} (held : Open)
    {rs : List (Report ExchangeKey InstrumentKey)} (hless : ∀ r ∈ rs, r.cumulative < quantity) :
    ∃ latest, rs.foldl (absorb quantity) (some held) = some latest ∧
      latest.filledQuantity = joinAll held.filledQuantity (rs.map Report.cumulative) := by
  induction rs generalizing held with
  | nil => exact ⟨held, rfl, rfl⟩
  | cons r rs ih =>
    obtain ⟨next, hnext, hfilled⟩ :=
      absorb_partial held (hless r (List.mem_cons_self ..))
    obtain ⟨latest, hlatest, hjoin⟩ :=
      ih next fun r' hr' => hless r' (List.mem_cons_of_mem _ hr')
    refine ⟨latest, by rw [List.foldl_cons, hnext, hlatest], ?_⟩
    rw [hjoin, hfilled, List.map_cons, joinAll_cons]

/-! ## An order already complete -/

/-- On an order with nothing left to fill, only a snapshot of exactly what it has, stamped no
    earlier, has an effect. -/
theorem absorb_filled {quantity : Decimal} {held : Open} {r : Report ExchangeKey InstrumentKey}
    (hfull : quantity ≤ held.filledQuantity) (hle : r.cumulative ≤ quantity) :
    (absorb quantity (some held) r = some held ∧
      ¬ (held.filledQuantity = quantity ∧ r.cumulative = quantity ∧
        r.SnapshotSince held.timeExchange)) ∨
    (absorb quantity (some held) r = none ∧ held.filledQuantity = quantity ∧
      r.cumulative = quantity ∧ r.SnapshotSince held.timeExchange) := by
  cases r with
  | snapshot report =>
    have hcum : report.state.filledQuantity ≤ quantity := hle
    by_cases hnewer : held.isSupersededBy report.state = true
    · have hiff := Open.isSupersededBy_iff.1 hnewer
      have heq : report.state.filledQuantity = quantity := le_antisymm hcum (hfull.trans hiff.1)
      have hheld : held.filledQuantity = quantity := le_antisymm (heq ▸ hiff.1) hfull
      have hstamp : held.timeExchange ≤ report.state.timeExchange :=
        hiff.2.resolve_right (by rw [heq, hheld]; exact lt_irrefl _)
      exact Or.inr ⟨by simp [absorb, hnewer, Open.quantityRemaining, heq], hheld, heq, hstamp⟩
    · refine Or.inl ⟨by simp [absorb, hnewer], ?_⟩
      rintro ⟨hheld, heq, hstamp⟩
      have heq' : report.state.filledQuantity = quantity := heq
      exact hnewer (Open.isSupersededBy_iff.2 ⟨by rw [hheld, heq'], Or.inl hstamp⟩)
  | fill filledQuantity =>
    have hcum : filledQuantity ≤ held.filledQuantity := le_trans hle hfull
    exact Or.inl ⟨by simp [absorb, hcum], fun h => h.2.2⟩

theorem foldl_absorb_filled {quantity : Decimal} {held : Open}
    {rs : List (Report ExchangeKey InstrumentKey)} (hfull : quantity ≤ held.filledQuantity)
    (hle : ∀ r ∈ rs, r.cumulative ≤ quantity) :
    rs.foldl (absorb quantity) (some held) = some held ∧
      ¬ (held.filledQuantity = quantity ∧
        ∃ r ∈ rs, r.cumulative = quantity ∧ r.SnapshotSince held.timeExchange) ∨
    rs.foldl (absorb quantity) (some held) = none ∧ held.filledQuantity = quantity ∧
      ∃ r ∈ rs, r.cumulative = quantity ∧ r.SnapshotSince held.timeExchange := by
  induction rs with
  | nil => exact Or.inl ⟨rfl, by simp⟩
  | cons r rs ih =>
    rw [List.foldl_cons]
    rcases absorb_filled hfull (hle r (List.mem_cons_self ..)) with
      ⟨hstep, hnot⟩ | ⟨hstep, hheld, heq, hstamp⟩
    · rw [hstep]
      rcases ih fun r' hr' => hle r' (List.mem_cons_of_mem _ hr') with
        ⟨hrest, hnone⟩ | ⟨hrest, hheld, r', hr', hdone⟩
      · refine Or.inl ⟨hrest, ?_⟩
        rintro ⟨hheld, r', hr', hdone⟩
        rcases List.mem_cons.1 hr' with rfl | hr'
        · exact hnot ⟨hheld, hdone⟩
        · exact hnone ⟨hheld, r', hr', hdone⟩
      · exact Or.inr ⟨hrest, hheld, r', List.mem_cons_of_mem _ hr', hdone⟩
    · rw [hstep, foldl_absorb_none]
      exact Or.inr ⟨rfl, hheld, r, List.mem_cons_self .., heq, hstamp⟩

/-! ## The verdict -/

/-- Every delivery of `reports`, in any order and with any repetition, ends alike: with the order
    retired if one of them reports all of it, and otherwise tracked at the greatest cumulative. -/
def Settles (orders : Orders ExchangeKey InstrumentKey)
    (order : Order ExchangeKey InstrumentKey ActiveOrderState) (id : OrderId) (held : Open)
    (reports : List (Report ExchangeKey InstrumentKey)) : Prop :=
  ∀ delivered : List (Report ExchangeKey InstrumentKey), (∀ r, r ∈ delivered ↔ r ∈ reports) →
    let final := orders.run (delivered.map (Report.op order.key.cid id))
    ((∃ r ∈ reports, r.cumulative = order.quantity) →
      final.get? order.key.cid = none ∧ order.key.cid ∈ final.retired.items) ∧
    ((∀ r ∈ reports, r.cumulative ≠ order.quantity) →
      ∃ latest, final.get? order.key.cid = some { order with state := .open latest } ∧
        latest.filledQuantity = joinAll held.filledQuantity (reports.map Report.cumulative))

/-- The order has something left to fill, or nothing reports all of it, or a snapshot that does
    is not older than a state that reports exactly as much. -/
def Room (order : Order ExchangeKey InstrumentKey ActiveOrderState) (held : Open)
    (reports : List (Report ExchangeKey InstrumentKey)) : Prop :=
  held.filledQuantity < order.quantity ∨
  (∀ r ∈ reports, r.cumulative ≠ order.quantity) ∨
  held.filledQuantity = order.quantity ∧
    ∃ r ∈ reports, r.cumulative = order.quantity ∧ r.SnapshotSince held.timeExchange

/-- **Delivery order does not matter, exactly if the order had room for its reports.** -/
theorem settles_iff_room {orders : Orders ExchangeKey InstrumentKey}
    {order : Order ExchangeKey InstrumentKey ActiveOrderState} {id : OrderId} {held : Open}
    {reports : List (Report ExchangeKey InstrumentKey)}
    (htracked : orders.get? order.key.cid = some order) (hopen : order.state = .open held)
    (hid : held.id = .assigned id) (hreports : ∀ r ∈ reports, r.Of order id) :
    Settles orders order id held reports ↔ Room order held reports := by
  have hstands : Stands orders order id (some held) :=
    ⟨by rw [htracked]; exact congrArg some (by rw [← hopen]), hid⟩
  constructor
  · intro h
    by_contra hroom
    simp only [Room, not_or, not_lt, not_forall, not_not] at hroom
    obtain ⟨hfull, ⟨r, hr, heq⟩, hlate⟩ := hroom
    have hgone := ((h reports fun _ => Iff.rfl).1 ⟨r, hr, heq⟩).1
    have hrun := standing_run hreports hstands
    rcases foldl_absorb_filled hfull fun r hr => (hreports r hr).2.2 with
      ⟨hsome, -⟩ | ⟨-, hheld, hdone⟩
    · rw [hsome] at hrun
      rw [hrun.1] at hgone
      exact absurd hgone (by simp)
    · exact hlate ⟨hheld, hdone⟩
  · intro hroom delivered hsame
    have hof : ∀ r ∈ delivered, r.Of order id := fun r hr => hreports r ((hsame r).1 hr)
    have hle : ∀ r ∈ delivered, r.cumulative ≤ order.quantity := fun r hr => (hof r hr).2.2
    have hrun := standing_run hof hstands
    refine ⟨fun ⟨r, hr, heq⟩ => ?_, fun hnone => ?_⟩
    · have hall : ∃ r ∈ delivered, r.cumulative = order.quantity := ⟨r, (hsame r).2 hr, heq⟩
      have hgone : delivered.foldl (absorb order.quantity) (some held) = none := by
        rcases hroom with hlt | hnever | ⟨hheld, r', hr', hdone⟩
        · exact foldl_absorb_complete hlt hle hall
        · exact absurd heq (hnever r hr)
        · rcases foldl_absorb_filled (ge_of_eq hheld) hle with ⟨-, hnot⟩ | ⟨hgone, -⟩
          · exact absurd ⟨hheld, r', (hsame r').2 hr', hdone⟩ hnot
          · exact hgone
      rw [hgone] at hrun
      exact hrun
    · have hless : ∀ r ∈ delivered, r.cumulative < order.quantity := fun r hr =>
        lt_of_le_of_ne (hle r hr) (hnone r ((hsame r).1 hr))
      obtain ⟨latest, hlatest, hjoin⟩ := foldl_absorb_partial held hless
      rw [hlatest] at hrun
      refine ⟨latest, hrun.1, hjoin.trans (joinAll_congr fun x => ?_)⟩
      simp only [List.mem_map, hsame]

/-- An acknowledged order with nothing filled settles on the greater of two partial reports. -/
theorem settles_iff_room_partial :
    Settles (run empty [Sample.sends, Sample.reportsOpen (.assigned ⟨"v-1"⟩) 1 0])
      (Sample.order (.open ⟨.assigned ⟨"v-1"⟩, 1, 0⟩)) ⟨"v-1"⟩ ⟨.assigned ⟨"v-1"⟩, 1, 0⟩
      [.fill (1 / 2), .snapshot (Sample.order ⟨.assigned ⟨"v-1"⟩, 0, 1 / 4⟩)] := by
  refine (settles_iff_room (by decide +kernel) rfl rfl ?_).2 (Or.inl (by decide +kernel))
  intro r hr
  rw [List.mem_pair] at hr
  rcases hr with rfl | rfl
  · exact ⟨trivial, by decide +kernel, by decide +kernel⟩
  · exact ⟨⟨rfl, rfl, rfl⟩, by decide +kernel, by decide +kernel⟩

/-- Left open with nothing to fill by a refused cancel, the order stays tracked when a fill
    reports all of it. -/
theorem refusedCancelRun_not_settles :
    (run empty Sample.refusedCancelRun).get? Sample.cid =
      some (Sample.order (.open ⟨.assigned ⟨"v-1"⟩, 3, 1⟩)) ∧
    ¬ Settles (run empty Sample.refusedCancelRun)
      (Sample.order (.open ⟨.assigned ⟨"v-1"⟩, 3, 1⟩)) ⟨"v-1"⟩ ⟨.assigned ⟨"v-1"⟩, 3, 1⟩
      [.fill 1] := by
  refine ⟨by decide +kernel, fun h => ?_⟩
  have hgone := ((h [.fill 1] fun _ => Iff.rfl).1 ⟨.fill 1, by decide +kernel⟩).1
  exact absurd hgone (by decide +kernel)

end Orders

end Rustrade
