import Mathlib.Tactic.Linarith
import Rustrade.InstrumentState.Events

/-!
# Which position a cash flow is of

A flow is added to the carry of one open position, or to none. One that names a loan goes to the
position its order entered. One that names none goes to the only position open, where that
position was held when the flow was stamped, or took a loan in a period in which no other position
can have been held.
-/

set_option autoImplicit false

namespace Rustrade

/-! ## The carry of one position -/

section Carry

variable {AssetKey InstrumentKey : Type} [DecidableEq AssetKey]

theorem AssetCarry.held_setOther {self : AssetCarry AssetKey} {asset other : AssetKey}
    {sum : Decimal} :
    (self.setOther asset sum).held other = if other = asset then sum else self.held other := by
  obtain ⟨base, held⟩ := self
  have hfind : ((AssetCarry.mk base held).setOther asset sum).other.find?
      (fun e => e.1 = other) =
        if other = asset then some (asset, sum) else held.find? fun e => e.1 = other := by
    induction held with
    | nil => by_cases h : other = asset <;> simp [AssetCarry.setOther, h, eq_comm]
    | cons e rest ih =>
      unfold AssetCarry.setOther at ih ⊢
      rw [List.findIdx?_cons]
      by_cases hfirst : e.1 = asset
      · by_cases h : other = asset
        · simp [hfirst, h]
        · simp [hfirst, h, Ne.symm h]
      · cases hrest : rest.findIdx? fun e : AssetKey × Decimal => e.1 = asset with
        | none =>
          rw [hrest] at ih
          by_cases hhead : e.1 = other
          · have : other ≠ asset := fun h => hfirst (hhead.trans h)
            simp [hhead, this]
          · simpa [hfirst, hhead] using ih
        | some i =>
          rw [hrest] at ih
          by_cases hhead : e.1 = other
          · have : other ≠ asset := fun h => hfirst (hhead.trans h)
            simp [hhead, this]
          · simpa [hfirst, hhead] using ih
  refine (congrArg (fun found => (found.map Prod.snd).getD 0) hfind).trans ?_
  split <;> rfl

/-- The carry a position has in one slot. -/
def Position.carryIn (self : Position AssetKey InstrumentKey) : CarrySlot AssetKey → Decimal
  | .quote => self.carry
  | .base => self.carryAssets.base
  | .other asset => self.carryAssets.held asset

/-- `carried` is `position` with `amount` added in one slot, and moved on to `timeExchange`. -/
structure CarriesInto (position : Position AssetKey InstrumentKey) (slot : CarrySlot AssetKey)
    (amount : Decimal) (timeExchange : DateTime) (carried : Position AssetKey InstrumentKey) :
    Prop where
  same : carried = { position with
    carry := carried.carry
    carryAssets := carried.carryAssets
    timeExchangeUpdate := max position.timeExchangeUpdate timeExchange }
  slots : ∀ other, carried.carryIn other =
    position.carryIn other + if other = slot then amount else 0

variable [DecimalRange]

/-- Carry is added in its slot, or the position is as it was. -/
theorem Position.applyCarry_cases (self : Position AssetKey InstrumentKey)
    (slot : CarrySlot AssetKey) (amount : Decimal) (timeExchange : DateTime) :
    self.applyCarry slot amount timeExchange = (self, .overflowed) ∨
      ∃ carried, self.applyCarry slot amount timeExchange = (carried, .applied) ∧
        CarriesInto self slot amount timeExchange carried := by
  unfold applyCarry
  extract_lets held
  have hheld : held = self.carryIn slot := by
    cases slot <;> rfl
  cases hsum : Decimal.checkedAdd held amount with
  | none => exact .inl rfl
  | some sum =>
    have hexact : sum = self.carryIn slot + amount := by
      unfold Decimal.checkedAdd Decimal.ofExact at hsum
      split at hsum
      · cases hsum
        rw [hheld]
      · cases hsum
    refine .inr ⟨_, rfl, ?_⟩
    rw [hexact]
    cases slot with
    | quote =>
      refine ⟨rfl, fun other => ?_⟩
      cases other with
      | other asset => exact (add_zero _).symm
      | _ => simp [carryIn]
    | base =>
      refine ⟨rfl, fun other => ?_⟩
      cases other with
      | other asset => exact (add_zero _).symm
      | _ => simp [carryIn]
    | other asset =>
      refine ⟨rfl, fun other => ?_⟩
      cases other with
      | quote => simp [carryIn]
      | base => simp [carryIn, AssetCarry.setOther]
      | other named =>
        show (self.carryAssets.setOther asset _).held named = _
        rw [AssetCarry.held_setOther]
        by_cases h : named = asset
        · simp [h, carryIn]
        · simp [h, carryIn]

end Carry

/-! ## The attribution of a flow -/

namespace InstrumentState

variable {Data ExchangeKey AssetKey InstrumentKey : Type}

/-- The open positions other than the one under `positionId` do not meet `p`. -/
def OnlyOpen (self : InstrumentState Data ExchangeKey AssetKey InstrumentKey)
    (positionId : PositionId) (p : Position AssetKey InstrumentKey → Prop) : Prop :=
  ∀ otherId other, self.position.positions.get? otherId = some other → p other →
    otherId = positionId

/-- A charge on a new loan was taken in a period the position entered in and no other can have been
    held in: it began in the session, and after the last position known to have ended. -/
structure TakenInPeriod (state : InstrumentState Data ExchangeKey AssetKey InstrumentKey)
    (flow : CashFlow AssetKey InstrumentKey) (position : Position AssetKey InstrumentKey)
    (period : CashFlowPeriod) : Prop where
  charge : flow.kind = .marginInterest (some .onBorrow) ∧ flow.period = some period
  entered : period.start ≤ position.timeEnter ∧ position.timeEnter < period.stop
  session : state.tearSheet.timeEngineStart ≤ period.start
  history : ∀ start, state.position.timeHistoryStart = some start → start ≤ period.start

/-- A flow belongs to one open position. -/
structure BelongsTo (state : InstrumentState Data ExchangeKey AssetKey InstrumentKey)
    (flow : CashFlow AssetKey InstrumentKey) (positionId : PositionId)
    (position : Position AssetKey InstrumentKey) : Prop where
  isOpen : state.position.positions.get? positionId = some position
  loan : ∀ loan, flow.loan = some loan → loan.orderId ∈ position.ordersEnter ∧
    state.OnlyOpen positionId fun other => loan.orderId ∈ other.ordersEnter
  single : flow.loan = none → state.OnlyOpen positionId fun _ => True
  held : flow.loan = none → position.timeEnter ≤ flow.timeExchange ∨
    ∃ period, state.TakenInPeriod flow position period

/-- The slot a flow in `asset` is carried in. -/
def NamesSlot (self : InstrumentState Data ExchangeKey AssetKey InstrumentKey) (asset : AssetKey) :
    CarrySlot AssetKey → Prop
  | .quote => asset = self.instrument.underlying.quote
  | .base => asset = self.instrument.underlying.base ∧ asset ≠ self.instrument.underlying.quote
  | .other named => named = asset ∧ asset ≠ self.instrument.underlying.quote ∧
      asset ≠ self.instrument.underlying.base

variable {self : InstrumentState Data ExchangeKey AssetKey InstrumentKey}
  {flow : CashFlow AssetKey InstrumentKey} {positionId : PositionId}
  {position : Position AssetKey InstrumentKey}

theorem eq_onBorrow {period : CashFlowPeriod} (h : onBorrowPeriod flow = some period) :
    flow.kind = .marginInterest (some .onBorrow) ∧ flow.period = some period := by
  unfold onBorrowPeriod at h
  split at h
  · rename_i hkind
    exact ⟨hkind, h⟩
  · cases h

variable [DecidableEq AssetKey]

theorem namesSlot_carrySlot {asset : AssetKey} : self.NamesSlot asset (self.carrySlot asset) := by
  unfold carrySlot
  split
  · assumption
  · split
    · exact ⟨by assumption, by assumption⟩
    · exact ⟨rfl, by assumption, by assumption⟩

omit [DecidableEq AssetKey] in
/-- The only candidate is open, and no other position is one. -/
theorem eq_of_carryCandidates (h : self.carryCandidates flow = [(positionId, position)]) :
    self.position.positions.get? positionId = some position ∧
      (∀ loan, flow.loan = some loan → loan.orderId ∈ position.ordersEnter ∧
        self.OnlyOpen positionId fun other => loan.orderId ∈ other.ordersEnter) ∧
      (flow.loan = none → self.OnlyOpen positionId fun _ => True) := by
  unfold carryCandidates at h
  cases hloan : flow.loan with
  | some loan =>
    rw [hloan] at h
    dsimp only at h
    have hmem : (positionId, position) ∈ self.position.positions.entries.filter
        fun e => loan.orderId ∈ e.2.ordersEnter := by
      rw [h]
      exact List.mem_singleton_self _
    obtain ⟨hopen, hentered⟩ := List.mem_filter.1 hmem
    refine ⟨IndexMap.get?_eq_some_iff.2 hopen, ?_, fun hnone => nomatch hnone⟩
    intro named hnamed
    cases hnamed
    refine ⟨of_decide_eq_true hentered, fun otherId other hother hnamed => ?_⟩
    have : (otherId, other) ∈ self.position.positions.entries.filter
        fun e => loan.orderId ∈ e.2.ordersEnter :=
      List.mem_filter.2 ⟨IndexMap.get?_eq_some_iff.1 hother, decide_eq_true hnamed⟩
    rw [h, List.mem_singleton] at this
    exact congrArg Prod.fst this
  | none =>
    rw [hloan] at h
    dsimp only at h
    refine ⟨IndexMap.get?_eq_some_iff.2 (h ▸ List.mem_singleton_self _), ?_, ?_⟩
    · intro loan hsome
      cases hsome
    intro _ otherId other hother _
    have := IndexMap.get?_eq_some_iff.1 hother
    rw [h, List.mem_singleton] at this
    exact congrArg Prod.fst this

omit [DecidableEq AssetKey] in
/-- A flow with no loan that is not left out came while its position was held, or is the charge on
    a loan no other position can have taken. -/
theorem held_of_beforeEntry (h : self.beforeEntry flow position = none) (hloan : flow.loan = none) :
    position.timeEnter ≤ flow.timeExchange ∨ ∃ period, self.TakenInPeriod flow position period := by
  unfold beforeEntry at h
  by_cases hbefore : flow.timeExchange < position.timeEnter
  · right
    simp only [hloan, Option.isNone_none, Bool.true_and, hbefore, decide_true, if_true] at h
    cases hperiod : onBorrowPeriod flow with
    | none =>
      rw [hperiod] at h
      cases h
    | some period =>
      rw [hperiod] at h
      dsimp only at h
      split at h
      · cases h
      · rename_i hcontains
        split at h
        · cases h
        · rename_i hknown
          obtain ⟨hkind, hflow⟩ := eq_onBorrow hperiod
          have hstart := not_lt.1 hknown
          refine ⟨period, ⟨hkind, hflow⟩, ?_, ?_, ?_⟩
          · simpa [CashFlowPeriod.contains] using hcontains
          · refine le_trans ?_ hstart
            cases self.position.timeHistoryStart with
            | none => exact le_rfl
            | some start => exact le_max_right _ _
          · intro start hsome
            rw [hsome] at hstart
            exact le_trans (le_max_left _ _) hstart
  · exact .inl (not_lt.1 hbefore)

omit [DecidableEq AssetKey] in
/-- No reason for leaving a flow out is that it was applied. -/
theorem beforeEntry_ne_applied : self.beforeEntry flow position ≠ some .applied := by
  unfold beforeEntry
  split
  · split
    · exact fun h => nomatch h
    · dsimp only
      split
      · exact fun h => nomatch h
      · split <;> exact fun h => nomatch h
  · exact fun h => nomatch h

omit [DecidableEq AssetKey] in
/-- To write an open position back as it was changes nothing. -/
theorem modify_same {positions : IndexMap PositionId (Position AssetKey InstrumentKey)}
    (h : positions.get? positionId = some position) :
    positions.modify positionId (fun _ => position) = positions := by
  apply IndexMap.ext
  show positions.entries.map _ = _
  conv_rhs => rw [← List.map_id positions.entries]
  apply List.map_congr_left
  intro ⟨otherId, other⟩ hmem
  have hother := IndexMap.get?_eq_some_iff.2 hmem
  by_cases hsame : otherId = positionId
  · subst hsame
    simp [Option.some.inj (h.symm.trans hother)]
  · simp [hsame]

/-- A flow changes nothing, or is carried by the position it belongs to. -/
theorem updateFromCashFlow_cases [DecimalRange]
    (self : InstrumentState Data ExchangeKey AssetKey InstrumentKey)
    (flow : CashFlow AssetKey InstrumentKey) :
    (∃ update, update ≠ .applied ∧ self.updateFromCashFlow flow = (self, update)) ∨
      ∃ positionId position carried, self.BelongsTo flow positionId position ∧
        CarriesInto position (self.carrySlot flow.asset) flow.amount flow.timeExchange carried ∧
        self.updateFromCashFlow flow = ({ self with position := { self.position with
          positions := self.position.positions.modify positionId fun _ => carried } },
          .applied) := by
  unfold updateFromCashFlow
  split
  · exact .inl ⟨.noOpenPosition, (fun h => nomatch h), rfl⟩
  split
  · exact .inl ⟨.loanOfOtherOrder, (fun h => nomatch h), rfl⟩
  · rename_i positionId position hcandidates
    obtain ⟨hopen, hloan, hsingle⟩ := eq_of_carryCandidates hcandidates
    split
    · rename_i reason hbefore
      refine .inl ⟨reason, ?_, rfl⟩
      intro happlied
      exact beforeEntry_ne_applied (hbefore.trans (congrArg some happlied))
    · rename_i hbefore
      rcases position.applyCarry_cases (self.carrySlot flow.asset) flow.amount flow.timeExchange
        with hheld | ⟨carried, happlied, hcarries⟩
      · -- The sum does not fit, and the position is written back as it was.
        refine .inl ⟨.overflowed, (fun h => nomatch h), ?_⟩
        rw [hheld]
        dsimp only
        rw [modify_same hopen]
      · refine .inr ⟨positionId, position, carried,
          ⟨hopen, hloan, hsingle, held_of_beforeEntry hbefore⟩, hcarries, ?_⟩
        rw [happlied]
  · exact .inl ⟨.severalOpen, (fun h => nomatch h), rfl⟩

end InstrumentState

end Rustrade
