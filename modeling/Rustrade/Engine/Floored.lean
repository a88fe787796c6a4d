import Rustrade.Engine.Calls
import Rustrade.InstrumentState.Gone

/-!
# A position a split rounds to nothing

A reverse split can round a position to no shares, and it is then removed with the positions orders
were sent with that name it, so that an order still resting does not open it again. What an order
that ended before left in `retiredRouting` stays, and its late fill opens the position again; where
there is none of it, nothing does until an open request that names the position is recorded.
-/

set_option autoImplicit false

namespace Rustrade

section Calls

variable {Data AssetKey : Type} [InstrumentDataState Data ExchangeIndex AssetKey InstrumentIndex]

/-- The call records an open request that names `p`. -/
def Call.recordsOpen (p : PositionId)
    (s : InstrumentState Data ExchangeIndex AssetKey InstrumentIndex) : Call Data AssetKey → Bool
  | .op (.recordInFlightOpen request _) =>
      request.state.positionId = some p && !s.orders.tracked.contains request.key.cid
  | _ => false

/-- The call is a fill under a venue order id that is itself the position's key. -/
def Call.fillsAs (p : PositionId) : Call Data AssetKey → Bool
  | .op (.updateFromTrade _ trade) => .ofOrderId trade.orderId = p
  | _ => false

/-- The call is one of those a corporate action makes. -/
def Call.ofSplit : Call Data AssetKey → Bool
  | .commitEquityPosition .. | .adjustStrike .. | .commitPosition _ | .recordCorporateAction _ =>
      true
  | _ => false

variable [DecidableEq AssetKey] [DecimalRange] {self : EngineState Data AssetKey}
  {i : InstrumentIndex}

theorem forall_corporateActionCalls {P : Call Data AssetKey → Prop} {time : DateTime}
    {id : CorporateActionId} {key : InstrumentIndex} {kind : CorporateActionKind}
    {policy : SplitRoundingPolicy} (commitEquity : ∀ e, P (.commitEquityPosition key time e))
    (adjustStrike : ∀ strike, P (.adjustStrike id strike)) (commit : ∀ e, P (.commitPosition e))
    (record : P (.recordCorporateAction id)) :
    ∀ c ∈ corporateActionCalls time self id key kind policy i, P c := by
  intro c hc
  unfold corporateActionCalls at hc
  split at hc
  · exact absurd hc (List.not_mem_nil)
  · split at hc
    · exact absurd hc (List.not_mem_nil)
    · split at hc
      · exact absurd hc (List.not_mem_nil)
      · split at hc
        · exact absurd hc (List.not_mem_nil)
        · rcases List.mem_append.1 hc with hc | hc
          · rcases List.mem_append.1 hc with hc | hc
            · split at hc
              · obtain ⟨e, -, rfl⟩ := List.mem_map.1 hc
                exact commitEquity e
              · exact absurd hc (List.not_mem_nil)
            · split at hc
              · obtain ⟨plan, -, hc⟩ := List.mem_flatMap.1 hc
                split at hc
                · rcases List.mem_cons.1 hc with rfl | hc
                  · exact adjustStrike _
                  · obtain ⟨e, -, rfl⟩ := List.mem_map.1 hc
                    exact commit e
                · exact absurd hc (List.not_mem_nil)
              · exact absurd hc (List.not_mem_nil)
          · split at hc
            · cases List.mem_singleton.1 hc
              exact record
            · exact absurd hc (List.not_mem_nil)

end Calls

namespace InstrumentState

variable {Data AssetKey : Type} [DecidableEq AssetKey] [DecimalRange]
  [InstrumentDataState Data ExchangeIndex AssetKey InstrumentIndex] {p : PositionId}
  {s : InstrumentState Data ExchangeIndex AssetKey InstrumentIndex}

/-! ## What a split does to the routing -/

/-- `s'` is `s` after part of a split: no order that was sent with a position the split removed is
    still routed to it, and nothing else of the routing is different. -/
structure SplitKeeps (p : PositionId)
    (s s' : InstrumentState Data ExchangeIndex AssetKey InstrumentIndex) : Prop where
  mode : s'.position.mode = s.position.mode
  retiredRouting : s'.retiredRouting = s.retiredRouting
  pendingFills : s'.pendingFills = s.pendingFills
  pruned : (s.position.positions.get? p = none → ∀ cid, s.positionIds.get? cid ≠ some p) →
    s'.position.positions.get? p = none → ∀ cid, s'.positionIds.get? cid ≠ some p

omit [DecidableEq AssetKey] [DecimalRange]
  [InstrumentDataState Data ExchangeIndex AssetKey InstrumentIndex] in
/-- Nothing is removed. -/
theorem SplitKeeps.of_held {s' : InstrumentState Data ExchangeIndex AssetKey InstrumentIndex}
    (hmode : s'.position.mode = s.position.mode) (hretired : s'.retiredRouting = s.retiredRouting)
    (hpending : s'.pendingFills = s.pendingFills) (hsent : s'.positionIds = s.positionIds)
    (hheld : s'.position.positions.get? p = none → s.position.positions.get? p = none) :
    SplitKeeps p s s' where
  mode := hmode
  retiredRouting := hretired
  pendingFills := hpending
  pruned hpruned hnone := by rw [hsent]; exact hpruned (hheld hnone)

omit [DecidableEq AssetKey] [DecimalRange]
  [InstrumentDataState Data ExchangeIndex AssetKey InstrumentIndex] in
theorem SplitKeeps.trans {s' s'' : InstrumentState Data ExchangeIndex AssetKey InstrumentIndex}
    (h : SplitKeeps p s s') (h' : SplitKeeps p s' s'') : SplitKeeps p s s'' :=
  ⟨h'.mode.trans h.mode, h'.retiredRouting.trans h.retiredRouting,
    h'.pendingFills.trans h.pendingFills, fun hpruned => h'.pruned (h.pruned hpruned)⟩

omit [DecidableEq AssetKey] [InstrumentDataState Data ExchangeIndex AssetKey InstrumentIndex] in
theorem splitKeeps_commitPosition {lastPrice : Option Decimal} {e : PositionId × PreparedSplit} :
    SplitKeeps p s (s.commitPosition lastPrice e) := by
  refine .of_held rfl rfl rfl rfl fun hnone => ?_
  change (s.position.positions.modify _ _).get? p = none at hnone
  rw [IndexMap.get?_modify] at hnone
  split at hnone
  · exact Option.map_eq_none_iff.1 hnone
  · exact hnone

omit [DecidableEq AssetKey] [DecimalRange]
  [InstrumentDataState Data ExchangeIndex AssetKey InstrumentIndex] in
/-- What removes a position forgets the orders sent with it. -/
theorem splitKeeps_endSplitPosition {positionId : PositionId} {time : DateTime} :
    SplitKeeps p s (s.endSplitPosition positionId time).1 := by
  unfold endSplitPosition PositionManager.removeEnded
  cases hget : s.position.positions.get? positionId with
  | none => exact .of_held rfl rfl rfl rfl id
  | some removed =>
    refine ⟨rfl, rfl, rfl, fun hpruned hnone cid hcid => ?_⟩
    change (s.positionIds.retain _).get? cid = some p at hcid
    rw [IndexMap.get?_retain, Option.filter_eq_some_iff] at hcid
    obtain ⟨hsent, hne⟩ := hcid
    have hne : p ≠ positionId := by simpa using hne
    change (s.position.positions.remove positionId).get? p = none at hnone
    rw [IndexMap.get?_remove_of_ne hne] at hnone
    exact hpruned hnone cid hsent

omit [DecidableEq AssetKey] [InstrumentDataState Data ExchangeIndex AssetKey InstrumentIndex] in
theorem splitKeeps_commitEquityPosition {key : InstrumentIndex} {time : DateTime}
    {lastPrice : Option Decimal} {e : PositionId × PreparedSplit} :
    SplitKeeps p s (commitEquityPosition key time lastPrice s e).1 := by
  unfold commitEquityPosition
  split
  · exact .of_held rfl rfl rfl rfl id
  · simp only
    split
    · exact splitKeeps_commitPosition.trans splitKeeps_endSplitPosition
    · exact splitKeeps_commitPosition

theorem splitKeeps_call {c : Call Data AssetKey} (h : c.ofSplit = true) :
    SplitKeeps p s (s.call c) := by
  cases c with
  | commitEquityPosition key time e => exact splitKeeps_commitEquityPosition
  | adjustStrike id strike =>
    change SplitKeeps p s (s.adjustStrike id strike)
    unfold InstrumentState.adjustStrike
    split <;> exact .of_held rfl rfl rfl rfl fun hnone => hnone
  | commitPosition e => exact splitKeeps_commitPosition
  | recordCorporateAction id => exact .of_held rfl rfl rfl rfl fun hnone => hnone
  | _ => cases h

theorem splitKeeps_calls {calls : List (Call Data AssetKey)} (h : ∀ c ∈ calls, c.ofSplit = true) :
    SplitKeeps p s (s.calls calls) := by
  have hstep : ∀ state (c : Call Data AssetKey), c.ofSplit = true → SplitKeeps p s state →
      SplitKeeps p s (state.call c) := fun _ _ hc hs => hs.trans (splitKeeps_call hc)
  exact Transition.run_invariant_of (SplitKeeps p s) hstep h (.of_held rfl rfl rfl rfl id)

/-! ## The calls after it -/

omit [DecidableEq AssetKey] [InstrumentDataState Data ExchangeIndex AssetKey InstrumentIndex] in
theorem Gone.settlePosition {key : InstrumentIndex} {time : DateTime} {price : Decimal}
    {positionId : PositionId} (h : Gone p s) :
    Gone p (InstrumentState.settlePosition key time price s positionId).1 := by
  unfold InstrumentState.settlePosition
  cases hget : s.position.positions.get? positionId with
  | none => exact h
  | some position =>
    have hne : p ≠ positionId := by
      rintro rfl
      rw [h.closed] at hget
      cases hget
    have hmoved : Gone p { s with
        position := (s.position.updateFromTradeWithId (s.settlementTrade key
          (settlementTag positionId time) time price position) positionId
          s.instrument.kind.contractSize).1 } :=
      h.congr PositionManager.mode_updateFromTradeWithId
        (PositionManager.get?_updateFromTradeWithId_of_ne hne) (fun _ _ hsent => hsent)
        (fun _ _ hretired => hretired) fun _ hfill => hfill
    simp only
    split
    · exact hmoved.of_noted fun _ => .tearSheet rfl
    · exact hmoved
    · exact hmoved

omit [DecidableEq AssetKey] [DecimalRange]
  [InstrumentDataState Data ExchangeIndex AssetKey InstrumentIndex] in
theorem Gone.markExpired {hash : HashOrder} (h : Gone p s) : Gone p (s.markExpired hash) where
  mode := h.mode
  closed := h.closed
  unsent _ hsent := by cases hsent
  forgotten _ hretired := by cases hretired
  unkeyed _ hfill := absurd hfill (List.not_mem_nil)

omit [DecidableEq AssetKey] [DecimalRange]
  [InstrumentDataState Data ExchangeIndex AssetKey InstrumentIndex] in
theorem Gone.of_splitKeeps {s' : InstrumentState Data ExchangeIndex AssetKey InstrumentIndex}
    (h : Gone p s) (hkeeps : SplitKeeps p s s')
    (hclosed : s'.position.positions.get? p = none) : Gone p s' := by
  refine ⟨hkeeps.mode.trans h.mode, hclosed, hkeeps.pruned (fun _ => h.unsent) hclosed, ?_, ?_⟩
  · rw [hkeeps.retiredRouting]; exact h.forgotten
  · rw [hkeeps.pendingFills]; exact h.unkeyed

omit [DecidableEq AssetKey] [DecimalRange]
  [InstrumentDataState Data ExchangeIndex AssetKey InstrumentIndex] in
/-- A position is not brought back by a split. -/
theorem closed_modify {e : PositionId × PreparedSplit}
    {f : Position AssetKey InstrumentIndex → Position AssetKey InstrumentIndex}
    (h : s.position.positions.get? p = none) : (s.position.positions.modify e.1 f).get? p = none := by
  rw [IndexMap.get?_modify, h]
  split <;> rfl

omit [DecidableEq AssetKey] [InstrumentDataState Data ExchangeIndex AssetKey InstrumentIndex] in
theorem closed_commitEquityPosition {key : InstrumentIndex} {time : DateTime}
    {lastPrice : Option Decimal} {e : PositionId × PreparedSplit}
    (h : s.position.positions.get? p = none) :
    (commitEquityPosition key time lastPrice s e).1.position.positions.get? p = none := by
  unfold commitEquityPosition
  split
  · exact h
  · simp only
    have hcommitted : (s.commitPosition lastPrice e).position.positions.get? p = none :=
      closed_modify (e := e) h
    split
    · unfold endSplitPosition PositionManager.removeEnded
      cases (s.commitPosition lastPrice e).position.positions.get? e.1 with
      | none => exact hcommitted
      | some removed =>
        change ((s.commitPosition lastPrice e).position.positions.remove e.1).get? p = none
        rw [IndexMap.get?_remove, hcommitted]
        split <;> rfl
    · exact hcommitted

/-- **No call of the engine opens it again**, but the record of an order sent with it. -/
theorem Gone.call {c : Call Data AssetKey} (h : Gone p s) (hrecords : c.recordsOpen p s = false)
    (hfills : c.fillsAs p = false) : Gone p (s.call c) := by
  cases c with
  | op op =>
    refine h.step ?_
    cases op with
    | recordInFlightOpen request timeSent =>
      intro hnamed
      simpa [Call.recordsOpen, hnamed] using hrecords
    | updateFromTrade hash trade => simpa [Call.fillsAs, KeepsGone] using hfills
    | _ => exact trivial
  | processAccount event =>
    exact h.congr rfl rfl (fun _ _ hsent => hsent) (fun _ _ hretired => hretired)
      fun _ hfill => hfill
  | recordFillFeeUnconverted => exact h.of_noted fun _ => .tearSheet rfl
  | settlePosition key time price positionId => exact h.settlePosition
  | markExpired hash => exact h.markExpired
  | commitEquityPosition key time e =>
    exact h.of_splitKeeps (splitKeeps_call rfl) (closed_commitEquityPosition h.closed)
  | adjustStrike id strike =>
    refine h.of_splitKeeps (splitKeeps_call rfl) ?_
    change (s.adjustStrike id strike).position.positions.get? p = none
    unfold InstrumentState.adjustStrike
    split <;> exact h.closed
  | commitPosition e => exact h.of_splitKeeps (splitKeeps_call rfl) (closed_modify (e := e) h.closed)
  | recordCorporateAction id => exact h.of_splitKeeps (splitKeeps_call rfl) h.closed

theorem Gone.calls {calls : List (Call Data AssetKey)} (h : Gone p s)
    (hrecords : Transition.Guarded InstrumentState.call (fun s c => c.recordsOpen p s = false) s
      calls)
    (hfills : ∀ c ∈ calls, c.fillsAs p = false) : Gone p (s.calls calls) := by
  induction calls generalizing s with
  | nil => exact h
  | cons c calls ih =>
    exact ih (h.call hrecords.1 (hfills c (List.mem_cons_self ..))) hrecords.2
      fun c' hc' => hfills c' (List.mem_cons_of_mem _ hc')

end InstrumentState

/-! ## Runs of the engine -/

namespace EngineState

variable {Data AssetKey : Type} [DecidableEq AssetKey] [DecimalRange]
  [InstrumentDataState Data ExchangeIndex AssetKey InstrumentIndex]

/-- What is open under `p` on the instrument at `key`. -/
def positionAt (self : EngineState Data AssetKey) (key : InstrumentIndex) (p : PositionId) :
    Option (Position AssetKey InstrumentIndex) :=
  (self.instruments[key]?).bind fun state => state.position.positions.get? p

/-- The event records no open request that names `p` on the instrument at `key`. -/
def LeavesUnsent (key : InstrumentIndex) (p : PositionId) (self : EngineState Data AssetKey)
    (e : Moment × EngineEvent Data AssetKey) : Prop :=
  ∀ state, self.instruments[key]? = some state →
    Transition.Guarded InstrumentState.call (fun s c => c.recordsOpen p s = false) state
      (callsOn e.1 self e.2 key)

/-- The venue order id of the event's fill, if it is one, is not the position's key. -/
def FillsApart (p : PositionId) (e : Moment × EngineEvent Data AssetKey) : Prop :=
  ∀ account trade, e.2 = .account (.item account) → account.kind = .trade trade →
    .ofOrderId trade.orderId ≠ p

variable {self : EngineState Data AssetKey} {m : Moment} {key : InstrumentIndex} {p : PositionId}
  {state : InstrumentState Data ExchangeIndex AssetKey InstrumentIndex}

omit [DecidableEq AssetKey] [DecimalRange] in
/-- The strategy attributes cash flows alone. -/
theorem kind_of_attributed {event : EngineEvent Data AssetKey}
    {account : AccountEvent ExchangeIndex AssetKey InstrumentIndex}
    {trade : Trade AssetKey InstrumentIndex}
    (hattributed : self.attributed m event = .account (.item account))
    (hkind : account.kind = .trade trade) :
    ∃ received : AccountEvent ExchangeIndex AssetKey InstrumentIndex,
      event = .account (.item received) ∧ received.kind = .trade trade := by
  unfold attributed at hattributed
  split at hattributed
  · rename_i received
    cases hattributed
    refine ⟨received, rfl, ?_⟩
    unfold attributeCashFlow at hkind
    split at hkind
    · split at hkind
      · split at hkind
        · cases hkind
        · exact hkind
      · exact hkind
    · exact hkind
  · exact ⟨account, hattributed, hkind⟩

theorem fillsAs_callsOn {event : EngineEvent Data AssetKey} (h : FillsApart p (m, event)) :
    ∀ c ∈ callsOn m self event key, c.fillsAs p = false := by
  refine forall_callsOn ?_ rfl ?_ (fun _ => rfl) ?_ ?_
  · intro request _
    cases request <;> rfl
  · intro account hattributed
    refine forall_accountCalls (fun _ => rfl) (fun _ _ => rfl) (fun _ => rfl) ?_ (fun _ => rfl) rfl
      rfl
    intro printed valued hkind
    obtain ⟨received, hevent, htrade⟩ := kind_of_attributed hattributed hkind
    have happart := h received printed hevent htrade
    have horder : (valuedTrade printed valued).orderId = printed.orderId := by
      cases valued <;> rfl
    simpa [Call.fillsAs, horder] using happart
  · exact fun _ _ => forall_expiryCalls (fun _ _ => rfl) (fun _ _ _ _ => rfl) rfl
  · exact fun _ _ _ _ _ _ => forall_corporateActionCalls (fun _ => rfl) (fun _ => rfl)
      (fun _ => rfl) rfl

/-- An event sent no open request that names `p` records none. -/
theorem leavesUnsent_of_unnamed {e : Moment × EngineEvent Data AssetKey}
    (h : ∀ request, .open request ∈ e.1.actioned ++ e.1.algoOrders →
      request.state.positionId ≠ some p) : LeavesUnsent key p self e := by
  intro state _
  refine Transition.guarded_of_forall (forall_callsOn ?_ (fun _ => rfl) ?_ (fun _ _ => rfl) ?_ ?_)
  · intro request hrequest s
    cases request with
    | «open» request => simp [SentRequest.callOn, Call.recordsOpen, h request hrequest]
    | cancel request => rfl
  · exact fun _ _ => forall_accountCalls (fun _ _ => rfl) (fun _ _ _ => rfl) (fun _ _ => rfl)
      (fun _ _ _ _ => rfl) (fun _ _ => rfl) (fun _ => rfl) fun _ => rfl
  · exact fun _ _ => forall_expiryCalls (fun _ _ _ => rfl) (fun _ _ _ _ _ => rfl) fun _ => rfl
  · exact fun _ _ _ _ _ _ => forall_corporateActionCalls (fun _ _ => rfl) (fun _ _ => rfl)
      (fun _ _ => rfl) fun _ => rfl

/-- What a split removes is gone, if no order that ended before is still routed to it. -/
theorem gone_of_split {id : CorporateActionId} {ratio : SplitRatio} {policy : SplitRoundingPolicy}
    {time : DateTime} {target : InstrumentIndex} (hget : self.instruments[key]? = some state)
    (hmode : state.position.mode = .hedging)
    (hopen : (state.position.positions.get? p).isSome = true)
    (hclosed : (self.process m
      (.corporateAction id target (.stockSplit ratio) policy time)).1.positionAt key p = none)
    (hretired : ∀ orderId, state.retiredRouting.get? orderId ≠ some p)
    (hpending : ∀ fill ∈ state.pendingFills, .ofOrderId fill.orderId ≠ p) :
    ∃ state', (self.process m
        (.corporateAction id target (.stockSplit ratio) policy time)).1.instruments[key]? =
        some state' ∧ InstrumentState.Gone p state' := by
  have hafter : (self.process m
      (.corporateAction id target (.stockSplit ratio) policy time)).1.instruments[key]? =
      some (state.calls
        (callsOn m self (.corporateAction id target (.stockSplit ratio) policy time) key)) := by
    rw [getElem?_process, hget, Option.map_some]
  have hcalls : callsOn m self (.corporateAction id target (.stockSplit ratio) policy time) key =
      corporateActionCalls m.time self id target (.stockSplit ratio) policy key := by
    unfold callsOn
    exact List.append_nil _
  have hkeeps : InstrumentState.SplitKeeps p state (state.calls
      (callsOn m self (.corporateAction id target (.stockSplit ratio) policy time) key)) := by
    rw [hcalls]
    exact InstrumentState.splitKeeps_calls (forall_corporateActionCalls (fun _ => rfl)
      (fun _ => rfl) (fun _ => rfl) rfl)
  unfold positionAt at hclosed
  rw [hafter, Option.bind_some] at hclosed
  have hheld : state.position.positions.get? p = none →
      ∀ cid, state.positionIds.get? cid ≠ some p := by
    intro hnone
    rw [hnone] at hopen
    cases hopen
  refine ⟨_, hafter, hkeeps.mode.trans hmode, hclosed, hkeeps.pruned hheld hclosed, ?_, ?_⟩
  · rw [hkeeps.retiredRouting]; exact hretired
  · rw [hkeeps.pendingFills]; exact hpending

theorem gone_run {events : List (Moment × EngineEvent Data AssetKey)}
    (hget : self.instruments[key]? = some state) (hgone : InstrumentState.Gone p state)
    (hunsent : Transition.Guarded (fun self e => (process e.1 self e.2).1) (LeavesUnsent key p) self
      events)
    (hids : ∀ e ∈ events, FillsApart p e) :
    ∃ state', (self.run events).instruments[key]? = some state' ∧
      InstrumentState.Gone p state' := by
  induction events generalizing self state with
  | nil => exact ⟨state, hget, hgone⟩
  | cons e events ih =>
    have hafter : (self.process e.1 e.2).1.instruments[key]? =
        some (state.calls (callsOn e.1 self e.2 key)) := by
      rw [getElem?_process, hget, Option.map_some]
    have hfills : ∀ c ∈ callsOn e.1 self e.2 key, c.fillsAs p = false :=
      fillsAs_callsOn (hids e (List.mem_cons_self ..))
    exact ih hafter (hgone.calls (hunsent.1 state hget) hfills) hunsent.2
      fun e' he' => hids e' (List.mem_cons_of_mem _ he')

/-- **A position a split removed stays closed**, if no order that ended before the split is still
    routed to it: no event opens it again before one records an open request that names it. -/
theorem floored_position_stays_closed {id : CorporateActionId} {ratio : SplitRatio}
    {policy : SplitRoundingPolicy} {time : DateTime} {target : InstrumentIndex}
    {events : List (Moment × EngineEvent Data AssetKey)}
    (hget : self.instruments[key]? = some state) (hmode : state.position.mode = .hedging)
    (hopen : (state.position.positions.get? p).isSome = true)
    (hclosed : (self.process m
      (.corporateAction id target (.stockSplit ratio) policy time)).1.positionAt key p = none)
    (hretired : ∀ orderId, state.retiredRouting.get? orderId ≠ some p)
    (hpending : ∀ fill ∈ state.pendingFills, .ofOrderId fill.orderId ≠ p)
    (hids : ∀ e ∈ events, FillsApart p e)
    (hunsent : Transition.Guarded (fun self e => (process e.1 self e.2).1) (LeavesUnsent key p)
      (self.process m (.corporateAction id target (.stockSplit ratio) policy time)).1 events) :
    ((self.process m (.corporateAction id target (.stockSplit ratio) policy time)).1.run
      events).positionAt key p = none := by
  obtain ⟨split, hsplit, hgone⟩ := gone_of_split hget hmode hopen hclosed hretired hpending
  obtain ⟨state', hget', hgone'⟩ := gone_run hsplit hgone hunsent hids
  unfold positionAt
  rw [hget']
  exact hgone'.closed

end EngineState

/-! ## A late fill across a split -/

section Runs

attribute [local instance] DecimalRange.exact

namespace Sample

def oneForTen : SplitRatio := ⟨1 / 10, by decide +kernel⟩

/-- The order is acknowledged and filled for one of its two. -/
def held : EngineState NoMarket Asset := (engine .hedging).run [sends, reportsOpen, fills]

def heldEquity : InstrumentState NoMarket ExchangeIndex Asset InstrumentIndex :=
  (held.instruments[0]?).get (by decide +kernel)

/-- The venue then cancels the rest of it. -/
def heldAfterCancel : EngineState NoMarket Asset :=
  (engine .hedging).run
    [sends, reportsOpen, fills, reports (.inactive (.cancelled ⟨⟨"v-1"⟩, 2, none⟩))]

/-- The engine once the equity has split one for ten, rounded down. -/
def floored (self : EngineState NoMarket Asset) : EngineState NoMarket Asset :=
  (self.process moment (splits oneForTen .floor)).1

end Sample

theorem Sample.fillsApart_fills : EngineState.FillsApart ⟨"p-1"⟩ Sample.fills := by
  intro account trade hevent hkind
  cases hevent
  cases hkind
  decide

/-- The order still rests at the split, and its next fill opens a position of its own. -/
theorem EngineState.floored_position_stays_closed_resting :
    ((Sample.floored Sample.held).run [Sample.fills]).positionAt 0 ⟨"p-1"⟩ = none := by
  have hget : Sample.held.instruments[0]? = some Sample.heldEquity := (Option.some_get _).symm
  have hnone : Sample.heldEquity.retiredRouting.map.entries = [] := by decide +kernel
  have hpending : Sample.heldEquity.pendingFills = [] := by decide +kernel
  refine EngineState.floored_position_stays_closed hget (by decide +kernel) (by decide +kernel)
    (by decide +kernel) ?_ ?_ ?_ ⟨EngineState.leavesUnsent_of_unnamed ?_, trivial⟩
  · intro orderId hretired
    have hmem := IndexMap.get?_eq_some_iff.1 hretired
    rw [hnone] at hmem
    exact absurd hmem (List.not_mem_nil)
  · rw [hpending]
    exact fun _ hfill => absurd hfill (List.not_mem_nil)
  · intro e he
    cases List.mem_singleton.1 he
    exact Sample.fillsApart_fills
  · exact fun _ hrequest => absurd hrequest (List.not_mem_nil)

/-- The order was cancelled before the split, and its late fill opens the position again. -/
theorem floored_position_reopened :
    (Sample.heldAfterCancel.positionAt 0 ⟨"p-1"⟩).isSome = true ∧
      (Sample.floored Sample.heldAfterCancel).positionAt 0 ⟨"p-1"⟩ = none ∧
      EngineState.LeavesUnsent 0 ⟨"p-1"⟩ (Sample.floored Sample.heldAfterCancel) Sample.fills ∧
      EngineState.FillsApart ⟨"p-1"⟩ Sample.fills ∧
      (((Sample.floored Sample.heldAfterCancel).run [Sample.fills]).positionAt 0
        ⟨"p-1"⟩).isSome = true := by
  refine ⟨by decide +kernel, by decide +kernel, EngineState.leavesUnsent_of_unnamed ?_,
    Sample.fillsApart_fills, by decide +kernel⟩
  exact fun _ hrequest => absurd hrequest (List.not_mem_nil)

end Runs

end Rustrade
