import Rustrade.Engine
import Rustrade.InstrumentState.Run

/-!
# What an event does to one instrument

An event of the engine is, for each instrument, a list of calls on it: those of the requests sent,
of the account and market streams, of an expiry or of a corporate action. `callsOn` reads the list
off the event and the state it comes in, and `getElem?_process` says that the instrument is left as
the run of it. What every call keeps, every run of the engine keeps.
-/

set_option autoImplicit false

namespace Rustrade

/-- A call of the engine on one of its instruments. -/
inductive Call (Data AssetKey : Type)
    [InstrumentDataState Data ExchangeIndex AssetKey InstrumentIndex] where
  | op (op : InstrumentState.Op Data ExchangeIndex AssetKey InstrumentIndex)
  | processAccount (event : AccountEvent ExchangeIndex AssetKey InstrumentIndex)
  | recordFillFeeUnconverted
  | settlePosition (key : InstrumentIndex) (time : DateTime) (price : Decimal)
      (positionId : PositionId)
  | markExpired (hash : HashOrder)
  | commitEquityPosition (key : InstrumentIndex) (time : DateTime)
      (e : PositionId × PreparedSplit)
  | adjustStrike (id : CorporateActionId) (strikePostSplit : Decimal)
  | commitPosition (e : PositionId × PreparedSplit)
  | recordCorporateAction (id : CorporateActionId)

namespace InstrumentState

variable {Data AssetKey : Type} [DecidableEq AssetKey] [DecimalRange]
  [InstrumentDataState Data ExchangeIndex AssetKey InstrumentIndex]

def call (self : InstrumentState Data ExchangeIndex AssetKey InstrumentIndex) :
    Call Data AssetKey → InstrumentState Data ExchangeIndex AssetKey InstrumentIndex
  | .op op => self.step op
  | .processAccount event => self.processAccount event
  | .recordFillFeeUnconverted => { self with tearSheet := self.tearSheet.recordFillFeeUnconverted }
  | .settlePosition key time price positionId => (settlePosition key time price self positionId).1
  | .markExpired hash => self.markExpired hash
  | .commitEquityPosition key time e => (commitEquityPosition key time self.lastPrice self e).1
  | .adjustStrike id strikePostSplit => self.adjustStrike id strikePostSplit
  | .commitPosition e => self.commitPosition self.lastPrice e
  | .recordCorporateAction id =>
      { self with corporateActionsProcessed := insert id self.corporateActionsProcessed }

/-- The state after `calls`. -/
abbrev calls (self : InstrumentState Data ExchangeIndex AssetKey InstrumentIndex)
    (calls : List (Call Data AssetKey)) :
    InstrumentState Data ExchangeIndex AssetKey InstrumentIndex := Transition.run call self calls

end InstrumentState

/-! ## The calls of an event -/

section Calls

variable {Data AssetKey : Type}
  [InstrumentDataState Data ExchangeIndex AssetKey InstrumentIndex]

/-- The record of one request sent. -/
def SentRequest.callOn (timeSent : DateTime) : SentRequest → Call Data AssetKey
  | .open request => .op (.recordInFlightOpen request timeSent)
  | .cancel request => .op (.recordInFlightCancel request timeSent)

/-- The records of the requests sent on the instrument `i`. -/
def requestCalls (timeSent : DateTime) (i : InstrumentIndex) (requests : List SentRequest) :
    List (Call Data AssetKey) :=
  (requests.filter fun request => request.key.instrument = i).map fun request =>
    request.callOn timeSent

/-- The calls of one instrument's account snapshot. -/
def snapshotCalls (hash : HashOrder)
    (snapshot : InstrumentAccountSnapshot ExchangeIndex InstrumentIndex) :
    List (Call Data AssetKey) :=
  let listed := snapshot.orders.map fun order => order.key.cid
  (snapshot.orders.map (InstrumentState.Op.updateFromOrderSnapshot hash) ++
    [InstrumentState.Op.retireUnlisted hash listed snapshot.ordersComplete]).map Call.op

variable [DecidableEq AssetKey] [DecimalRange]

/-- The calls of an account event on the instrument `i`. -/
def accountCalls (hash : HashOrder) (self : EngineState Data AssetKey)
    (event : AccountEvent ExchangeIndex AssetKey InstrumentIndex) (i : InstrumentIndex) :
    List (Call Data AssetKey) :=
  match event.kind with
  | .snapshot instruments =>
      instruments.flatMap fun snapshot =>
        if snapshot.instrument = i then snapshotCalls hash snapshot ++ [.processAccount event]
        else []
  | .orderSnapshot order =>
      if order.key.instrument = i then
        [.op (.updateFromOrderSnapshot hash order), .processAccount event]
      else []
  | .orderCancelled response =>
      if response.key.instrument = i then
        [.op (.updateFromCancelResponse hash response), .processAccount event]
      else []
  | .trade trade =>
      if trade.instrument = i then
        let valued := self.instruments.valueThirdAssetFee trade
        (if (valued.bind ValuedFee.intoConversion).any fun conversion =>
            conversion.outcome.feesQuote.isNone then [.recordFillFeeUnconverted] else []) ++
          [.processAccount event, .op (.updateFromTrade hash (EngineState.valuedTrade trade valued))]
      else []
  | .cashFlow flow =>
      if flow.instrument = some i then [.op (.updateFromCashFlow flow), .processAccount event]
      else []
  | .balanceSnapshot | .balanceStreamUpdate | .instrumentBalanceUpdate | .instrumentBalanceSnapshot
  | .streamTerminated | .venueCheckpoint | .fillRecoveryGaveUp | .tradeAmended | .reinitFailed
  | .notice | .marginDebt => []

/-- The calls that settle the expired instrument at `key`, of state `state`. -/
def settleCalls (hash : HashOrder) (time : DateTime) (self : EngineState Data AssetKey)
    (key : InstrumentIndex) (settlement : ExpirySettlement AssetKey)
    (state : InstrumentState Data ExchangeIndex AssetKey InstrumentIndex) :
    List (Call Data AssetKey) :=
  if state.expiryHandling = .venue ∨ state.position.positions.isEmpty then [.markExpired hash]
  else
    match self.instruments.referencePrice key settlement with
    | .error _ | .ok none => []
    | .ok (some reference) =>
        state.position.positions.keys.map (.settlePosition key time (settlement.price reference)) ++
          [.markExpired hash]

/-- The calls of an expiry of the instrument at `key` on the instrument `i`. -/
def expiryCalls (m : Moment) (self : EngineState Data AssetKey) (key i : InstrumentIndex) :
    List (Call Data AssetKey) :=
  match self.instruments[key]? with
  | none => []
  | some state =>
      match ExpirySettlement.of state.instrument with
      | none => []
      | some (_, settlement) =>
          if state.expirationProcessed then []
          else
            let requests := ((m.hash.arrange state.orders.tracked.entries).filterMap fun e =>
              (e.2.toRequestCancel).filter m.sends).map SentRequest.cancel
            let sent := self.recordAllInFlight m.time requests
            requestCalls m.time i requests ++
              match sent.instruments[key]? with
              | none => []
              | some state =>
                  if key = i then settleCalls m.hash m.timeAdvanced sent key settlement state
                  else []

/-- The calls that commit what is planned for the options on the instrument `i`. -/
def optionCalls (id : CorporateActionId) (plans : List OptionSplitPlan) (i : InstrumentIndex) :
    List (Call Data AssetKey) :=
  plans.flatMap fun plan =>
    if plan.key = i then .adjustStrike id plan.strikePostSplit :: plan.positions.map .commitPosition
    else []

/-- The calls of a corporate action on the instrument at `key` on the instrument `i`. -/
def corporateActionCalls (time : DateTime) (self : EngineState Data AssetKey)
    (id : CorporateActionId) (key : InstrumentIndex) (kind : CorporateActionKind)
    (policy : SplitRoundingPolicy) (i : InstrumentIndex) : List (Call Data AssetKey) :=
  match self.instruments[key]? with
  | none => []
  | some state =>
      if id ∈ state.corporateActionsProcessed then []
      else
        match self.instruments.splitEligibleTarget key, kind with
        | none, _ => []
        | some target, .stockSplit ratio =>
            match target.prepareCorporateActionSplit id ratio policy
              (optionSplitAdjustInPlace kind) with
            | .error _ => []
            | .ok plan =>
                (if key = i then plan.equityPositions.map (.commitEquityPosition key time) else []) ++
                  (if optionSplitAdjustInPlace kind then optionCalls id plan.options i else []) ++
                  if key = i then [.recordCorporateAction id] else []

/-- The calls of an event on the instrument `i`, before any algorithm orders. -/
def eventCalls (m : Moment) (self : EngineState Data AssetKey) (event : EngineEvent Data AssetKey)
    (i : InstrumentIndex) : List (Call Data AssetKey) :=
  match event with
  | .shutdown => []
  | .command => requestCalls m.time i m.actioned
  | .tradingStateUpdate state =>
      if self.trading = .enabled ∧ state = .disabled then requestCalls m.time i m.actioned else []
  | .account (.reconnecting exchange) =>
      match self.connectivity.idxOf? exchange, self.instruments[i]? with
      | some index, some state =>
          (if state.instrument.exchange = index then [.op .beginAccountResync] else []) ++
            requestCalls m.time i m.actioned
      | _, _ => []
  | .account (.item account) => accountCalls m.hash self account i
  | .market (.reconnecting exchange) =>
      if exchange ∈ self.connectivity then requestCalls m.time i m.actioned else []
  | .market (.item market) =>
      if market.exchange ∈ self.connectivity ∧ market.instrument = i then
        [.op (.updateFromMarket market)]
      else []
  | .contractExpiry key => expiryCalls m self key i
  | .corporateAction id instrument kind policy _ =>
      corporateActionCalls m.time self id instrument kind policy i

/-- The calls of an event on the instrument `i`. -/
def callsOn (m : Moment) (self : EngineState Data AssetKey) (event : EngineEvent Data AssetKey)
    (i : InstrumentIndex) : List (Call Data AssetKey) :=
  let event := self.attributed m event
  let processed := self.processEvent m event
  eventCalls m self event i ++
    if processed.2.2 ∧ processed.1.trading = .enabled then requestCalls m.time i m.algoOrders else []

/-! ## What can be among them -/

section Members

variable {m : Moment} {self : EngineState Data AssetKey} {i : InstrumentIndex}
  {P : Call Data AssetKey → Prop}

omit [DecidableEq AssetKey] [DecimalRange] in
theorem forall_requestCalls {timeSent : DateTime} {requests : List SentRequest}
    (sent : ∀ request ∈ requests, P (request.callOn timeSent)) :
    ∀ c ∈ requestCalls timeSent i requests, P c := by
  intro c hc
  obtain ⟨request, hrequest, rfl⟩ := List.mem_map.1 hc
  exact sent request (List.mem_of_mem_filter hrequest)

/-- An account event calls for its reports and its fill. -/
theorem forall_accountCalls {hash : HashOrder}
    {event : AccountEvent ExchangeIndex AssetKey InstrumentIndex}
    (report : ∀ order, P (.op (.updateFromOrderSnapshot hash order)))
    (unlisted : ∀ listed complete, P (.op (.retireUnlisted hash listed complete)))
    (response : ∀ response, P (.op (.updateFromCancelResponse hash response)))
    (trade : ∀ printed valued, event.kind = .trade printed →
      P (.op (.updateFromTrade hash (EngineState.valuedTrade printed valued))))
    (cashFlow : ∀ flow, P (.op (.updateFromCashFlow flow)))
    (unconverted : P .recordFillFeeUnconverted) (processed : P (.processAccount event)) :
    ∀ c ∈ accountCalls hash self event i, P c := by
  intro c hc
  unfold accountCalls at hc
  cases hkind : event.kind with
  | snapshot instruments =>
    rw [hkind] at hc
    obtain ⟨snapshot, -, hc⟩ := List.mem_flatMap.1 hc
    split at hc
    · rcases List.mem_append.1 hc with hc | hc
      · obtain ⟨op, hop, rfl⟩ := List.mem_map.1 hc
        rcases List.mem_append.1 hop with hop | hop
        · obtain ⟨order, -, rfl⟩ := List.mem_map.1 hop
          exact report order
        · cases List.mem_singleton.1 hop
          exact unlisted _ _
      · cases List.mem_singleton.1 hc
        exact processed
    · exact absurd hc (List.not_mem_nil)
  | orderSnapshot order =>
    rw [hkind] at hc
    simp only at hc
    split at hc
    · simp only [List.mem_cons, List.not_mem_nil, or_false] at hc
      rcases hc with rfl | rfl
      · exact report order
      · exact processed
    · exact absurd hc (List.not_mem_nil)
  | orderCancelled answer =>
    rw [hkind] at hc
    simp only at hc
    split at hc
    · simp only [List.mem_cons, List.not_mem_nil, or_false] at hc
      rcases hc with rfl | rfl
      · exact response answer
      · exact processed
    · exact absurd hc (List.not_mem_nil)
  | trade printed =>
    rw [hkind] at hc
    simp only at hc
    split at hc
    · rcases List.mem_append.1 hc with hc | hc
      · split at hc
        · cases List.mem_singleton.1 hc
          exact unconverted
        · exact absurd hc (List.not_mem_nil)
      · simp only [List.mem_cons, List.not_mem_nil, or_false] at hc
        rcases hc with rfl | rfl
        · exact processed
        · exact trade printed _ hkind
    · exact absurd hc (List.not_mem_nil)
  | cashFlow flow =>
    rw [hkind] at hc
    simp only at hc
    split at hc
    · simp only [List.mem_cons, List.not_mem_nil, or_false] at hc
      rcases hc with rfl | rfl
      · exact cashFlow flow
      · exact processed
    · exact absurd hc (List.not_mem_nil)
  | _ => rw [hkind] at hc; exact absurd hc (List.not_mem_nil)

omit [DecimalRange] in
/-- An expiry calls for cancels, for the close of each position, and for its mark. -/
theorem forall_expiryCalls {key : InstrumentIndex}
    (cancel : ∀ request timeSent, P (.op (.recordInFlightCancel request timeSent)))
    (settle : key = i → ∀ time price positionId, P (.settlePosition key time price positionId))
    (expired : P (.markExpired m.hash)) : ∀ c ∈ expiryCalls m self key i, P c := by
  intro c hc
  unfold expiryCalls at hc
  split at hc
  · exact absurd hc (List.not_mem_nil)
  · split at hc
    · exact absurd hc (List.not_mem_nil)
    · split at hc
      · exact absurd hc (List.not_mem_nil)
      · simp only at hc
        rcases List.mem_append.1 hc with hc | hc
        · refine forall_requestCalls (fun request hrequest => ?_) c hc
          obtain ⟨cancelled, -, rfl⟩ := List.mem_map.1 hrequest
          exact cancel cancelled _
        · split at hc
          · exact absurd hc (List.not_mem_nil)
          · split at hc
            · rename_i hkey
              unfold settleCalls at hc
              split at hc
              · cases List.mem_singleton.1 hc
                exact expired
              · split at hc
                · exact absurd hc (List.not_mem_nil)
                · exact absurd hc (List.not_mem_nil)
                · rcases List.mem_append.1 hc with hc | hc
                  · obtain ⟨positionId, -, rfl⟩ := List.mem_map.1 hc
                    exact settle hkey _ _ positionId
                  · cases List.mem_singleton.1 hc
                    exact expired
            · exact absurd hc (List.not_mem_nil)

/-- Any other event calls for the requests sent on it, and an outage or a print for its own. -/
theorem forall_callsOn {event : EngineEvent Data AssetKey}
    (sent : ∀ request ∈ m.actioned ++ m.algoOrders, P (request.callOn m.time))
    (resync : P (.op .beginAccountResync))
    (account : ∀ account, self.attributed m event = .account (.item account) →
      ∀ c ∈ accountCalls m.hash self account i, P c)
    (market : ∀ market, P (.op (.updateFromMarket market)))
    (expiry : ∀ key, event = .contractExpiry key → ∀ c ∈ expiryCalls m self key i, P c)
    (corporateAction : ∀ id key kind policy time,
      event = .corporateAction id key kind policy time →
        ∀ c ∈ corporateActionCalls m.time self id key kind policy i, P c) :
    ∀ c ∈ callsOn m self event i, P c := by
  have hactioned : ∀ c ∈ requestCalls m.time i m.actioned, P c :=
    forall_requestCalls fun request h => sent request (List.mem_append_left _ h)
  intro c hc
  unfold callsOn at hc
  rcases List.mem_append.1 hc with hc | hc
  · cases event with
    | shutdown => exact absurd hc (List.not_mem_nil)
    | command => exact hactioned c hc
    | tradingStateUpdate state =>
      simp only [EngineState.attributed, eventCalls] at hc
      split at hc
      · exact hactioned c hc
      · exact absurd hc (List.not_mem_nil)
    | account stream =>
      cases stream with
      | item event => exact account _ rfl c hc
      | reconnecting exchange =>
        simp only [EngineState.attributed, eventCalls] at hc
        split at hc
        · rcases List.mem_append.1 hc with hc | hc
          · split at hc
            · cases List.mem_singleton.1 hc
              exact resync
            · exact absurd hc (List.not_mem_nil)
          · exact hactioned c hc
        · exact absurd hc (List.not_mem_nil)
    | market stream =>
      cases stream with
      | item print =>
        simp only [EngineState.attributed, eventCalls] at hc
        split at hc
        · cases List.mem_singleton.1 hc
          exact market print
        · exact absurd hc (List.not_mem_nil)
      | reconnecting exchange =>
        simp only [EngineState.attributed, eventCalls] at hc
        split at hc
        · exact hactioned c hc
        · exact absurd hc (List.not_mem_nil)
    | contractExpiry key => exact expiry key rfl c hc
    | corporateAction id key kind policy time =>
      exact corporateAction id key kind policy time rfl c hc
  · split at hc
    · exact forall_requestCalls (fun request h => sent request (List.mem_append_right _ h)) c hc
    · exact absurd hc (List.not_mem_nil)

end Members

end Calls

namespace InstrumentState

variable {Data AssetKey : Type} [DecidableEq AssetKey] [DecimalRange]
  [InstrumentDataState Data ExchangeIndex AssetKey InstrumentIndex]
  {s : InstrumentState Data ExchangeIndex AssetKey InstrumentIndex}

/-- Calls of the instrument's own, one after another. -/
theorem calls_map_op (ops : List (Op Data ExchangeIndex AssetKey InstrumentIndex)) :
    s.calls (ops.map Call.op) = s.run ops := by
  induction ops generalizing s with
  | nil => rfl
  | cons op ops ih => exact ih

theorem calls_snapshotCalls {hash : HashOrder}
    {snapshot : InstrumentAccountSnapshot ExchangeIndex InstrumentIndex} :
    s.calls (snapshotCalls hash snapshot) = s.updateFromAccountSnapshot hash snapshot := by
  rw [snapshotCalls, calls_map_op, updateFromAccountSnapshot_eq_run]

theorem calls_settlePositions {key : InstrumentIndex} {time : DateTime} {price : Decimal}
    (positionIds : List PositionId) :
    s.calls (positionIds.map (.settlePosition key time price)) =
      (settlePositions key time price s positionIds).1 := by
  induction positionIds generalizing s with
  | nil => rfl
  | cons positionId positionIds ih => exact ih

omit [DecidableEq AssetKey] [InstrumentDataState Data ExchangeIndex AssetKey InstrumentIndex] in
theorem data_commitEquityPosition {key : InstrumentIndex} {time : DateTime}
    {lastPrice : Option Decimal} {e : PositionId × PreparedSplit} :
    (commitEquityPosition key time lastPrice s e).1.data = s.data := by
  unfold commitEquityPosition
  split
  · rfl
  · simp only
    split
    · unfold endSplitPosition
      split <;> rfl
    · rfl

theorem calls_commitEquityPositions {key : InstrumentIndex} {time : DateTime}
    {lastPrice : Option Decimal} (hprice : s.lastPrice = lastPrice)
    (positions : List (PositionId × PreparedSplit)) :
    s.calls (positions.map (.commitEquityPosition key time)) =
      (commitEquityPositions key time lastPrice s positions).1 := by
  induction positions generalizing s with
  | nil => rfl
  | cons e positions ih =>
    have hdata : (commitEquityPosition key time lastPrice s e).1.lastPrice = lastPrice := by
      rw [← hprice]
      exact congrArg InstrumentDataState.price data_commitEquityPosition
    rw [List.map_cons, calls, Transition.run_cons]
    change (call s (.commitEquityPosition key time e)).calls _ = _
    have hcall : call s (.commitEquityPosition key time e) =
        (commitEquityPosition key time lastPrice s e).1 := by rw [← hprice]; rfl
    rw [hcall]
    exact ih hdata

theorem calls_commitPositions {lastPrice : Option Decimal} (hprice : s.lastPrice = lastPrice)
    (positions : List (PositionId × PreparedSplit)) :
    s.calls (positions.map .commitPosition) =
      positions.foldl (fun self e => self.commitPosition lastPrice e) s := by
  induction positions generalizing s with
  | nil => rfl
  | cons e positions ih =>
    have hcall : call s (.commitPosition e) = s.commitPosition lastPrice e := by rw [← hprice]; rfl
    rw [List.map_cons, calls, Transition.run_cons, List.foldl_cons, hcall]
    exact ih hprice

theorem calls_commitOptionSplit {hash : HashOrder} {id : CorporateActionId} {ratio : SplitRatio}
    {plan : OptionSplitPlan} :
    s.calls (.adjustStrike id plan.strikePostSplit :: plan.positions.map .commitPosition) =
      (s.commitOptionSplit hash id ratio plan).1 :=
  calls_commitPositions rfl plan.positions

end InstrumentState

namespace EngineState

variable {Data AssetKey : Type} {self : EngineState Data AssetKey} {i : InstrumentIndex}

/-- Changing one instrument, seen from another or from itself. -/
theorem getElem?_modify_calls [DecidableEq AssetKey] [DecimalRange]
    [InstrumentDataState Data ExchangeIndex AssetKey InstrumentIndex] {key : InstrumentIndex}
    {f : InstrumentState Data ExchangeIndex AssetKey InstrumentIndex →
      InstrumentState Data ExchangeIndex AssetKey InstrumentIndex}
    {calls : List (Call Data AssetKey)}
    (h : ∀ state, self.instruments[key]? = some state → f state = state.calls calls) :
    (self.modify key f).instruments[i]? =
      (self.instruments[i]?).map fun state => state.calls (if key = i then calls else []) := by
  rw [getElem?_modify]
  cases hget : self.instruments[i]? with
  | none => rfl
  | some state =>
    by_cases hkey : key = i
    · subst hkey
      simp only [Option.map_some, if_pos]
      rw [h state hget]
    · simp only [Option.map_some, if_neg hkey]
      rfl

/-- An instrument the engine does not know is left by any calls at all. -/
theorem getElem?_of_unknown [DecidableEq AssetKey] [DecimalRange]
    [InstrumentDataState Data ExchangeIndex AssetKey InstrumentIndex] {key : InstrumentIndex}
    {calls : List (Call Data AssetKey)} (h : self.instruments[key]? = none) :
    self.instruments[i]? =
      (self.instruments[i]?).map fun state => state.calls (if key = i then calls else []) := by
  by_cases hkey : key = i
  · rw [← hkey, h, Option.map_none]
  · simp [if_neg hkey]

theorem instrument_valuedTrade {trade : Trade AssetKey InstrumentIndex}
    {valued : Option (ValuedFee AssetKey)} :
    (valuedTrade trade valued).instrument = trade.instrument := by
  cases valued <;> rfl

section Sent

variable [InstrumentDataState Data ExchangeIndex AssetKey InstrumentIndex] [DecidableEq AssetKey]
  [DecimalRange]

theorem getElem?_recordAllInFlight {timeSent : DateTime} (requests : List SentRequest) :
    (self.recordAllInFlight timeSent requests).instruments[i]? =
      (self.instruments[i]?).map fun state => state.calls (requestCalls timeSent i requests) := by
  induction requests generalizing self with
  | nil => simp [recordAllInFlight, requestCalls]
  | cons request requests ih =>
    have hfirst : (self.recordInFlight timeSent request).instruments[i]? =
        (self.instruments[i]?).map fun state =>
          state.calls (if request.key.instrument = i then [request.callOn timeSent] else []) := by
      refine getElem?_modify_calls fun state _ => ?_
      cases request <;> rfl
    change ((self.recordInFlight timeSent request).recordAllInFlight timeSent
      requests).instruments[i]? = _
    rw [ih, hfirst, Option.map_map]
    congr 1
    funext state
    by_cases hkey : request.key.instrument = i
    · rw [if_pos hkey, requestCalls, requestCalls, List.filter_cons_of_pos (by simpa using hkey)]
      rfl
    · rw [if_neg hkey, requestCalls, requestCalls, List.filter_cons_of_neg (by simpa using hkey)]
      rfl

theorem getElem?_snapshots {hash : HashOrder}
    {event : AccountEvent ExchangeIndex AssetKey InstrumentIndex}
    (snapshots : List (InstrumentAccountSnapshot ExchangeIndex InstrumentIndex)) :
    (snapshots.foldl (fun self snapshot => self.modify snapshot.instrument fun state =>
        (state.updateFromAccountSnapshot hash snapshot).processAccount event)
      self).instruments[i]? =
      (self.instruments[i]?).map fun state => state.calls (snapshots.flatMap fun snapshot =>
        if snapshot.instrument = i then snapshotCalls hash snapshot ++ [.processAccount event]
        else []) := by
  induction snapshots generalizing self with
  | nil => simp
  | cons snapshot snapshots ih =>
    have hfirst : (self.modify snapshot.instrument fun state =>
        (state.updateFromAccountSnapshot hash snapshot).processAccount event).instruments[i]? =
        (self.instruments[i]?).map fun state => state.calls (if snapshot.instrument = i then
          snapshotCalls hash snapshot ++ [.processAccount event] else []) := by
      refine getElem?_modify_calls fun state _ => ?_
      rw [InstrumentState.calls, Transition.run_concat]
      change _ = (state.calls (snapshotCalls hash snapshot)).processAccount event
      rw [InstrumentState.calls_snapshotCalls]
    rw [List.foldl_cons, ih, hfirst, Option.map_map]
    congr 1
    funext state
    rw [List.flatMap_cons, InstrumentState.calls, Transition.run_append]
    rfl

theorem getElem?_updateFromAccount {hash : HashOrder}
    (event : AccountEvent ExchangeIndex AssetKey InstrumentIndex) :
    (self.updateFromAccount hash event).1.instruments[i]? =
      (self.instruments[i]?).map fun state => state.calls (accountCalls hash self event i) := by
  have hsame : self.instruments[i]? =
      (self.instruments[i]?).map fun state => state.calls ([] : List (Call Data AssetKey)) := by
    simp
  unfold updateFromAccount replayAccount accountCalls
  cases hkind : event.kind with
  | snapshot snapshots => exact getElem?_snapshots snapshots
  | orderSnapshot order =>
    simp only
    cases hget : self.instruments[order.key.instrument]? with
    | none => exact getElem?_of_unknown hget
    | some state =>
      refine getElem?_modify_calls fun state' hget' => ?_
      obtain rfl : state = state' := by rw [hget] at hget'; exact Option.some.inj hget'
      rfl
  | orderCancelled response => exact getElem?_modify_calls fun state _ => rfl
  | trade trade =>
    simp only
    have hinstrument : (valuedTrade trade (self.instruments.valueThirdAssetFee trade)).instrument =
        trade.instrument := instrument_valuedTrade
    rw [hinstrument]
    cases hget : self.instruments[trade.instrument]? with
    | none => exact getElem?_of_unknown hget
    | some state =>
      refine getElem?_modify_calls fun state' hget' => ?_
      obtain rfl : state = state' := by rw [hget] at hget'; exact Option.some.inj hget'
      split <;> rfl
  | cashFlow flow =>
    simp only
    cases hflow : flow.instrument with
    | none => exact hsame
    | some key =>
      simp only [Option.some.injEq]
      exact getElem?_modify_calls fun state _ => rfl
  | _ => exact hsame

theorem getElem?_updateFromAccountReconnecting {exchange : ExchangeId} {index : ExchangeIndex}
    (h : self.connectivity.idxOf? exchange = some index) :
    (self.updateFromAccountReconnecting exchange).instruments[i]? =
      (self.instruments[i]?).map fun state => state.calls
        (if state.instrument.exchange = index then [Call.op .beginAccountResync] else []) := by
  unfold updateFromAccountReconnecting
  rw [h]
  simp only [List.getElem?_map]
  congr 1
  funext state
  by_cases hexchange : state.instrument.exchange = index
  · rw [if_pos hexchange, if_pos hexchange]; rfl
  · rw [if_neg hexchange, if_neg hexchange]; rfl

theorem getElem?_updateFromMarket
    {market : MarketEvent InstrumentIndex (InstrumentDataState.MarketEventKind Data)} :
    (self.updateFromMarket market).instruments[i]? =
      (self.instruments[i]?).map fun state => state.calls
        (if market.exchange ∈ self.connectivity ∧ market.instrument = i then
          [Call.op (.updateFromMarket market)] else []) := by
  unfold updateFromMarket
  by_cases hknown : market.exchange ∈ self.connectivity
  · simp only [hknown, true_and]
    exact getElem?_modify_calls fun state _ => rfl
  · simp [hknown]

/-! ## Expiry -/

theorem getElem?_settleExpiry {hash : HashOrder} {time : DateTime} {key : InstrumentIndex}
    {settlement : ExpirySettlement AssetKey}
    {state : InstrumentState Data ExchangeIndex AssetKey InstrumentIndex}
    (hget : self.instruments[key]? = some state) :
    (self.settleExpiry hash time key settlement state).1.instruments[i]? =
      (self.instruments[i]?).map fun held => held.calls
        (if key = i then settleCalls hash time self key settlement state else []) := by
  have hsame : self.instruments[i]? = (self.instruments[i]?).map fun held => held.calls
      (if key = i then ([] : List (Call Data AssetKey)) else []) := by simp
  unfold settleExpiry settleCalls
  split
  · exact getElem?_modify_calls fun _ _ => rfl
  · cases hprice : self.instruments.referencePrice key settlement with
    | error reason => exact hsame
    | ok reference =>
      cases reference with
      | none => exact hsame
      | some reference =>
        refine getElem?_modify_calls fun state' hget' => ?_
        obtain rfl : state = state' := by rw [hget] at hget'; exact Option.some.inj hget'
        rw [InstrumentState.calls, Transition.run_concat, ← InstrumentState.calls_settlePositions]
        rfl

theorem getElem?_processContractExpiry {m : Moment} {key : InstrumentIndex} :
    (self.processContractExpiry m.hash m.time m.timeAdvanced m.sends key).1.instruments[i]? =
      (self.instruments[i]?).map fun state => state.calls (expiryCalls m self key i) := by
  have hsame : self.instruments[i]? =
      (self.instruments[i]?).map fun state => state.calls ([] : List (Call Data AssetKey)) := by
    simp
  unfold processContractExpiry expiryCalls
  cases hget : self.instruments[key]? with
  | none => exact hsame
  | some state =>
    simp only
    cases hof : ExpirySettlement.of state.instrument with
    | none => exact hsame
    | some settlement =>
      simp only
      split
      · exact hsame
      · generalize ((m.hash.arrange state.orders.tracked.entries).filterMap fun e =>
          (e.2.toRequestCancel).filter m.sends).map SentRequest.cancel = requests
        have hsent : (self.recordAllInFlight m.time requests).instruments[i]? =
            (self.instruments[i]?).map fun state =>
              state.calls (requestCalls m.time i requests) := getElem?_recordAllInFlight requests
        cases hafter : (self.recordAllInFlight m.time requests).instruments[key]? with
        | none => simpa using hsent
        | some state' =>
          simp only
          rw [getElem?_settleExpiry hafter, hsent, Option.map_map]
          congr 1
          funext held
          exact Transition.run_append.symm

/-! ## Corporate actions -/

theorem getElem?_commitStandardOptionSplit {hash : HashOrder} {id : CorporateActionId}
    {ratio : SplitRatio} (plans : List OptionSplitPlan) :
    (self.commitStandardOptionSplit hash id ratio plans).1.instruments[i]? =
      (self.instruments[i]?).map fun state => state.calls (optionCalls id plans i) := by
  induction plans generalizing self with
  | nil => simp [commitStandardOptionSplit, optionCalls]
  | cons plan plans ih =>
    have hcons : (optionCalls id (plan :: plans) i : List (Call Data AssetKey)) =
        (if plan.key = i then
          .adjustStrike id plan.strikePostSplit :: plan.positions.map .commitPosition else []) ++
          optionCalls id plans i := List.flatMap_cons
    rw [commitStandardOptionSplit, hcons]
    cases hget : self.instruments[plan.key]? with
    | none =>
      simp only
      rw [ih]
      by_cases hkey : plan.key = i
      · rw [← hkey, hget]; rfl
      · rw [if_neg hkey]; rfl
    | some state =>
      simp only
      have hfirst : (self.modify plan.key fun _ =>
          (state.commitOptionSplit hash id ratio plan).1).instruments[i]? =
          (self.instruments[i]?).map fun state => state.calls (if plan.key = i then
            .adjustStrike id plan.strikePostSplit :: plan.positions.map .commitPosition
            else []) := by
        refine getElem?_modify_calls fun state' hget' => ?_
        obtain rfl : state = state' := by rw [hget] at hget'; exact Option.some.inj hget'
        exact InstrumentState.calls_commitOptionSplit.symm
      rw [ih, hfirst, Option.map_map]
      congr 1
      funext held
      exact Transition.run_append.symm

theorem getElem?_recordCorporateAction {id : CorporateActionId}
    {key : InstrumentIndex} :
    (self.modify key fun state => { state with
      corporateActionsProcessed := insert id state.corporateActionsProcessed }).instruments[i]? =
      (self.instruments[i]?).map fun state => state.calls
        (if key = i then [Call.recordCorporateAction id] else []) :=
  getElem?_modify_calls fun _ _ => rfl

theorem getElem?_commitCorporateAction {hash : HashOrder} {time : DateTime}
    {id : CorporateActionId} {key : InstrumentIndex} {kind : CorporateActionKind}
    {ratio : SplitRatio} {plan : SplitPlan}
    {target : InstrumentState Data ExchangeIndex AssetKey InstrumentIndex}
    (hget : self.instruments[key]? = some target) :
    (self.commitCorporateAction hash time id key kind ratio target plan).1.instruments[i]? =
      (self.instruments[i]?).map fun state => state.calls
        ((if key = i then plan.equityPositions.map (.commitEquityPosition key time) else []) ++
          (if optionSplitAdjustInPlace kind then optionCalls id plan.options i else []) ++
          if key = i then [.recordCorporateAction id] else []) := by
  have hequity : (self.modify key fun _ => (InstrumentState.commitEquityPositions key time
      target.lastPrice target plan.equityPositions).1).instruments[i]? =
      (self.instruments[i]?).map fun state => state.calls (if key = i then
        plan.equityPositions.map (.commitEquityPosition key time) else []) := by
    refine getElem?_modify_calls fun state hget' => ?_
    obtain rfl : target = state := by rw [hget] at hget'; exact Option.some.inj hget'
    exact (InstrumentState.calls_commitEquityPositions rfl plan.equityPositions).symm
  unfold commitCorporateAction
  simp only
  -- The last call records the action on the target; before it, the options are as committed.
  rw [getElem?_recordCorporateAction]
  by_cases hadjust : optionSplitAdjustInPlace kind = true
  · rw [if_pos hadjust, if_pos hadjust, getElem?_commitStandardOptionSplit, hequity,
      Option.map_map, Option.map_map]
    congr 1
    funext state
    rw [InstrumentState.calls, Transition.run_append, Transition.run_append]
    rfl
  · rw [if_neg hadjust, if_neg hadjust, hequity, Option.map_map, List.append_nil]
    congr 1
    funext state
    exact Transition.run_append.symm

theorem getElem?_processCorporateAction {hash : HashOrder} {time : DateTime}
    {id : CorporateActionId} {key : InstrumentIndex} {kind : CorporateActionKind}
    {policy : SplitRoundingPolicy} :
    (self.processCorporateAction hash time id key kind policy).1.instruments[i]? =
      (self.instruments[i]?).map fun state =>
        state.calls (corporateActionCalls time self id key kind policy i) := by
  have hsame : self.instruments[i]? =
      (self.instruments[i]?).map fun state => state.calls ([] : List (Call Data AssetKey)) := by
    simp
  unfold processCorporateAction corporateActionCalls
  cases hget : self.instruments[key]? with
  | none => exact hsame
  | some state =>
    simp only
    by_cases hid : id ∈ state.corporateActionsProcessed
    · rw [if_pos hid, if_pos hid]; exact hsame
    rw [if_neg hid, if_neg hid]
    cases htarget : self.instruments.splitEligibleTarget key with
    | none => exact hsame
    | some target =>
      obtain ⟨ratio⟩ := kind
      simp only
      cases hplan : target.prepareCorporateActionSplit id ratio policy
          (optionSplitAdjustInPlace (.stockSplit ratio)) with
      | error reason => exact hsame
      | ok plan =>
        exact getElem?_commitCorporateAction hget

/-! ## Every event -/

theorem getElem?_processEvent {m : Moment} (event : EngineEvent Data AssetKey) :
    (self.processEvent m event).1.instruments[i]? =
      (self.instruments[i]?).map fun state => state.calls (eventCalls m self event i) := by
  have hsame : self.instruments[i]? =
      (self.instruments[i]?).map fun state => state.calls ([] : List (Call Data AssetKey)) := by
    simp
  cases event with
  | shutdown => exact hsame
  | command => exact getElem?_recordAllInFlight m.actioned
  | tradingStateUpdate state =>
    simp only [processEvent, eventCalls]
    split
    · exact getElem?_recordAllInFlight m.actioned
    · exact hsame
  | account stream =>
    cases stream with
    | item account => exact getElem?_updateFromAccount account
    | reconnecting exchange =>
      simp only [processEvent, eventCalls]
      cases hindex : self.connectivity.idxOf? exchange with
      | none =>
        rw [if_neg (List.idxOf?_eq_none_iff.1 hindex)]
        exact hsame
      | some index =>
        have hknown : exchange ∈ self.connectivity := by
          by_contra hnot
          rw [List.idxOf?_eq_none_iff.2 hnot] at hindex
          cases hindex
        rw [if_pos hknown]
        simp only
        rw [getElem?_recordAllInFlight, getElem?_updateFromAccountReconnecting hindex,
          Option.map_map]
        cases hget : self.instruments[i]? with
        | none => rfl
        | some state => exact congrArg some Transition.run_append.symm
  | market stream =>
    cases stream with
    | item market => exact getElem?_updateFromMarket
    | reconnecting exchange =>
      simp only [processEvent, eventCalls]
      split
      · exact getElem?_recordAllInFlight m.actioned
      · exact hsame
  | contractExpiry key => exact getElem?_processContractExpiry
  | corporateAction id instrument kind policy effectiveTime =>
    exact getElem?_processCorporateAction

/-- **An event leaves an instrument as its calls on it do.** -/
theorem getElem?_process {m : Moment} {event : EngineEvent Data AssetKey} :
    (self.process m event).1.instruments[i]? =
      (self.instruments[i]?).map fun state => state.calls (callsOn m self event i) := by
  unfold process callsOn
  simp only
  split
  · rw [getElem?_recordAllInFlight, getElem?_processEvent, Option.map_map]
    congr 1
    funext state
    exact Transition.run_append.symm
  · rw [List.append_nil]
    exact getElem?_processEvent _

/-! ## Runs -/

/-- The state after `events`, each taken at its moment. -/
abbrev run (self : EngineState Data AssetKey) (events : List (Moment × EngineEvent Data AssetKey)) :
    EngineState Data AssetKey :=
  Transition.run (fun self e => (self.process e.1 e.2).1) self events

end Sent

end EngineState

/-! ## A small engine -/

namespace Sample

inductive Asset where
  | acme
  | usd
  deriving DecidableEq

/-- Data that follows nothing and prices nothing. -/
inductive NoMarket where
  | noMarket
  deriving DecidableEq

instance : InstrumentDataState NoMarket ExchangeIndex Asset InstrumentIndex where
  MarketEventKind := Unit
  processMarket data _ := data
  processAccount data _ := data
  recordInFlightOpen data _ _ := data
  recordInFlightCancel data _ _ := data
  price _ := none

def equity (mode : OmsMode) : InstrumentState NoMarket ExchangeIndex Asset InstrumentIndex :=
  .init ⟨0, ⟨.acme, .usd⟩, .spot, none⟩ 0 (.new mode) .noMarket

/-- A call on it, struck at 100. -/
def call : InstrumentState NoMarket ExchangeIndex Asset InstrumentIndex :=
  .init ⟨0, ⟨.acme, .usd⟩, .option ⟨100, .usd, .call, .american, 9, 100⟩, none⟩ 0 (.new .netting)
    .noMarket

/-- The equity and the call on it. -/
def engine (mode : OmsMode) : EngineState NoMarket Asset :=
  ⟨.disabled, [⟨"venue"⟩], [equity mode, call]⟩

/-- A moment at which nothing is sent. -/
def moment : Moment := ⟨.insertion, 1, 1, none, fun _ => true, [], []⟩

def key : OrderKey ExchangeIndex InstrumentIndex := ⟨0, 0, ⟨"trend"⟩, ⟨"c-1"⟩⟩

/-- An order for two of the equity is sent on a command, with the position `p-1`. -/
def sends : Moment × EngineEvent NoMarket Asset :=
  ({ moment with actioned := [.open ⟨key,
      ⟨.buy, some 100, 2, .limit, .goodUntilCancelled false, some ⟨"p-1"⟩, .no⟩⟩] }, .command)

/-- The venue reports it in a given state. -/
def reports (state : OrderState) : Moment × EngineEvent NoMarket Asset :=
  (moment, .account (.item ⟨0,
    .orderSnapshot ⟨key, .buy, some 100, 2, .limit, .goodUntilCancelled false, state⟩⟩))

/-- The venue reports it working under `v-1`. -/
def reportsOpen : Moment × EngineEvent NoMarket Asset :=
  reports (.active (.open ⟨.assigned ⟨"v-1"⟩, 2, 0⟩))

/-- A fill of one under `v-1`. -/
def trade : Trade Asset InstrumentIndex :=
  ⟨⟨"t-1"⟩, ⟨"v-1"⟩, 0, ⟨"trend"⟩, 1, .buy, 100, 1, none, ⟨.usd, 0, none⟩, .order, none, none⟩

def fills : Moment × EngineEvent NoMarket Asset :=
  (moment, .account (.item ⟨0, .trade trade⟩))

/-- The equity is split. -/
def splits (ratio : SplitRatio) (policy : SplitRoundingPolicy) : EngineEvent NoMarket Asset :=
  .corporateAction ⟨"s-1"⟩ 0 (.stockSplit ratio) policy 1

end Sample

end Rustrade
