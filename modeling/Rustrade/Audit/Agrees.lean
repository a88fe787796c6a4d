import Rustrade.Audit.Exits
import Rustrade.Lib.Related

/-!
# What the replica and the engine have in common

The replica holds neither the engine's requests in flight nor their reduce-only flags. `Agrees` is
what the two then have in common, and each event keeps it, with the outputs the engine reports of
it, if the fill it brings is one the two route alike.
-/

set_option autoImplicit false

namespace Rustrade

open StateReplicaManager

/-- What the replica and the engine have in common: the exchanges they track, and of each
    instrument all but what a request in flight leaves on it. -/
structure Agrees {Data AssetKey : Type}
    [InstrumentDataState Data ExchangeIndex AssetKey InstrumentIndex] (mode : OmsMode)
    (engine replica : EngineState Data AssetKey) : Prop where
  connectivity : replica.connectivity = engine.connectivity
  instruments : List.Forall₂ (InstrumentState.Mirrors mode) engine.instruments replica.instruments

/-- The fill an event brings, if it brings one. -/
def fillOf {Data AssetKey : Type}
    [InstrumentDataState Data ExchangeIndex AssetKey InstrumentIndex] :
    EngineEvent Data AssetKey → Option (Trade AssetKey InstrumentIndex)
  | .account (.item account) =>
      match account.kind with
      | .trade trade => some trade
      | _ => none
  | _ => none

/-- The engine and the replica take the fill to the same place, and hold it back in neither. -/
def RoutesAlike {Data AssetKey : Type} (hash hash' : HashOrder)
    (engine replica : EngineState Data AssetKey) (trade : Trade AssetKey InstrumentIndex) : Prop :=
  ∀ s ∈ engine.instruments[trade.instrument]?, ∀ r ∈ replica.instruments[trade.instrument]?,
    InstrumentState.RoutesAlike hash hash' s r trade

instance {Data AssetKey : Type} (hash hash' : HashOrder) (engine replica : EngineState Data AssetKey)
    (trade : Trade AssetKey InstrumentIndex) :
    Decidable (RoutesAlike hash hash' engine replica trade) :=
  inferInstanceAs (Decidable (∀ s ∈ engine.instruments[trade.instrument]?,
    ∀ r ∈ replica.instruments[trade.instrument]?, InstrumentState.RoutesAlike hash hash' s r trade))

namespace Agrees

variable {Data AssetKey : Type} [InstrumentDataState Data ExchangeIndex AssetKey InstrumentIndex]
  {mode : OmsMode} {engine replica : EngineState Data AssetKey} {hash hash' : HashOrder}

theorem modify {key : InstrumentIndex}
    {f g : InstrumentState Data ExchangeIndex AssetKey InstrumentIndex →
      InstrumentState Data ExchangeIndex AssetKey InstrumentIndex} (h : Agrees mode engine replica)
    (hfg : ∀ s r, engine.instruments[key]? = some s → replica.instruments[key]? = some r →
      s.Mirrors mode r → (f s).Mirrors mode (g r)) :
    Agrees mode (engine.modify key f) (replica.modify key g) :=
  ⟨h.connectivity, h.instruments.modify hfg⟩

/-! ## Requests in flight -/

theorem recordInFlight (hdata : PricedByReports Data) (h : Agrees mode engine replica)
    (timeSent : DateTime) (request : SentRequest) :
    Agrees mode (engine.recordInFlight timeSent request) replica := by
  have hsame : replica.modify request.key.instrument id = replica := by
    unfold EngineState.modify
    rw [List.modify_id]
  rw [← hsame]
  refine h.modify fun s r _ _ hmirrors => ?_
  cases request with
  | «open» request => exact hmirrors.recordInFlightOpen hdata request timeSent
  | cancel request => exact hmirrors.recordInFlightCancel hdata request timeSent

theorem recordAllInFlight (hdata : PricedByReports Data) (h : Agrees mode engine replica)
    (timeSent : DateTime) (requests : List SentRequest) :
    Agrees mode (engine.recordAllInFlight timeSent requests) replica := by
  induction requests generalizing engine with
  | nil => exact h
  | cons request requests ih => exact ih (h.recordInFlight hdata timeSent request)

/-! ## Connections and prices -/

theorem updateFromAccountReconnecting (h : Agrees mode engine replica) (exchange : ExchangeId) :
    Agrees mode (engine.updateFromAccountReconnecting exchange)
      (replica.updateFromAccountReconnecting exchange) := by
  unfold EngineState.updateFromAccountReconnecting
  rw [h.connectivity]
  cases engine.connectivity.idxOf? exchange with
  | none => exact h
  | some index =>
    refine ⟨rfl, ?_⟩
    show List.Forall₂ _ (engine.instruments.map _) (replica.instruments.map _)
    rw [List.forall₂_map_left_iff, List.forall₂_map_right_iff]
    refine h.instruments.imp fun s r hmirrors => ?_
    rw [hmirrors.instrument]
    split
    · exact hmirrors.of_quiet InstrumentState.quiet_beginAccountResync
        InstrumentState.quiet_beginAccountResync
    · exact hmirrors

variable [DecimalRange]

theorem updateFromMarket (h : Agrees mode engine replica)
    (event : MarketEvent InstrumentIndex (InstrumentDataState.MarketEventKind Data)) :
    Agrees mode (engine.updateFromMarket event) (replica.updateFromMarket event) := by
  unfold EngineState.updateFromMarket
  rw [h.connectivity]
  split
  · exact h.modify fun _ _ _ _ hmirrors => hmirrors.updateFromMarket event
  · exact h

variable [DecidableEq AssetKey]

/-! ## Account events -/

omit [DecimalRange] in
theorem feeAssetPricing (h : Agrees mode engine replica) (asset quote : AssetKey) :
    replica.instruments.feeAssetPricing asset quote =
      engine.instruments.feeAssetPricing asset quote := by
  unfold InstrumentStates.feeAssetPricing
  refine ((h.instruments.zipIdx 0).findSome?_eq fun e e' he => ?_).symm
  obtain ⟨hmirrors, hindex⟩ := he
  rw [hmirrors.instrument, hmirrors.lastPrice, hindex]

theorem valueThirdAssetFee (h : Agrees mode engine replica) (trade : Trade AssetKey InstrumentIndex) :
    replica.instruments.valueThirdAssetFee trade =
      engine.instruments.valueThirdAssetFee trade := by
  unfold InstrumentStates.valueThirdAssetFee
  rcases h.instruments.getElem?_cases trade.instrument with
    ⟨hnone, hnoneCopy⟩ | ⟨s, r, hget, hgetCopy, hmirrors⟩
  · rw [hnone, hnoneCopy]
  · rw [hget, hgetCopy]
    simp only [hmirrors.instrument, h.feeAssetPricing]

omit [DecimalRange] [DecidableEq AssetKey]
  [InstrumentDataState Data ExchangeIndex AssetKey InstrumentIndex] in
/-- The outputs of an account event name the fills that were cut. -/
theorem reduceOnlyFills_outputs (applied : FillsApplied AssetKey InstrumentIndex) :
    reduceOnlyFills applied.outputs = InstrumentState.cutFills applied.capped := by
  have happend (outputs outputs' : List (EngineOutput AssetKey)) :
      reduceOnlyFills (outputs ++ outputs') = reduceOnlyFills outputs ++ reduceOnlyFills outputs' :=
    List.filterMap_append
  have hcapped (capped : List (ReduceOnlyCapped InstrumentIndex)) :
      reduceOnlyFills ((capped.map EngineOutput.reduceOnlyCapped : List (EngineOutput AssetKey))) =
        InstrumentState.cutFills capped := by
    induction capped with
    | nil => rfl
    | cons cut capped ih => exact congrArg ((cut.tradeId, cut.reduceOnly) :: ·) ih
  have hconversion (conversion : Option (FeeConversion AssetKey InstrumentIndex)) :
      reduceOnlyFills (conversion.map EngineOutput.feeConversion).toList = [] := by
    cases conversion <;> rfl
  have hexited (exited : Option (PositionExited AssetKey InstrumentIndex)) :
      reduceOnlyFills (exited.map EngineOutput.positionExit).toList = [] := by
    cases exited <;> rfl
  unfold FillsApplied.outputs
  rw [happend, happend, hconversion, hcapped, hexited, List.append_nil, List.nil_append]

theorem snapshots (h : Agrees mode engine replica)
    (event : AccountEvent ExchangeIndex AssetKey InstrumentIndex)
    (snapshots : List (InstrumentAccountSnapshot ExchangeIndex InstrumentIndex)) :
    Agrees mode (snapshots.foldl (fun self snapshot => self.modify snapshot.instrument fun state =>
        (state.updateFromAccountSnapshot hash snapshot).processAccount event) engine)
      (snapshots.foldl (fun self snapshot => self.modify snapshot.instrument fun state =>
        (state.updateFromAccountSnapshot hash' snapshot).processAccount event) replica) := by
  induction snapshots generalizing engine replica with
  | nil => exact h
  | cons snapshot snapshots ih =>
    refine ih (h.modify fun s r _ _ hmirrors => ?_)
    exact (hmirrors.of_quiet
      (InstrumentState.quiet_updateFromAccountSnapshot hmirrors.waiting snapshot)
      (InstrumentState.quiet_updateFromAccountSnapshot hmirrors.waitingCopy snapshot)).processAccount
        event

omit [DecimalRange] [DecidableEq AssetKey] in
/-- The value of a fill's fee, and what is counted of it, do not tell where it goes. -/
theorem routesAlike_valued {s r : InstrumentState Data ExchangeIndex AssetKey InstrumentIndex}
    {trade : Trade AssetKey InstrumentIndex}
    (hroutes : InstrumentState.RoutesAlike hash hash' s r trade)
    (valued : Option (ValuedFee AssetKey))
    (event : AccountEvent ExchangeIndex AssetKey InstrumentIndex)
    {tearSheet tearSheet' : TearSheetGenerator AssetKey InstrumentIndex} :
    InstrumentState.RoutesAlike hash hash'
      (InstrumentState.processAccount { s with tearSheet := tearSheet } event)
      (InstrumentState.processAccount { r with tearSheet := tearSheet' } event)
      (EngineState.valuedTrade trade valued) := by
  cases valued <;> exact hroutes

theorem replayAccount (h : Agrees mode engine replica)
    (event : AccountEvent ExchangeIndex AssetKey InstrumentIndex)
    (hroutes : ∀ trade, event.kind = .trade trade →
      RoutesAlike hash hash' engine replica trade) :
    Agrees mode (engine.updateFromAccount hash event).1 (replica.replayAccount hash' event
      (reduceOnlyFills (engine.updateFromAccount hash event).2.outputs)).1 := by
  rw [reduceOnlyFills_outputs]
  unfold EngineState.updateFromAccount EngineState.replayAccount
  cases hkind : event.kind with
  | snapshot instruments => exact h.snapshots event instruments
  | orderSnapshot order =>
    simp only
    rcases h.instruments.getElem?_cases order.key.instrument with
      ⟨hnone, hnoneCopy⟩ | ⟨s, r, hget, hgetCopy, hmirrors⟩
    · rw [hnone, hnoneCopy]
      exact h
    · rw [hget, hgetCopy]
      refine h.modify fun _ _ _ _ _ => ?_
      exact (hmirrors.of_quiet
        (InstrumentState.replayOrderSnapshot_quiet hmirrors.waiting order).1
        (InstrumentState.replayOrderSnapshot_quiet hmirrors.waitingCopy order).1).processAccount
          event
  | orderCancelled response =>
    refine h.modify fun s r _ _ hmirrors => ?_
    exact (hmirrors.of_quiet (InstrumentState.quiet_updateFromCancelResponse response)
      (InstrumentState.quiet_updateFromCancelResponse response)).processAccount event
  | trade trade =>
    simp only
    rw [h.valueThirdAssetFee]
    generalize engine.instruments.valueThirdAssetFee trade = valued
    rcases h.instruments.getElem?_cases (EngineState.valuedTrade trade valued).instrument with
      ⟨hnone, hnoneCopy⟩ | ⟨s, r, hget, hgetCopy, hmirrors⟩
    · rw [hnone, hnoneCopy]
      exact h
    · have hinstrument : (EngineState.valuedTrade trade valued).instrument = trade.instrument := by
        cases valued <;> rfl
      have hroutes : InstrumentState.RoutesAlike hash hash' s r trade :=
        hroutes trade hkind s (hinstrument ▸ hget) r (hinstrument ▸ hgetCopy)
      rw [hget, hgetCopy]
      refine h.modify fun _ _ _ _ _ => ?_
      have hnoted : InstrumentState.Mirrors mode
          (if (valued.bind ValuedFee.intoConversion).any fun conversion =>
              conversion.outcome.feesQuote.isNone then
            { s with tearSheet := s.tearSheet.recordFillFeeUnconverted } else s)
          (if (valued.bind ValuedFee.intoConversion).any fun conversion =>
              conversion.outcome.feesQuote.isNone then
            { r with tearSheet := r.tearSheet.recordFillFeeUnconverted } else r) := by
        split
        · exact hmirrors.of_quiet ⟨⟨rfl, rfl, id, id⟩, rfl⟩ ⟨⟨rfl, rfl, id, id⟩, rfl⟩
        · exact hmirrors
      refine (hnoted.processAccount event).replayTrade ?_
      split <;> exact routesAlike_valued hroutes valued event
  | cashFlow flow =>
    simp only
    cases flow.instrument with
    | none => exact h
    | some instrument =>
      exact h.modify fun s r _ _ hmirrors =>
        (hmirrors.updateFromCashFlow flow).processAccount event
  | balanceSnapshot | balanceStreamUpdate | instrumentBalanceUpdate | instrumentBalanceSnapshot
  | streamTerminated | venueCheckpoint | fillRecoveryGaveUp | tradeAmended | reinitFailed
  | notice | marginDebt => exact h

/-! ## Expiry -/

omit [DecimalRange] [DecidableEq AssetKey] in
theorem modify_right {key : InstrumentIndex}
    {g : InstrumentState Data ExchangeIndex AssetKey InstrumentIndex →
      InstrumentState Data ExchangeIndex AssetKey InstrumentIndex} (h : Agrees mode engine replica)
    (hg : ∀ s r, engine.instruments[key]? = some s → replica.instruments[key]? = some r →
      s.Mirrors mode r → s.Mirrors mode (g r)) : Agrees mode engine (replica.modify key g) := by
  have hsame : engine.modify key id = engine := by
    unfold EngineState.modify
    rw [List.modify_id]
  rw [← hsame]
  exact h.modify hg

/-- The replica's part in an expiry the engine reports `outputs` of. -/
def expired (hash : HashOrder) (replica : EngineState Data AssetKey) (key : InstrumentIndex)
    (outputs : List (EngineOutput AssetKey)) : EngineState Data AssetKey :=
  if notSettled key outputs then replica else replica.modify key (mirrorExpiry hash key outputs)

omit [DecimalRange] [DecidableEq AssetKey] in
theorem expired_refused (h : Agrees mode engine replica) (key : InstrumentIndex)
    (reason : ContractExpiryNotSettledReason) :
    Agrees mode engine (expired hash replica key [.contractExpiryNotSettled key reason]) := by
  have hrefused : notSettled key
      [(.contractExpiryNotSettled key reason : EngineOutput AssetKey)] = true := by
    simp [notSettled]
  unfold expired
  rw [if_pos hrefused]
  exact h

theorem settleExpiry (h : Agrees mode engine replica) {key : InstrumentIndex}
    {s : InstrumentState Data ExchangeIndex AssetKey InstrumentIndex}
    (hget : engine.instruments[key]? = some s) (hsized : s.SizedOn key)
    (hopen : s.expirationProcessed = false) (time : DateTime)
    (settlement : ExpirySettlement AssetKey) :
    Agrees mode (engine.settleExpiry hash time key settlement s).1
      (expired hash' replica key (engine.settleExpiry hash time key settlement s).2) := by
  unfold EngineState.settleExpiry
  by_cases hkept : s.expiryHandling = .venue ∨ s.position.positions.isEmpty
  · rw [if_pos hkept]
    refine h.modify fun s' r hget' _ hmirrors => ?_
    obtain rfl : s = s' := by rw [hget] at hget'; exact Option.some.inj hget'
    have hkeptCopy : r.position.positions.isEmpty ∨ r.expiryHandling = .venue := by
      rw [hmirrors.position,
        show r.expiryHandling = s.expiryHandling from
          congrArg InstrumentState.Frame.expiryHandling hmirrors.frame]
      exact hkept.symm
    have hopenCopy : r.expirationProcessed = false :=
      (congrArg InstrumentState.Frame.expirationProcessed hmirrors.frame).trans hopen
    unfold mirrorExpiry
    rw [hopenCopy, if_neg (by decide), if_neg (by simp [anyExit]), if_pos hkeptCopy]
    exact hmirrors.markExpired
  · rw [if_neg hkept]
    rw [not_or] at hkept
    cases engine.instruments.referencePrice key settlement with
    | error reason => exact h.expired_refused key reason
    | ok reference =>
      cases reference with
      | none => exact h.expired_refused key .settlementPriceUnavailable
      | some reference =>
        have hended := InstrumentState.ended_settlePositions time (settlement.price reference)
          hsized s.position.positions.keys
        have hreported := InstrumentState.settlePositions_reports time (settlement.price reference)
          hsized (Bool.eq_false_iff.2 hkept.2)
        have hsettled : notSettled key (InstrumentState.settlePositions key time
            (settlement.price reference) s s.position.positions.keys).2 = false := by
          unfold notSettled
          rw [List.any_eq_false]
          intro output houtput
          obtain ⟨exit, rfl⟩ := hended.reported output houtput
          simp
        simp only
        unfold expired
        rw [hsettled]
        refine h.modify fun s' r hget' _ hmirrors => ?_
        obtain rfl : s = s' := by rw [hget] at hget'; exact Option.some.inj hget'
        exact hmirrors.mirrorExpiry hended hreported hopen

theorem contractExpiry (hdata : PricedByReports Data) (h : Agrees mode engine replica)
    (hsized : engine.Sized) (m : Moment) (key : InstrumentIndex) :
    Agrees mode (engine.processContractExpiry m.hash m.time m.timeAdvanced m.sends key).1
      (expired hash' replica key
        (engine.processContractExpiry m.hash m.time m.timeAdvanced m.sends key).2) := by
  unfold EngineState.processContractExpiry
  rcases h.instruments.getElem?_cases key with
    ⟨hnone, -⟩ | ⟨s, r, hget, hgetCopy, hmirrors⟩
  · rw [hnone]
    exact h.expired_refused key .unknownInstrument
  · rw [hget]
    simp only
    cases ExpirySettlement.of s.instrument with
    | none => exact h.expired_refused key .instrumentNeverExpires
    | some settlement =>
      simp only
      by_cases hprocessed : s.expirationProcessed = true
      · rw [if_pos hprocessed]
        refine h.modify_right fun s' r' hget' _ hmirrors' => ?_
        obtain rfl : s = s' := by rw [hget] at hget'; exact Option.some.inj hget'
        have hprocessedCopy : r'.expirationProcessed = true :=
          (congrArg InstrumentState.Frame.expirationProcessed hmirrors'.frame).trans hprocessed
        unfold mirrorExpiry
        rw [if_pos hprocessedCopy]
        exact hmirrors'
      · rw [if_neg hprocessed]
        -- The cancels are recorded on the engine alone, and change nothing the expiry reads.
        generalize (((m.hash.arrange s.orders.tracked.entries).filterMap fun e =>
          (e.2.toRequestCancel).filter m.sends).map SentRequest.cancel) = requests
        have hsent := h.recordAllInFlight hdata m.time requests
        rcases hsent.instruments.getElem?_cases key with
          ⟨-, hnoneCopy⟩ | ⟨s', r', hget', hgetCopy', hmirrors'⟩
        · rw [hgetCopy] at hnoneCopy
          cases hnoneCopy
        · obtain rfl : r = r' := by rw [hgetCopy] at hgetCopy'; exact Option.some.inj hgetCopy'
          have hframe : s'.frame = s.frame := hmirrors'.frame.symm.trans hmirrors.frame
          have hposition : s'.position = s.position :=
            hmirrors'.position.symm.trans hmirrors.position
          have hon : s'.SizedOn key := (hsized key s hget).congr hposition fun fill hfill => by
            rw [hmirrors'.waiting] at hfill
            exact absurd hfill List.not_mem_nil
          rw [hget']
          refine hsent.settleExpiry hget' hon ?_ m.timeAdvanced settlement.2
          rw [show s'.expirationProcessed = s.expirationProcessed from
            congrArg InstrumentState.Frame.expirationProcessed hframe]
          exact Bool.eq_false_iff.2 hprocessed

/-! ## Corporate actions -/

omit [DecidableEq AssetKey] in
/-- A plan is read off what the copies agree on. -/
theorem prepareOptions_eq {id : CorporateActionId} {ratio : SplitRatio}
    {isOn : InstrumentState Data ExchangeIndex AssetKey InstrumentIndex → Bool}
    (hisOn : ∀ s r, InstrumentState.Mirrors mode s r → isOn r = isOn s)
    {states states' : List (InstrumentState Data ExchangeIndex AssetKey InstrumentIndex ×
      InstrumentIndex)}
    (h : List.Forall₂ (fun e e' => e.1.Mirrors mode e'.1 ∧ e.2 = e'.2) states states') :
    InstrumentStates.prepareOptions id ratio isOn states' =
      InstrumentStates.prepareOptions id ratio isOn states := by
  induction h with
  | nil => rfl
  | @cons e e' es es' he _ ih =>
    obtain ⟨s, i⟩ := e
    obtain ⟨r, i'⟩ := e'
    obtain ⟨hmirrors, hindex⟩ := he
    obtain rfl : i = i' := hindex
    have hmirrors : s.Mirrors mode r := hmirrors
    have hactions : r.corporateActionsProcessed = s.corporateActionsProcessed :=
      congrArg InstrumentState.Frame.corporateActionsProcessed hmirrors.frame
    have hprepare (contract : OptionContract AssetKey) :
        InstrumentStates.prepareOption ratio i contract r =
          InstrumentStates.prepareOption ratio i contract s := by
      unfold InstrumentStates.prepareOption
      rw [hmirrors.position]
    unfold InstrumentStates.prepareOptions
    simp only [hmirrors.instrument, hisOn s r hmirrors, hactions, hprepare, ih]

theorem prepareCorporateActionSplit (h : Agrees mode engine replica)
    {target : InstrumentStates.SplitEligibleTarget engine.instruments}
    {copy : InstrumentStates.SplitEligibleTarget replica.instruments}
    (hkey : copy.key = target.key) (hmirrors : target.target.Mirrors mode copy.target)
    (id : CorporateActionId) (ratio : SplitRatio) (policy : SplitRoundingPolicy)
    (adjustOptionsInPlace : Bool) :
    copy.prepareCorporateActionSplit id ratio policy adjustOptionsInPlace =
      target.prepareCorporateActionSplit id ratio policy adjustOptionsInPlace := by
  have hany (base quote : AssetKey) (exchange : ExchangeIndex) :
      (replica.instruments.zipIdx.any fun e =>
        e.2 ≠ target.key && e.1.isSplitEligibleOnUnderlying base quote exchange) =
      engine.instruments.zipIdx.any fun e =>
        e.2 ≠ target.key && e.1.isSplitEligibleOnUnderlying base quote exchange := by
    refine ((h.instruments.zipIdx 0).any_eq fun e e' he => ?_).symm
    obtain ⟨hmirrors, hindex⟩ := he
    unfold InstrumentState.isSplitEligibleOnUnderlying InstrumentState.isOnUnderlying
    rw [hmirrors.instrument, hindex]
  have hisOn (base quote : AssetKey) (exchange : ExchangeIndex)
      (s r : InstrumentState Data ExchangeIndex AssetKey InstrumentIndex) (hmirrors : s.Mirrors mode r) :
      r.isOptionOnUnderlying base quote exchange = s.isOptionOnUnderlying base quote exchange := by
    unfold InstrumentState.isOptionOnUnderlying InstrumentState.isOnUnderlying
    rw [hmirrors.instrument]
  unfold InstrumentStates.SplitEligibleTarget.prepareCorporateActionSplit
  simp only [hmirrors.instrument, hmirrors.position, hkey, hany,
    prepareOptions_eq (hisOn _ _ _) (h.instruments.zipIdx 0)]

omit [DecidableEq AssetKey] [DecimalRange] in
/-- The target is looked up alike. -/
theorem splitEligibleTarget_cases {key : InstrumentIndex}
    {s r : InstrumentState Data ExchangeIndex AssetKey InstrumentIndex}
    (hget : engine.instruments[key]? = some s) (hgetCopy : replica.instruments[key]? = some r)
    (hmirrors : s.Mirrors mode r) :
    (engine.instruments.splitEligibleTarget key = none ∧
      replica.instruments.splitEligibleTarget key = none) ∨
    ∃ target copy, engine.instruments.splitEligibleTarget key = some target ∧
      replica.instruments.splitEligibleTarget key = some copy ∧ copy.key = target.key ∧
        target.target = s ∧ copy.target = r := by
  have hlookup {states : InstrumentStates Data AssetKey}
      {state : InstrumentState Data ExchangeIndex AssetKey InstrumentIndex}
      (hget : states[key]? = some state) :
      (¬ state.instrument.kind.isSplitEligible = true → states.splitEligibleTarget key = none) ∧
        (state.instrument.kind.isSplitEligible = true → ∃ target,
          states.splitEligibleTarget key = some target ∧ target.key = key ∧
            target.target = state) := by
    unfold InstrumentStates.splitEligibleTarget
    split
    · rename_i hnone
      rw [hget] at hnone
      cases hnone
    · rename_i found hfound
      obtain rfl : state = found := by rw [hget] at hfound; exact Option.some.inj hfound
      split
      · exact ⟨fun hnot => absurd ‹_› hnot, fun _ => ⟨_, rfl, rfl, rfl⟩⟩
      · exact ⟨fun _ => rfl, fun heligible => absurd heligible ‹_›⟩
  obtain ⟨hnone, hsome⟩ := hlookup hget
  obtain ⟨hnoneCopy, hsomeCopy⟩ := hlookup hgetCopy
  rw [hmirrors.instrument] at hnoneCopy hsomeCopy
  by_cases heligible : s.instrument.kind.isSplitEligible = true
  · obtain ⟨target, htarget, hkey, hs⟩ := hsome heligible
    obtain ⟨copy, hcopy, hkeyCopy, hr⟩ := hsomeCopy heligible
    exact .inr ⟨target, copy, htarget, hcopy, hkeyCopy.trans hkey.symm, hs, hr⟩
  · exact .inl ⟨hnone heligible, hnoneCopy heligible⟩

omit [DecidableEq AssetKey]
  [InstrumentDataState Data ExchangeIndex AssetKey InstrumentIndex] in
/-- A plan writes to every position of its target, each once. -/
theorem nodup_equityPositions {states : InstrumentStates Data AssetKey} [DecidableEq AssetKey]
    {target : InstrumentStates.SplitEligibleTarget states} {id : CorporateActionId}
    {ratio : SplitRatio} {policy : SplitRoundingPolicy} {adjustOptionsInPlace : Bool}
    {plan : SplitPlan}
    (h : target.prepareCorporateActionSplit id ratio policy adjustOptionsInPlace = .ok plan) :
    (plan.equityPositions.map Prod.fst).Nodup := by
  have hkeys (entries : List (PositionId × Position AssetKey InstrumentIndex))
      {positions : List (PositionId × PreparedSplit)}
      (hprepared : entries.mapM (InstrumentStates.prepareEquityPosition ratio policy) =
        .ok positions) : positions.map Prod.fst = entries.map Prod.fst := by
    induction entries generalizing positions with
    | nil =>
      cases Except.pure_eq_ok.1 hprepared
      rfl
    | cons e entries ih =>
      rw [List.mapM_cons] at hprepared
      obtain ⟨first, hfirst, hprepared⟩ := Except.bind_eq_ok.1 hprepared
      obtain ⟨rest, hrest, hprepared⟩ := Except.bind_eq_ok.1 hprepared
      cases Except.pure_eq_ok.1 hprepared
      unfold InstrumentStates.prepareEquityPosition at hfirst
      split at hfirst
      · cases hfirst
        exact congrArg (e.1 :: ·) (ih hrest)
      · cases hfirst
  unfold InstrumentStates.SplitEligibleTarget.prepareCorporateActionSplit at h
  simp only at h
  split at h
  · cases h
  · obtain ⟨positions, hpositions, h⟩ := Except.bind_eq_ok.1 h
    have hnodup : (positions.map Prod.fst).Nodup := by
      rw [hkeys _ hpositions]
      exact target.target.position.positions.nodup
    split at h
    · cases h
      exact hnodup
    · cases hplans : InstrumentStates.prepareOptions id ratio (fun state =>
          state.isOptionOnUnderlying target.target.instrument.underlying.base
            target.target.instrument.underlying.quote target.target.instrument.exchange)
          states.zipIdx with
      | error reason => rw [hplans] at h; cases h
      | ok plans =>
        rw [hplans] at h
        cases h
        exact hnodup

section Outputs

variable {key : InstrumentIndex}

omit [DecidableEq AssetKey] [DecimalRange]

omit [InstrumentDataState Data ExchangeIndex AssetKey InstrumentIndex] in
theorem exitsOf_eq_nil {outputs : List (EngineOutput AssetKey)}
    (h : ∀ output ∈ outputs, exitsOf key [output] = []) : exitsOf key outputs = [] := by
  induction outputs with
  | nil => rfl
  | cons output outputs ih =>
    show exitsOf key ([output] ++ outputs) = []
    rw [exitsOf_append, h output (List.mem_cons_self ..),
      ih fun other hother => h other (List.mem_cons_of_mem _ hother)]
    rfl

omit [InstrumentDataState Data ExchangeIndex AssetKey InstrumentIndex] in
theorem exitsOf_openOrders (instrument : InstrumentIndex) (orders : List OpenOrderAtSplit) :
    exitsOf key (if orders.isEmpty then ([] : List (EngineOutput AssetKey)) else
      [.openOrdersAtSplit instrument orders]) = [] := by
  split <;> rfl

omit [InstrumentDataState Data ExchangeIndex AssetKey InstrumentIndex] in
theorem exitsOf_emitOptionIdentityChange [DecidableEq AssetKey] (self : EngineState Data AssetKey)
    (split : InstrumentIndex) (ratio : SplitRatio) :
    exitsOf key (self.emitOptionIdentityChange split ratio) = [] := by
  unfold EngineState.emitOptionIdentityChange
  split
  · rfl
  · simp only
    split <;> rfl

variable [DecimalRange]

theorem exitsOf_commitOptionSplit (hash : HashOrder) (id : CorporateActionId) (ratio : SplitRatio)
    (plan : OptionSplitPlan) (s : InstrumentState Data ExchangeIndex AssetKey InstrumentIndex) :
    exitsOf key (s.commitOptionSplit hash id ratio plan).2 = [] := by
  unfold InstrumentState.commitOptionSplit
  simp only
  rw [exitsOf_append, exitsOf_openOrders, List.append_nil]
  refine exitsOf_eq_nil fun output houtput => ?_
  obtain ⟨e, -, rfl⟩ := List.mem_map.1 houtput
  rfl

/-- An option's split ends nothing, and leaves it as the replica's replay of it does. -/
theorem commitStandardOptionSplit_eq (key : InstrumentIndex) (hash : HashOrder) (id : CorporateActionId)
    (ratio : SplitRatio) (self : EngineState Data AssetKey) (plans : List OptionSplitPlan) :
    exitsOf key (self.commitStandardOptionSplit hash id ratio plans).2 = [] ∧
      (self.commitStandardOptionSplit hash id ratio plans).1 =
        plans.foldl (fun self plan => self.modify plan.key (commitOption id plan)) self := by
  induction plans generalizing self with
  | nil => exact ⟨rfl, rfl⟩
  | cons plan plans ih =>
    rw [EngineState.commitStandardOptionSplit, List.foldl_cons]
    cases hget : self.instruments[plan.key]? with
    | none =>
      have hsame : self.modify plan.key (commitOption id plan) = self := by
        unfold EngineState.modify
        rw [List.modify_eq_self (List.getElem?_eq_none_iff.1 hget)]
      rw [hsame]
      exact ih self
    | some s =>
      have hsame : (self.modify plan.key fun _ => (s.commitOptionSplit hash id ratio plan).1) =
          self.modify plan.key (commitOption id plan) := by
        unfold EngineState.modify
        congr 1
        refine List.ext_getElem? fun i => ?_
        rw [List.getElem?_modify, List.getElem?_modify]
        by_cases hkey : plan.key = i
        · subst hkey
          rw [hget]
          rfl
        · simp [hkey]
      simp only
      rw [exitsOf_append, exitsOf_commitOptionSplit, hsame]
      exact ih _

end Outputs

omit [DecidableEq AssetKey] in
theorem commitOptions (h : Agrees mode engine replica) (id : CorporateActionId)
    (plans : List OptionSplitPlan) :
    Agrees mode (plans.foldl (fun self plan => self.modify plan.key (commitOption id plan)) engine)
      (plans.foldl (fun self plan => self.modify plan.key (commitOption id plan)) replica) := by
  induction plans generalizing engine replica with
  | nil => exact h
  | cons plan plans ih =>
    exact ih (h.modify fun s r _ _ hmirrors => hmirrors.commitOption id plan)

theorem commitCorporateAction (h : Agrees mode engine replica) {key : InstrumentIndex}
    {s r : InstrumentState Data ExchangeIndex AssetKey InstrumentIndex}
    (hmirrors : s.Mirrors mode r) (hsized : s.SizedOn key) (time : DateTime) (id : CorporateActionId)
    (kind : CorporateActionKind) (ratio : SplitRatio) {plan : SplitPlan}
    (hnodup : (plan.equityPositions.map Prod.fst).Nodup) :
    Agrees mode (engine.commitCorporateAction hash time id key kind ratio s plan).1
      (StateReplicaManager.commitCorporateAction replica id key kind r plan
        (engine.commitCorporateAction hash time id key kind ratio s plan).2) := by
  have hcommitted := InstrumentState.committed_commitEquityPositions time s.lastPrice
    hsized.position.on plan.equityPositions hnodup
  let equity := InstrumentState.commitEquityPositions key time s.lastPrice s plan.equityPositions
  have hequity : Agrees mode (engine.modify key fun _ => equity.1)
      (replica.modify key fun _ => (exitsOf key equity.2).foldl mirrorSplitExit
        (plan.equityPositions.foldl (fun self e => self.commitPosition r.lastPrice e) r)) :=
    h.modify fun _ _ _ _ _ => hmirrors.commitEquity hcommitted
  have hexits : exitsOf key (engine.commitCorporateAction hash time id key kind ratio s plan).2 =
      exitsOf key equity.2 := by
    unfold EngineState.commitCorporateAction
    simp only
    rw [exitsOf_append, exitsOf_append, exitsOf_openOrders, List.append_nil]
    refine (congrArg (_ ++ ·) ?_).trans (List.append_nil _)
    split
    · rw [exitsOf_append, (commitStandardOptionSplit_eq key ..).1, List.append_nil]
      refine exitsOf_eq_nil fun output houtput => ?_
      obtain ⟨option, -, rfl⟩ := List.mem_map.1 houtput
      rfl
    · exact exitsOf_emitOptionIdentityChange ..
  unfold StateReplicaManager.commitCorporateAction
  rw [hexits]
  unfold EngineState.commitCorporateAction
  simp only
  refine Agrees.modify ?_ fun s r _ _ hmirrors => hmirrors.recordCorporateAction id
  by_cases hadjust : optionSplitAdjustInPlace kind = true
  · rw [if_pos hadjust, if_pos hadjust, (commitStandardOptionSplit_eq key ..).2]
    exact hequity.commitOptions id plan.options
  · rw [if_neg hadjust, if_neg hadjust]
    exact hequity

theorem corporateAction (h : Agrees mode engine replica) (hsized : engine.Sized) (time : DateTime)
    (id : CorporateActionId) (key : InstrumentIndex) (kind : CorporateActionKind)
    (policy : SplitRoundingPolicy) :
    Agrees mode (engine.processCorporateAction hash time id key kind policy).1
      (replayCorporateAction replica id key kind policy
        (engine.processCorporateAction hash time id key kind policy).2) := by
  unfold EngineState.processCorporateAction replayCorporateAction
  rcases h.instruments.getElem?_cases key with
    ⟨hnone, hnoneCopy⟩ | ⟨s, r, hget, hgetCopy, hmirrors⟩
  · rw [hnone, hnoneCopy]
    exact h
  · have hactions : r.corporateActionsProcessed = s.corporateActionsProcessed :=
      congrArg InstrumentState.Frame.corporateActionsProcessed hmirrors.frame
    rw [hget, hgetCopy]
    simp only [hactions]
    by_cases hid : id ∈ s.corporateActionsProcessed
    · rw [if_pos hid, if_pos hid]
      exact h
    · rw [if_neg hid, if_neg hid]
      rcases splitEligibleTarget_cases hget hgetCopy hmirrors with
        ⟨hnone, hnoneCopy⟩ | ⟨target, copy, htarget, hcopy, hkey, hs, hr⟩
      · rw [hnone, hnoneCopy]
        exact h
      · rw [htarget, hcopy]
        obtain ⟨ratio⟩ := kind
        simp only
        rw [h.prepareCorporateActionSplit hkey (by rw [hs, hr]; exact hmirrors)]
        cases hplan : target.prepareCorporateActionSplit id ratio policy
            (optionSplitAdjustInPlace (.stockSplit ratio)) with
        | error reason => exact h
        | ok plan =>
          exact h.commitCorporateAction hmirrors (hsized key s hget) time id _ ratio
            (nodup_equityPositions hplan)

/-! ## Every event -/

omit [DecimalRange] [DecidableEq AssetKey] in
/-- Naming the instrument of a cash flow leaves the fill an event brings. -/
theorem fillOf_attributed (engine : EngineState Data AssetKey) (m : Moment)
    (event : EngineEvent Data AssetKey) :
    fillOf (engine.attributed m event) = fillOf event := by
  cases event with
  | account stream =>
    cases stream with
    | item account =>
      unfold EngineState.attributed EngineState.attributeCashFlow
      simp only
      split
      · rename_i flow hflow
        split
        · split
          · simp [fillOf, hflow]
          · rfl
        · rfl
      · rfl
    | reconnecting => rfl
  | shutdown | command | tradingStateUpdate | market | contractExpiry | corporateAction => rfl

/-- **Every event whose fill the two route alike, with the outputs it was reported by, keeps what
they have in common.** -/
theorem process (hdata : PricedByReports Data) (h : Agrees mode engine replica)
    (hsized : engine.Sized) (m : Moment) (hash : HashOrder) (event : EngineEvent Data AssetKey)
    (hroutes : ∀ trade ∈ fillOf event, RoutesAlike m.hash hash engine replica trade) :
    Agrees mode (engine.process m event).1
      (updateFromEvent hash replica (engine.process m event).2) := by
  -- What the algorithm sends afterwards is in flight, and the replica takes no note of it.
  have hsent {next : EngineState Data AssetKey} (processed : EngineState Data AssetKey × Bool)
      (h : Agrees mode processed.1 next) :
      Agrees mode (if processed.2 ∧ processed.1.trading = .enabled then
        processed.1.recordAllInFlight m.time m.algoOrders else processed.1) next := by
    split
    · exact h.recordAllInFlight hdata m.time m.algoOrders
    · exact h
  unfold EngineState.process
  simp only
  rw [← fillOf_attributed engine m event] at hroutes
  generalize engine.attributed m event = event at hroutes ⊢
  refine hsent ((engine.processEvent m event).1, (engine.processEvent m event).2.2) ?_
  show Agrees mode (engine.processEvent m event).1
    (updateFromEvent hash replica ⟨event, (engine.processEvent m event).2.1⟩)
  cases event with
  | shutdown => exact h
  | command => exact h.recordAllInFlight hdata m.time m.actioned
  | tradingStateUpdate state =>
    have hupdated : Agrees mode { engine with trading := state } { replica with trading := state } :=
      ⟨h.connectivity, h.instruments⟩
    simp only [EngineState.processEvent, updateFromEvent]
    split
    · exact hupdated.recordAllInFlight hdata m.time m.actioned
    · exact hupdated
  | account stream =>
    cases stream with
    | item account =>
      refine h.replayAccount account fun trade htrade => hroutes trade ?_
      simp [fillOf, htrade]
    | reconnecting exchange =>
      simp only [EngineState.processEvent, updateFromEvent]
      split
      · exact (h.updateFromAccountReconnecting exchange).recordAllInFlight hdata m.time m.actioned
      · rename_i huntracked
        have hsame : replica.updateFromAccountReconnecting exchange = replica := by
          unfold EngineState.updateFromAccountReconnecting
          rw [h.connectivity, List.idxOf?_eq_none_iff.2 huntracked]
        rw [hsame]
        exact h
  | market stream =>
    cases stream with
    | item market => exact h.updateFromMarket market
    | reconnecting exchange =>
      simp only [EngineState.processEvent, updateFromEvent]
      split
      · exact h.recordAllInFlight hdata m.time m.actioned
      · exact h
  | contractExpiry key => exact h.contractExpiry hdata hsized m key
  | corporateAction id instrument kind policy effectiveTime =>
    exact h.corporateAction hsized m.time id instrument kind policy

end Agrees

end Rustrade
