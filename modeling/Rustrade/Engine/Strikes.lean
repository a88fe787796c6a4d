import Mathlib.Data.List.Nodup
import Mathlib.Data.Finset.Lattice.Fold
import Rustrade.Engine.Calls

/-!
# Splits applied once

An option is adjusted by a standard split under the split's id, which goes on its own record with
the strike divided; nothing else writes either. So at any point of a run its strike is the one it
started with over the ratios it has on record, however often and on whatever target each action was
delivered. An action the engine refuses changes nothing.
-/

set_option autoImplicit false

namespace Rustrade

/-- A whole-number forward split. -/
def SplitRatio.IsStandard (ratio : SplitRatio) : Prop :=
  1 < ratio.get ∧ Decimal.isWhole ratio.get = true

theorem optionSplitAdjustInPlace_iff {ratio : SplitRatio} :
    optionSplitAdjustInPlace (.stockSplit ratio) = true ↔ ratio.IsStandard := by
  have hsplit : (CorporateActionKind.stockSplit ratio).splitKind =
      some (if 1 < ratio.get && Decimal.isWhole ratio.get then .standard else .nonStandard) := rfl
  unfold optionSplitAdjustInPlace classifyOptionSplit SplitRatio.IsStandard
  by_cases h : (1 < ratio.get && Decimal.isWhole ratio.get) = true
  · rw [hsplit, if_pos h]
    simpa using h
  · rw [hsplit, if_neg h]
    simpa using h

/-! ## What a split is planned to do to the options -/

namespace InstrumentStates

variable {Data AssetKey : Type} [DecimalRange] {id : CorporateActionId} {ratio : SplitRatio}

/-- A plan for an option: of an instrument of `states` that is one and does not carry `id`. -/
def Plans (states : List (InstrumentState Data ExchangeIndex AssetKey InstrumentIndex ×
      InstrumentIndex)) (id : CorporateActionId) (ratio : SplitRatio) (plan : OptionSplitPlan) :
    Prop :=
  ∃ state contract, (state, plan.key) ∈ states ∧ state.instrument.kind = .option contract ∧
    id ∉ state.corporateActionsProcessed ∧ plan.strikePostSplit = contract.strike / ratio.get

omit [DecimalRange] in
theorem Plans.mono {states states' : List (InstrumentState Data ExchangeIndex AssetKey
      InstrumentIndex × InstrumentIndex)} {plan : OptionSplitPlan}
    (hsub : ∀ e ∈ states, e ∈ states') (h : Plans states id ratio plan) :
    Plans states' id ratio plan := by
  obtain ⟨state, contract, hmem, hplan⟩ := h
  exact ⟨state, contract, hsub _ hmem, hplan⟩

theorem prepareOption_spec {key : InstrumentIndex} {contract : OptionContract AssetKey}
    {state : InstrumentState Data ExchangeIndex AssetKey InstrumentIndex} {plan : OptionSplitPlan}
    (h : prepareOption ratio key contract state = .ok plan) :
    plan.key = key ∧ plan.strikePostSplit = contract.strike / ratio.get := by
  unfold prepareOption at h
  unfold Decimal.checkedDiv at h
  rw [if_neg ratio.pos.ne'] at h
  cases hfits : Decimal.ofExact (contract.strike / ratio.get) with
  | none => rw [hfits] at h; cases h
  | some strike =>
    rw [hfits] at h
    have hstrike := Decimal.ofExact_eq_some hfits
    cases hpositions : state.position.positions.entries.mapM (prepareOptionPosition ratio) with
    | error reason => simp only [hpositions] at h; cases h
    | ok positions =>
      simp only [hpositions] at h
      cases h
      exact ⟨rfl, hstrike.symm⟩

theorem prepareOptions_spec
    {isOn : InstrumentState Data ExchangeIndex AssetKey InstrumentIndex → Bool}
    (states : List (InstrumentState Data ExchangeIndex AssetKey InstrumentIndex ×
      InstrumentIndex)) {plans : List OptionSplitPlan × List InstrumentIndex}
    (h : prepareOptions id ratio isOn states = .ok plans) :
    (plans.1.map OptionSplitPlan.key).Sublist (states.map Prod.snd) ∧
      ∀ plan ∈ plans.1, Plans states id ratio plan := by
  induction states generalizing plans with
  | nil => cases h; simp
  | cons e states ih =>
    obtain ⟨state, key⟩ := e
    -- Every branch but the one that plans for the option leaves the plans of the rest.
    have skip : ∀ {rest : List OptionSplitPlan × List InstrumentIndex},
        prepareOptions id ratio isOn states = .ok rest → rest.1 = plans.1 →
        (plans.1.map OptionSplitPlan.key).Sublist (((state, key) :: states).map Prod.snd) ∧
          ∀ plan ∈ plans.1, Plans ((state, key) :: states) id ratio plan := by
      intro rest hrest heq
      obtain ⟨hkeys, hplans⟩ := ih hrest
      rw [← heq]
      exact ⟨hkeys.cons _, fun plan hplan =>
        (hplans plan hplan).mono fun _ => List.mem_cons_of_mem _⟩
    rw [prepareOptions] at h
    cases hkind : state.instrument.kind with
    | spot | perpetual contract | future contract | cfd contract =>
      rw [hkind] at h
      exact skip h rfl
    | option contract =>
      rw [hkind] at h
      simp only at h
      split at h
      · exact skip h rfl
      · split at h
        · cases hrest : prepareOptions id ratio isOn states with
          | error reason => rw [hrest] at h; cases h
          | ok rest =>
            rw [hrest] at h
            cases h
            exact skip hrest rfl
        · rename_i hid
          cases hplan : prepareOption ratio key contract state with
          | error reason => rw [hplan] at h; cases h
          | ok plan =>
            cases hrest : prepareOptions id ratio isOn states with
            | error reason => rw [hplan, hrest] at h; cases h
            | ok rest =>
              rw [hplan, hrest] at h
              cases h
              obtain ⟨hkeys, hplans⟩ := ih hrest
              obtain ⟨hkey, hstrike⟩ := prepareOption_spec hplan
              refine ⟨?_, fun plan' hmem => ?_⟩
              · rw [List.map_cons, List.map_cons, hkey]
                exact hkeys.cons_cons _
              · rcases List.mem_cons.1 hmem with rfl | hmem
                · exact ⟨state, contract, by rw [hkey]; exact List.mem_cons_self .., hkind, hid,
                    hstrike⟩
                · exact (hplans plan' hmem).mono fun _ => List.mem_cons_of_mem _

/-- What already carries `id` is an option. -/
theorem prepareOptions_already
    {isOn : InstrumentState Data ExchangeIndex AssetKey InstrumentIndex → Bool}
    (states : List (InstrumentState Data ExchangeIndex AssetKey InstrumentIndex ×
      InstrumentIndex)) {plans : List OptionSplitPlan × List InstrumentIndex}
    (h : prepareOptions id ratio isOn states = .ok plans) :
    ∀ key ∈ plans.2, ∃ state contract, (state, key) ∈ states ∧
      state.instrument.kind = .option contract := by
  induction states generalizing plans with
  | nil => cases h; simp
  | cons e states ih =>
    obtain ⟨state, key⟩ := e
    have skip : ∀ {rest : List OptionSplitPlan × List InstrumentIndex},
        prepareOptions id ratio isOn states = .ok rest → ∀ other ∈ rest.2,
          ∃ found contract, (found, other) ∈ (state, key) :: states ∧
            found.instrument.kind = .option contract := by
      intro rest hrest other hother
      obtain ⟨found, contract, hmem, hkind⟩ := ih hrest other hother
      exact ⟨found, contract, List.mem_cons_of_mem _ hmem, hkind⟩
    rw [prepareOptions] at h
    cases hkind : state.instrument.kind with
    | spot | perpetual contract | future contract | cfd contract =>
      rw [hkind] at h
      exact skip h
    | option contract =>
      rw [hkind] at h
      simp only at h
      split at h
      · exact skip h
      · split at h
        · cases hrest : prepareOptions id ratio isOn states with
          | error reason => rw [hrest] at h; cases h
          | ok rest =>
            rw [hrest] at h
            cases h
            intro other hother
            rcases List.mem_cons.1 hother with rfl | hother
            · exact ⟨state, contract, List.mem_cons_self .., hkind⟩
            · exact skip hrest other hother
        · cases hplan : prepareOption ratio key contract state with
          | error reason => rw [hplan] at h; cases h
          | ok plan =>
            cases hrest : prepareOptions id ratio isOn states with
            | error reason => rw [hplan, hrest] at h; cases h
            | ok rest =>
              rw [hplan, hrest] at h
              cases h
              exact fun other hother => skip hrest other hother

theorem prepareCorporateActionSplit_spec [DecidableEq AssetKey]
    {states : InstrumentStates Data AssetKey} {target : SplitEligibleTarget states}
    {policy : SplitRoundingPolicy} {adjustOptionsInPlace : Bool} {plan : SplitPlan}
    (h : target.prepareCorporateActionSplit id ratio policy adjustOptionsInPlace = .ok plan) :
    (plan.options.map OptionSplitPlan.key).Nodup ∧
      (∀ option ∈ plan.options, Plans states.zipIdx id ratio option) ∧
      ∀ key ∈ plan.optionsAlreadyAdjusted, ∃ state contract, states[key]? = some state ∧
        state.instrument.kind = .option contract := by
  unfold SplitEligibleTarget.prepareCorporateActionSplit at h
  simp only at h
  split at h
  · cases h
  · cases hequity : target.target.position.positions.entries.mapM
        (prepareEquityPosition ratio policy) with
    | error reason => rw [hequity] at h; cases h
    | ok positions =>
      rw [hequity] at h
      simp only [Except.bind] at h
      split at h
      · cases h; simp
      · cases hoptions : prepareOptions id ratio (fun state => state.isOptionOnUnderlying
            target.target.instrument.underlying.base target.target.instrument.underlying.quote
            target.target.instrument.exchange) states.zipIdx with
        | error reason => rw [hoptions] at h; cases h
        | ok plans =>
          rw [hoptions] at h
          cases h
          obtain ⟨hkeys, hplans⟩ := prepareOptions_spec _ hoptions
          refine ⟨hkeys.nodup ?_, hplans, fun key hkey => ?_⟩
          · rw [List.zipIdx_map_snd]
            exact List.nodup_range'
          · obtain ⟨state, contract, hmem, hkind⟩ := prepareOptions_already _ hoptions key hkey
            exact ⟨state, contract, List.mem_zipIdx_iff_getElem?.1 hmem, hkind⟩

end InstrumentStates

/-! ## The terms of an instrument -/

namespace InstrumentState

variable {Data AssetKey : Type}

/-- What the instrument is, and the actions on its record. -/
def terms (s : InstrumentState Data ExchangeIndex AssetKey InstrumentIndex) :
    Instrument ExchangeIndex AssetKey × Finset CorporateActionId :=
  (s.instrument, s.corporateActionsProcessed)

end InstrumentState

/-- A call that writes an instrument's terms. -/
def Call.writesTerms {Data AssetKey : Type}
    [InstrumentDataState Data ExchangeIndex AssetKey InstrumentIndex] :
    Call Data AssetKey → Bool
  | .adjustStrike .. | .recordCorporateAction _ => true
  | _ => false

namespace InstrumentState

variable {Data AssetKey : Type} [DecidableEq AssetKey] [DecimalRange]
  [InstrumentDataState Data ExchangeIndex AssetKey InstrumentIndex]
  {s : InstrumentState Data ExchangeIndex AssetKey InstrumentIndex}

omit [DecidableEq AssetKey] [InstrumentDataState Data ExchangeIndex AssetKey InstrumentIndex] in
theorem terms_settlePosition {key : InstrumentIndex} {time : DateTime} {price : Decimal}
    {positionId : PositionId} :
    (settlePosition key time price s positionId).1.terms = s.terms := by
  unfold settlePosition
  split
  · rfl
  · simp only
    split <;> rfl

omit [DecidableEq AssetKey] [InstrumentDataState Data ExchangeIndex AssetKey InstrumentIndex] in
theorem terms_commitEquityPosition {key : InstrumentIndex} {time : DateTime}
    {lastPrice : Option Decimal} {e : PositionId × PreparedSplit} :
    (commitEquityPosition key time lastPrice s e).1.terms = s.terms := by
  unfold commitEquityPosition
  split
  · rfl
  · simp only
    split
    · unfold endSplitPosition
      split <;> rfl
    · rfl

theorem terms_call {c : Call Data AssetKey} (h : c.writesTerms = false) :
    (s.call c).terms = s.terms := by
  cases c with
  | op op =>
    have hframe : (s.step op).frame = s.frame := frame_step op
    unfold frame at hframe
    simp only [Frame.mk.injEq] at hframe
    exact Prod.ext hframe.1 hframe.2.2.2.2.1
  | settlePosition key time price positionId => exact terms_settlePosition
  | commitEquityPosition key time e => exact terms_commitEquityPosition
  | adjustStrike id strike => cases h
  | recordCorporateAction id => cases h
  | processAccount event => rfl
  | recordFillFeeUnconverted => rfl
  | markExpired hash => rfl
  | commitPosition e => rfl

theorem terms_calls {calls : List (Call Data AssetKey)} (h : ∀ c ∈ calls, c.writesTerms = false) :
    (s.calls calls).terms = s.terms :=
  Transition.run_invariant_of
    (fun state : InstrumentState Data ExchangeIndex AssetKey InstrumentIndex =>
      state.terms = s.terms) (fun _ _ hc hs => (terms_call hc).trans hs) h rfl

end InstrumentState

/-! ## One event -/

section Option

variable {Data AssetKey : Type} [InstrumentDataState Data ExchangeIndex AssetKey InstrumentIndex]
  {id : CorporateActionId} {i : InstrumentIndex}

variable (Data AssetKey) in
/-- At most one plan is of the instrument, so it is adjusted once if at all. -/
theorem optionCalls_cases {plans : List OptionSplitPlan}
    (hkeys : (plans.map OptionSplitPlan.key).Nodup) :
    (optionCalls id plans i : List (Call Data AssetKey)) = [] ∨
      ∃ plan ∈ plans, plan.key = i ∧ (optionCalls id plans i : List (Call Data AssetKey)) =
        .adjustStrike id plan.strikePostSplit :: plan.positions.map .commitPosition := by
  induction plans with
  | nil => exact .inl rfl
  | cons plan plans ih =>
    rw [List.map_cons, List.nodup_cons] at hkeys
    obtain ⟨hfirst, hrest⟩ := hkeys
    unfold optionCalls
    rw [List.flatMap_cons]
    by_cases hkey : plan.key = i
    · have hnone : (optionCalls id plans i : List (Call Data AssetKey)) = [] := by
        refine List.flatMap_eq_nil_iff.2 fun other hother => if_neg fun heq => hfirst ?_
        rw [hkey, ← heq]
        exact List.mem_map_of_mem hother
      rw [if_pos hkey]
      refine .inr ⟨plan, List.mem_cons_self .., hkey, ?_⟩
      exact (congrArg _ hnone).trans (List.append_nil _)
    · rw [if_neg hkey, List.nil_append]
      rcases ih hrest with hnil | ⟨other, hother, hcalls⟩
      · exact .inl hnil
      · exact .inr ⟨other, List.mem_cons_of_mem _ hother, hcalls⟩

variable [DecidableEq AssetKey] [DecimalRange] {self : EngineState Data AssetKey} {m : Moment}
  {state : InstrumentState Data ExchangeIndex AssetKey InstrumentIndex}
  {contract : OptionContract AssetKey}

omit [InstrumentDataState Data ExchangeIndex AssetKey InstrumentIndex] [DecidableEq AssetKey]
  [DecimalRange] in
/-- An option is the target of no split. -/
theorem ne_of_splitEligibleTarget {key : InstrumentIndex}
    {target : InstrumentStates.SplitEligibleTarget self.instruments}
    (htarget : self.instruments.splitEligibleTarget key = some target)
    (hget : self.instruments[i]? = some state) (hkind : state.instrument.kind = .option contract) :
    key ≠ i := by
  rintro rfl
  unfold InstrumentStates.splitEligibleTarget at htarget
  split at htarget
  · cases htarget
  · rename_i found hfound
    split at htarget
    · rename_i heligible
      obtain rfl : found = state := by rw [hget] at hfound; exact (Option.some.inj hfound).symm
      rw [hkind] at heligible
      cases heligible
    · cases htarget

/-- An event adjusts an option by a standard split it does not carry, or leaves its terms. -/
theorem callsOn_option_cases (m : Moment) (event : EngineEvent Data AssetKey)
    (hget : self.instruments[i]? = some state) (hkind : state.instrument.kind = .option contract) :
    (∀ c ∈ callsOn m self event i, c.writesTerms = false) ∨
      ∃ id key ratio policy time, ∃ positions : List (PositionId × PreparedSplit),
        event = .corporateAction id key (.stockSplit ratio) policy time ∧ ratio.IsStandard ∧
          id ∉ state.corporateActionsProcessed ∧
          callsOn m self event i = .adjustStrike id (contract.strike / ratio.get) ::
            positions.map .commitPosition := by
  by_cases hcorporate : ∃ id key kind policy time,
      event = .corporateAction id key kind policy time
  · obtain ⟨id, key, ⟨ratio⟩, policy, time, rfl⟩ := hcorporate
    have hcalls : callsOn m self (.corporateAction id key (.stockSplit ratio) policy time) i =
        corporateActionCalls m.time self id key (.stockSplit ratio) policy i := by
      unfold callsOn
      exact List.append_nil _
    rw [hcalls]
    unfold corporateActionCalls
    cases htargeted : self.instruments[key]? with
    | none => exact .inl (by simp)
    | some targeted =>
      simp only
      split
      · exact .inl (by simp)
      · cases htarget : self.instruments.splitEligibleTarget key with
        | none => exact .inl (by simp)
        | some target =>
          simp only
          have hne := ne_of_splitEligibleTarget htarget hget hkind
          cases hplan : target.prepareCorporateActionSplit id ratio policy
              (optionSplitAdjustInPlace (.stockSplit ratio)) with
          | error reason => exact .inl (by simp)
          | ok plan =>
            simp only
            rw [if_neg hne, if_neg hne, List.nil_append, List.append_nil]
            by_cases hadjust : optionSplitAdjustInPlace (.stockSplit ratio) = true
            · rw [if_pos hadjust]
              obtain ⟨hkeys, hplans, -⟩ := InstrumentStates.prepareCorporateActionSplit_spec hplan
              rcases optionCalls_cases Data AssetKey hkeys with
                hnil | ⟨option, hoption, hkey, hcalls⟩
              · rw [hnil]; exact .inl (by simp)
              · obtain ⟨planned, planned', hmem, hplanned, hid, hstrike⟩ := hplans option hoption
                -- The plan was made of this very option.
                have hfound : self.instruments[i]? = some planned := by
                  rw [← hkey]; exact List.mem_zipIdx_iff_getElem?.1 hmem
                obtain rfl : state = planned := Option.some.inj (hget.symm.trans hfound)
                obtain rfl : contract = planned' := by
                  rw [hkind] at hplanned; exact InstrumentKind.option.inj hplanned
                refine .inr ⟨id, key, ratio, policy, time, option.positions, rfl,
                  optionSplitAdjustInPlace_iff.1 hadjust, hid, ?_⟩
                rw [hcalls, hstrike]
            · rw [if_neg hadjust]
              exact .inl (by simp)
  · refine .inl (forall_callsOn ?_ rfl ?_ ?_ ?_ ?_)
    · intro request _
      cases request <;> rfl
    · intro account _
      exact forall_accountCalls (fun _ => rfl) (fun _ _ => rfl) (fun _ => rfl)
        (fun _ _ _ => rfl) (fun _ => rfl) rfl rfl
    · exact fun _ => rfl
    · intro key _
      exact forall_expiryCalls (fun _ _ => rfl) (fun _ _ _ _ => rfl) rfl
    · intro id key kind policy time heq
      exact absurd ⟨id, key, kind, policy, time, heq⟩ hcorporate

end Option

/-! ## What a refused action reports -/

/-- The action on the instrument at `key` was refused, or had been applied to it before. -/
def EngineOutput.refuses {AssetKey : Type} (key : InstrumentIndex) : EngineOutput AssetKey → Bool
  | .unsupportedCorporateAction .. => true
  | .corporateActionAlreadyProcessed instrument _ _ => instrument = key
  | _ => false

section Refused

variable {Data AssetKey : Type} [DecimalRange] {key : InstrumentIndex}

theorem refuses_commitEquityPosition {time : DateTime} {lastPrice : Option Decimal}
    {s : InstrumentState Data ExchangeIndex AssetKey InstrumentIndex}
    {e : PositionId × PreparedSplit} :
    ∀ output ∈ (s.commitEquityPosition key time lastPrice e).2, output.refuses key = false := by
  intro output houtput
  unfold InstrumentState.commitEquityPosition at houtput
  split at houtput
  · exact absurd houtput (List.not_mem_nil)
  · rename_i position hposition
    have hremainder : ∀ output ∈ (if 0 < (position.commitSplit e.2 lastPrice).2.remainder then
        [EngineOutput.splitRemainder key e.1 position.side
          (position.commitSplit e.2 lastPrice).2.remainder
          (position.commitSplit e.2 lastPrice).1.priceEntryAverage] else
        ([] : List (EngineOutput AssetKey))), output.refuses key = false := by
      intro output houtput
      split at houtput
      · cases List.mem_singleton.1 houtput; rfl
      · exact absurd houtput (List.not_mem_nil)
    simp only at houtput
    split at houtput
    · rcases List.mem_append.1 houtput with houtput | houtput
      · exact hremainder output houtput
      · obtain ⟨exit, -, rfl⟩ := Option.map_eq_some_iff.1 (Option.mem_toList.1 houtput)
        rfl
    · exact hremainder output houtput

theorem refuses_commitEquityPositions {time : DateTime} {lastPrice : Option Decimal}
    {s : InstrumentState Data ExchangeIndex AssetKey InstrumentIndex}
    (positions : List (PositionId × PreparedSplit)) :
    ∀ output ∈ (InstrumentState.commitEquityPositions key time lastPrice s positions).2,
      output.refuses key = false := by
  induction positions generalizing s with
  | nil => simp [InstrumentState.commitEquityPositions]
  | cons e positions ih =>
    intro output houtput
    rcases List.mem_append.1 houtput with houtput | houtput
    · exact refuses_commitEquityPosition output houtput
    · exact ih output houtput

variable [InstrumentDataState Data ExchangeIndex AssetKey InstrumentIndex]

theorem refuses_commitStandardOptionSplit {hash : HashOrder} {id : CorporateActionId}
    {ratio : SplitRatio} {self : EngineState Data AssetKey} (plans : List OptionSplitPlan) :
    ∀ output ∈ (self.commitStandardOptionSplit hash id ratio plans).2,
      output.refuses key = false := by
  induction plans generalizing self with
  | nil => simp [EngineState.commitStandardOptionSplit]
  | cons plan plans ih =>
    intro output houtput
    rw [EngineState.commitStandardOptionSplit] at houtput
    split at houtput
    · exact ih output houtput
    · rcases List.mem_append.1 houtput with houtput | houtput
      · rcases List.mem_append.1 houtput with houtput | houtput
        · obtain ⟨e, -, rfl⟩ := List.mem_map.1 houtput
          rfl
        · split at houtput
          · exact absurd houtput (List.not_mem_nil)
          · cases List.mem_singleton.1 houtput; rfl
      · exact ih output houtput

variable [DecidableEq AssetKey]

omit [DecimalRange] [InstrumentDataState Data ExchangeIndex AssetKey InstrumentIndex] in
theorem refuses_emitOptionIdentityChange {ratio : SplitRatio} {self : EngineState Data AssetKey} :
    ∀ output ∈ self.emitOptionIdentityChange key ratio, output.refuses key = false := by
  intro output houtput
  unfold EngineState.emitOptionIdentityChange at houtput
  split at houtput
  · exact absurd houtput (List.not_mem_nil)
  · simp only at houtput
    split at houtput
    · exact absurd houtput (List.not_mem_nil)
    · cases List.mem_singleton.1 houtput; rfl

theorem refuses_commitCorporateAction {hash : HashOrder} {time : DateTime}
    {id : CorporateActionId} {kind : CorporateActionKind} {ratio : SplitRatio} {plan : SplitPlan}
    {self : EngineState Data AssetKey}
    {target : InstrumentState Data ExchangeIndex AssetKey InstrumentIndex}
    (halready : ∀ option ∈ plan.optionsAlreadyAdjusted, option ≠ key) :
    ∀ output ∈ (self.commitCorporateAction hash time id key kind ratio target plan).2,
      output.refuses key = false := by
  intro output houtput
  unfold EngineState.commitCorporateAction at houtput
  simp only at houtput
  rcases List.mem_append.1 houtput with houtput | houtput
  · rcases List.mem_append.1 houtput with houtput | houtput
    · exact refuses_commitEquityPositions _ output houtput
    · split at houtput
      · exact absurd houtput (List.not_mem_nil)
      · cases List.mem_singleton.1 houtput; rfl
  · split at houtput
    · rcases List.mem_append.1 houtput with houtput | houtput
      · obtain ⟨option, hoption, rfl⟩ := List.mem_map.1 houtput
        simpa [EngineOutput.refuses] using halready option hoption
      · exact refuses_commitStandardOptionSplit _ output houtput
    · exact refuses_emitOptionIdentityChange output houtput

/-- **A refused action changes nothing.** -/
theorem processCorporateAction_refused {hash : HashOrder} {time : DateTime}
    {id : CorporateActionId} {kind : CorporateActionKind} {policy : SplitRoundingPolicy}
    {self : EngineState Data AssetKey}
    (h : (self.processCorporateAction hash time id key kind policy).2.any
      (EngineOutput.refuses key) = true) :
    (self.processCorporateAction hash time id key kind policy).1 = self := by
  unfold EngineState.processCorporateAction at h ⊢
  cases hget : self.instruments[key]? with
  | none => rfl
  | some state =>
    simp only [hget] at h ⊢
    split
    · rfl
    · rename_i hid
      rw [if_neg hid] at h
      cases htarget : self.instruments.splitEligibleTarget key with
      | none => rfl
      | some target =>
        obtain ⟨ratio⟩ := kind
        simp only [htarget] at h ⊢
        cases hplan : target.prepareCorporateActionSplit id ratio policy
            (optionSplitAdjustInPlace (.stockSplit ratio)) with
        | error reason => rfl
        | ok plan =>
          simp only [hplan] at h
          obtain ⟨output, houtput, hrefuses⟩ := List.any_eq_true.1 h
          have hclean := refuses_commitCorporateAction (fun option hoption => ?_) output houtput
          · rw [hclean] at hrefuses; cases hrefuses
          · obtain ⟨-, -, halready⟩ := InstrumentStates.prepareCorporateActionSplit_spec hplan
            obtain ⟨found, contract, hfound, hkind⟩ := halready option hoption
            exact (ne_of_splitEligibleTarget htarget hfound hkind).symm

end Refused

/-! ## Runs -/

namespace EngineState

variable {Data AssetKey : Type} {i : InstrumentIndex}

/-- The instrument at `i` has the action on its record. -/
def carries (self : EngineState Data AssetKey) (i : InstrumentIndex) (id : CorporateActionId) :
    Bool :=
  (self.instruments[i]?).any fun state => id ∈ state.corporateActionsProcessed

variable [DecidableEq AssetKey] [DecimalRange]
  [InstrumentDataState Data ExchangeIndex AssetKey InstrumentIndex]

omit [DecidableEq AssetKey] [DecimalRange] in
/-- The split an event puts on the record of the instrument at `i`, if it does, as the engine goes
    from `self` to `next`. -/
def recordedOn (i : InstrumentIndex) (self next : EngineState Data AssetKey) :
    EngineEvent Data AssetKey → List (CorporateActionId × SplitRatio)
  | .corporateAction id _ (.stockSplit ratio) _ _ =>
      if !self.carries i id && next.carries i id then [(id, ratio)] else []
  | _ => []

/-- The splits a run puts on the record of the instrument at `i`, with their ratios. -/
def splitsOn (i : InstrumentIndex) :
    EngineState Data AssetKey → List (Moment × EngineEvent Data AssetKey) →
      List (CorporateActionId × SplitRatio)
  | _, [] => []
  | self, e :: events =>
      let next := (self.process e.1 e.2).1
      recordedOn i self next e.2 ++ splitsOn i next events

/-- `state'` is the option of `state` after `splits`: each is standard and new to its record, and
    the strike is divided by each once. -/
structure SplitBy (state state' : InstrumentState Data ExchangeIndex AssetKey InstrumentIndex)
    (splits : List (CorporateActionId × SplitRatio)) : Prop where
  strike : state'.strike? =
    state.strike?.map fun strike => strike / (splits.map fun e => e.2.get).prod
  record : state'.corporateActionsProcessed =
    state.corporateActionsProcessed ∪ (splits.map Prod.fst).toFinset
  anew : ∀ e ∈ splits, e.1 ∉ state.corporateActionsProcessed
  once : (splits.map Prod.fst).Nodup
  standard : ∀ e ∈ splits, e.2.IsStandard

section SplitBy

variable {state state' state'' : InstrumentState Data ExchangeIndex AssetKey InstrumentIndex}

omit [DecidableEq AssetKey] [DecimalRange]
  [InstrumentDataState Data ExchangeIndex AssetKey InstrumentIndex]

theorem SplitBy.of_terms (h : state'.terms = state.terms) : SplitBy state state' [] := by
  have hinstrument : state'.instrument = state.instrument := congrArg Prod.fst h
  have hrecord : state'.corporateActionsProcessed = state.corporateActionsProcessed :=
    congrArg Prod.snd h
  refine ⟨?_, by simp [hrecord], by simp, by simp, by simp⟩
  unfold InstrumentState.strike?
  rw [hinstrument]
  cases state.instrument.kind <;> simp

/-- Splits by one list and then by another. -/
theorem SplitBy.trans {splits splits' : List (CorporateActionId × SplitRatio)}
    (h : SplitBy state state' splits) (h' : SplitBy state' state'' splits') :
    SplitBy state state'' (splits ++ splits') := by
  have hanew : ∀ e ∈ splits', e.1 ∉ state.corporateActionsProcessed ∧
      e.1 ∉ (splits.map Prod.fst).toFinset := by
    intro e he
    have hnot := h'.anew e he
    rw [h.record, Finset.mem_union, not_or] at hnot
    exact hnot
  constructor
  · rw [h'.strike, h.strike, Option.map_map, List.map_append, List.prod_append]
    congr 1
    funext strike
    exact div_div _ _ _
  · rw [h'.record, h.record, List.map_append, List.toFinset_append, Finset.union_assoc]
  · intro e he
    rcases List.mem_append.1 he with he | he
    · exact h.anew e he
    · exact (hanew e he).1
  · rw [List.map_append, List.nodup_append]
    refine ⟨h.once, h'.once, ?_⟩
    rintro _ hid id hid' rfl
    obtain ⟨e, he, rfl⟩ := List.mem_map.1 hid'
    exact (hanew e he).2 (List.mem_toFinset.2 hid)
  · intro e he
    rcases List.mem_append.1 he with he | he
    · exact h.standard e he
    · exact h'.standard e he

/-- The adjustment of an option is one split. -/
theorem SplitBy.of_adjustStrike {contract : OptionContract AssetKey} {id : CorporateActionId}
    {ratio : SplitRatio} (hkind : state.instrument.kind = .option contract)
    (hid : id ∉ state.corporateActionsProcessed) (hstandard : ratio.IsStandard)
    (h : state'.terms = (state.adjustStrike id (contract.strike / ratio.get)).terms) :
    SplitBy state state' [(id, ratio)] := by
  have hadjusted : (state.adjustStrike id (contract.strike / ratio.get)).terms =
      ({ state.instrument with
          kind := .option { contract with strike := contract.strike / ratio.get } },
        insert id state.corporateActionsProcessed) := by
    unfold InstrumentState.adjustStrike
    rw [hkind]
    rfl
  have hterms := h.trans hadjusted
  have hinstrument := congrArg Prod.fst hterms
  have hrecord := congrArg Prod.snd hterms
  simp only [InstrumentState.terms] at hinstrument hrecord
  constructor
  · unfold InstrumentState.strike?
    rw [hinstrument, hkind]
    simp
  · rw [hrecord]
    ext other
    simp
  · simpa using hid
  · simp
  · simpa using hstandard

end SplitBy

variable {self : EngineState Data AssetKey}
  {state : InstrumentState Data ExchangeIndex AssetKey InstrumentIndex}

omit [DecidableEq AssetKey] [DecimalRange] in
/-- An event that leaves the record records nothing. -/
theorem recordedOn_of_terms {next : EngineState Data AssetKey} {event : EngineEvent Data AssetKey}
    {state' : InstrumentState Data ExchangeIndex AssetKey InstrumentIndex}
    (hget : self.instruments[i]? = some state) (hget' : next.instruments[i]? = some state')
    (h : state'.terms = state.terms) : recordedOn i self next event = [] := by
  have hcarries : ∀ id, next.carries i id = self.carries i id := by
    intro id
    have hrecord : state'.corporateActionsProcessed = state.corporateActionsProcessed :=
      congrArg Prod.snd h
    rw [carries, carries, hget, hget', Option.any_some, Option.any_some, hrecord]
  unfold recordedOn
  split
  · rw [hcarries]
    simp
  · rfl

/-- **One event divides an option's strike by the split it records, if it records one.** -/
theorem splitBy_process (m : Moment) (event : EngineEvent Data AssetKey)
    (hget : self.instruments[i]? = some state) (hoption : state.strike?.isSome) :
    ∃ state', (self.process m event).1.instruments[i]? = some state' ∧
      SplitBy state state' (recordedOn i self (self.process m event).1 event) := by
  obtain ⟨contract, hkind⟩ : ∃ contract, state.instrument.kind = .option contract := by
    unfold InstrumentState.strike? at hoption
    cases hkind : state.instrument.kind with
    | option contract => exact ⟨contract, rfl⟩
    | spot | perpetual contract | future contract | cfd contract =>
      rw [hkind] at hoption; cases hoption
  have hafter : (self.process m event).1.instruments[i]? =
      some (state.calls (callsOn m self event i)) := by
    rw [getElem?_process, hget, Option.map_some]
  refine ⟨_, hafter, ?_⟩
  rcases callsOn_option_cases m event hget hkind with
    hleft | ⟨id, key, ratio, policy, time, positions, rfl, hstandard, hid, hcalls⟩
  · have hterms := InstrumentState.terms_calls (s := state) hleft
    rw [recordedOn_of_terms hget hafter hterms]
    exact .of_terms hterms
  · -- What follows the strike writes positions alone.
    have hterms : (state.calls (callsOn m self
        (.corporateAction id key (.stockSplit ratio) policy time) i)).terms =
        (state.adjustStrike id (contract.strike / ratio.get)).terms := by
      rw [hcalls]
      refine InstrumentState.terms_calls
        (s := state.adjustStrike id (contract.strike / ratio.get)) fun c hc => ?_
      obtain ⟨e, -, rfl⟩ := List.mem_map.1 hc
      rfl
    have hsplit := SplitBy.of_adjustStrike hkind hid hstandard hterms
    have hnew : (self.process m
        (.corporateAction id key (.stockSplit ratio) policy time)).1.carries i id = true := by
      rw [carries, hafter, Option.any_some, hsplit.record]
      simp
    have hold : self.carries i id = false := by
      rw [carries, hget, Option.any_some]
      simpa using hid
    simpa [recordedOn, hnew, hold] using hsplit

theorem splitBy_run (events : List (Moment × EngineEvent Data AssetKey))
    (hget : self.instruments[i]? = some state) (hoption : state.strike?.isSome) :
    ∃ state', (self.run events).instruments[i]? = some state' ∧
      SplitBy state state' (splitsOn i self events) := by
  induction events generalizing self state with
  | nil => exact ⟨state, hget, .of_terms rfl⟩
  | cons e events ih =>
    obtain ⟨state', hget', hsplit⟩ := splitBy_process e.1 e.2 hget hoption
    have hoption' : state'.strike?.isSome := by rw [hsplit.strike]; simpa using hoption
    obtain ⟨state'', hget'', hsplits⟩ := ih hget' hoption'
    exact ⟨state'', hget'', hsplit.trans hsplits⟩

end EngineState

section Runs

attribute [local instance] DecimalRange.exact

namespace Sample

def twoForOne : SplitRatio := ⟨2, by decide +kernel⟩

/-- The engine once the equity has split two for one. -/
def split : EngineState NoMarket Asset :=
  (engine .netting).run [(moment, splits twoForOne .floor)]

end Sample

end Runs

end Rustrade
