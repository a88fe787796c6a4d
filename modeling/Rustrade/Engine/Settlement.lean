import Rustrade.Engine.Strikes
import Rustrade.InstrumentState.Sized
import Rustrade.Lib.Ensures

/-!
# Settlement fills of the engine's positions

From a start in which every position holds something, on the instrument it is filed under, every
run of the engine keeps both: an account event reaches the instrument its fill is of, a settlement
at expiry is a fill of the instrument that expires, and a split leaves of each position what it
prepared, or takes out what it rounds to nothing. So a settlement fill finds what it needs in every
state an engine reaches.
-/

set_option autoImplicit false

namespace Rustrade

/-! ## What a split prepares -/

namespace InstrumentStates

variable {Data AssetKey : Type} [DecimalRange] {id : CorporateActionId} {ratio : SplitRatio}

/-- A prepared split leaves something, and no more than its recorded maximum. -/
structure LeavesSized (prepared : PreparedSplit) : Prop where
  pos : 0 < prepared.quantityAbs
  le_max : prepared.quantityAbs ≤ prepared.quantityAbsMax

theorem prepareEquityPosition_spec {policy : SplitRoundingPolicy}
    {e : PositionId × Position AssetKey InstrumentIndex} {prepared : PositionId × PreparedSplit}
    (hsized : e.2.WellSized) (h : prepareEquityPosition ratio policy e = .ok prepared) :
    0 ≤ prepared.2.quantityAbs ∧ prepared.2.quantityAbs ≤ prepared.2.quantityAbsMax := by
  unfold prepareEquityPosition at h
  cases hprepared : e.2.prepareSplit ratio policy with
  | none => rw [hprepared] at h; cases h
  | some prepared =>
    rw [hprepared] at h
    cases h
    exact Position.prepareSplit_spec hsized hprepared

/-- A contract is scaled without rounding, so something of it is left. -/
theorem prepareOptionPosition_spec {e : PositionId × Position AssetKey InstrumentIndex}
    {prepared : PositionId × PreparedSplit} (hsized : e.2.WellSized)
    (h : prepareOptionPosition ratio e = .ok prepared) : LeavesSized prepared.2 := by
  unfold prepareOptionPosition at h
  split at h
  · cases h
  · refine ⟨?_, (prepareEquityPosition_spec hsized h).2⟩
    unfold prepareEquityPosition at h
    cases hprepared : e.2.prepareSplit ratio .fractional with
    | none => rw [hprepared] at h; cases h
    | some prepared =>
      rw [hprepared] at h
      cases h
      unfold Position.prepareSplit at hprepared
      simp only [Option.bind_eq_bind, Option.bind_eq_some_iff, Option.pure_def,
        Option.some.injEq] at hprepared
      obtain ⟨scaled, hscaled, average, -, quantityMax, -, rfl⟩ := hprepared
      show 0 < scaled
      rw [← Decimal.ofExact_eq_some hscaled]
      exact mul_pos hsized.pos ratio.pos

theorem prepareOption_sized {key : InstrumentIndex} {contract : OptionContract AssetKey}
    {state : InstrumentState Data ExchangeIndex AssetKey InstrumentIndex} {plan : OptionSplitPlan}
    (hsized : state.position.Represented) (h : prepareOption ratio key contract state = .ok plan) :
    ∀ e ∈ plan.positions, LeavesSized e.2 := by
  unfold prepareOption at h
  split at h
  · cases h
  · cases hpositions : state.position.positions.entries.mapM (prepareOptionPosition ratio) with
    | error reason => rw [hpositions] at h; cases h
    | ok positions =>
      rw [hpositions] at h
      cases h
      intro e he
      obtain ⟨held, hheld, hprepared⟩ := Except.mem_of_mapM_eq_ok hpositions e he
      exact prepareOptionPosition_spec
        (hsized held.1 held.2 (IndexMap.get?_eq_some_iff.2 hheld)) hprepared

theorem prepareOptions_sized
    {isOn : InstrumentState Data ExchangeIndex AssetKey InstrumentIndex → Bool}
    (states : List (InstrumentState Data ExchangeIndex AssetKey InstrumentIndex × InstrumentIndex))
    {plans : List OptionSplitPlan × List InstrumentIndex}
    (hsized : ∀ e ∈ states, e.1.position.Represented)
    (h : prepareOptions id ratio isOn states = .ok plans) :
    ∀ plan ∈ plans.1, ∀ e ∈ plan.positions, LeavesSized e.2 := by
  induction states generalizing plans with
  | nil =>
    cases h
    exact fun plan hplan => absurd hplan List.not_mem_nil
  | cons e states ih =>
    obtain ⟨state, key⟩ := e
    have ih : ∀ {rest}, prepareOptions id ratio isOn states = .ok rest →
        ∀ plan ∈ rest.1, ∀ e ∈ plan.positions, LeavesSized e.2 :=
      ih fun e he => hsized e (List.mem_cons_of_mem _ he)
    rw [prepareOptions] at h
    cases hkind : state.instrument.kind with
    | spot | perpetual contract | future contract | cfd contract =>
      rw [hkind] at h
      exact ih h
    | option contract =>
      rw [hkind] at h
      simp only at h
      split at h
      · exact ih h
      · split at h
        · cases hrest : prepareOptions id ratio isOn states with
          | error reason => rw [hrest] at h; cases h
          | ok rest =>
            rw [hrest] at h
            cases h
            exact fun other hother => ih hrest other hother
        · cases hplan : prepareOption ratio key contract state with
          | error reason => rw [hplan] at h; cases h
          | ok plan =>
            cases hrest : prepareOptions id ratio isOn states with
            | error reason => rw [hplan, hrest] at h; cases h
            | ok rest =>
              rw [hplan, hrest] at h
              cases h
              intro other hother
              rcases List.mem_cons.1 hother with rfl | hother
              · exact prepareOption_sized (hsized _ (List.mem_cons_self ..)) hplan
              · exact ih hrest other hother

theorem prepareCorporateActionSplit_sized [DecidableEq AssetKey]
    {states : InstrumentStates Data AssetKey} {target : SplitEligibleTarget states}
    {policy : SplitRoundingPolicy} {adjustOptionsInPlace : Bool} {plan : SplitPlan}
    (hsized : ∀ (i : InstrumentIndex)
      (state : InstrumentState Data ExchangeIndex AssetKey InstrumentIndex),
      states[i]? = some state → state.position.Represented)
    (h : target.prepareCorporateActionSplit id ratio policy adjustOptionsInPlace = .ok plan) :
    (∀ e ∈ plan.equityPositions,
      0 ≤ e.2.quantityAbs ∧ e.2.quantityAbs ≤ e.2.quantityAbsMax) ∧
      ∀ option ∈ plan.options, ∀ e ∈ option.positions, LeavesSized e.2 := by
  unfold SplitEligibleTarget.prepareCorporateActionSplit at h
  simp only at h
  split at h
  · cases h
  · cases hequity : target.target.position.positions.entries.mapM
        (prepareEquityPosition ratio policy) with
    | error reason => rw [hequity] at h; cases h
    | ok positions =>
      have hpositions : ∀ e ∈ positions,
          0 ≤ e.2.quantityAbs ∧ e.2.quantityAbs ≤ e.2.quantityAbsMax := by
        intro e he
        obtain ⟨held, hheld, hprepared⟩ := Except.mem_of_mapM_eq_ok hequity e he
        exact prepareEquityPosition_spec (hsized target.key target.target target.found held.1 held.2
          (IndexMap.get?_eq_some_iff.2 hheld)) hprepared
      rw [hequity] at h
      simp only [Except.bind] at h
      split at h
      · cases h
        exact ⟨hpositions, fun option hoption => absurd hoption List.not_mem_nil⟩
      · cases hoptions : prepareOptions id ratio (fun state => state.isOptionOnUnderlying
            target.target.instrument.underlying.base target.target.instrument.underlying.quote
            target.target.instrument.exchange) states.zipIdx with
        | error reason => rw [hoptions] at h; cases h
        | ok plans =>
          rw [hoptions] at h
          cases h
          refine ⟨hpositions, prepareOptions_sized _ (fun e he => ?_) hoptions⟩
          exact hsized e.2 e.1 (List.mem_zipIdx_iff_getElem?.1 he)

end InstrumentStates

/-! ## Calls -/

section Calls

variable {Data AssetKey : Type} [DecimalRange]
  [InstrumentDataState Data ExchangeIndex AssetKey InstrumentIndex]

/-- The call is no fill of another instrument, and a split it commits leaves of an equity no less
    than nothing, and of an option more. -/
def Call.Fits (i : InstrumentIndex) : Call Data AssetKey → Prop
  | .op own => own.FillsOn i
  | .settlePosition key _ _ _ => key = i
  | .commitEquityPosition _ _ e => 0 ≤ e.2.quantityAbs ∧ e.2.quantityAbs ≤ e.2.quantityAbsMax
  | .commitPosition e => InstrumentStates.LeavesSized e.2
  | .processAccount _ | .recordFillFeeUnconverted | .markExpired _ | .adjustStrike ..
  | .recordCorporateAction _ => True

end Calls

namespace InstrumentState

variable {Data AssetKey : Type} [DecimalRange] {i : InstrumentIndex}
  {s : InstrumentState Data ExchangeIndex AssetKey InstrumentIndex}

theorem SizedOn.commitPosition {lastPrice : Option Decimal} {e : PositionId × PreparedSplit}
    (h : s.SizedOn i) (he : InstrumentStates.LeavesSized e.2) :
    (s.commitPosition lastPrice e).SizedOn i := by
  refine ⟨h.position.modify fun position _ => ?_, h.waiting⟩
  obtain ⟨hquantity, hmax, -⟩ := position.commitSplit_spec e.2 lastPrice
  refine ⟨⟨by rw [hquantity]; exact he.pos, by rw [hquantity, hmax]; exact he.le_max⟩, ?_⟩
  unfold Position.commitSplit
  cases lastPrice <;> rfl

/-- What is left of nothing is taken out. -/
theorem SizedOn.commitEquityPosition {key : InstrumentIndex} {time : DateTime}
    {lastPrice : Option Decimal} {e : PositionId × PreparedSplit} (h : s.SizedOn i)
    (hnonneg : 0 ≤ e.2.quantityAbs) (hle : e.2.quantityAbs ≤ e.2.quantityAbsMax) :
    (InstrumentState.commitEquityPosition key time lastPrice s e).1.SizedOn i := by
  unfold InstrumentState.commitEquityPosition
  cases hget : s.position.positions.get? e.1 with
  | none => exact h
  | some position =>
    simp only [(position.commitSplit_spec e.2 lastPrice).1]
    by_cases hzero : e.2.quantityAbs = 0
    · rw [if_pos hzero]
      have hcommitted : (s.commitPosition lastPrice e).position.positions.get? e.1 =
          some (position.commitSplit e.2 lastPrice).1 := by
        show (s.position.positions.modify e.1 _).get? e.1 = _
        rw [IndexMap.get?_modify, if_pos rfl, hget]
        rfl
      have helsewhere : ∀ otherId, otherId ≠ e.1 →
          (s.commitPosition lastPrice e).position.positions.get? otherId =
            s.position.positions.get? otherId := by
        intro otherId hne
        show (s.position.positions.modify e.1 _).get? otherId = _
        rw [IndexMap.get?_modify, if_neg hne]
      have hkept : ∀ otherId next,
          ((s.commitPosition lastPrice e).endSplitPosition e.1 time).1.position.positions.get?
            otherId = some next → s.position.positions.get? otherId = some next := by
        intro otherId next hnext
        unfold endSplitPosition PositionManager.removeEnded at hnext
        rw [hcommitted] at hnext
        simp only [PositionManager.positions_recordPositionEnd, IndexMap.get?_remove] at hnext
        split at hnext
        · cases hnext
        · rename_i hne
          rw [← helsewhere otherId hne]
          exact hnext
      refine ⟨⟨fun otherId next hnext => h.position.represented otherId next (hkept _ _ hnext),
        fun otherId next hnext => h.position.on otherId next (hkept _ _ hnext)⟩, ?_⟩
      unfold endSplitPosition
      split <;> exact h.waiting
    · rw [if_neg hzero]
      exact h.commitPosition ⟨lt_of_le_of_ne hnonneg (Ne.symm hzero), hle⟩

variable [DecidableEq AssetKey]

theorem SizedOn.settlePosition {key : InstrumentIndex} {time : DateTime} {price : Decimal}
    {positionId : PositionId} (h : s.SizedOn i) (hkey : key = i) :
    (InstrumentState.settlePosition key time price s positionId).1.SizedOn i := by
  unfold InstrumentState.settlePosition
  cases hget : s.position.positions.get? positionId with
  | none => exact h
  | some position =>
    have hmanager : (s.position.updateFromTradeWithId
        (s.settlementTrade key (settlementTag positionId time) time price position) positionId
        s.instrument.kind.contractSize).1.SizedOn i := h.position.updateFromTradeWithId hkey
    simp only
    split <;> exact ⟨hmanager, h.waiting⟩

variable [InstrumentDataState Data ExchangeIndex AssetKey InstrumentIndex]

theorem SizedOn.call {c : Call Data AssetKey} (h : s.SizedOn i) (hfits : c.Fits i) :
    (s.call c).SizedOn i := by
  cases c with
  | op op => exact h.step hfits
  | processAccount event => exact h.congr rfl fun _ => id
  | recordFillFeeUnconverted => exact h.noted _
  | settlePosition key time price positionId => exact h.settlePosition hfits
  | markExpired hash => exact ⟨h.position, fun fill hfill => absurd hfill List.not_mem_nil⟩
  | commitEquityPosition key time e => exact h.commitEquityPosition hfits.1 hfits.2
  | adjustStrike id strike =>
    show (s.adjustStrike id strike).SizedOn i
    unfold InstrumentState.adjustStrike
    split
    · exact ⟨h.position, h.waiting⟩
    · exact h
  | commitPosition e => exact h.commitPosition hfits
  | recordCorporateAction action => exact h.congr rfl fun _ => id

theorem SizedOn.calls {calls : List (Call Data AssetKey)} (h : s.SizedOn i)
    (hfits : ∀ c ∈ calls, c.Fits i) : (s.calls calls).SizedOn i := by
  have hstep : ∀ (state : InstrumentState Data ExchangeIndex AssetKey InstrumentIndex)
      (c : Call Data AssetKey), c.Fits i → state.SizedOn i → (state.call c).SizedOn i :=
    fun _ _ hc hs => hs.call hc
  exact Transition.run_invariant_of (SizedOn i) hstep hfits h

end InstrumentState

/-! ## Events -/

namespace EngineState

variable {Data AssetKey : Type} [DecidableEq AssetKey] [DecimalRange]
  [InstrumentDataState Data ExchangeIndex AssetKey InstrumentIndex]
  {self : EngineState Data AssetKey} {m : Moment} {i : InstrumentIndex}

/-- Every position of every instrument holds something, on that instrument, and every fill that
    waits is of it. -/
def Sized (self : EngineState Data AssetKey) : Prop :=
  ∀ (i : InstrumentIndex) (state : InstrumentState Data ExchangeIndex AssetKey InstrumentIndex),
    self.instruments[i]? = some state → state.SizedOn i

theorem fits_accountCalls {hash : HashOrder}
    {event : AccountEvent ExchangeIndex AssetKey InstrumentIndex} :
    ∀ c ∈ accountCalls hash self event i, c.Fits i := by
  intro c hc
  by_cases hother : ∃ trade, event.kind = .trade trade ∧ trade.instrument ≠ i
  · obtain ⟨trade, hkind, hne⟩ := hother
    unfold accountCalls at hc
    rw [hkind] at hc
    simp only [if_neg hne] at hc
    exact absurd hc List.not_mem_nil
  · have hon : ∀ printed valued, event.kind = .trade printed →
        (EngineState.valuedTrade printed valued : Trade AssetKey InstrumentIndex).instrument = i := by
      intro printed valued hkind
      rw [instrument_valuedTrade]
      by_contra hne
      exact hother ⟨printed, hkind, hne⟩
    exact forall_accountCalls (P := Call.Fits i) (fun _ => trivial) (fun _ _ => trivial)
      (fun _ => trivial) hon (fun _ => trivial) trivial trivial c hc

theorem fits_corporateActionCalls (h : self.Sized) {time : DateTime} {id : CorporateActionId}
    {key : InstrumentIndex} {kind : CorporateActionKind} {policy : SplitRoundingPolicy} :
    ∀ c ∈ corporateActionCalls time self id key kind policy i, c.Fits i := by
  intro c hc
  unfold corporateActionCalls at hc
  split at hc
  · exact absurd hc List.not_mem_nil
  · split at hc
    · exact absurd hc List.not_mem_nil
    · split at hc
      · exact absurd hc List.not_mem_nil
      · split at hc
        · exact absurd hc List.not_mem_nil
        · rename_i plan hplan
          obtain ⟨hequity, hoptions⟩ := InstrumentStates.prepareCorporateActionSplit_sized
            (fun i state hget => (h i state hget).position.represented) hplan
          rcases List.mem_append.1 hc with hc | hc
          · rcases List.mem_append.1 hc with hc | hc
            · split at hc
              · obtain ⟨e, he, rfl⟩ := List.mem_map.1 hc
                exact hequity e he
              · exact absurd hc List.not_mem_nil
            · split at hc
              · obtain ⟨plan, hplan, hc⟩ := List.mem_flatMap.1 hc
                split at hc
                · rcases List.mem_cons.1 hc with rfl | hc
                  · exact trivial
                  · obtain ⟨e, he, rfl⟩ := List.mem_map.1 hc
                    exact hoptions plan hplan e he
                · exact absurd hc List.not_mem_nil
              · exact absurd hc List.not_mem_nil
          · split at hc
            · cases List.mem_singleton.1 hc
              exact trivial
            · exact absurd hc List.not_mem_nil

theorem fits_callsOn (h : self.Sized) {event : EngineEvent Data AssetKey} :
    ∀ c ∈ callsOn m self event i, c.Fits i := by
  have hsent : ∀ request ∈ m.actioned ++ m.algoOrders,
      (request.callOn m.time : Call Data AssetKey).Fits i := by
    intro request _
    cases request <;> exact trivial
  intro c hc
  exact forall_callsOn (P := Call.Fits i) hsent trivial (fun _ _ => fits_accountCalls)
    (fun _ => trivial)
    (fun key _ => forall_expiryCalls (P := Call.Fits i) (fun _ _ => trivial)
      (fun hkey _ _ _ => hkey) trivial)
    (fun _ _ _ _ _ _ => fits_corporateActionCalls h) c hc

/-- **Every event keeps every position on its instrument, and sized.** -/
theorem Sized.process (h : self.Sized) {event : EngineEvent Data AssetKey} :
    (self.process m event).1.Sized := by
  intro i state hget
  rw [getElem?_process] at hget
  obtain ⟨before, hbefore, rfl⟩ := Option.map_eq_some_iff.1 hget
  exact (h i before hbefore).calls (fits_callsOn h)

theorem Sized.run (h : self.Sized) (events : List (Moment × EngineEvent Data AssetKey)) :
    (self.run events).Sized :=
  Transition.run_invariant Sized (fun _ _ hs => hs.process) events h

omit [DecidableEq AssetKey] [DecimalRange]
  [InstrumentDataState Data ExchangeIndex AssetKey InstrumentIndex] in
/-- An engine whose positions were seeded, and that has seen no fill yet. -/
theorem sized_of_seeded
    (h : ∀ (i : InstrumentIndex)
      (state : InstrumentState Data ExchangeIndex AssetKey InstrumentIndex),
      self.instruments[i]? = some state → state.pendingFills = [] ∧
        ∃ mode quote contractSize seeds,
          PositionManager.seeded mode i quote contractSize seeds = .ok state.position) :
    self.Sized := by
  intro i state hget
  obtain ⟨hwaiting, mode, quote, contractSize, seeds, hseeded⟩ := h i state hget
  refine ⟨PositionManager.sizedOn_seeded hseeded, fun fill hfill => ?_⟩
  rw [hwaiting] at hfill
  exact absurd hfill List.not_mem_nil

/-- **In every state an engine reaches, a settlement fill of a hedged instrument only reduces, just
    where its base fee leaves the position it settles within bounds.** -/
theorem settlement_only_reduces_iff (hstart : self.Sized)
    (events : List (Moment × EngineEvent Data AssetKey))
    {state : InstrumentState Data ExchangeIndex AssetKey InstrumentIndex}
    (hget : (self.run events).instruments[i]? = some state)
    (hmode : state.position.mode = .hedging) {hash : HashOrder}
    {trade : Trade AssetKey InstrumentIndex} (htrade : trade.instrument = i)
    (hcontract : state.settlementLeg trade.origin = some .contract)
    (hnone : state.OfNoOrder hash trade) :
    state.OnlyReduces trade (state.updateFromTrade hash trade).1 ↔ state.FeeLeavesWithin trade := by
  have hsized := hstart.run events i state hget
  apply InstrumentState.onlyReduces_iff hmode hcontract hnone hsized.position.represented
  intro positionId position hopen
  rw [htrade]
  exact hsized.position.on positionId position hopen

end EngineState

/-! ## A liquidation that takes its fee in base -/

section Runs

attribute [local instance] DecimalRange.exact

namespace Sample

/-- Ten held long at a hundred. -/
def tenSeed : PositionSeed := ⟨⟨"equity"⟩, .buy, 10, 100, 0, some ⟨"p-1"⟩, 0, 0, 0⟩

def longTen : PositionManager Asset InstrumentIndex :=
  { mode := .hedging
    positions := IndexMap.empty.insert ⟨"p-1"⟩ (tenSeed.position 0 .usd 1)
    timeHistoryStart := some 0 }

def holdsTenEquity : InstrumentState NoMarket ExchangeIndex Asset InstrumentIndex :=
  { equity .hedging with position := longTen }

/-- An engine of the equity alone, with ten of it held. -/
def holdsTen : EngineState NoMarket Asset := ⟨.disabled, [⟨"venue"⟩], [holdsTenEquity]⟩

/-- The venue liquidates `quantity` of it, for a fee of a tenth in `asset`. -/
def liquidates (quantity : Decimal) (asset : Asset) : Trade Asset InstrumentIndex :=
  ⟨⟨"t-9"⟩, ⟨"v-9"⟩, 0, ⟨"trend"⟩, 1, .sell, 100, quantity, none, ⟨asset, 1 / 10, none⟩,
    .liquidation, none, none⟩

theorem sized_holdsTen : holdsTen.Sized := by
  apply EngineState.sized_of_seeded
  intro i state hget
  cases i with
  | zero =>
    cases hget
    have hseeded : PositionManager.seeded .hedging 0 .usd 1 [tenSeed] = .ok longTen := by
      decide +kernel
    exact ⟨rfl, .hedging, .usd, 1, [tenSeed], hseeded⟩
  | succ i => cases hget

end Sample

/-- Four of ten are liquidated, with the fee in quote. -/
theorem EngineState.settlement_only_reduces_iff_liquidated :
    Sample.holdsTenEquity.OnlyReduces (Sample.liquidates 4 .usd)
      (Sample.holdsTenEquity.updateFromTrade .insertion (Sample.liquidates 4 .usd)).1 := by
  have hnone : Sample.holdsTenEquity.OfNoOrder .insertion (Sample.liquidates 4 .usd) :=
    ⟨by decide +kernel, by decide +kernel, by decide +kernel, by decide +kernel⟩
  apply (EngineState.settlement_only_reduces_iff Sample.sized_holdsTen [] rfl rfl rfl rfl hnone).2
  intro positionId position _ _ htakes
  exact absurd htakes.asset (by decide +kernel)

/-- All ten are liquidated with the fee in the asset held, and a tenth is left short. -/
theorem EngineState.settlement_flips :
    Sample.holdsTenEquity.OfNoOrder .insertion (Sample.liquidates 10 .acme) ∧
      (((Sample.holdsTenEquity.updateFromTrade .insertion
        (Sample.liquidates 10 .acme)).1.position.positions.get? ⟨"p-1"⟩).map
          fun position => (position.side, position.quantityAbs)) = some (.sell, 1 / 10) ∧
      ¬ Sample.holdsTenEquity.OnlyReduces (Sample.liquidates 10 .acme)
        (Sample.holdsTenEquity.updateFromTrade .insertion (Sample.liquidates 10 .acme)).1 := by
  have hflipped : (((Sample.holdsTenEquity.updateFromTrade .insertion
      (Sample.liquidates 10 .acme)).1.position.positions.get? ⟨"p-1"⟩).map
        fun position => (position.side, position.quantityAbs)) = some (.sell, 1 / 10) := by
    decide +kernel
  refine ⟨⟨by decide +kernel, by decide +kernel, by decide +kernel, by decide +kernel⟩, hflipped, ?_⟩
  intro hreduces
  obtain ⟨next, hnext, hshort⟩ := Option.map_eq_some_iff.1 hflipped
  have hside := (hreduces.shrinks ⟨"p-1"⟩ (Sample.tenSeed.position 0 .usd 1) next rfl hnext).2
  have hsell : next.side = .sell := congrArg Prod.fst hshort
  rw [hsell] at hside
  cases hside

end Runs

end Rustrade
