import Rustrade.Engine.Output

/-!
# Corporate actions

`processCorporateAction` applies a stock split to an equity and, where the split is standard, to
every option on it. It prepares the whole of it first, over every position and strike it would
change, and refuses the action there if any part cannot be applied; what is then committed cannot
fail. An action is recorded under its id on its target, and on each option it adjusted, so that
neither is adjusted by it twice.
-/

set_option autoImplicit false

namespace Rustrade

/-- What a standard split does to one option. -/
structure OptionSplitPlan where
  key : InstrumentIndex
  strikePostSplit : Decimal
  positions : List (PositionId × PreparedSplit)
  deriving DecidableEq

/-- What a split does: to each position of its target, to each option on the underlying, and the
    options that carry its id already. -/
structure SplitPlan where
  equityPositions : List (PositionId × PreparedSplit)
  options : List OptionSplitPlan
  optionsAlreadyAdjusted : List InstrumentIndex
  deriving DecidableEq

/-! ## Preparing -/

namespace InstrumentStates

variable {Data AssetKey : Type}

/-- A target of a split: an instrument of `states`, of an eligible kind. -/
structure SplitEligibleTarget (states : InstrumentStates Data AssetKey) where
  key : InstrumentIndex
  target : InstrumentState Data ExchangeIndex AssetKey InstrumentIndex
  found : states[key]? = some target
  eligible : target.instrument.kind.isSplitEligible = true

def splitEligibleTarget (self : InstrumentStates Data AssetKey) (key : InstrumentIndex) :
    Option (SplitEligibleTarget self) :=
  match found : self[key]? with
  | none => none
  | some target =>
      if eligible : target.instrument.kind.isSplitEligible = true then
        some ⟨key, target, found, eligible⟩
      else none

section Checked

variable [DecimalRange]

def prepareEquityPosition (ratio : SplitRatio) (policy : SplitRoundingPolicy)
    (e : PositionId × Position AssetKey InstrumentIndex) :
    Except UnsupportedCorporateActionReason (PositionId × PreparedSplit) :=
  match e.2.prepareSplit ratio policy with
  | some prepared => .ok (e.1, prepared)
  | none => .error .arithmeticOverflow

/-- Option contracts are held whole, and scale without rounding. -/
def prepareOptionPosition (ratio : SplitRatio)
    (e : PositionId × Position AssetKey InstrumentIndex) :
    Except UnsupportedCorporateActionReason (PositionId × PreparedSplit) :=
  if !Decimal.isWhole e.2.quantityAbs then .error .positionStateInvalid
  else prepareEquityPosition ratio .fractional e

def prepareOption (ratio : SplitRatio) (key : InstrumentIndex) (contract : OptionContract AssetKey)
    (state : InstrumentState Data ExchangeIndex AssetKey InstrumentIndex) :
    Except UnsupportedCorporateActionReason OptionSplitPlan :=
  match Decimal.checkedDiv contract.strike ratio.get with
  | none => .error .arithmeticOverflow
  | some strikePostSplit =>
      (state.position.positions.entries.mapM (prepareOptionPosition ratio)).map fun positions =>
        ⟨key, strikePostSplit, positions⟩

/-- The options `isOn` picks: a plan for each, or its key if it carries `id`. -/
def prepareOptions (id : CorporateActionId) (ratio : SplitRatio)
    (isOn : InstrumentState Data ExchangeIndex AssetKey InstrumentIndex → Bool) :
    List (InstrumentState Data ExchangeIndex AssetKey InstrumentIndex × InstrumentIndex) →
      Except UnsupportedCorporateActionReason (List OptionSplitPlan × List InstrumentIndex)
  | [] => .ok ([], [])
  | (state, key) :: rest =>
      match state.instrument.kind with
      | .option contract =>
          if !isOn state then prepareOptions id ratio isOn rest
          else if id ∈ state.corporateActionsProcessed then
            (prepareOptions id ratio isOn rest).map fun plans => (plans.1, key :: plans.2)
          else
            (prepareOption ratio key contract state).bind fun plan =>
              (prepareOptions id ratio isOn rest).map fun plans => (plan :: plans.1, plans.2)
      | _ => prepareOptions id ratio isOn rest

/-- The whole of a split, nothing changed: its target has to be the only eligible instrument on
    its underlying, and all of its arithmetic has to fit. -/
def SplitEligibleTarget.prepareCorporateActionSplit [DecidableEq AssetKey]
    {states : InstrumentStates Data AssetKey} (self : SplitEligibleTarget states)
    (id : CorporateActionId) (ratio : SplitRatio) (policy : SplitRoundingPolicy)
    (adjustOptionsInPlace : Bool) : Except UnsupportedCorporateActionReason SplitPlan :=
  let base := self.target.instrument.underlying.base
  let quote := self.target.instrument.underlying.quote
  let exchange := self.target.instrument.exchange
  if states.zipIdx.any fun e =>
      e.2 ≠ self.key && e.1.isSplitEligibleOnUnderlying base quote exchange then
    .error .ambiguousSplitTarget
  else
    (self.target.position.positions.entries.mapM (prepareEquityPosition ratio policy)).bind
      fun equityPositions =>
        if !adjustOptionsInPlace then .ok ⟨equityPositions, [], []⟩
        else
          (prepareOptions id ratio (fun state => state.isOptionOnUnderlying base quote exchange)
            states.zipIdx).map fun plans => ⟨equityPositions, plans.1, plans.2⟩

end Checked

end InstrumentStates

/-- A standard split adjusts the options in place, and any other leaves them. -/
def classifyOptionSplit (kind : CorporateActionKind) : Except (Option SplitAdjustmentKind) Bool :=
  match kind.splitKind with
  | some .standard => .ok true
  | some .nonStandard => .ok false
  | other => .error other

/-- What is not classified is taken for non-standard. -/
def optionSplitAdjustInPlace (kind : CorporateActionKind) : Bool :=
  match classifyOptionSplit kind with
  | .ok adjust => adjust
  | .error _ => false

/-! ## Committing -/

def snapshotOpenOrdersAtSplit {ExchangeKey InstrumentKey : Type} (hash : HashOrder)
    (orders : Orders ExchangeKey InstrumentKey) : List OpenOrderAtSplit :=
  (hash.arrange orders.tracked.entries).map fun e => ⟨e.2.key.cid, e.2.price, e.2.quantity⟩

namespace InstrumentState

variable {Data ExchangeKey AssetKey : Type} [DecimalRange]

/-- Write a prepared split to the position at `positionId`. -/
def commitPosition (self : InstrumentState Data ExchangeKey AssetKey InstrumentIndex)
    (lastPrice : Option Decimal) (e : PositionId × PreparedSplit) :
    InstrumentState Data ExchangeKey AssetKey InstrumentIndex :=
  { self with
    position := { self.position with
      positions := self.position.positions.modify e.1 fun position =>
        (position.commitSplit e.2 lastPrice).1 } }

/-- Drop the position at `positionId`, which a split has rounded to nothing, with the routing to
    it; an order of it may still rest, and would otherwise open it again. -/
def endSplitPosition (self : InstrumentState Data ExchangeKey AssetKey InstrumentIndex)
    (positionId : PositionId) (time : DateTime) :
    InstrumentState Data ExchangeKey AssetKey InstrumentIndex ×
      Option (PositionExited AssetKey InstrumentIndex) :=
  match self.position.removeEnded positionId time with
  | (_, none) => (self, none)
  | (manager, some closed) =>
      let exit := { closed.intoExited none with positionId := positionId, timeExit := time }
      ({ self with
          position := manager
          tearSheet := self.tearSheet.updateFromPosition exit
          positionIds := self.positionIds.retain fun _ mapped => mapped ≠ positionId },
        some exit)

/-- Commit one position of the equity: its fraction of a share is disposed of, and the position
    with it if nothing else is left. -/
def commitEquityPosition (key : InstrumentIndex) (time : DateTime) (lastPrice : Option Decimal)
    (self : InstrumentState Data ExchangeKey AssetKey InstrumentIndex)
    (e : PositionId × PreparedSplit) :
    InstrumentState Data ExchangeKey AssetKey InstrumentIndex × List (EngineOutput AssetKey) :=
  match self.position.positions.get? e.1 with
  -- The plan is of these very positions, and one that is missing panics in the source.
  | none => (self, [])
  | some position =>
      let committed := position.commitSplit e.2 lastPrice
      let self := self.commitPosition lastPrice e
      let remainder : List (EngineOutput AssetKey) :=
        if 0 < committed.2.remainder then
          [.splitRemainder key e.1 position.side committed.2.remainder
            committed.1.priceEntryAverage]
        else []
      if committed.1.quantityAbs = 0 then
        let ended := self.endSplitPosition e.1 time
        (ended.1, remainder ++ (ended.2.map EngineOutput.positionExit).toList)
      else (self, remainder)

def commitEquityPositions (key : InstrumentIndex) (time : DateTime) (lastPrice : Option Decimal) :
    InstrumentState Data ExchangeKey AssetKey InstrumentIndex →
      List (PositionId × PreparedSplit) →
      InstrumentState Data ExchangeKey AssetKey InstrumentIndex × List (EngineOutput AssetKey)
  | self, [] => (self, [])
  | self, e :: es =>
      let committed := commitEquityPosition key time lastPrice self e
      let rest := commitEquityPositions key time lastPrice committed.1 es
      (rest.1, committed.2 ++ rest.2)

omit [DecimalRange] in
/-- Write an option's new strike, and the id of the action on its own record. -/
def adjustStrike (self : InstrumentState Data ExchangeKey AssetKey InstrumentIndex)
    (id : CorporateActionId) (strikePostSplit : Decimal) :
    InstrumentState Data ExchangeKey AssetKey InstrumentIndex :=
  match self.instrument.kind with
  | .option contract =>
      { self with
        instrument := { self.instrument with
          kind := .option { contract with strike := strikePostSplit } }
        corporateActionsProcessed := insert id self.corporateActionsProcessed }
  -- Only options are planned, and any other kind panics in the source.
  | _ => self

omit [DecimalRange] in
/-- The strike of an option. -/
def strike? (self : InstrumentState Data ExchangeKey AssetKey InstrumentIndex) :
    Option Decimal :=
  match self.instrument.kind with
  | .option contract => some contract.strike
  | _ => none

/-- Commit what is planned for one option; one that is not held has its strike and its resting
    orders alone. -/
def commitOptionSplit [InstrumentDataState Data ExchangeKey AssetKey InstrumentIndex]
    (hash : HashOrder) (id : CorporateActionId) (ratio : SplitRatio) (plan : OptionSplitPlan)
    (self : InstrumentState Data ExchangeKey AssetKey InstrumentIndex) :
    InstrumentState Data ExchangeKey AssetKey InstrumentIndex × List (EngineOutput AssetKey) :=
  let adjusted := self.adjustStrike id plan.strikePostSplit
  let orders := snapshotOpenOrdersAtSplit hash adjusted.orders
  let openOrders : List (EngineOutput AssetKey) :=
    if orders.isEmpty then [] else [.openOrdersAtSplit plan.key orders]
  let lastPrice := adjusted.lastPrice
  (plan.positions.foldl (fun self e => self.commitPosition lastPrice e) adjusted,
    plan.positions.map (fun e => .optionPositionAdjustedForSplit plan.key ratio
      (self.strike?.getD 0) plan.strikePostSplit e.1) ++ openOrders)

end InstrumentState

namespace EngineState

variable {Data AssetKey : Type} [DecimalRange]
  [InstrumentDataState Data ExchangeIndex AssetKey InstrumentIndex]

def commitStandardOptionSplit (hash : HashOrder) (id : CorporateActionId) (ratio : SplitRatio) :
    EngineState Data AssetKey → List OptionSplitPlan →
      EngineState Data AssetKey × List (EngineOutput AssetKey)
  | self, [] => (self, [])
  | self, plan :: plans =>
      match self.instruments[plan.key]? with
      | none => commitStandardOptionSplit hash id ratio self plans
      | some state =>
          let committed := state.commitOptionSplit hash id ratio plan
          let rest := commitStandardOptionSplit hash id ratio
            (self.modify plan.key fun _ => committed.1) plans
          (rest.1, committed.2 ++ rest.2)

omit [DecimalRange] [InstrumentDataState Data ExchangeIndex AssetKey InstrumentIndex] in
/-- Signal the options a non-standard split leaves at its old terms, if any is held. -/
def emitOptionIdentityChange [DecidableEq AssetKey] (self : EngineState Data AssetKey)
    (key : InstrumentIndex) (ratio : SplitRatio) : List (EngineOutput AssetKey) :=
  match self.instruments[key]? with
  | none => []
  | some equity =>
      let affected := (self.instruments.zipIdx.filter fun e =>
        e.1.isAffectedOptionOnUnderlying equity.instrument.underlying.base
          equity.instrument.underlying.quote equity.instrument.exchange).map Prod.snd
      if affected.isEmpty then []
      else [.optionPositionsRequireIdentityChange key ratio affected]

/-- Steps 3 to 6: commit a prepared split to the target at `key`, of state `target`, and to the
    options on it, and record the action. -/
def commitCorporateAction [DecidableEq AssetKey] (hash : HashOrder) (time : DateTime)
    (self : EngineState Data AssetKey) (id : CorporateActionId) (key : InstrumentIndex)
    (kind : CorporateActionKind) (ratio : SplitRatio)
    (target : InstrumentState Data ExchangeIndex AssetKey InstrumentIndex) (plan : SplitPlan) :
    EngineState Data AssetKey × List (EngineOutput AssetKey) :=
  let restingOrders := snapshotOpenOrdersAtSplit hash target.orders
  let equity := InstrumentState.commitEquityPositions key time target.lastPrice target
    plan.equityPositions
  let self := self.modify key fun _ => equity.1
  let openOrders : List (EngineOutput AssetKey) :=
    if restingOrders.isEmpty then [] else [.openOrdersAtSplit key restingOrders]
  let options :=
    if optionSplitAdjustInPlace kind then
      let committed := self.commitStandardOptionSplit hash id ratio plan.options
      (committed.1, plan.optionsAlreadyAdjusted.map (fun option =>
        .corporateActionAlreadyProcessed option kind id) ++ committed.2)
    else (self, self.emitOptionIdentityChange key ratio)
  (options.1.modify key fun state =>
      { state with corporateActionsProcessed := insert id state.corporateActionsProcessed },
    equity.2 ++ openOrders ++ options.2)

/-- Apply a corporate action to the instrument at `key` and report what it did, or refuse it and
    change nothing. -/
def processCorporateAction [DecidableEq AssetKey] (hash : HashOrder) (time : DateTime)
    (self : EngineState Data AssetKey) (id : CorporateActionId) (key : InstrumentIndex)
    (kind : CorporateActionKind) (policy : SplitRoundingPolicy) :
    EngineState Data AssetKey × List (EngineOutput AssetKey) :=
  match self.instruments[key]? with
  | none => (self, [.unsupportedCorporateAction key kind .unknownInstrument])
  | some state =>
      if id ∈ state.corporateActionsProcessed then
        (self, [.corporateActionAlreadyProcessed key kind id])
      else
        match self.instruments.splitEligibleTarget key with
        | none => (self, [.unsupportedCorporateAction key kind .instrumentKindNotSupported])
        | some target =>
            match kind with
            | .stockSplit ratio =>
                match target.prepareCorporateActionSplit id ratio policy
                  (optionSplitAdjustInPlace kind) with
                | .error reason => (self, [.unsupportedCorporateAction key kind reason])
                | .ok plan => self.commitCorporateAction hash time id key kind ratio state plan

end EngineState

end Rustrade
