import Rustrade.Engine

/-!
# The audit replica

`StateReplicaManager` keeps a copy of the engine's state from the events the engine took and the
outputs it reported. It replays what the event alone decides, a fill with what the outputs say of
its order, and takes over from the outputs what the event does not decide: whether an expiry was
settled, and when a position ended.
-/

set_option autoImplicit false

namespace Rustrade

namespace StateReplicaManager

variable {Data AssetKey : Type} [DecidableEq AssetKey] [DecimalRange]
  [InstrumentDataState Data ExchangeIndex AssetKey InstrumentIndex]

/-- The fills the engine cut as reduce-only, and what their orders were sent as. -/
def reduceOnlyFills {AssetKey : Type} (outputs : List (EngineOutput AssetKey)) :
    List (TradeId × ReduceOnly) :=
  outputs.filterMap fun output =>
    match output with
    | .reduceOnlyCapped capped => some (capped.tradeId, capped.reduceOnly)
    | _ => none

/-- The positions of the instrument at `key` the engine closed. -/
def exitsOf {AssetKey : Type} (key : InstrumentIndex) (outputs : List (EngineOutput AssetKey)) :
    List (PositionExited AssetKey InstrumentIndex) :=
  outputs.filterMap fun output =>
    match output with
    | .positionExit exit => if exit.instrument = key then some exit else none
    | _ => none

def anyExit {AssetKey : Type} (outputs : List (EngineOutput AssetKey)) : Bool :=
  outputs.any fun output =>
    match output with
    | .positionExit _ => true
    | _ => false

def notSettled {AssetKey : Type} (key : InstrumentIndex) (outputs : List (EngineOutput AssetKey)) :
    Bool :=
  outputs.any fun output =>
    match output with
    | .contractExpiryNotSettled instrument _ => instrument = key
    | _ => false

omit [DecidableEq AssetKey] [DecimalRange]
  [InstrumentDataState Data ExchangeIndex AssetKey InstrumentIndex] in
/-- Remove a position the engine closed, as of the time it closed. -/
def mirrorExit (self : InstrumentState Data ExchangeIndex AssetKey InstrumentIndex)
    (exit : PositionExited AssetKey InstrumentIndex) :
    InstrumentState Data ExchangeIndex AssetKey InstrumentIndex :=
  { self with
    position := (self.position.removeEnded exit.positionId exit.timeExit).1
    tearSheet := self.tearSheet.updateFromPosition exit }

omit [DecidableEq AssetKey] [DecimalRange]
  [InstrumentDataState Data ExchangeIndex AssetKey InstrumentIndex] in
/-- Mirror the expiry of one instrument. -/
def mirrorExpiry (hash : HashOrder) (key : InstrumentIndex) (outputs : List (EngineOutput AssetKey))
    (self : InstrumentState Data ExchangeIndex AssetKey InstrumentIndex) :
    InstrumentState Data ExchangeIndex AssetKey InstrumentIndex :=
  if self.expirationProcessed then self
  else if anyExit outputs then ((exitsOf key outputs).foldl mirrorExit self).markExpired hash
  else if self.position.positions.isEmpty ∨ self.expiryHandling = .venue then
    self.markExpired hash
  else self

omit [DecidableEq AssetKey] [DecimalRange]
  [InstrumentDataState Data ExchangeIndex AssetKey InstrumentIndex] in
/-- Mirror a position that a split rounded to nothing, with the routing to it. -/
def mirrorSplitExit (self : InstrumentState Data ExchangeIndex AssetKey InstrumentIndex)
    (exit : PositionExited AssetKey InstrumentIndex) :
    InstrumentState Data ExchangeIndex AssetKey InstrumentIndex :=
  { mirrorExit self exit with
    positionIds := self.positionIds.retain fun _ mapped => mapped ≠ exit.positionId }

/-- Adjust one option as planned. -/
def commitOption (id : CorporateActionId) (plan : OptionSplitPlan)
    (self : InstrumentState Data ExchangeIndex AssetKey InstrumentIndex) :
    InstrumentState Data ExchangeIndex AssetKey InstrumentIndex :=
  let adjusted := self.adjustStrike id plan.strikePostSplit
  plan.positions.foldl (fun self e => self.commitPosition adjusted.lastPrice e) adjusted

/-- Replay a prepared split, but for the positions it ended, which the outputs name. -/
def commitCorporateAction (self : EngineState Data AssetKey) (id : CorporateActionId)
    (key : InstrumentIndex) (kind : CorporateActionKind)
    (target : InstrumentState Data ExchangeIndex AssetKey InstrumentIndex) (plan : SplitPlan)
    (outputs : List (EngineOutput AssetKey)) : EngineState Data AssetKey :=
  let equity := (exitsOf key outputs).foldl mirrorSplitExit
    (plan.equityPositions.foldl (fun self e => self.commitPosition target.lastPrice e) target)
  let self := self.modify key fun _ => equity
  let self :=
    if optionSplitAdjustInPlace kind then
      plan.options.foldl (fun self plan => self.modify plan.key (commitOption id plan)) self
    else self
  self.modify key fun state =>
    { state with corporateActionsProcessed := insert id state.corporateActionsProcessed }

/-- Replay a corporate action, past the same guards as the engine's. -/
def replayCorporateAction (self : EngineState Data AssetKey) (id : CorporateActionId)
    (key : InstrumentIndex) (kind : CorporateActionKind) (policy : SplitRoundingPolicy)
    (outputs : List (EngineOutput AssetKey)) : EngineState Data AssetKey :=
  match self.instruments[key]? with
  | none => self
  | some state =>
      if id ∈ state.corporateActionsProcessed then self
      else
        match self.instruments.splitEligibleTarget key with
        | none => self
        | some target =>
            match kind with
            | .stockSplit ratio =>
                match target.prepareCorporateActionSplit id ratio policy
                  (optionSplitAdjustInPlace kind) with
                | .error _ => self
                | .ok plan => commitCorporateAction self id key kind state plan outputs

/-- Take one audited event into the replica. -/
def updateFromEvent (hash : HashOrder) (self : EngineState Data AssetKey)
    (audit : ProcessAudit Data AssetKey) : EngineState Data AssetKey :=
  match audit.event with
  | .shutdown | .command => self
  | .tradingStateUpdate state => { self with trading := state }
  | .account (.reconnecting exchange) => self.updateFromAccountReconnecting exchange
  | .account (.item account) =>
      (self.replayAccount hash account (reduceOnlyFills audit.outputs)).1
  | .market (.reconnecting _) => self
  | .market (.item market) => self.updateFromMarket market
  | .contractExpiry key =>
      if notSettled key audit.outputs then self
      else self.modify key (mirrorExpiry hash key audit.outputs)
  | .corporateAction id instrument kind policy _ =>
      replayCorporateAction self id instrument kind policy audit.outputs

end StateReplicaManager

end Rustrade
