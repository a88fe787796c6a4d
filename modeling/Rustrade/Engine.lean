import Rustrade.Engine.Expiry
import Rustrade.Engine.Split

/-!
# The engine

`process` takes one event into the engine's state and reports what it did. What the event does not
say is in its `Moment`: what the clock reads, what the strategy answers, and the requests that it,
or a command, has the engine send. They can be any at all.
-/

set_option autoImplicit false

namespace Rustrade

inductive AccountStreamEvent (AssetKey : Type) where
  | reconnecting (exchange : ExchangeId)
  | item (event : AccountEvent ExchangeIndex AssetKey InstrumentIndex)

inductive MarketStreamEvent (MarketEventKind : Type) where
  | reconnecting (exchange : ExchangeId)
  | item (event : MarketEvent InstrumentIndex MarketEventKind)

/-- An event of the engine. What a command asks for shows in the requests sent on it. -/
inductive EngineEvent (Data AssetKey : Type)
    [InstrumentDataState Data ExchangeIndex AssetKey InstrumentIndex] where
  | shutdown
  | command
  | tradingStateUpdate (state : TradingState)
  | account (event : AccountStreamEvent AssetKey)
  | market (event : MarketStreamEvent (InstrumentDataState.MarketEventKind Data))
  | contractExpiry (key : InstrumentIndex)
  | corporateAction (id : CorporateActionId) (instrument : InstrumentIndex)
      (kind : CorporateActionKind) (policy : SplitRoundingPolicy) (effectiveTime : DateTime)

/-- What surrounds one event. -/
structure Moment where
  /-- The order the engine's hash maps iterate in. -/
  hash : HashOrder
  /-- The clock as the event is handled, and once an expiry has advanced it. -/
  time : DateTime
  timeAdvanced : DateTime
  /-- The instrument the strategy names for a cash flow that names none. -/
  attribution : Option InstrumentIndex
  /-- Which of an expiring instrument's cancels reach the venue. -/
  sends : OrderRequestCancel ExchangeIndex InstrumentIndex → Bool
  /-- The requests sent on the event: by a command, or by the strategy on a disconnect or on the
      end of trading. -/
  actioned : List SentRequest
  /-- The requests the strategy's algorithm sends after it. -/
  algoOrders : List SentRequest

/-- An event as the engine took it, with the outputs it reported. -/
structure ProcessAudit (Data AssetKey : Type)
    [InstrumentDataState Data ExchangeIndex AssetKey InstrumentIndex] where
  event : EngineEvent Data AssetKey
  outputs : List (EngineOutput AssetKey)

namespace EngineState

variable {Data AssetKey : Type} [DecidableEq AssetKey] [DecimalRange]
  [InstrumentDataState Data ExchangeIndex AssetKey InstrumentIndex]

omit [DecidableEq AssetKey] [DecimalRange]
  [InstrumentDataState Data ExchangeIndex AssetKey InstrumentIndex] in
/-- Set the instrument of a cash flow that names none to the strategy's answer, if that is an
    instrument on the flow's exchange. -/
def attributeCashFlow (self : EngineState Data AssetKey) (answer : Option InstrumentIndex)
    (event : AccountEvent ExchangeIndex AssetKey InstrumentIndex) :
    AccountEvent ExchangeIndex AssetKey InstrumentIndex :=
  match event.kind with
  | .cashFlow flow =>
      match flow.instrument, answer with
      | none, some instrument =>
          if (self.instruments[instrument]?).any fun state =>
              state.instrument.exchange = event.exchange then
            { event with kind := .cashFlow { flow with instrument := some instrument } }
          else event
      | _, _ => event
  | _ => event

/-- The event as the engine takes it. -/
def attributed (self : EngineState Data AssetKey) (m : Moment) (event : EngineEvent Data AssetKey) :
    EngineEvent Data AssetKey :=
  match event with
  | .account (.item account) => .account (.item (self.attributeCashFlow m.attribution account))
  | event => event

/-- What the event does, before any algorithm orders, and whether it may provoke some. -/
def processEvent (m : Moment) (self : EngineState Data AssetKey)
    (event : EngineEvent Data AssetKey) :
    EngineState Data AssetKey × List (EngineOutput AssetKey) × Bool :=
  match event with
  | .shutdown => (self, [], false)
  | .command => (self.recordAllInFlight m.time m.actioned, [], true)
  | .tradingStateUpdate state =>
      let updated := { self with trading := state }
      -- `transitioned_to_disabled`.
      if self.trading = .enabled ∧ state = .disabled then
        (updated.recordAllInFlight m.time m.actioned, [], true)
      else (updated, [], true)
  | .account (.reconnecting exchange) =>
      if exchange ∈ self.connectivity then
        ((self.updateFromAccountReconnecting exchange).recordAllInFlight m.time m.actioned, [], true)
      else (self, [.untrackedExchange exchange], true)
  | .account (.item account) =>
      let updated := self.updateFromAccount m.hash account
      (updated.1, updated.2.outputs, true)
  | .market (.reconnecting exchange) =>
      if exchange ∈ self.connectivity then
        (self.recordAllInFlight m.time m.actioned, [], true)
      else (self, [.untrackedExchange exchange], true)
  | .market (.item market) =>
      (self.updateFromMarket market,
        if market.exchange ∈ self.connectivity then [] else [.untrackedExchange market.exchange],
        true)
  | .contractExpiry key =>
      let settled := self.processContractExpiry m.hash m.time m.timeAdvanced m.sends key
      (settled.1, settled.2, false)
  | .corporateAction id instrument kind policy _ =>
      let applied := self.processCorporateAction m.hash m.time id instrument kind policy
      (applied.1, applied.2, false)

/-- Process one event. -/
def process (m : Moment) (self : EngineState Data AssetKey) (event : EngineEvent Data AssetKey) :
    EngineState Data AssetKey × ProcessAudit Data AssetKey :=
  let event := self.attributed m event
  let processed := self.processEvent m event
  let state :=
    if processed.2.2 ∧ processed.1.trading = .enabled then
      processed.1.recordAllInFlight m.time m.algoOrders
    else processed.1
  (state, ⟨event, processed.2.1⟩)

end EngineState

end Rustrade
