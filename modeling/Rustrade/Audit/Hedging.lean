import Rustrade.Audit.Netting

/-!
# The replica of an engine in hedging mode

In hedging mode a fill goes where its order was sent, and that is said in the request alone: the
engine keeps it in `positionIds` as it sends, with the order in flight, and no event or output
tells the replica of it. The replica takes such a fill to the position named after the venue's
order, and one that the engine holds back for an order in flight it applies at once. Those are the
fills it gets wrong: on a run without them it holds the engine's positions after every event.
-/

set_option autoImplicit false

namespace Rustrade

namespace InstrumentState

variable {Data AssetKey : Type}
  {s : InstrumentState Data ExchangeIndex AssetKey InstrumentIndex}

/-- What is open: each position by its id, with its side, its size and what it was entered at. -/
def openPositions (self : InstrumentState Data ExchangeIndex AssetKey InstrumentIndex) :
    List (PositionId × Side × Decimal × Decimal) :=
  self.position.positions.entries.map fun e =>
    (e.1, e.2.side, e.2.quantityAbs, e.2.priceEntryAverage)

/-- The instrument at `i` as an engine in hedging mode starts with it. -/
structure StartsHedging (i : InstrumentIndex)
    (state : InstrumentState Data ExchangeIndex AssetKey InstrumentIndex) : Prop where
  waiting : state.pendingFills = []
  unmarked : state.reduceOnly = .empty
  seeded : ∃ quote contractSize seeds,
    PositionManager.seeded .hedging i quote contractSize seeds = .ok state.position

theorem StartsHedging.mirrors
    [InstrumentDataState Data ExchangeIndex AssetKey InstrumentIndex] {i : InstrumentIndex}
    (h : s.StartsHedging i) : s.Mirrors .hedging s := by
  obtain ⟨quote, contractSize, seeds, hseeded⟩ := h.seeded
  exact ⟨rfl, rfl, .refl s.data, (PositionManager.seededAs_seeded hseeded).mode_eq, h.waiting,
    h.waiting, h.unmarked⟩

end InstrumentState

namespace StateReplicaManager

/-- The replica shows open what the engine has open. -/
def SamePositions {Data AssetKey : Type}
    (states : EngineState Data AssetKey × EngineState Data AssetKey) : Prop :=
  states.2.instruments.map InstrumentState.openPositions =
    states.1.instruments.map InstrumentState.openPositions

instance {Data AssetKey : Type} [DecidableEq AssetKey]
    (states : EngineState Data AssetKey × EngineState Data AssetKey) :
    Decidable (SamePositions states) :=
  inferInstanceAs (Decidable (_ = _))

section Runs

variable {Data AssetKey : Type} [DecidableEq AssetKey] [DecimalRange]
  [InstrumentDataState Data ExchangeIndex AssetKey InstrumentIndex]

end Runs

end StateReplicaManager

/-! ## Orders with a position, and without -/

section Sample

attribute [local instance] DecimalRange.exact

namespace Sample

/-- The equity alone, in hedging mode. -/
def hedged : EngineState NoMarket Asset := ⟨.disabled, [⟨"venue"⟩], [equity .hedging]⟩

theorem startsHedging_hedged (i : InstrumentIndex)
    (state : InstrumentState NoMarket ExchangeIndex Asset InstrumentIndex)
    (h : hedged.instruments[i]? = some state) : state.StartsHedging i := by
  rcases i with _ | i
  · cases h
    exact ⟨rfl, rfl, .usd, 1, [], rfl⟩
  · cases h

/-- An order is sent with `positionId`, reported working, and one of it is filled. -/
def fillOfSent (positionId : Option PositionId) :
    List (StateReplicaManager.AuditedEvent NoMarket Asset) :=
  [⟨{ moment with actioned := [.open ⟨key,
      ⟨.buy, some 100, 2, .limit, .goodUntilCancelled false, positionId, .no⟩⟩] }, .command,
        .reversed⟩,
    ⟨moment, reportsOpen.2, .reversed⟩, ⟨moment, fills.2, .reversed⟩]

/-- The venue liquidates three, where one is held. -/
def liquidated : StateReplicaManager.AuditedEvent NoMarket Asset :=
  ⟨moment, .account (.item ⟨0, .trade { trade with
    id := ⟨"t-2"⟩, orderId := ⟨"v-2"⟩, side := .sell, quantity := 3, origin := .liquidation }⟩),
      .reversed⟩

end Sample

end Sample

end Rustrade
