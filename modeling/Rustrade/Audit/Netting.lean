import Rustrade.Audit.Agrees

/-!
# The replica of an engine in netting mode

Fed every event with the outputs the engine reported for it, the replica holds the engine's
positions, corporate actions, expiries and strikes after each of them: in netting mode every fill
goes to the one slot, whatever the replica is not told of the order it is of.
-/

set_option autoImplicit false

namespace Rustrade

open StateReplicaManager

/-! ## Runs -/

/-- What of an instrument the replica answers for. -/
structure Ledger (AssetKey : Type) where
  position : PositionManager AssetKey InstrumentIndex
  corporateActionsProcessed : Finset CorporateActionId
  expirationProcessed : Bool
  strike : Option Decimal
  deriving DecidableEq

namespace InstrumentState

variable {Data AssetKey : Type}
  {s r : InstrumentState Data ExchangeIndex AssetKey InstrumentIndex}

def ledger (self : InstrumentState Data ExchangeIndex AssetKey InstrumentIndex) :
    Ledger AssetKey :=
  ⟨self.position, self.corporateActionsProcessed, self.expirationProcessed, self.strike?⟩

/-- The instrument at `i` as an engine in netting mode starts with it: its positions seeded, no
    fill waiting, and no order known to be reduce-only. -/
structure StartsNetting (i : InstrumentIndex)
    (state : InstrumentState Data ExchangeIndex AssetKey InstrumentIndex) : Prop where
  waiting : state.pendingFills = []
  unmarked : state.reduceOnly = .empty
  seeded : ∃ quote contractSize seeds,
    PositionManager.seeded .netting i quote contractSize seeds = .ok state.position

variable [InstrumentDataState Data ExchangeIndex AssetKey InstrumentIndex]

theorem StartsNetting.mirrors {i : InstrumentIndex} (h : s.StartsNetting i) :
    s.Mirrors .netting s := by
  obtain ⟨quote, contractSize, seeds, hseeded⟩ := h.seeded
  exact ⟨rfl, rfl, .refl s.data, (PositionManager.seededAs_seeded hseeded).mode_eq, h.waiting,
    h.waiting, h.unmarked⟩

theorem Mirrors.ledger {mode : OmsMode} (h : s.Mirrors mode r) : r.ledger = s.ledger := by
  have hactions : r.corporateActionsProcessed = s.corporateActionsProcessed :=
    congrArg Frame.corporateActionsProcessed h.frame
  have hexpired : r.expirationProcessed = s.expirationProcessed :=
    congrArg Frame.expirationProcessed h.frame
  unfold InstrumentState.ledger InstrumentState.strike?
  rw [h.position, hactions, hexpired, h.instrument]

end InstrumentState

namespace StateReplicaManager

variable {Data AssetKey : Type} [DecidableEq AssetKey] [DecimalRange]
  [InstrumentDataState Data ExchangeIndex AssetKey InstrumentIndex]

/-- One event of an audited run. -/
structure AuditedEvent (Data AssetKey : Type)
    [InstrumentDataState Data ExchangeIndex AssetKey InstrumentIndex] where
  moment : Moment
  event : EngineEvent Data AssetKey
  /-- The order the replica's hash maps iterate in. -/
  hash : HashOrder

/-- The engine takes an event, and the replica what the engine reports of it. -/
def follow (states : EngineState Data AssetKey × EngineState Data AssetKey)
    (audited : AuditedEvent Data AssetKey) : EngineState Data AssetKey × EngineState Data AssetKey :=
  let processed := states.1.process audited.moment audited.event
  (processed.1, updateFromEvent audited.hash states.2 processed.2)

omit [DecidableEq AssetKey] [DecimalRange] in
/-- The fill the event brings, if it brings one, goes to the same place in the engine and in the
    replica. -/
def RoutedAlike (states : EngineState Data AssetKey × EngineState Data AssetKey)
    (audited : AuditedEvent Data AssetKey) : Prop :=
  ∀ trade ∈ fillOf audited.event,
    RoutesAlike audited.moment.hash audited.hash states.1 states.2 trade

instance (states : EngineState Data AssetKey × EngineState Data AssetKey)
    (audited : AuditedEvent Data AssetKey) : Decidable (RoutedAlike states audited) :=
  inferInstanceAs (Decidable (∀ trade ∈ fillOf audited.event,
    RoutesAlike audited.moment.hash audited.hash states.1 states.2 trade))

/-- An event whose fill is routed alike keeps the two in agreement, and the engine's fills on the
    instrument of their position. -/
theorem agrees_follow (hdata : PricedByReports Data) {mode : OmsMode}
    {states : EngineState Data AssetKey × EngineState Data AssetKey}
    {audited : AuditedEvent Data AssetKey} (hroutes : RoutedAlike states audited)
    (h : Agrees mode states.1 states.2 ∧ states.1.Sized) :
    Agrees mode (follow states audited).1 (follow states audited).2 ∧
      (follow states audited).1.Sized :=
  ⟨h.1.process hdata h.2 audited.moment audited.hash audited.event hroutes, h.2.process⟩

omit [DecidableEq AssetKey] [DecimalRange] in
/-- A state is its own replica. -/
theorem agrees_start {mode : OmsMode} {start : EngineState Data AssetKey}
    (h : ∀ (i : InstrumentIndex)
      (state : InstrumentState Data ExchangeIndex AssetKey InstrumentIndex),
      start.instruments[i]? = some state → state.Mirrors mode state) : Agrees mode start start := by
  refine ⟨rfl, List.forall₂_same.2 fun state hmem => ?_⟩
  obtain ⟨i, hget⟩ := List.mem_iff_getElem?.1 hmem
  exact h i state hget

omit [DecidableEq AssetKey] [DecimalRange] in
theorem routesAlike_netting {engine replica : EngineState Data AssetKey}
    (h : Agrees .netting engine replica) {hash hash' : HashOrder}
    (trade : Trade AssetKey InstrumentIndex) : RoutesAlike hash hash' engine replica trade := by
  intro s hget r hgetCopy
  rcases h.instruments.getElem?_cases trade.instrument with
    ⟨hnone, -⟩ | ⟨s', r', hget', hgetCopy', hmirrors⟩
  · rw [hnone] at hget
    cases hget
  · obtain rfl : s' = s := Option.some.inj (hget'.symm.trans hget)
    obtain rfl : r' = r := Option.some.inj (hgetCopy'.symm.trans hgetCopy)
    exact hmirrors.routesAlike

/-- An engine in netting mode and a replica of the state it started in. -/
theorem agrees_run (hdata : PricedByReports Data) {start : EngineState Data AssetKey}
    (hstart : ∀ (i : InstrumentIndex)
      (state : InstrumentState Data ExchangeIndex AssetKey InstrumentIndex),
      start.instruments[i]? = some state → state.StartsNetting i)
    (events : List (AuditedEvent Data AssetKey)) :
    let reached := Transition.run follow (start, start) events
    Agrees .netting reached.1 reached.2 := by
  have hsized : start.Sized := EngineState.sized_of_seeded fun i state hget =>
    ⟨(hstart i state hget).waiting, .netting, (hstart i state hget).seeded⟩
  exact (Transition.run_invariant
    (fun states : EngineState Data AssetKey × EngineState Data AssetKey =>
      Agrees .netting states.1 states.2 ∧ states.1.Sized)
    (fun _ _ h => agrees_follow hdata (fun trade _ => routesAlike_netting h.1 trade) h) events
    ⟨agrees_start fun i state hget => (hstart i state hget).mirrors, hsized⟩).1

end StateReplicaManager

/-! ## A reduce-only fill that is cut -/

section Sample

attribute [local instance] DecimalRange.exact

namespace Sample

theorem pricedByReports_noMarket : PricedByReports NoMarket :=
  ⟨fun data _ _ => .refl data, fun data _ _ => .refl data⟩

theorem startsNetting_engine (i : InstrumentIndex)
    (state : InstrumentState NoMarket ExchangeIndex Asset InstrumentIndex)
    (h : (engine .netting).instruments[i]? = some state) : state.StartsNetting i := by
  rcases i with _ | _ | i
  · cases h
    exact ⟨rfl, rfl, .usd, 1, [], rfl⟩
  · cases h
    exact ⟨rfl, rfl, .usd, 1, [], rfl⟩
  · cases h

/-- One is bought; then three are sent to be sold reduce-only, and sold. -/
def cutFill : List (StateReplicaManager.AuditedEvent NoMarket Asset) :=
  [⟨moment, fills.2, .reversed⟩,
    ⟨{ moment with actioned := [.open ⟨key,
      ⟨.sell, some 100, 3, .limit, .goodUntilCancelled false, none, .position⟩⟩] }, .command,
        .reversed⟩,
    ⟨moment, .account (.item ⟨0, .orderSnapshot ⟨key, .sell, some 100, 3, .limit,
      .goodUntilCancelled false, .active (.open ⟨.assigned ⟨"v-2"⟩, 2, 0⟩)⟩⟩), .reversed⟩,
    ⟨moment, .account (.item ⟨0, .trade { trade with
      id := ⟨"t-2"⟩, orderId := ⟨"v-2"⟩, side := .sell, quantity := 3 }⟩), .reversed⟩]

end Sample

end Sample

end Rustrade
