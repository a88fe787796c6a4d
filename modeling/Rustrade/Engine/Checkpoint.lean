import Rustrade.EngineState
import Rustrade.Position.Keys
import Rustrade.Position.Seed

/-!
# Positions across engines

An index is a place in one engine's lists, which another build of the engine need not share, so a
checkpoint names what a position is on. `positionCheckpoints` names every position held on one
exchange, and `restoredPositions` places them in the engine that lists the names, each as it was.
-/

set_option autoImplicit false

namespace Rustrade

/-- An asset's place in the index the engine was built with. -/
abbrev AssetIndex := Nat

/-- `ExchangeAsset<AssetNameInternal>`. -/
structure ExchangeAsset where
  exchange : ExchangeId
  asset : AssetNameInternal
  deriving DecidableEq, Repr

/-- One open position as a checkpoint saves it, with its instrument and assets named. -/
structure PositionCheckpoint where
  positionId : PositionId
  position : Position AssetNameInternal InstrumentNameInternal
  deriving DecidableEq

/-- An engine's state under the names it was built with: of each instrument, in the order of their
    index, and of each asset on its exchange. -/
structure NamedState (Data : Type) where
  state : EngineState Data AssetIndex
  names : List InstrumentNameInternal
  assets : List ExchangeAsset
  length_names : names.length = state.instruments.length
  nodup_names : names.Nodup
  nodup_assets : assets.Nodup
  nodup_exchanges : state.connectivity.Nodup

namespace PositionCheckpoint

def instrument (self : PositionCheckpoint) : InstrumentNameInternal := self.position.instrument

/-- The index of an asset of `exchange`. -/
def indexIn (assets : List ExchangeAsset) (exchange : ExchangeId)
    (instrument : InstrumentNameInternal) (asset : AssetNameInternal) :
    Except PositionSeedError AssetIndex :=
  match assets.idxOf? ⟨exchange, asset⟩ with
  | some index => .ok index
  | none => .error (.unknownAsset instrument asset)

/-- Insert the position into `manager`, that of the instrument `key` on `exchange`. -/
def restoreInto (self : PositionCheckpoint) (manager : PositionManager AssetIndex InstrumentIndex)
    (key : InstrumentIndex) (exchange : ExchangeId) (assets : List ExchangeAsset) :
    Except PositionSeedError (PositionManager AssetIndex InstrumentIndex) :=
  if self.position.quantityAbs ≤ 0 then
    .error (.nonPositiveQuantity self.instrument self.position.quantityAbs)
  else if manager.mode = .netting ∧ self.positionId ≠ .netting then
    .error (.positionIdInNetting self.instrument self.positionId)
  else if manager.positions.contains self.positionId then
    .error (.duplicateSlot self.instrument self.positionId)
  else do
    let position ← self.position.mapPositionKeys (fun _ => .ok key)
      (indexIn assets exchange self.instrument)
    return { manager with positions := manager.positions.insert self.positionId position }

end PositionCheckpoint

namespace NamedState

variable {Data : Type}

/-- The name of an asset; an index past the list panics in the source. -/
def assetName (self : NamedState Data) (index : AssetIndex) : Except AssetIndex AssetNameInternal :=
  match self.assets[index]? with
  | some key => .ok key.asset
  | none => .error index

/-- One position under the name of its instrument. -/
def checkpointOf (self : NamedState Data) (name : InstrumentNameInternal)
    (slot : PositionId × Position AssetIndex InstrumentIndex) :
    Except AssetIndex PositionCheckpoint := do
  let position ← slot.2.mapPositionKeys (fun _ => .ok name) self.assetName
  return ⟨slot.1, position⟩

/-- Each instrument of `exchange`, with its name. -/
def instrumentsOn (self : NamedState Data) (exchange : ExchangeIndex) :
    List (InstrumentNameInternal × InstrumentState Data ExchangeIndex AssetIndex InstrumentIndex) :=
  (self.names.zip self.state.instruments).filter fun e => e.2.instrument.exchange = exchange

/-- Every open position of one instrument. -/
def checkpointsOf (self : NamedState Data)
    (e : InstrumentNameInternal ×
      InstrumentState Data ExchangeIndex AssetIndex InstrumentIndex) :
    Except AssetIndex (List PositionCheckpoint) :=
  e.2.position.positions.entries.mapM (self.checkpointOf e.1)

/-- Every open position on `exchange`, in instrument order, then slot order. -/
def positionCheckpoints (self : NamedState Data) (exchange : ExchangeIndex) :
    Except AssetIndex (List PositionCheckpoint) :=
  ((self.instrumentsOn exchange).mapM self.checkpointsOf).map List.flatten

/-- Change the positions of the instrument at `key`. -/
def setPosition (self : NamedState Data) (key : InstrumentIndex)
    (manager : PositionManager AssetIndex InstrumentIndex) : NamedState Data :=
  { self with
    state := self.state.modify key fun state => { state with position := manager }
    length_names := by rw [EngineState.modify, List.length_modify, self.length_names] }

/-- Place one restored position, on the instrument it names. -/
def restorePosition (self : NamedState Data) (restored : PositionCheckpoint) :
    Except PositionSeedError (NamedState Data) :=
  match self.names.idxOf? restored.instrument with
  | none => .error (.unknownInstrument restored.instrument)
  | some key =>
      match self.state.instruments[key]? with
      -- As many instruments as names.
      | none => .error (.unknownInstrument restored.instrument)
      | some state =>
          match self.state.connectivity[state.instrument.exchange]? with
          | none => .error (.unknownInstrument restored.instrument)
          | some exchange => do
              let manager ← restored.restoreInto state.position key exchange self.assets
              return self.setPosition key manager

/-- Place restored positions, one after another. -/
def restoredPositions (self : NamedState Data) (positions : List PositionCheckpoint) :
    Except PositionSeedError (NamedState Data) := positions.foldlM restorePosition self

end NamedState

end Rustrade
