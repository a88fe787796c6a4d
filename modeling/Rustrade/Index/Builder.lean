import Rustrade.Index.Instrument
import Rustrade.Lib.SortDedup

/-!
# The indexed collection

`IndexedInstrumentsBuilder` collects instruments and assets in any order. `tryBuild` sorts them,
takes duplicates out, refuses a collection in which a name would name two of them, and numbers what
is left by its place. `IndexedInstruments` is written as the list of its instruments and read back by
building it again.
-/

set_option autoImplicit false

namespace Rustrade.Index

structure Keyed (Key Value : Type) where
  key : Key
  value : Value
deriving DecidableEq

abbrev ExchangeIndex := ℕ

abbrev AssetIndex := ℕ

abbrev InstrumentIndex := ℕ

/-- An instrument whose exchanges and assets are indices. -/
abbrev IndexedInstrument (E : Type) := Instrument (Keyed ExchangeIndex E) AssetIndex

variable [NameCase] {E : Type} [LinearOrder E]

/-- What a build or a lookup refuses, with what its text names. -/
inductive IndexError (E : Type) where
  | exchangeIndex (exchange : E)
  | assetIndex (exchange : E) (name : AssetNameInternal)
  | assetKey (index : AssetIndex) (instrument : InstrumentNameInternal)
  | invalidContractSize (instrument : Instrument E Asset)
  | duplicateInstrumentNameInternal (previous instrument : Instrument E Asset)
  | duplicateInstrumentNameExchange (previous instrument : Instrument E Asset)
  | duplicateAssetNameInternal (previous asset : ExchangeAsset E)
  | duplicateAssetNameExchange (previous asset : ExchangeAsset E)

/-- Why no collection is built: it is refused, or an index that `expect` relies on is missing. -/
inductive BuildError (E : Type) where
  | refused (error : IndexError E)
  | panic

structure IndexedInstruments (E : Type) where
  exchanges : List (Keyed ExchangeIndex E)
  assets : List (Keyed AssetIndex (ExchangeAsset E))
  instruments : List (Keyed InstrumentIndex (IndexedInstrument E))
deriving DecidableEq

structure IndexedInstrumentsBuilder (E : Type) where
  exchanges : List E
  instruments : List (Instrument E Asset)
  assets : List (ExchangeAsset E)

/-- The asset that order quantities are counted in, if they are counted in one. -/
def unitAsset {A : Type} (spec : Option (InstrumentSpec A)) : Option A :=
  spec.bind fun spec => match spec.quantity.unit with
    | .asset asset => some asset
    | .contract | .quote => none

/-- The assets of an instrument, in the order it registers them. -/
def Instrument.assetKeys {E A : Type} (self : Instrument E A) : List A :=
  self.underlying.base :: self.underlying.quote ::
    ((settlementAsset self.kind).toList ++ (unitAsset self.spec).toList)

/-- The exchanges of an instrument: where it is executed and where it is priced. -/
def Instrument.exchangeKeys {E A : Type} (self : Instrument E A) : List E :=
  self.exchange :: (self.dataVenue.map DataVenue.exchange).toList

/-- The assets an instrument implies, all of them on its execution venue. -/
def Instrument.impliedAssets (self : Instrument E Asset) : List (ExchangeAsset E) :=
  self.assetKeys.map fun asset => ⟨self.exchange, asset⟩

def findExchangeByExchangeId (haystack : List (Keyed ExchangeIndex E)) (needle : E) :
    Except (IndexError E) ExchangeIndex :=
  match haystack.find? fun indexed => indexed.value = needle with
  | some indexed => .ok indexed.key
  | none => .error (.exchangeIndex needle)

def findAssetByExchangeAndNameInternal (haystack : List (Keyed AssetIndex (ExchangeAsset E)))
    (needleExchange : E) (needleName : AssetNameInternal) : Except (IndexError E) AssetIndex :=
  match haystack.find? fun indexed =>
      indexed.value.exchange = needleExchange ∧ indexed.value.asset.nameInternal = needleName with
  | some indexed => .ok indexed.key
  | none => .error (.assetIndex needleExchange needleName)

/-- `enumerate`, each place the key of what stands there. -/
def keyed {Value : Type} (values : List Value) : List (Keyed ℕ Value) :=
  values.mapIdx fun index value => ⟨index, value⟩

namespace IndexedInstrumentsBuilder

def new : IndexedInstrumentsBuilder E := ⟨[], [], []⟩

def addInstrument (self : IndexedInstrumentsBuilder E) (instrument : Instrument E Asset) :
    IndexedInstrumentsBuilder E where
  exchanges := self.exchanges ++ instrument.exchangeKeys
  instruments := self.instruments ++ [instrument]
  assets := self.assets ++ instrument.impliedAssets

def addAsset (self : IndexedInstrumentsBuilder E) (asset : ExchangeAsset E) :
    IndexedInstrumentsBuilder E where
  exchanges := self.exchanges ++ [asset.exchange]
  instruments := self.instruments
  assets := self.assets ++ [asset]

/-- `expect`. -/
def expect {A : Type} : Except (IndexError E) A → Except (BuildError E) A
  | .ok a => .ok a
  | .error _ => .error .panic

/-- What is refused of a collection, in the order it is looked for. -/
def refusal (instruments : List (Instrument E Asset)) (assets : List (ExchangeAsset E)) :
    Option (IndexError E) :=
  match instruments.find? fun instrument => instrument.kind.contractSize ≤ 0 with
  | some instrument => some (.invalidContractSize instrument)
  | none =>
  match List.firstDuplicate Instrument.nameInternal [] instruments with
  | some (previous, instrument) => some (.duplicateInstrumentNameInternal previous instrument)
  | none =>
  match List.firstDuplicate
      (fun instrument => (instrument.exchange, toAsciiLowercase instrument.nameExchange.name)) []
      instruments with
  | some (previous, instrument) => some (.duplicateInstrumentNameExchange previous instrument)
  | none =>
  match List.firstDuplicate (fun asset => (asset.exchange, asset.asset.nameInternal)) [] assets with
  | some (previous, asset) => some (.duplicateAssetNameInternal previous asset)
  | none =>
  match List.firstDuplicate
      (fun asset => (asset.exchange, toAsciiLowercase asset.asset.nameExchange.name)) []
      assets with
  | some (previous, asset) => some (.duplicateAssetNameExchange previous asset)
  | none => none

/-- An instrument with its exchanges and assets looked up. -/
def indexInstrument (exchanges : List (Keyed ExchangeIndex E))
    (assets : List (Keyed AssetIndex (ExchangeAsset E))) (instrument : Instrument E Asset) :
    Except (BuildError E) (IndexedInstrument E) := do
  let exchangeId := instrument.exchange
  let instrument ← instrument.mapExchangeKey fun id => do
    let exchangeKey ← expect (findExchangeByExchangeId exchanges id)
    return Keyed.mk exchangeKey id
  expect (instrument.mapAssetKeyWithLookup fun asset =>
    findAssetByExchangeAndNameInternal assets exchangeId asset.nameInternal)

def tryBuild (self : IndexedInstrumentsBuilder E) :
    Except (BuildError E) (IndexedInstruments E) := do
  let exchanges := self.exchanges.sortDedup
  let instruments := self.instruments.sortDedup
  let assets := self.assets.sortDedup
  match refusal instruments assets with
  | some error => .error (.refused error)
  | none => do
    let exchanges := keyed exchanges
    let assets := keyed assets
    let instruments ← instruments.mapM (indexInstrument exchanges assets)
    return { exchanges, assets, instruments := keyed instruments }

end IndexedInstrumentsBuilder

namespace IndexedInstruments

open IndexedInstrumentsBuilder

def tryNew (instruments : List (Instrument E Asset)) :
    Except (BuildError E) (IndexedInstruments E) :=
  (instruments.foldl addInstrument new).tryBuild

/-- An asset index is resolved by its place. -/
def resolveAsset (self : IndexedInstruments E) (name : InstrumentNameInternal)
    (index : AssetIndex) : Except (IndexError E) Asset :=
  match self.assets[index]?.filter fun keyed => keyed.key = index with
  | some keyed => .ok keyed.value.asset
  | none => .error (.assetKey index name)

def unindexedInstrument (self : IndexedInstruments E) (instrument : IndexedInstrument E) :
    Except (IndexError E) (Instrument E Asset) := do
  let exchanged ← instrument.mapExchangeKey fun exchange => .ok exchange.value
  exchanged.mapAssetKeyWithLookup (self.resolveAsset instrument.nameInternal)

end IndexedInstruments

end Rustrade.Index
