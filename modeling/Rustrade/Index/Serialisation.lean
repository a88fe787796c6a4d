import Rustrade.Index.Built

/-!
# Writing a collection and reading it back

Only the instruments are written, each with its assets in place of their indices, and reading builds
the collection again. The assets and exchanges that come of it are those the instruments imply.
-/

set_option autoImplicit false

namespace Except

theorem exists_of_toOption {ε α : Type} {x : Except ε α} (h : x.toOption.isSome = true) :
    ∃ a, x = .ok a := by
  cases x with
  | error e => cases h
  | ok a => exact ⟨a, rfl⟩

end Except

namespace Rustrade.Index

/-! ## Fields -/

section

variable {E A B C : Type}

def mapKindFields (asset : A → B) (time : DateTime → DateTime) : InstrumentKind A → InstrumentKind B
  | .spot => .spot
  | .perpetual contract => .perpetual ⟨contract.contractSize, asset contract.settlementAsset⟩
  | .future contract =>
    .future ⟨contract.contractSize, asset contract.settlementAsset, time contract.expiry⟩
  | .option contract =>
    .option ⟨contract.contractSize, asset contract.settlementAsset, contract.kind,
      contract.exercise, time contract.expiry, contract.strike⟩
  | .cfd contract => .cfd ⟨contract.contractSize, asset contract.settlementAsset⟩

def mapUnitFields (asset : A → B) : OrderQuantityUnits A → OrderQuantityUnits B
  | .asset a => .asset (asset a)
  | .contract => .contract
  | .quote => .quote

def mapSpecFields (asset : A → B) (spec : InstrumentSpec A) : InstrumentSpec B :=
  ⟨spec.price, ⟨mapUnitFields asset spec.quantity.unit, spec.quantity.min, spec.quantity.increment⟩,
    spec.notional⟩

/-- An instrument with its internal name, assets and expiry written another way. -/
def Instrument.mapFields (self : Instrument E A)
    (name : InstrumentNameInternal → InstrumentNameInternal) (asset : A → B)
    (time : DateTime → DateTime) : Instrument E B where
  exchange := self.exchange
  nameInternal := name self.nameInternal
  nameExchange := self.nameExchange
  underlying := ⟨asset self.underlying.base, asset self.underlying.quote⟩
  quote := self.quote
  kind := mapKindFields asset time self.kind
  spec := self.spec.map (mapSpecFields asset)
  dataVenue := self.dataVenue

variable {asset : A → B} {asset' : B → C} {time time' : DateTime → DateTime}

theorem mapKindFields_mapKindFields (kind : InstrumentKind A) :
    mapKindFields asset' time' (mapKindFields asset time kind) =
      mapKindFields (asset' ∘ asset) (time' ∘ time) kind := by
  cases kind <;> rfl

theorem mapUnitFields_mapUnitFields (unit : OrderQuantityUnits A) :
    mapUnitFields asset' (mapUnitFields asset unit) = mapUnitFields (asset' ∘ asset) unit := by
  cases unit <;> rfl

theorem mapSpecFields_mapSpecFields (spec : InstrumentSpec A) :
    mapSpecFields asset' (mapSpecFields asset spec) = mapSpecFields (asset' ∘ asset) spec := by
  simp [mapSpecFields, mapUnitFields_mapUnitFields]

theorem mapFields_mapFields (i : Instrument E A)
    {name name' : InstrumentNameInternal → InstrumentNameInternal} :
    (i.mapFields name asset time).mapFields name' asset' time' =
      i.mapFields (name' ∘ name) (asset' ∘ asset) (time' ∘ time) := by
  obtain ⟨exchange, nameInternal, nameExchange, underlying, quote, kind, spec, dataVenue⟩ := i
  cases spec <;>
    simp [Instrument.mapFields, mapKindFields_mapKindFields, mapSpecFields_mapSpecFields]

theorem mapKindFields_id_eq_iff (kind : InstrumentKind A) :
    mapKindFields id time kind = kind ↔ ∀ expiry ∈ kind.expiry, time expiry = expiry := by
  cases kind with
  | spot | perpetual | cfd => simp [mapKindFields, InstrumentKind.expiry]
  | future contract =>
    obtain ⟨size, settlement, expiry⟩ := contract
    simp [mapKindFields, InstrumentKind.expiry]
  | option contract =>
    obtain ⟨size, settlement, optionKind, exercise, expiry, strike⟩ := contract
    simp [mapKindFields, InstrumentKind.expiry]

theorem mapSpecFields_id (spec : InstrumentSpec A) : mapSpecFields id spec = spec := by
  obtain ⟨price, ⟨unit, min, increment⟩, notional⟩ := spec
  cases unit <;> rfl

end

/-! ## Text -/

section

variable [NameCase] {E : Type}

/-- An asset as it is written. -/
structure AssetText where
  nameInternal : String
  nameExchange : String
deriving DecidableEq, Repr

def Asset.write (asset : Asset) : AssetText := ⟨asset.nameInternal.name, asset.nameExchange.name⟩

/-- The internal name is put in lower case as it is read. -/
def AssetText.read (text : AssetText) : Asset := ⟨.new text.nameInternal, ⟨text.nameExchange⟩⟩

/-- `ts_milliseconds`, of an instant in nanoseconds. -/
def timestampMillis (time : DateTime) : ℤ := time / 1000000

def timestampMillisOpt (millis : ℤ) : DateTime := millis * 1000000

def Instrument.write (self : Instrument E Asset) : Instrument E AssetText :=
  self.mapFields id Asset.write timestampMillis

def Instrument.read (self : Instrument E AssetText) : Instrument E Asset :=
  self.mapFields (fun name => .new name.name) AssetText.read timestampMillisOpt

/-- What is read of an instrument that was written. -/
def Instrument.readBack (self : Instrument E Asset) : Instrument E Asset :=
  self.mapFields (fun name => .new name.name) id (timestampMillisOpt ∘ timestampMillis)

@[simp] theorem Asset.read_write (asset : Asset) : asset.write.read = asset := by
  obtain ⟨⟨name, normal⟩, nameExchange⟩ := asset
  simp [write, AssetText.read, AssetNameInternal.new, normal]

theorem Instrument.read_write (i : Instrument E Asset) : i.write.read = i.readBack := by
  unfold write read readBack
  rw [mapFields_mapFields]
  congr 1
  funext asset
  exact asset.read_write

omit [NameCase] in
theorem timestampMillis_timestampMillisOpt (millis : ℤ) :
    timestampMillis (timestampMillisOpt millis) = millis :=
  Int.mul_ediv_cancel _ (by decide)

/-- Reading back twice is reading back once. -/
theorem Instrument.readBack_readBack (i : Instrument E Asset) :
    i.readBack.readBack = i.readBack := by
  unfold readBack
  rw [mapFields_mapFields]
  congr 1
  · funext name
    simp [InstrumentNameInternal.new, NameCase.idempotent]
  · funext time
    simp [timestampMillis_timestampMillisOpt]

/-- An instrument whose text says all of it: its internal name is in lower case and it expires, if
    it does, on a whole millisecond. -/
structure Instrument.Written (i : Instrument E Asset) : Prop where
  nameInternal : NameCase.normalise i.nameInternal.name = i.nameInternal.name
  expiry : ∀ expiry ∈ i.kind.expiry, 1000000 ∣ expiry

theorem Instrument.readBack_eq_iff (i : Instrument E Asset) : i.readBack = i ↔ i.Written := by
  have hexpiry : mapKindFields id (timestampMillisOpt ∘ timestampMillis) i.kind = i.kind ↔
      ∀ expiry ∈ i.kind.expiry, 1000000 ∣ expiry := by
    rw [mapKindFields_id_eq_iff]
    constructor
    · intro h expiry hexpiry
      exact Dvd.intro_left _ (h expiry hexpiry)
    · intro h expiry hexpiry
      exact Int.ediv_mul_cancel (h expiry hexpiry)
  obtain ⟨exchange, ⟨name⟩, nameExchange, underlying, quote, kind, spec, dataVenue⟩ := i
  have hspec : spec.map (mapSpecFields id) = spec := by
    cases spec <;> simp [mapSpecFields_id]
  constructor
  · intro h
    injection h with _ hname _ _ _ hkind
    injection hname with hname
    exact ⟨hname, hexpiry.1 hkind⟩
  · intro h
    have hkind := hexpiry.2 h.expiry
    have hname := h.nameInternal
    dsimp only at hkind hname
    simp [readBack, mapFields, InstrumentNameInternal.new, hname, hkind, hspec]

end

/-! ## Collections -/

section

variable [NameCase] {E : Type} [LinearOrder E]

namespace IndexedInstruments

/-- The instruments, each with its assets looked up by place. -/
def serialize (self : IndexedInstruments E) :
    Except (IndexError E) (List (Instrument E AssetText)) :=
  self.instruments.mapM fun keyed => do
    let instrument ← self.unindexedInstrument keyed.value
    return instrument.write

def deserialize (payload : List (Instrument E AssetText)) :
    Except (BuildError E) (IndexedInstruments E) :=
  tryNew (payload.map Instrument.read)

end IndexedInstruments

open IndexedInstrumentsBuilder IndexedInstruments

variable {r : IndexedInstruments E} {builder : IndexedInstrumentsBuilder E} {calls : List (Call E)}

theorem tryNew_eq (instruments : List (Instrument E Asset)) :
    tryNew instruments = (registered (instruments.map Call.instrument)).tryBuild := by
  unfold tryNew registered
  rw [List.foldl_map]
  rfl

omit [NameCase] [LinearOrder E] in
theorem mapM_keyed {ε α β : Type} {f : α → Except ε β} {xs : List α} :
    (keyed xs).mapM (fun keyed => f keyed.value) = xs.mapM f := by
  have hvalues : (keyed xs).map Keyed.value = xs := by
    apply List.ext_getElem?
    intro k
    rw [List.getElem?_map, getElem?_keyed, Option.map_map]
    exact Option.map_id' ..
  conv_rhs => rw [← hvalues, List.mapM_map]
  rfl

omit [NameCase] [LinearOrder E] in
theorem mapM_eq_ok_of_forall₂ {ε α β γ : Type} {f : β → Except ε γ} {g : α → γ} {xs : List α}
    {ys : List β} (h : List.Forall₂ (fun x y => f y = .ok (g x)) xs ys) :
    ys.mapM f = .ok (xs.map g) := by
  induction h with
  | nil => rfl
  | cons hxy _ ih =>
    rw [List.mapM_cons, hxy, ih]
    rfl

theorem serialize_eq (h : Builds builder r) :
    r.serialize = .ok (builder.instruments.sortDedup.map Instrument.write) := by
  obtain ⟨indexed, hinstruments, hindexed⟩ := h.instruments
  unfold serialize
  rw [hinstruments, mapM_keyed (f := fun indexed => do
    let instrument ← r.unindexedInstrument indexed
    return instrument.write)]
  apply mapM_eq_ok_of_forall₂
  refine hindexed.imp ?_
  intro original indexed h
  exact Except.bind_eq_ok.2 ⟨original, h.unindexed, rfl⟩

/-- Reading what was written builds the instruments as they are read back. -/
theorem deserialize_eq :
    deserialize (builder.instruments.sortDedup.map Instrument.write) =
      (registered (builder.instruments.sortDedup.map
        (Call.instrument ∘ Instrument.readBack))).tryBuild := by
  unfold deserialize
  rw [tryNew_eq, List.map_map, List.map_map]
  congr 2
  apply List.map_congr_left
  intro i _
  simp only [Function.comp_apply, Instrument.read_write]

omit [NameCase] [LinearOrder E] in
theorem keyed_injective {α : Type} {xs ys : List α} (h : keyed xs = keyed ys) : xs = ys := by
  apply List.ext_getElem?
  intro k
  have hk : (keyed xs)[k]? = (keyed ys)[k]? := by rw [h]
  rw [getElem?_keyed, getElem?_keyed] at hk
  refine Option.map_injective ?_ hk
  intro x y hxy
  cases hxy
  rfl

/-- A collection determines the instruments it was built of. -/
theorem Builds.mem_instruments {other : IndexedInstrumentsBuilder E} (h : Builds builder r)
    (h' : Builds other r) (i : Instrument E Asset) :
    i ∈ builder.instruments ↔ i ∈ other.instruments := by
  obtain ⟨indexed, hkeyed, hindexed⟩ := h.instruments
  obtain ⟨indexed', hkeyed', hindexed'⟩ := h'.instruments
  cases keyed_injective (hkeyed.symm.trans hkeyed')
  have hsame : builder.instruments.sortDedup = other.instruments.sortDedup := by
    refine List.left_unique_forall₂' ?_ hindexed hindexed'
    intro original original' indexed hi hi'
    exact Except.ok.inj (hi.unindexed.symm.trans hi'.unindexed)
  exact List.sortDedup_eq_iff.1 hsame i

/-- And the assets. -/
theorem Builds.mem_assets {other : IndexedInstrumentsBuilder E} (h : Builds builder r)
    (h' : Builds other r) (a : ExchangeAsset E) : a ∈ builder.assets ↔ a ∈ other.assets :=
  List.sortDedup_eq_iff.1 (keyed_injective (h.assets.symm.trans h'.assets)) a

omit [LinearOrder E] in
theorem impliedAssets_readBack (i : Instrument E Asset) :
    i.readBack.impliedAssets = i.impliedAssets := by
  obtain ⟨exchange, nameInternal, nameExchange, underlying, quote, kind, spec, dataVenue⟩ := i
  have hkind : settlementAsset (mapKindFields id (timestampMillisOpt ∘ timestampMillis) kind) =
      settlementAsset kind := by
    cases kind <;> rfl
  have hspec : spec.map (mapSpecFields id) = spec := by
    cases spec <;> simp [mapSpecFields_id]
  simp [Instrument.impliedAssets, Instrument.assetKeys, Instrument.readBack, Instrument.mapFields,
    hkind, hspec]

/-- What is built of the instruments as they are read back. -/
def rebuilt (calls : List (Call E)) : IndexedInstrumentsBuilder E :=
  registered ((registered calls).instruments.sortDedup.map (Call.instrument ∘ Instrument.readBack))

theorem mem_instruments_rebuilt {i : Instrument E Asset} :
    i ∈ (rebuilt calls).instruments ↔ ∃ j, .instrument j ∈ calls ∧ j.readBack = i := by
  unfold rebuilt
  rw [mem_instruments_registered, List.mem_map]
  simp [mem_instruments_registered]

theorem mem_assets_rebuilt {a : ExchangeAsset E} :
    a ∈ (rebuilt calls).assets ↔ ∃ i, .instrument i ∈ calls ∧ a ∈ i.impliedAssets := by
  unfold rebuilt
  rw [mem_assets_registered]
  simp [mem_instruments_registered, impliedAssets_readBack]

theorem mem_exchanges_rebuilt {e : E} :
    e ∈ (rebuilt calls).exchanges ↔ ∃ i, .instrument i ∈ calls ∧ e ∈ i.exchangeKeys := by
  unfold rebuilt
  rw [mem_exchanges_registered]
  simp [mem_instruments_registered, Instrument.exchangeKeys, Instrument.readBack,
    Instrument.mapFields]

/-- What was written reads back as the collection exactly when it is rebuilt. -/
theorem reads_back_iff (h : (registered calls).tryBuild = .ok r) :
    (∃ payload, r.serialize = .ok payload ∧ deserialize payload = .ok r) ↔
      (rebuilt calls).tryBuild = .ok r := by
  rw [serialize_eq (builds_of_tryBuild registers_registered h)]
  simp only [Except.ok.injEq, exists_eq_left']
  rw [deserialize_eq]
  rfl

/-- A collection is written and read back the same exactly when every instrument's text says all of
    it and every asset added on its own is also some instrument's. -/
theorem survives_serialisation (h : (registered calls).tryBuild = .ok r) :
    (∃ payload, r.serialize = .ok payload ∧ deserialize payload = .ok r) ↔
      (∀ i, .instrument i ∈ calls → i.Written) ∧
        ∀ a, .asset a ∈ calls → ∃ i, .instrument i ∈ calls ∧ a ∈ i.impliedAssets := by
  rw [reads_back_iff h]
  have hbuilds := builds_of_tryBuild registers_registered h
  constructor
  · intro hrebuilt
    have hrebuilds := builds_of_tryBuild registers_registered hrebuilt
    constructor
    · intro i hi
      have hmem := (hbuilds.mem_instruments hrebuilds i).1 (mem_instruments_registered.2 hi)
      obtain ⟨j, -, rfl⟩ := mem_instruments_rebuilt.1 hmem
      exact (Instrument.readBack_eq_iff _).1 j.readBack_readBack
    · intro a ha
      have hmem := (hbuilds.mem_assets hrebuilds a).1 (mem_assets_registered.2 (.inr ha))
      exact mem_assets_rebuilt.1 hmem
  · rintro ⟨hwritten, himplied⟩
    rw [← h]
    apply tryBuild_congr
    · intro e
      rw [mem_exchanges_rebuilt, mem_exchanges_registered]
      refine ⟨.inl, ?_⟩
      rintro (h | ⟨a, ha, rfl⟩)
      · exact h
      · obtain ⟨i, hi, hmem⟩ := himplied a ha
        obtain ⟨asset, -, rfl⟩ := List.mem_map.1 hmem
        exact ⟨i, hi, List.mem_cons_self ..⟩
    · intro i
      rw [mem_instruments_rebuilt, mem_instruments_registered]
      constructor
      · rintro ⟨j, hj, rfl⟩
        rw [(Instrument.readBack_eq_iff j).2 (hwritten j hj)]
        exact hj
      · intro hi
        exact ⟨i, hi, (Instrument.readBack_eq_iff i).2 (hwritten i hi)⟩
    · intro a
      rw [mem_assets_rebuilt, mem_assets_registered]
      refine ⟨.inl, ?_⟩
      rintro (h | ha)
      · exact h
      · exact himplied a ha

end

open IndexedInstrumentsBuilder IndexedInstruments

/-- A spot pair added on its own. -/
theorem spot_survives_serialisation : ∃ (_ : NameCase) (r : IndexedInstruments Unit),
    (registered [.instrument (spotNamed "btc" "usdt")]).tryBuild = .ok r ∧
      ((∃ payload, r.serialize = .ok payload ∧ deserialize payload = .ok r) ↔
        (∀ i, .instrument i ∈ [Call.instrument (spotNamed "btc" "usdt")] → i.Written) ∧
          ∀ a, .asset a ∈ [Call.instrument (spotNamed "btc" "usdt")] →
            ∃ i, .instrument i ∈ [Call.instrument (spotNamed "btc" "usdt")] ∧
              a ∈ i.impliedAssets) := by
  let _ : NameCase := asciiCase
  have hbuilds : ∃ r, (registered [Call.instrument (spotNamed "btc" "usdt")]).tryBuild = .ok r :=
    Except.exists_of_toOption (by decide +kernel)
  obtain ⟨r, hr⟩ := hbuilds
  exact ⟨asciiCase, r, hr, survives_serialisation hr⟩

/-- An asset that no instrument implies is lost. -/
theorem added_asset_lost : ∃ (_ : NameCase) (r : IndexedInstruments Unit),
    (registered [.instrument (spotNamed "btc" "usdt"), .asset ⟨(), assetNamed "bnb"⟩]).tryBuild =
      .ok r ∧ ¬ ∃ payload, r.serialize = .ok payload ∧ deserialize payload = .ok r := by
  let _ : NameCase := asciiCase
  have hbuilds : ∃ r, (registered [Call.instrument (spotNamed "btc" "usdt"),
      .asset ⟨(), assetNamed "bnb"⟩]).tryBuild = .ok r :=
    Except.exists_of_toOption (by decide +kernel)
  have hunimplied : (⟨(), assetNamed "bnb"⟩ : ExchangeAsset Unit) ∉
      (spotNamed "btc" "usdt").impliedAssets := by
    simp [Instrument.impliedAssets, Instrument.assetKeys, spotNamed, assetNamed, settlementAsset,
      unitAsset]
  obtain ⟨r, hr⟩ := hbuilds
  refine ⟨asciiCase, r, hr, ?_⟩
  intro h
  have hbuilt := builds_of_tryBuild registers_registered hr
  have hrebuilt := builds_of_tryBuild registers_registered ((reads_back_iff hr).1 h)
  have hadded : (⟨(), assetNamed "bnb"⟩ : ExchangeAsset Unit) ∈ (rebuilt _).assets :=
    (hbuilt.mem_assets hrebuilt _).1 (mem_assets_registered.2 (.inr (by simp)))
  obtain ⟨i, hi, himplied⟩ := mem_assets_rebuilt.1 hadded
  obtain rfl : i = spotNamed "btc" "usdt" := by simpa using hi
  exact hunimplied himplied

end Rustrade.Index
