import Rustrade.Index.Builder
import Rustrade.Lib.Ensures

/-!
# What a build gives

A collection that builds is its three sorted lists, each numbered by place. Every exchange and asset
an instrument refers to is the one registered for its execution venue, and looking its indices up
gives the instrument back.
-/

set_option autoImplicit false

namespace Except

universe u v

variable {ε : Type u} {α β : Type v} {f : α → Except ε β} {xs : List α}

/-- A map over a list whose items each give something gives that of each. -/
theorem mapM_forall₂ {P : α → β → Prop} (h : ∀ x ∈ xs, ∃ y, f x = .ok y ∧ P x y) :
    ∃ ys, xs.mapM f = .ok ys ∧ List.Forall₂ P xs ys := by
  induction xs with
  | nil => exact ⟨[], rfl, .nil⟩
  | cons x xs ih =>
    obtain ⟨y, hy, hP⟩ := h x (List.mem_cons_self ..)
    obtain ⟨ys, hys, hrest⟩ := ih fun z hz => h z (List.mem_cons_of_mem x hz)
    refine ⟨y :: ys, ?_, .cons hP hrest⟩
    rw [List.mapM_cons]
    exact bind_eq_ok.2 ⟨y, hy, bind_eq_ok.2 ⟨ys, hys, rfl⟩⟩

end Except

namespace Rustrade.Index

/-! ## Keys that are looked up -/

section

variable {E E' A A' ε ε' : Type} {P : E → E' → Prop} {Q : A → A' → Prop}

/-- Keys that are all found are found again by whatever finds them back. -/
theorem mapExchangeKey_spec (i : Instrument E A) {find : E → Except ε E'}
    (h : ∀ e ∈ i.exchangeKeys, ∃ e', find e = .ok e' ∧ P e e') :
    ∃ j, i.mapExchangeKey find = .ok j ∧ List.Forall₂ P i.exchangeKeys j.exchangeKeys ∧
      j.nameInternal = i.nameInternal ∧ j.nameExchange = i.nameExchange ∧
      j.assetKeys = i.assetKeys ∧
      ∀ {ε' : Type} {back : E' → Except ε' E}, (∀ e e', P e e' → back e' = .ok e) →
        j.mapExchangeKey back = .ok i := by
  obtain ⟨exchange, nameInternal, nameExchange, underlying, quote, kind, spec, dataVenue⟩ := i
  obtain ⟨exchange', hexchange, hP⟩ := h exchange (List.mem_cons_self ..)
  cases dataVenue with
  | none =>
    refine ⟨⟨exchange', nameInternal, nameExchange, underlying, quote, kind, spec, none⟩, ?_,
      .cons hP .nil, rfl, rfl, rfl, ?_⟩
    · simp [Instrument.mapExchangeKey, mapVenue, hexchange, bind, Except.bind, pure, Except.pure]
    · intro ε' back hback
      simp [Instrument.mapExchangeKey, mapVenue, hback _ _ hP, bind, Except.bind, pure, Except.pure]
  | some venue =>
    obtain ⟨venueExchange, venueName⟩ := venue
    obtain ⟨venue', hvenue, hPvenue⟩ := h venueExchange (List.mem_cons_of_mem _ (by simp))
    refine ⟨⟨exchange', nameInternal, nameExchange, underlying, quote, kind, spec,
      some ⟨venue', venueName⟩⟩, ?_, .cons hP (.cons hPvenue .nil), rfl, rfl, rfl, ?_⟩
    · simp [Instrument.mapExchangeKey, mapVenue, hexchange, hvenue, bind, Except.bind, pure, Except.pure]
    · intro ε' back hback
      simp [Instrument.mapExchangeKey, mapVenue, hback _ _ hP, hback _ _ hPvenue, bind, Except.bind, pure,
        Except.pure]

theorem mapKind_spec (kind : InstrumentKind A) {find : A → Except ε A'}
    (h : ∀ a ∈ (settlementAsset kind).toList, ∃ a', find a = .ok a' ∧ Q a a') :
    ∃ kind', mapKind kind find = .ok kind' ∧
      List.Forall₂ Q (settlementAsset kind).toList (settlementAsset kind').toList ∧
      ∀ {ε' : Type} {back : A' → Except ε' A}, (∀ a a', Q a a' → back a' = .ok a) →
        mapKind kind' back = .ok kind := by
  cases kind with
  | spot => exact ⟨.spot, rfl, .nil, fun _ => rfl⟩
  | perpetual contract =>
    obtain ⟨a', hfind, hQ⟩ := h contract.settlementAsset (List.mem_cons_self ..)
    refine ⟨.perpetual ⟨contract.contractSize, a'⟩, ?_, .cons hQ .nil, ?_⟩
    · simp [mapKind, hfind, bind, Except.bind, pure, Except.pure]
    · intro ε' back hback
      simp [mapKind, hback _ _ hQ, bind, Except.bind, pure, Except.pure]
  | future contract =>
    obtain ⟨a', hfind, hQ⟩ := h contract.settlementAsset (List.mem_cons_self ..)
    refine ⟨.future ⟨contract.contractSize, a', contract.expiry⟩, ?_, .cons hQ .nil, ?_⟩
    · simp [mapKind, hfind, bind, Except.bind, pure, Except.pure]
    · intro ε' back hback
      simp [mapKind, hback _ _ hQ, bind, Except.bind, pure, Except.pure]
  | option contract =>
    obtain ⟨a', hfind, hQ⟩ := h contract.settlementAsset (List.mem_cons_self ..)
    refine ⟨.option ⟨contract.contractSize, a', contract.kind, contract.exercise, contract.expiry,
      contract.strike⟩, ?_, .cons hQ .nil, ?_⟩
    · simp [mapKind, hfind, bind, Except.bind, pure, Except.pure]
    · intro ε' back hback
      simp [mapKind, hback _ _ hQ, bind, Except.bind, pure, Except.pure]
  | cfd contract =>
    obtain ⟨a', hfind, hQ⟩ := h contract.settlementAsset (List.mem_cons_self ..)
    refine ⟨.cfd ⟨contract.contractSize, a'⟩, ?_, .cons hQ .nil, ?_⟩
    · simp [mapKind, hfind, bind, Except.bind, pure, Except.pure]
    · intro ε' back hback
      simp [mapKind, hback _ _ hQ, bind, Except.bind, pure, Except.pure]

theorem mapSpec_spec (spec : Option (InstrumentSpec A)) {find : A → Except ε A'}
    (h : ∀ a ∈ (unitAsset spec).toList, ∃ a', find a = .ok a' ∧ Q a a') :
    ∃ spec', mapSpec spec find = .ok spec' ∧
      List.Forall₂ Q (unitAsset spec).toList (unitAsset spec').toList ∧
      ∀ {ε' : Type} {back : A' → Except ε' A}, (∀ a a', Q a a' → back a' = .ok a) →
        mapSpec spec' back = .ok spec := by
  cases spec with
  | none => exact ⟨none, rfl, .nil, fun _ => rfl⟩
  | some spec =>
    obtain ⟨price, ⟨unit, min, increment⟩, notional⟩ := spec
    cases unit with
    | asset asset =>
      obtain ⟨a', hfind, hQ⟩ := h asset (List.mem_cons_self ..)
      refine ⟨some ⟨price, ⟨.asset a', min, increment⟩, notional⟩, ?_, .cons hQ .nil, ?_⟩
      · simp [mapSpec, mapUnit, hfind, bind, Except.bind, pure, Except.pure]
      · intro ε' back hback
        simp [mapSpec, mapUnit, hback _ _ hQ, bind, Except.bind, pure, Except.pure]
    | contract => exact ⟨some ⟨price, ⟨.contract, min, increment⟩, notional⟩, rfl, .nil, fun _ => rfl⟩
    | quote => exact ⟨some ⟨price, ⟨.quote, min, increment⟩, notional⟩, rfl, .nil, fun _ => rfl⟩

theorem mapAssetKeyWithLookup_spec (i : Instrument E A) {find : A → Except ε A'}
    (h : ∀ a ∈ i.assetKeys, ∃ a', find a = .ok a' ∧ Q a a') :
    ∃ j, i.mapAssetKeyWithLookup find = .ok j ∧ List.Forall₂ Q i.assetKeys j.assetKeys ∧
      j.nameInternal = i.nameInternal ∧ j.nameExchange = i.nameExchange ∧
      j.exchange = i.exchange ∧ j.exchangeKeys = i.exchangeKeys ∧
      ∀ {ε' : Type} {back : A' → Except ε' A}, (∀ a a', Q a a' → back a' = .ok a) →
        j.mapAssetKeyWithLookup back = .ok i := by
  obtain ⟨exchange, nameInternal, nameExchange, ⟨base, quoteAsset⟩, quote, kind, spec, dataVenue⟩ := i
  obtain ⟨base', hbase, hQbase⟩ := h base (List.mem_cons_self ..)
  obtain ⟨quote', hquote, hQquote⟩ := h quoteAsset (List.mem_cons_of_mem _ (List.mem_cons_self ..))
  have hrest : ∀ a ∈ (settlementAsset kind).toList ++ (unitAsset spec).toList,
      ∃ a', find a = .ok a' ∧ Q a a' := fun a ha =>
    h a (List.mem_cons_of_mem _ (List.mem_cons_of_mem _ ha))
  obtain ⟨kind', hkind, hQkind, hbackKind⟩ :=
    mapKind_spec kind fun a ha => hrest a (List.mem_append_left _ ha)
  obtain ⟨spec', hspec, hQspec, hbackSpec⟩ :=
    mapSpec_spec spec fun a ha => hrest a (List.mem_append_right _ ha)
  refine ⟨⟨exchange, nameInternal, nameExchange, ⟨base', quote'⟩, quote, kind', spec', dataVenue⟩,
    ?_, .cons hQbase (.cons hQquote (List.rel_append hQkind hQspec)), rfl, rfl, rfl, rfl, ?_⟩
  · simp [Instrument.mapAssetKeyWithLookup, hbase, hquote, hkind, hspec, bind, Except.bind, pure,
      Except.pure]
  · intro ε' back hback
    simp [Instrument.mapAssetKeyWithLookup, hback _ _ hQbase, hback _ _ hQquote, hbackKind hback,
      hbackSpec hback, bind, Except.bind, pure, Except.pure]

/-- Assets looked up first or last, the same comes of it. -/
theorem mapExchangeKey_swap {i : Instrument E A} {j : Instrument E A'} {o : Instrument E' A'}
    {findAsset : A → Except ε A'} {findExchange : E → Except ε' E'}
    (hassets : i.mapAssetKeyWithLookup findAsset = .ok j)
    (hexchanges : j.mapExchangeKey findExchange = .ok o) :
    ∃ x, i.mapExchangeKey findExchange = .ok x ∧ x.mapAssetKeyWithLookup findAsset = .ok o := by
  unfold Instrument.mapAssetKeyWithLookup at hassets
  obtain ⟨base, hbase, hassets⟩ := Except.bind_eq_ok.1 hassets
  obtain ⟨quote, hquote, hassets⟩ := Except.bind_eq_ok.1 hassets
  obtain ⟨kind, hkind, hassets⟩ := Except.bind_eq_ok.1 hassets
  obtain ⟨spec, hspec, hassets⟩ := Except.bind_eq_ok.1 hassets
  cases hassets
  unfold Instrument.mapExchangeKey at hexchanges
  obtain ⟨venue, hvenue, hexchanges⟩ := Except.bind_eq_ok.1 hexchanges
  obtain ⟨exchange, hexchange, hexchanges⟩ := Except.bind_eq_ok.1 hexchanges
  cases hexchanges
  refine ⟨{ i with exchange, dataVenue := venue }, ?_, ?_⟩
  · unfold Instrument.mapExchangeKey
    exact Except.bind_eq_ok.2 ⟨venue, hvenue, Except.bind_eq_ok.2 ⟨exchange, hexchange, rfl⟩⟩
  · unfold Instrument.mapAssetKeyWithLookup
    exact Except.bind_eq_ok.2 ⟨base, hbase, Except.bind_eq_ok.2 ⟨quote, hquote,
      Except.bind_eq_ok.2 ⟨kind, hkind, Except.bind_eq_ok.2 ⟨spec, hspec, rfl⟩⟩⟩⟩

end

/-! ## Places -/

section

variable {α : Type} {xs : List α} {x : α} {p : α → Bool} {k : ℕ}

theorem getElem?_keyed : (keyed xs)[k]? = xs[k]?.map fun x => ⟨k, x⟩ := by
  simp [keyed]

theorem mem_keyed {a : Keyed ℕ α} : a ∈ keyed xs ↔ xs[a.key]? = some a.value := by
  rw [List.mem_iff_getElem?]
  constructor
  · rintro ⟨k, hk⟩
    rw [getElem?_keyed, Option.map_eq_some_iff] at hk
    obtain ⟨x, hx, rfl⟩ := hk
    exact hx
  · intro h
    refine ⟨a.key, ?_⟩
    rw [getElem?_keyed, h]
    rfl

/-- What is found by a test that one member alone passes is that member, keyed by its place. -/
theorem find?_keyed {q : Keyed ℕ α → Bool} (hx : x ∈ xs) (hq : ∀ k, q ⟨k, x⟩ = true)
    (hunique : ∀ a ∈ keyed xs, q a = true → a.value = x) :
    ∃ k, (keyed xs).find? q = some ⟨k, x⟩ ∧ xs[k]? = some x := by
  obtain ⟨place, hplace⟩ := List.mem_iff_getElem?.1 hx
  cases hfind : (keyed xs).find? q with
  | none =>
    have hmem : (⟨place, x⟩ : Keyed ℕ α) ∈ keyed xs := mem_keyed.2 hplace
    exact absurd (hq place) (List.find?_eq_none.1 hfind _ hmem)
  | some found =>
    have hmem := List.mem_of_find?_eq_some hfind
    have hvalue := hunique found hmem (List.find?_some hfind)
    obtain ⟨k, value⟩ := found
    cases hvalue
    exact ⟨k, rfl, mem_keyed.1 hmem⟩

end

/-! ## A build -/

variable [NameCase] {E : Type} [LinearOrder E] {builder : IndexedInstrumentsBuilder E}
  {r : IndexedInstruments E} {instruments : List (Instrument E Asset)}
  {assets : List (ExchangeAsset E)} {exchanges : List E}

/-- A collection in which every multiplier is positive and every name is of one thing. -/
structure Accepted (instruments : List (Instrument E Asset)) (assets : List (ExchangeAsset E)) :
    Prop where
  contractSize : ∀ instrument ∈ instruments, 0 < instrument.kind.contractSize
  nameInternal : (instruments.map Instrument.nameInternal).Nodup
  nameExchange : (instruments.map fun instrument =>
    (instrument.exchange, toAsciiLowercase instrument.nameExchange.name)).Nodup
  assetNameInternal : (assets.map fun asset => (asset.exchange, asset.asset.nameInternal)).Nodup
  assetNameExchange : (assets.map fun asset =>
    (asset.exchange, toAsciiLowercase asset.asset.nameExchange.name)).Nodup

open IndexedInstrumentsBuilder

theorem refusal_eq_none_iff : refusal instruments assets = none ↔ Accepted instruments assets := by
  constructor
  · intro h
    unfold refusal at h
    split at h
    · cases h
    rename_i hsize
    split at h
    · cases h
    rename_i hinternal
    split at h
    · cases h
    rename_i hexchange
    split at h
    · cases h
    rename_i hassetInternal
    split at h
    · cases h
    rename_i hassetExchange
    refine ⟨?_, List.firstDuplicate_nil_eq_none_iff.1 hinternal,
      List.firstDuplicate_nil_eq_none_iff.1 hexchange,
      List.firstDuplicate_nil_eq_none_iff.1 hassetInternal,
      List.firstDuplicate_nil_eq_none_iff.1 hassetExchange⟩
    simpa using hsize
  · rintro ⟨hsize, hinternal, hexchange, hassetInternal, hassetExchange⟩
    have hpositive : (instruments.find? fun instrument =>
        instrument.kind.contractSize ≤ 0) = none := by
      simpa using hsize
    unfold refusal
    rw [hpositive, List.firstDuplicate_nil_eq_none_iff.2 hinternal,
      List.firstDuplicate_nil_eq_none_iff.2 hexchange,
      List.firstDuplicate_nil_eq_none_iff.2 hassetInternal,
      List.firstDuplicate_nil_eq_none_iff.2 hassetExchange]

/-- An exchange that is registered is found, by its place. -/
theorem findExchange_spec {e : E} (he : e ∈ exchanges) :
    ∃ k, findExchangeByExchangeId (keyed exchanges) e = .ok k ∧ exchanges[k]? = some e := by
  obtain ⟨k, hfind, hk⟩ := find?_keyed (q := fun indexed => decide (indexed.value = e)) he
    (fun _ => by simp) fun a _ ha => by simpa using ha
  unfold findExchangeByExchangeId
  rw [hfind]
  exact ⟨k, rfl, hk⟩

/-- An asset that is registered is found by its exchange and name, which are its alone. -/
theorem findAsset_spec {asset : ExchangeAsset E} (hasset : asset ∈ assets)
    (hunique : (assets.map fun asset => (asset.exchange, asset.asset.nameInternal)).Nodup) :
    ∃ k, findAssetByExchangeAndNameInternal (keyed assets) asset.exchange
      asset.asset.nameInternal = .ok k ∧ assets[k]? = some asset := by
  have halone : ∀ a ∈ keyed assets, decide (a.value.exchange = asset.exchange ∧
      a.value.asset.nameInternal = asset.asset.nameInternal) = true → a.value = asset := by
    intro a ha hsame
    rw [decide_eq_true_eq] at hsame
    have hmem : a.value ∈ assets := List.mem_of_getElem? (mem_keyed.1 ha)
    exact List.inj_on_of_nodup_map hunique hmem hasset (by rw [hsame.1, hsame.2])
  obtain ⟨k, hfind, hk⟩ := find?_keyed hasset (fun _ => by simp) halone
  unfold findAssetByExchangeAndNameInternal
  rw [hfind]
  exact ⟨k, rfl, hk⟩

/-- The exchanges and assets of an indexed instrument are the ones registered for the original's
    venues, and looking them up gives the original. -/
structure Indexes (r : IndexedInstruments E) (original : Instrument E Asset)
    (indexed : IndexedInstrument E) : Prop where
  exchanges : List.Forall₂ (fun exchange keyed =>
    keyed.value = exchange ∧ r.exchanges[keyed.key]? = some keyed)
    original.exchangeKeys indexed.exchangeKeys
  assets : List.Forall₂ (fun asset index =>
    r.assets[index]? = some ⟨index, ⟨original.exchange, asset⟩⟩)
    original.assetKeys indexed.assetKeys
  nameInternal : indexed.nameInternal = original.nameInternal
  nameExchange : indexed.nameExchange = original.nameExchange
  unindexed : r.unindexedInstrument indexed = .ok original

omit [LinearOrder E] in
theorem Indexes.exchange {original : Instrument E Asset} {indexed : IndexedInstrument E}
    (h : Indexes r original indexed) : indexed.exchange.value = original.exchange :=
  (List.forall₂_cons.1 h.exchanges).1.1

omit [LinearOrder E] in
theorem resolveAsset_eq {name : InstrumentNameInternal} {index : AssetIndex} {exchange : E}
    {asset : Asset} (h : r.assets[index]? = some ⟨index, ⟨exchange, asset⟩⟩) :
    r.resolveAsset name index = .ok asset := by
  unfold IndexedInstruments.resolveAsset
  rw [h, Option.filter_some_pos (by simp)]

/-- What is registered is found, and finds its way back. -/
theorem indexInstrument_spec {original : Instrument E Asset}
    (hexchanges : r.exchanges = keyed exchanges) (hassets : r.assets = keyed assets)
    (hunique : (assets.map fun asset => (asset.exchange, asset.asset.nameInternal)).Nodup)
    (hregistered : ∀ e ∈ original.exchangeKeys, e ∈ exchanges)
    (himplied : ∀ a ∈ original.impliedAssets, a ∈ assets) :
    ∃ indexed, indexInstrument (keyed exchanges) (keyed assets) original = .ok indexed ∧
      Indexes r original indexed := by
  have hfindExchange : ∀ e ∈ original.exchangeKeys, ∃ found : Keyed ExchangeIndex E,
      (do
        let exchangeKey ← expect (findExchangeByExchangeId (keyed exchanges) e)
        return Keyed.mk exchangeKey e) = (.ok found : Except (BuildError E) _) ∧
        (found.value = e ∧ r.exchanges[found.key]? = some found) := by
    intro e he
    obtain ⟨k, hfind, hk⟩ := findExchange_spec (hregistered e he)
    refine ⟨⟨k, e⟩, ?_, rfl, ?_⟩
    · rw [hfind]
      rfl
    · rw [hexchanges, getElem?_keyed, hk]
      rfl
  obtain ⟨exchanged, hexchanged, hexchangeKeys, hinternal, hname, hassetKeys, hback⟩ :=
    mapExchangeKey_spec original hfindExchange
  have hfindAsset : ∀ a ∈ exchanged.assetKeys, ∃ index,
      findAssetByExchangeAndNameInternal (keyed assets) original.exchange a.nameInternal =
        .ok index ∧ r.assets[index]? = some ⟨index, ⟨original.exchange, a⟩⟩ := by
    intro a ha
    rw [hassetKeys] at ha
    have hmem : (⟨original.exchange, a⟩ : ExchangeAsset E) ∈ assets :=
      himplied _ (List.mem_map_of_mem ha)
    obtain ⟨k, hfind, hk⟩ := findAsset_spec hmem hunique
    refine ⟨k, hfind, ?_⟩
    rw [hassets, getElem?_keyed, hk]
    rfl
  obtain ⟨indexed, hindexed, hindices, hinternal', hname', hexchange', hexchangeKeys', hbackAsset⟩ :=
    mapAssetKeyWithLookup_spec exchanged hfindAsset
  refine ⟨indexed, ?_, ?_, ?_, ?_, ?_, ?_⟩
  · unfold indexInstrument
    exact Except.bind_eq_ok.2 ⟨exchanged, hexchanged, by rw [hindexed]; rfl⟩
  · rw [hexchangeKeys']
    exact hexchangeKeys
  · rw [hassetKeys] at hindices
    exact hindices
  · rw [hinternal', hinternal]
  · rw [hname', hname]
  · -- The indices lead back to the exchanged instrument, whose exchanges lead back to the original.
    have hassetsBack : indexed.mapAssetKeyWithLookup (r.resolveAsset indexed.nameInternal) =
        .ok exchanged := hbackAsset fun a index ha => resolveAsset_eq ha
    have hexchangesBack : exchanged.mapExchangeKey
        (fun exchange => (.ok exchange.value : Except (IndexError E) E)) = .ok original := by
      apply hback
      rintro e found ⟨rfl, -⟩
      rfl
    obtain ⟨x, hx, horiginal⟩ := mapExchangeKey_swap hassetsBack hexchangesBack
    unfold IndexedInstruments.unindexedInstrument
    exact Except.bind_eq_ok.2 ⟨x, hx, horiginal⟩

/-- Every instrument of a builder has registered its exchanges and its assets. -/
structure Registers (builder : IndexedInstrumentsBuilder E) : Prop where
  exchanges : ∀ i ∈ builder.instruments, ∀ e ∈ i.exchangeKeys, e ∈ builder.exchanges
  assets : ∀ i ∈ builder.instruments, ∀ a ∈ i.impliedAssets, a ∈ builder.assets

/-- A collection is the sorted lists of its builder, numbered by place. -/
structure Builds (builder : IndexedInstrumentsBuilder E) (r : IndexedInstruments E) : Prop where
  accepted : Accepted builder.instruments.sortDedup builder.assets.sortDedup
  exchanges : r.exchanges = keyed builder.exchanges.sortDedup
  assets : r.assets = keyed builder.assets.sortDedup
  instruments : ∃ indexed, r.instruments = keyed indexed ∧
    List.Forall₂ (Indexes r) builder.instruments.sortDedup indexed

theorem Registers.mapM_indexInstrument (h : Registers builder)
    (haccepted : Accepted builder.instruments.sortDedup builder.assets.sortDedup)
    (hexchanges : r.exchanges = keyed builder.exchanges.sortDedup)
    (hassets : r.assets = keyed builder.assets.sortDedup) :
    ∃ indexed, builder.instruments.sortDedup.mapM
        (indexInstrument (keyed builder.exchanges.sortDedup) (keyed builder.assets.sortDedup)) =
      .ok indexed ∧ List.Forall₂ (Indexes r) builder.instruments.sortDedup indexed := by
  apply Except.mapM_forall₂
  intro i hi
  rw [List.mem_sortDedup] at hi
  refine indexInstrument_spec hexchanges hassets haccepted.assetNameInternal ?_ ?_
  · intro e he
    exact List.mem_sortDedup.2 (h.exchanges i hi e he)
  · intro a ha
    exact List.mem_sortDedup.2 (h.assets i hi a ha)

theorem builds_of_tryBuild (hregisters : Registers builder) (h : builder.tryBuild = .ok r) :
    Builds builder r := by
  unfold tryBuild at h
  dsimp only at h
  split at h
  · cases h
  · rename_i hrefusal
    have haccepted := refusal_eq_none_iff.1 hrefusal
    obtain ⟨indexed, hindexed, h⟩ := Except.bind_eq_ok.1 h
    cases h
    refine ⟨haccepted, rfl, rfl, indexed, rfl, ?_⟩
    have hindexes := hregisters.mapM_indexInstrument haccepted (r := ⟨keyed _, keyed _, keyed indexed⟩)
      rfl rfl
    obtain ⟨found, hfound, hforall⟩ := hindexes
    cases hindexed.symm.trans hfound
    exact hforall

/-- A collection whose names are each of one thing builds. -/
theorem exists_builds (hregisters : Registers builder)
    (haccepted : Accepted builder.instruments.sortDedup builder.assets.sortDedup) :
    ∃ r, builder.tryBuild = .ok r := by
  obtain ⟨indexed, hindexed, -⟩ := hregisters.mapM_indexInstrument haccepted (r := ⟨keyed _, keyed _, []⟩) rfl rfl
  unfold tryBuild
  dsimp only
  rw [refusal_eq_none_iff.2 haccepted]
  exact ⟨_, Except.bind_eq_ok.2 ⟨indexed, hindexed, rfl⟩⟩

/-! ## Calls in any order -/

/-- One call on a builder. -/
inductive Call (E : Type) where
  | instrument (instrument : Instrument E Asset)
  | asset (asset : ExchangeAsset E)

omit [LinearOrder E] in
/-- What a call does to the builder. -/
def Call.apply (builder : IndexedInstrumentsBuilder E) : Call E → IndexedInstrumentsBuilder E
  | .instrument added => builder.addInstrument added
  | .asset added => builder.addAsset added

/-- A new builder after a sequence of calls. -/
def registered (calls : List (Call E)) : IndexedInstrumentsBuilder E :=
  calls.foldl Call.apply new

variable {calls calls' : List (Call E)} {call : Call E}

omit [LinearOrder E] in
theorem registered_append : registered (calls ++ [call]) = call.apply (registered calls) := by
  unfold registered
  rw [List.foldl_append]
  rfl

omit [LinearOrder E] in
theorem mem_instruments_registered {i : Instrument E Asset} :
    i ∈ (registered calls).instruments ↔ .instrument i ∈ calls := by
  induction calls using List.reverseRecOn with
  | nil => simp [registered, new]
  | append_singleton calls call ih =>
    rw [registered_append, List.mem_append, List.mem_singleton, ← ih]
    cases call with
    | instrument added =>
      show i ∈ (registered calls).instruments ++ [added] ↔ _
      simp
    | asset added =>
      show i ∈ (registered calls).instruments ↔ _
      simp

omit [LinearOrder E] in
theorem mem_assets_registered {a : ExchangeAsset E} :
    a ∈ (registered calls).assets ↔
      (∃ i, .instrument i ∈ calls ∧ a ∈ i.impliedAssets) ∨ .asset a ∈ calls := by
  induction calls using List.reverseRecOn with
  | nil => simp [registered, new]
  | append_singleton calls call ih =>
    rw [registered_append]
    cases call with
    | instrument added =>
      show a ∈ (registered calls).assets ++ added.impliedAssets ↔ _
      rw [List.mem_append, ih]
      simp only [List.mem_append, List.mem_singleton, Call.instrument.injEq, reduceCtorEq, or_false,
        or_and_right, exists_or, exists_eq_left]
      rw [or_right_comm]
    | asset added =>
      show a ∈ (registered calls).assets ++ [added] ↔ _
      rw [List.mem_append, List.mem_singleton, ih]
      simp only [List.mem_append, List.mem_singleton, Call.asset.injEq, reduceCtorEq, or_false]
      rw [or_assoc]

omit [LinearOrder E] in
theorem mem_exchanges_registered {e : E} :
    e ∈ (registered calls).exchanges ↔
      (∃ i, .instrument i ∈ calls ∧ e ∈ i.exchangeKeys) ∨
        ∃ a : ExchangeAsset E, .asset a ∈ calls ∧ a.exchange = e := by
  induction calls using List.reverseRecOn with
  | nil => simp [registered, new]
  | append_singleton calls call ih =>
    rw [registered_append]
    cases call with
    | instrument added =>
      show e ∈ (registered calls).exchanges ++ added.exchangeKeys ↔ _
      rw [List.mem_append, ih]
      simp only [List.mem_append, List.mem_singleton, Call.instrument.injEq, reduceCtorEq, or_false,
        or_and_right, exists_or, exists_eq_left]
      rw [or_right_comm]
    | asset added =>
      show e ∈ (registered calls).exchanges ++ [added.exchange] ↔ _
      rw [List.mem_append, List.mem_singleton, ih]
      simp only [List.mem_append, List.mem_singleton, Call.asset.injEq, reduceCtorEq, or_false,
        or_and_right, exists_or, exists_eq_left]
      rw [or_assoc, eq_comm (a := e)]

omit [LinearOrder E] in
theorem registers_registered : Registers (registered calls) := by
  constructor
  · intro i hi e he
    exact mem_exchanges_registered.2 (.inl ⟨i, mem_instruments_registered.1 hi, he⟩)
  · intro i hi a ha
    exact mem_assets_registered.2 (.inl ⟨i, mem_instruments_registered.1 hi, ha⟩)

/-- A build reads the members of its lists alone. -/
theorem tryBuild_congr {other : IndexedInstrumentsBuilder E}
    (hexchanges : ∀ e, e ∈ builder.exchanges ↔ e ∈ other.exchanges)
    (hinstruments : ∀ i, i ∈ builder.instruments ↔ i ∈ other.instruments)
    (hassets : ∀ a, a ∈ builder.assets ↔ a ∈ other.assets) : builder.tryBuild = other.tryBuild := by
  unfold tryBuild
  rw [List.sortDedup_eq_iff.2 hexchanges, List.sortDedup_eq_iff.2 hinstruments,
    List.sortDedup_eq_iff.2 hassets]

/-- The order of the calls decides nothing. -/
theorem tryBuild_perm (h : calls.Perm calls') :
    (registered calls).tryBuild = (registered calls').tryBuild := by
  apply tryBuild_congr
  · intro e
    simp only [mem_exchanges_registered, h.mem_iff]
  · intro i
    rw [mem_instruments_registered, mem_instruments_registered, h.mem_iff]
  · intro a
    simp only [mem_assets_registered, h.mem_iff]

/-! ## ASCII names -/

section

omit [NameCase]

theorem toLower_toLower (c : Char) : c.toLower.toLower = c.toLower := by
  by_cases hupper : c.val ≥ 'A'.val ∧ c.val ≤ 'Z'.val
  · have hlower : ¬ c.toLower.val ≤ 'Z'.val := by
      have hval : c.toLower.val = c.val + 32 := by
        unfold Char.toLower
        rw [dif_pos hupper]
        rfl
      rw [hval, UInt32.not_le]
      obtain ⟨hge, hle⟩ := hupper
      rw [ge_iff_le, UInt32.le_iff_toNat_le] at hge
      rw [UInt32.le_iff_toNat_le] at hle
      rw [UInt32.lt_iff_toNat_lt, UInt32.toNat_add]
      simp only [Char.reduceVal, UInt32.reduceToNat] at *
      omega
    unfold Char.toLower at hlower ⊢
    exact dif_neg fun h => hlower h.2
  · have hsame : c.toLower = c := by
      unfold Char.toLower
      exact dif_neg hupper
    rw [hsame, hsame]

theorem toAsciiLowercase_idempotent (name : String) :
    toAsciiLowercase (toAsciiLowercase name) = toAsciiLowercase name := by
  unfold toAsciiLowercase
  rw [String.map_map]
  congr 1
  funext c
  exact toLower_toLower c

/-- What the table does to the names of ASCII letters. -/
@[reducible] def asciiCase : NameCase := ⟨toAsciiLowercase, toAsciiLowercase_idempotent⟩

end

def assetNamed (name : String) : Asset := ⟨.new name, ⟨name⟩⟩

/-- A spot pair of two assets, on the only exchange. -/
def spotNamed (base quote : String) : Instrument Unit Asset where
  exchange := ()
  nameInternal := .new (base ++ quote)
  nameExchange := ⟨base ++ quote⟩
  underlying := ⟨assetNamed base, assetNamed quote⟩
  quote := .underlyingQuote
  kind := .spot
  spec := none
  dataVenue := none

end Rustrade.Index
