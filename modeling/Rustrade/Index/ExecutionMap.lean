import Rustrade.Index.Built
import Rustrade.Lib.Collect
import Rustrade.Lib.Related

/-!
# Names an exchange reports

`ExecutionInstrumentMap` leads from the names one exchange reports to indices of the collection, and
from indices to the names as they were registered. A name that is not found as it is spelt is looked
for by its letters in lower case.
-/

set_option autoImplicit false

namespace Rustrade.Index

/-! ## The map -/

section

variable {E N α : Type}

/-- The error of a lookup, with the key its text names. -/
structure NotContained (Key : Type) where
  key : Key
deriving DecidableEq

/-- The names met so far by their letters, and the letters that two of them share. -/
structure Folding where
  folded : IndexMap String ℕ
  shared : List String

def Folding.add (self : Folding) (name : String) (index : ℕ) : Folding :=
  let key := toAsciiLowercase name
  { folded := self.folded.insert key index
    shared := if self.folded.contains key then self.shared ++ [key] else self.shared }

/-- Letters that two names share are left out. -/
def foldNames (names : List (String × ℕ)) : IndexMap String ℕ :=
  let folding := names.foldl (fun (folding : Folding) name => folding.add name.1 name.2) ⟨.empty, []⟩
  folding.shared.sortDedup.foldl IndexMap.remove folding.folded

def findFolded (folded : IndexMap String ℕ) (name : String) : Option ℕ :=
  folded.get? (toAsciiLowercase name)

/-- The names of what is listed on an exchange, each with its index. -/
def namesOn [DecidableEq E] (listing : List (Keyed ℕ α)) (listedOn : α → E) (name : α → N)
    (exchange : E) : List (N × ℕ) :=
  listing.filterMap fun keyed =>
    if listedOn keyed.value = exchange then some (name keyed.value, keyed.key) else none

/-- The spelling is looked for first, and then the letters. -/
def findIndex [DecidableEq N] (names : IndexMap N ℕ) (folded : IndexMap String ℕ)
    (text : N → String) (name : N) : Except (NotContained N) ℕ :=
  match names.get? name with
  | some index => .ok index
  | none =>
    match findFolded folded (text name) with
    | some index => .ok index
    | none => .error ⟨name⟩

end

structure ExecutionInstrumentMap [NameCase] (E : Type) where
  exchange : Keyed ExchangeIndex E
  assets : IndexSet (ExchangeAsset E)
  instruments : IndexSet (IndexedInstrument E)
  assetNames : IndexMap AssetNameExchange AssetIndex
  instrumentNames : IndexMap InstrumentNameExchange InstrumentIndex
  assetNamesFolded : IndexMap String AssetIndex
  instrumentNamesFolded : IndexMap String InstrumentIndex

namespace ExecutionInstrumentMap

variable [NameCase] {E : Type} [LinearOrder E]

def new (hash : HashOrder) (exchange : Keyed ExchangeIndex E)
    (instruments : IndexedInstruments E) : ExecutionInstrumentMap E :=
  let assetNames := IndexMap.collect (namesOn instruments.assets ExchangeAsset.exchange
    (fun value => value.asset.nameExchange) exchange.value)
  let instrumentNames := IndexMap.collect (namesOn instruments.instruments
    (fun value => value.exchange.value) Instrument.nameExchange exchange.value)
  { exchange
    assets := .collect (instruments.assets.map Keyed.value)
    instruments := .collect (instruments.instruments.map Keyed.value)
    assetNames
    instrumentNames
    assetNamesFolded := foldNames ((hash.arrange assetNames.entries).map
      fun entry => (entry.1.name, entry.2))
    instrumentNamesFolded := foldNames ((hash.arrange instrumentNames.entries).map
      fun entry => (entry.1.name, entry.2)) }

omit [LinearOrder E]

def findAssetNameExchange (self : ExecutionInstrumentMap E) (asset : AssetIndex) :
    Except (NotContained AssetIndex) AssetNameExchange :=
  match self.assets.getIndex asset with
  | some asset => .ok asset.asset.nameExchange
  | none => .error ⟨asset⟩

def findAssetIndex (self : ExecutionInstrumentMap E) (asset : AssetNameExchange) :
    Except (NotContained AssetNameExchange) AssetIndex :=
  findIndex self.assetNames self.assetNamesFolded AssetNameExchange.name asset

def findInstrumentNameExchange (self : ExecutionInstrumentMap E) (instrument : InstrumentIndex) :
    Except (NotContained InstrumentIndex) InstrumentNameExchange :=
  match self.instruments.getIndex instrument with
  | some instrument => .ok instrument.nameExchange
  | none => .error ⟨instrument⟩

def findInstrumentIndex (self : ExecutionInstrumentMap E) (instrument : InstrumentNameExchange) :
    Except (NotContained InstrumentNameExchange) InstrumentIndex :=
  findIndex self.instrumentNames self.instrumentNamesFolded InstrumentNameExchange.name instrument

end ExecutionInstrumentMap

/-! ## Letters -/

theorem foldl_add {names : List (String × ℕ)} {m : IndexMap String ℕ}
    (hnodup : (names.map fun name => toAsciiLowercase name.1).Nodup)
    (hfresh : ∀ name ∈ names, toAsciiLowercase name.1 ∉ m.keys) :
    names.foldl (fun (folding : Folding) name => folding.add name.1 name.2) ⟨m, []⟩ =
      ⟨(names.map fun name => (toAsciiLowercase name.1, name.2)).foldl
        (fun m e => m.insert e.1 e.2) m, []⟩ := by
  induction names generalizing m with
  | nil => rfl
  | cons name names ih =>
    rw [List.map_cons, List.nodup_cons] at hnodup
    have hnew : m.contains (toAsciiLowercase name.1) = false := by
      rw [← Bool.not_eq_true, ← IndexMap.mem_keys_iff_contains]
      exact hfresh name (List.mem_cons_self ..)
    have hadd : Folding.add ⟨m, []⟩ name.1 name.2 =
        ⟨m.insert (toAsciiLowercase name.1) name.2, []⟩ := by
      simp [Folding.add, hnew]
    rw [List.foldl_cons, hadd, ih hnodup.2]
    · rfl
    · intro other hother hmem
      rw [IndexMap.mem_keys_iff_contains, IndexMap.contains_insert] at hmem
      simp only [Bool.or_eq_true, decide_eq_true_eq, ← IndexMap.mem_keys_iff_contains] at hmem
      rcases hmem with hmem | hmem
      · exact hnodup.1 (List.mem_map.2 ⟨other, hother, hmem⟩)
      · exact hfresh other (List.mem_cons_of_mem name hother) hmem

/-- Where no two names have the same letters, letters lead to the index of their name. -/
theorem get?_foldNames {names : List (String × ℕ)} {key : String} {index : ℕ}
    (hnodup : (names.map fun name => toAsciiLowercase name.1).Nodup) :
    (foldNames names).get? key = some index ↔
      ∃ name, (name, index) ∈ names ∧ toAsciiLowercase name = key := by
  have hkeys : ((names.map fun name => (toAsciiLowercase name.1, name.2)).map Prod.fst).Nodup := by
    rw [List.map_map]
    exact hnodup
  have hfolded : foldNames names =
      IndexMap.collect (names.map fun name => (toAsciiLowercase name.1, name.2)) := by
    unfold foldNames
    rw [foldl_add hnodup fun _ _ => List.not_mem_nil]
    rfl
  rw [hfolded, IndexMap.get?_collect hkeys]
  simp

/-- A name leads to an index exactly when what it is the index of has its letters. -/
theorem findIndex_eq_ok_iff {N : Type} [DecidableEq N] {own : List (N × ℕ)} {text : N → String}
    {hash : HashOrder} {name : N} {index : ℕ}
    (hnodup : (own.map fun entry => toAsciiLowercase (text entry.1)).Nodup) :
    findIndex (IndexMap.collect own)
        (foldNames ((hash.arrange (IndexMap.collect own).entries).map
          fun entry => (text entry.1, entry.2))) text name = .ok index ↔
      ∃ registered, (registered, index) ∈ own ∧
        toAsciiLowercase (text registered) = toAsciiLowercase (text name) := by
  have hkeys : (own.map Prod.fst).Nodup := by
    apply List.Nodup.of_map fun registered => toAsciiLowercase (text registered)
    rw [List.map_map]
    exact hnodup
  have hletters : (((hash.arrange (IndexMap.collect own).entries).map
      fun entry => (text entry.1, entry.2)).map fun name => toAsciiLowercase name.1).Nodup := by
    rw [List.map_map, IndexMap.entries_collect hkeys]
    exact ((hash.perm own).map _).nodup_iff.2 hnodup
  unfold findIndex
  cases hspelt : (IndexMap.collect own).get? name with
  | some found =>
    have hfound := (IndexMap.get?_collect hkeys).1 hspelt
    constructor
    · intro h
      cases h
      exact ⟨name, hfound, rfl⟩
    · rintro ⟨registered, hregistered, hsame⟩
      cases List.inj_on_of_nodup_map hnodup hregistered hfound hsame
      rfl
  | none =>
    have hfolded : (findFolded (foldNames ((hash.arrange (IndexMap.collect own).entries).map
        fun entry => (text entry.1, entry.2))) (text name) = some index) ↔
        ∃ registered, (registered, index) ∈ own ∧
          toAsciiLowercase (text registered) = toAsciiLowercase (text name) := by
      unfold findFolded
      rw [get?_foldNames hletters, IndexMap.entries_collect hkeys]
      simp
    rw [← hfolded]
    dsimp only
    split
    · rename_i found hfind
      rw [hfind]
      simp
    · rename_i hfind
      rw [hfind]
      simp

/-! ## What is listed -/

section

variable {E N α : Type} [DecidableEq E] {xs : List α} {listedOn : α → E} {name : α → N}
  {exchange : E}

theorem mem_namesOn {n : N} {index : ℕ} :
    (n, index) ∈ namesOn (keyed xs) listedOn name exchange ↔
      ∃ x, xs[index]? = some x ∧ listedOn x = exchange ∧ name x = n := by
  unfold namesOn
  rw [List.mem_filterMap]
  constructor
  · rintro ⟨⟨k, x⟩, hmem, h⟩
    rw [Option.ite_none_right_eq_some] at h
    obtain ⟨hexchange, h⟩ := h
    cases h
    exact ⟨x, mem_keyed.1 hmem, hexchange, rfl⟩
  · rintro ⟨x, hx, hexchange, rfl⟩
    exact ⟨⟨index, x⟩, mem_keyed.2 hx, by simp [hexchange]⟩

omit [DecidableEq E] in
theorem map_value_keyed : (keyed xs).map Keyed.value = xs := by
  apply List.ext_getElem?
  intro k
  rw [List.getElem?_map, getElem?_keyed, Option.map_map]
  exact Option.map_id' ..

/-- Letters that are of one thing on each exchange are of one thing on this one. -/
theorem nodup_namesOn {text : N → String}
    (h : (xs.map fun x => (listedOn x, toAsciiLowercase (text (name x)))).Nodup) :
    ((namesOn (keyed xs) listedOn name exchange).map fun entry =>
      toAsciiLowercase (text entry.1)).Nodup := by
  have hvalues : (keyed xs).map Keyed.value = xs := map_value_keyed
  rw [← hvalues, List.map_map] at h
  unfold List.Nodup namesOn at *
  rw [List.pairwise_map] at h ⊢
  refine List.Pairwise.filterMap _ ?_ h
  intro a a' hne b hb b' hb' hsame
  rw [Option.ite_none_right_eq_some] at hb hb'
  obtain ⟨hlisted, hb⟩ := hb
  obtain ⟨hlisted', hb'⟩ := hb'
  cases hb
  cases hb'
  apply hne
  show (listedOn a.value, _) = (listedOn a'.value, _)
  rw [hlisted, hlisted', hsame]

end

/-! ## Names and indices -/

section

variable [NameCase] {E : Type} [LinearOrder E] {r : IndexedInstruments E}
  {calls calls' : List (Call E)}

/-- Indices are places, and what an instrument refers to is what is registered. -/
structure Numbered (calls : List (Call E)) (r : IndexedInstruments E) : Prop where
  exchangeKeys : ∀ (k : ℕ) (keyed : Keyed _ _), r.exchanges[k]? = some keyed → keyed.key = k
  assetKeys : ∀ (k : ℕ) (keyed : Keyed _ _), r.assets[k]? = some keyed → keyed.key = k
  instrumentKeys : ∀ (k : ℕ) (keyed : Keyed _ _), r.instruments[k]? = some keyed → keyed.key = k
  indexes : ∀ keyed ∈ r.instruments, ∃ i, .instrument i ∈ calls ∧ Indexes r i keyed.value
  indexed : ∀ i, .instrument i ∈ calls → ∃ keyed ∈ r.instruments, Indexes r i keyed.value

/-- A name leads to what is listed on the exchange under its letters and to nothing else, and an
    index to the name as it was registered. -/
structure Resolves (r : IndexedInstruments E) (map : ExecutionInstrumentMap E) : Prop where
  findInstrumentIndex : ∀ n i, map.findInstrumentIndex n = .ok i ↔
    ∃ instrument, r.instruments[i]? = some ⟨i, instrument⟩ ∧
      instrument.exchange.value = map.exchange.value ∧
      toAsciiLowercase instrument.nameExchange.name = toAsciiLowercase n.name
  findInstrumentNameExchange : ∀ i instrument, r.instruments[i]? = some ⟨i, instrument⟩ →
    map.findInstrumentNameExchange i = .ok instrument.nameExchange
  findAssetIndex : ∀ n i, map.findAssetIndex n = .ok i ↔
    ∃ asset, r.assets[i]? = some ⟨i, asset⟩ ∧ asset.exchange = map.exchange.value ∧
      toAsciiLowercase asset.asset.nameExchange.name = toAsciiLowercase n.name
  findAssetNameExchange : ∀ i asset, r.assets[i]? = some ⟨i, asset⟩ →
    map.findAssetNameExchange i = .ok asset.asset.nameExchange

omit [NameCase] in
theorem key_of_keyed {α : Type} {xs : List α} {k : ℕ} {a : Keyed ℕ α}
    (h : (keyed xs)[k]? = some a) : a.key = k := by
  rw [getElem?_keyed, Option.map_eq_some_iff] at h
  obtain ⟨x, -, rfl⟩ := h
  rfl

theorem numbered (h : (registered calls).tryBuild = .ok r) : Numbered calls r := by
  obtain ⟨-, hexchanges, hassets, indexed, hinstruments, hindexed⟩ :=
    builds_of_tryBuild registers_registered h
  refine ⟨?_, ?_, ?_, ?_, ?_⟩
  · rw [hexchanges]
    exact fun _ _ => key_of_keyed
  · rw [hassets]
    exact fun _ _ => key_of_keyed
  · rw [hinstruments]
    exact fun _ _ => key_of_keyed
  · intro keyed hkeyed
    rw [hinstruments, mem_keyed] at hkeyed
    obtain ⟨i, hi, hindexes⟩ := hindexed.exists_left (List.mem_of_getElem? hkeyed)
    exact ⟨i, mem_instruments_registered.1 (List.mem_sortDedup.1 hi), hindexes⟩
  · intro i hi
    have hmem := List.mem_sortDedup.2 (mem_instruments_registered.2 hi)
    obtain ⟨instrument, hinstrument, hindexes⟩ := hindexed.exists_right hmem
    obtain ⟨k, hk⟩ := List.mem_iff_getElem?.1 hinstrument
    refine ⟨⟨k, instrument⟩, ?_, hindexes⟩
    rw [hinstruments, mem_keyed]
    exact hk

theorem resolves (hash : HashOrder) (exchange : Keyed ExchangeIndex E)
    (h : (registered calls).tryBuild = .ok r) :
    Resolves r (ExecutionInstrumentMap.new hash exchange r) := by
  obtain ⟨haccepted, -, hassets, indexed, hinstruments, hindexed⟩ :=
    builds_of_tryBuild registers_registered h
  have hletters : (indexed.map fun instrument =>
      (instrument.exchange.value, toAsciiLowercase instrument.nameExchange.name)).Nodup := by
    rw [← hindexed.map_eq fun i instrument hi => by rw [hi.exchange, hi.nameExchange]]
    exact haccepted.nameExchange
  have hnames : (indexed.map Instrument.nameInternal).Nodup := by
    rw [← hindexed.map_eq fun i instrument hi => hi.nameInternal.symm]
    exact haccepted.nameInternal
  refine ⟨?_, ?_, ?_, ?_⟩
  · intro n i
    unfold ExecutionInstrumentMap.findInstrumentIndex ExecutionInstrumentMap.new
    dsimp only
    rw [hinstruments, findIndex_eq_ok_iff (nodup_namesOn hletters)]
    simp only [mem_namesOn, getElem?_keyed, Option.map_eq_some_iff]
    constructor
    · rintro ⟨registered, ⟨instrument, hinstrument, hlisted, rfl⟩, hsame⟩
      exact ⟨instrument, ⟨instrument, hinstrument, rfl⟩, hlisted, hsame⟩
    · rintro ⟨instrument, ⟨_, hinstrument, hkeyed⟩, hlisted, hsame⟩
      cases hkeyed
      exact ⟨_, ⟨instrument, hinstrument, hlisted, rfl⟩, hsame⟩
  · intro i instrument hi
    unfold ExecutionInstrumentMap.findInstrumentNameExchange ExecutionInstrumentMap.new
    dsimp only
    rw [hinstruments, map_value_keyed, IndexSet.getIndex_collect (hnames.of_map _)]
    rw [hinstruments, getElem?_keyed, Option.map_eq_some_iff] at hi
    obtain ⟨_, hi, hkeyed⟩ := hi
    cases hkeyed
    rw [hi]
  · intro n i
    unfold ExecutionInstrumentMap.findAssetIndex ExecutionInstrumentMap.new
    dsimp only
    rw [hassets, findIndex_eq_ok_iff (nodup_namesOn haccepted.assetNameExchange)]
    simp only [mem_namesOn, getElem?_keyed, Option.map_eq_some_iff]
    constructor
    · rintro ⟨registered, ⟨asset, hasset, hlisted, rfl⟩, hsame⟩
      exact ⟨asset, ⟨asset, hasset, rfl⟩, hlisted, hsame⟩
    · rintro ⟨asset, ⟨_, hasset, hkeyed⟩, hlisted, hsame⟩
      cases hkeyed
      exact ⟨_, ⟨asset, hasset, hlisted, rfl⟩, hsame⟩
  · intro i asset hi
    unfold ExecutionInstrumentMap.findAssetNameExchange ExecutionInstrumentMap.new
    dsimp only
    rw [hassets, map_value_keyed, IndexSet.getIndex_collect List.nodup_sortDedup]
    rw [hassets, getElem?_keyed, Option.map_eq_some_iff] at hi
    obtain ⟨_, hi, hkeyed⟩ := hi
    cases hkeyed
    rw [hi]

/-- What is built does not depend on the order of the calls, its indices are places, and the map of
    every exchange leads from its names to them and back. -/
theorem names_and_indices (h : calls.Perm calls') :
    (registered calls).tryBuild = (registered calls').tryBuild ∧
      ∀ r, (registered calls).tryBuild = .ok r → Numbered calls r ∧
        ∀ (hash : HashOrder) (exchange : Keyed ExchangeIndex E),
          Resolves r (ExecutionInstrumentMap.new hash exchange r) :=
  ⟨tryBuild_perm h, fun _ hr => ⟨numbered hr, fun hash exchange => resolves hash exchange hr⟩⟩

end

/-- A pair and an asset, added the one before the other or after it. -/
theorem names_and_indices_swap : ∃ (_ : NameCase),
    (registered [.instrument (spotNamed "btc" "usdt"), .asset ⟨(), assetNamed "bnb"⟩]).tryBuild =
        (registered [.asset ⟨(), assetNamed "bnb"⟩, .instrument (spotNamed "btc" "usdt")]).tryBuild ∧
      ∀ r, (registered [.instrument (spotNamed "btc" "usdt"),
          .asset ⟨(), assetNamed "bnb"⟩]).tryBuild = .ok r →
        Numbered [.instrument (spotNamed "btc" "usdt"), .asset ⟨(), assetNamed "bnb"⟩] r ∧
          ∀ (hash : HashOrder) (exchange : Keyed ExchangeIndex Unit),
            Resolves r (ExecutionInstrumentMap.new hash exchange r) :=
  let _ : NameCase := asciiCase
  ⟨asciiCase, names_and_indices (List.Perm.swap ..)⟩

end Rustrade.Index
