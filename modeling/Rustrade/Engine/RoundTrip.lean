import Rustrade.Engine.Checkpoint
import Mathlib.Data.List.Perm.Lattice

/-!
# The round trip of a checkpoint

The positions of one exchange, taken from an engine that holds each under the rules a restore
checks, are placed in another engine that lists the same names: each in its own slot, the same but
for the indices, whatever the order they are placed in; and taken again they are the same
positions. What carries the placing is `Placed`: after some of them, each slot of the second engine
holds the one of them that names it, and nothing else.
-/

set_option autoImplicit false

namespace Rustrade

/-- Where a list has no value twice, a value's index is the one place it stands. -/
theorem idxOf?_of_getElem? {α : Type} [DecidableEq α] {l : List α} {a : α} {i : Nat}
    (hnodup : l.Nodup) (h : l[i]? = some a) : l.idxOf? a = some i := by
  obtain ⟨hlt, heq⟩ := List.getElem?_eq_some_iff.1 h
  refine List.idxOf?_eq_some_iff.2 ⟨hlt, heq, fun j hj hsame => ?_⟩
  have hji : j = i := hnodup.getElem_inj_iff.1 (hsame.trans heq.symm)
  exact absurd hji hj.ne

namespace NamedState

variable {Data : Type}

/-! ## Names and indices -/

/-- The name of an asset the list holds. -/
def nameOf (self : NamedState Data) (index : AssetIndex) : AssetNameInternal :=
  (self.assets[index]?).elim ⟨""⟩ ExchangeAsset.asset

/-- The index of an asset of `venue` the list holds. -/
def indexOf (self : NamedState Data) (venue : ExchangeId) (asset : AssetNameInternal) :
    AssetIndex := (self.assets.idxOf? ⟨venue, asset⟩).getD 0

/-- What the source calls a slot, over all the instruments. -/
def slotOf (c : PositionCheckpoint) : InstrumentNameInternal × PositionId :=
  (c.instrument, c.positionId)

variable {self : NamedState Data} {exchange : ExchangeIndex} {venue : ExchangeId}

theorem idxOf?_names {name : InstrumentNameInternal} {key : InstrumentIndex}
    (h : self.names[key]? = some name) : self.names.idxOf? name = some key :=
  idxOf?_of_getElem? self.nodup_names h

theorem indexOf_of_getElem? {asset : AssetNameInternal} {index : AssetIndex}
    (h : self.assets[index]? = some ⟨venue, asset⟩) : self.indexOf venue asset = index := by
  rw [indexOf, idxOf?_of_getElem? self.nodup_assets h, Option.getD_some]

theorem indexIn_eq_ok {asset : AssetNameInternal} {instrument : InstrumentNameInternal}
    (h : (⟨venue, asset⟩ : ExchangeAsset) ∈ self.assets) :
    PositionCheckpoint.indexIn self.assets venue instrument asset =
      .ok (self.indexOf venue asset) := by
  obtain ⟨index, hindex⟩ := List.mem_iff_getElem?.1 h
  have hidx := idxOf?_of_getElem? self.nodup_assets hindex
  rw [PositionCheckpoint.indexIn, indexOf, hidx]
  rfl

/-- A name of the list is the name of its index. -/
theorem getElem?_indexOf {asset : AssetNameInternal}
    (h : (⟨venue, asset⟩ : ExchangeAsset) ∈ self.assets) :
    self.assets[self.indexOf venue asset]? = some ⟨venue, asset⟩ := by
  obtain ⟨index, hindex⟩ := List.mem_iff_getElem?.1 h
  rw [indexOf_of_getElem? hindex, hindex]

theorem nameOf_indexOf {asset : AssetNameInternal}
    (h : (⟨venue, asset⟩ : ExchangeAsset) ∈ self.assets) :
    self.nameOf (self.indexOf venue asset) = asset := by
  rw [nameOf, getElem?_indexOf h]
  rfl

/-! ## What a checkpoint holds -/

/-- Every asset a position on `exchange` names is one of `venue`. -/
def AssetsNamed (self : NamedState Data) (exchange : ExchangeIndex) (venue : ExchangeId) : Prop :=
  ∀ (i : InstrumentIndex) (state : InstrumentState Data ExchangeIndex AssetIndex InstrumentIndex),
    self.state.instruments[i]? = some state → state.instrument.exchange = exchange →
      ∀ positionId position, state.position.positions.get? positionId = some position →
        ∀ asset ∈ position.assets, ∃ name, self.assets[asset]? = some ⟨venue, name⟩

/-- The positions on `exchange`, each with its names. -/
def checkpoints (self : NamedState Data) (exchange : ExchangeIndex) : List PositionCheckpoint :=
  (self.instrumentsOn exchange).flatMap fun e =>
    e.2.position.positions.entries.map fun slot => ⟨slot.1, slot.2.renamed e.1 self.nameOf⟩

theorem mem_instrumentsOn {name : InstrumentNameInternal}
    {state : InstrumentState Data ExchangeIndex AssetIndex InstrumentIndex} :
    (name, state) ∈ self.instrumentsOn exchange ↔
      ∃ i : InstrumentIndex, self.names[i]? = some name ∧ self.state.instruments[i]? = some state ∧
        state.instrument.exchange = exchange := by
  rw [instrumentsOn, List.mem_filter, List.mem_iff_getElem?]
  simp only [List.getElem?_zip_eq_some, decide_eq_true_eq]
  constructor
  · rintro ⟨⟨i, hname, hstate⟩, hexchange⟩
    exact ⟨i, hname, hstate, hexchange⟩
  · rintro ⟨i, hname, hstate, hexchange⟩
    exact ⟨⟨i, hname, hstate⟩, hexchange⟩

/-- Where every asset is named, nothing panics. -/
theorem positionCheckpoints_eq_ok (h : self.AssetsNamed exchange venue) :
    self.positionCheckpoints exchange = .ok (self.checkpoints exchange) := by
  have hone : ∀ e ∈ self.instrumentsOn exchange, self.checkpointsOf e =
      .ok (e.2.position.positions.entries.map fun slot =>
        ⟨slot.1, slot.2.renamed e.1 self.nameOf⟩) := by
    intro ⟨name, state⟩ he
    obtain ⟨i, -, hstate, hexchange⟩ := mem_instrumentsOn.1 he
    apply Except.mapM_eq_ok
    intro ⟨positionId, position⟩ hslot
    have hnamed := h i state hstate hexchange positionId position
      (IndexMap.get?_eq_some_iff.2 hslot)
    have hassets : ∀ asset ∈ position.assets, self.assetName asset = .ok (self.nameOf asset) := by
      intro asset hasset
      obtain ⟨name, hname⟩ := hnamed asset hasset
      rw [assetName, nameOf, hname]
      rfl
    have hposition : position.mapPositionKeys (fun _ => .ok name) self.assetName =
        .ok (position.renamed name self.nameOf) := Position.mapPositionKeys_eq_ok rfl hassets
    unfold checkpointOf
    rw [hposition]
    rfl
  unfold positionCheckpoints
  rw [Except.mapM_eq_ok hone, checkpoints, List.flatMap]
  rfl

/-- A checkpoint is of a position that is held, under the names it has. -/
theorem mem_checkpoints {c : PositionCheckpoint} : c ∈ self.checkpoints exchange ↔
    ∃ (i : InstrumentIndex) (name : InstrumentNameInternal)
      (state : InstrumentState Data ExchangeIndex AssetIndex InstrumentIndex)
      (position : Position AssetIndex InstrumentIndex), self.names[i]? = some name ∧
      self.state.instruments[i]? = some state ∧ state.instrument.exchange = exchange ∧
      state.position.positions.get? c.positionId = some position ∧
      c.position = position.renamed name self.nameOf := by
  simp only [checkpoints, List.mem_flatMap, List.mem_map]
  constructor
  · rintro ⟨⟨name, state⟩, he, ⟨positionId, position⟩, hslot, rfl⟩
    obtain ⟨i, hname, hstate, hexchange⟩ := mem_instrumentsOn.1 he
    exact ⟨i, name, state, position, hname, hstate, hexchange,
      IndexMap.get?_eq_some_iff.2 hslot, rfl⟩
  · rintro ⟨i, name, state, position, hname, hstate, hexchange, hget, hposition⟩
    refine ⟨(name, state), mem_instrumentsOn.2 ⟨i, hname, hstate, hexchange⟩,
      (c.positionId, position), IndexMap.get?_eq_some_iff.1 hget, ?_⟩
    rw [← hposition]

/-- No two are of one slot. -/
theorem nodup_slots : ((self.checkpoints exchange).map slotOf).Nodup := by
  have hnames : ((self.instrumentsOn exchange).map Prod.fst).Nodup := by
    have hzip : (self.names.zip self.state.instruments).map Prod.fst = self.names :=
      List.map_fst_zip self.length_names.le
    have hsub : ((self.instrumentsOn exchange).map Prod.fst).Sublist
        ((self.names.zip self.state.instruments).map Prod.fst) :=
      List.filter_sublist.map Prod.fst
    rw [hzip] at hsub
    exact hsub.nodup self.nodup_names
  rw [checkpoints, List.map_flatMap, List.nodup_flatMap]
  constructor
  · intro e _
    rw [List.map_map]
    have hkeys := e.2.position.positions.nodup
    rw [show slotOf ∘ (fun slot : PositionId × Position AssetIndex InstrumentIndex =>
      (⟨slot.1, slot.2.renamed e.1 self.nameOf⟩ : PositionCheckpoint)) =
        (fun positionId => (e.1, positionId)) ∘ Prod.fst from rfl, ← List.map_map]
    exact hkeys.map fun _ _ h => (Prod.mk.inj h).2
  · rw [List.nodup_iff_pairwise_ne, List.pairwise_map] at hnames
    refine hnames.imp fun {first second} hne slot hfirst hsecond => hne ?_
    simp only [List.mem_map] at hfirst hsecond
    obtain ⟨c, ⟨e, -, rfl⟩, hfirst⟩ := hfirst
    obtain ⟨c', ⟨e', -, rfl⟩, hsecond⟩ := hsecond
    exact (Prod.mk.inj (hfirst.trans hsecond.symm)).1

/-! ## Placing them -/

/-- What a restore checks of `c` in an engine: it lists the instrument on `venue` and the assets,
    and its manager has the slot. -/
structure Accepts (engine : NamedState Data) (venue : ExchangeId) (c : PositionCheckpoint) : Prop where
  lists : ∃ (j : InstrumentIndex)
    (state : InstrumentState Data ExchangeIndex AssetIndex InstrumentIndex),
    engine.names[j]? = some c.instrument ∧ engine.state.instruments[j]? = some state ∧
      engine.state.connectivity[state.instrument.exchange]? = some venue ∧
      (state.position.mode = .netting → c.positionId = .netting)
  holds : 0 < c.position.quantityAbs
  assets : ∀ asset ∈ c.position.assets, (⟨venue, asset⟩ : ExchangeAsset) ∈ engine.assets

/-- `current` is `engine` with `done` placed in it. -/
structure Placed (engine current : NamedState Data) (venue : ExchangeId)
    (done : List PositionCheckpoint) : Prop where
  names : current.names = engine.names
  assets : current.assets = engine.assets
  connectivity : current.state.connectivity = engine.state.connectivity
  terms : ∀ j : InstrumentIndex,
    (current.state.instruments[j]?).map (fun state => (state.instrument, state.position.mode)) =
      (engine.state.instruments[j]?).map fun state => (state.instrument, state.position.mode)
  slots : ∀ (j : InstrumentIndex) (name : InstrumentNameInternal)
    (state : InstrumentState Data ExchangeIndex AssetIndex InstrumentIndex),
    current.names[j]? = some name → current.state.instruments[j]? = some state →
      ∀ positionId position, state.position.positions.get? positionId = some position ↔
        ∃ c ∈ done, slotOf c = (name, positionId) ∧
          position = c.position.renamed j (engine.indexOf venue)

/-- An accepted position whose slot is free is placed in it. -/
theorem restorePosition_eq_ok {c : PositionCheckpoint} {key : InstrumentIndex}
    {state : InstrumentState Data ExchangeIndex AssetIndex InstrumentIndex}
    (hname : self.names[key]? = some c.instrument)
    (hstate : self.state.instruments[key]? = some state)
    (hvenue : self.state.connectivity[state.instrument.exchange]? = some venue)
    (hslot : state.position.mode = .netting → c.positionId = .netting)
    (hholds : 0 < c.position.quantityAbs)
    (hassets : ∀ asset ∈ c.position.assets, (⟨venue, asset⟩ : ExchangeAsset) ∈ self.assets)
    (hfree : state.position.positions.get? c.positionId = none) :
    self.restorePosition c = .ok (self.setPosition key { state.position with
      positions := state.position.positions.insert c.positionId
        (c.position.renamed key (self.indexOf venue)) }) := by
  have hindexed : c.position.mapPositionKeys (fun _ => .ok key)
      (PositionCheckpoint.indexIn self.assets venue c.instrument) =
        .ok (c.position.renamed key (self.indexOf venue)) :=
    Position.mapPositionKeys_eq_ok rfl fun asset hasset => indexIn_eq_ok (hassets asset hasset)
  have hnetting : ¬ (state.position.mode = .netting ∧ c.positionId ≠ .netting) :=
    fun h => h.2 (hslot h.1)
  unfold restorePosition
  rw [idxOf?_names hname]
  simp only [hstate, hvenue]
  unfold PositionCheckpoint.restoreInto
  rw [if_neg hholds.not_ge, if_neg hnetting, IndexMap.not_contains_iff.2 hfree,
    if_neg Bool.false_ne_true, hindexed]
  rfl

variable {second current : NamedState Data} {done : List PositionCheckpoint}

/-- The step: what is accepted, and of no slot placed before, is placed. -/
theorem Placed.restorePosition (h : Placed second current venue done) {c : PositionCheckpoint}
    (hc : second.Accepts venue c) (hnew : slotOf c ∉ done.map slotOf) :
    ∃ next, current.restorePosition c = .ok next ∧ Placed second next venue (done ++ [c]) := by
  obtain ⟨key, state, hname, hstate, hvenue, hslot⟩ := hc.lists
  obtain ⟨held, hheld, hterms⟩ : ∃ held, current.state.instruments[key]? = some held ∧
      (held.instrument, held.position.mode) = (state.instrument, state.position.mode) := by
    have hmap := h.terms key
    rw [hstate, Option.map_some] at hmap
    exact Option.map_eq_some_iff.1 hmap
  have hinstrument : held.instrument = state.instrument := (Prod.mk.inj hterms).1
  have hmode : held.position.mode = state.position.mode := (Prod.mk.inj hterms).2
  have hcurrent : current.names[key]? = some c.instrument := by rw [h.names]; exact hname
  have hfree : held.position.positions.get? c.positionId = none := by
    rw [Option.eq_none_iff_forall_ne_some]
    intro position hopen
    obtain ⟨other, hother, hsame, -⟩ :=
      (h.slots key c.instrument held hcurrent hheld c.positionId position).1 hopen
    have hmem := List.mem_map_of_mem (f := slotOf) hother
    rw [hsame] at hmem
    exact hnew hmem
  have hindex : current.indexOf venue = second.indexOf venue := by
    funext asset
    rw [indexOf, indexOf, h.assets]
  refine ⟨_, restorePosition_eq_ok hcurrent hheld (by rw [h.connectivity, hinstrument]; exact hvenue)
    (by rw [hmode]; exact hslot) hc.holds (by rw [h.assets]; exact hc.assets) hfree, ?_⟩
  rw [hindex]
  constructor
  · exact h.names
  · exact h.assets
  · exact h.connectivity
  · intro j
    rw [← h.terms j]
    show ((current.state.modify key _).instruments[j]?).map _ = _
    rw [EngineState.getElem?_modify]
    cases hother : current.state.instruments[j]? with
    | none => rfl
    | some other =>
      simp only [Option.map_some]
      split
      · rename_i hkey
        rw [← hkey, hheld] at hother
        cases hother
        rfl
      · rfl
  · intro j name after hjname hafter positionId position
    replace hjname : current.names[j]? = some name := hjname
    replace hafter : (current.state.modify key _).instruments[j]? = some after := hafter
    rw [EngineState.getElem?_modify, Option.map_eq_some_iff] at hafter
    obtain ⟨other, hother, rfl⟩ := hafter
    have hbefore := h.slots j name other hjname hother positionId position
    simp only [List.mem_append, List.mem_singleton]
    by_cases hkey : key = j
    · subst hkey
      rw [hheld] at hother
      cases hother
      have hsame : c.instrument = name := Option.some.inj (hcurrent.symm.trans hjname)
      rw [if_pos rfl]
      show (held.position.positions.insert _ _).get? positionId = _ ↔ _
      rw [IndexMap.get?_insert]
      split
      · rename_i hid
        constructor
        · intro hget
          cases hget
          exact ⟨c, .inr rfl, by rw [slotOf, hsame, hid], rfl⟩
        · rintro ⟨c', hc' | rfl, hslot, hposition⟩
          · have hmem := List.mem_map_of_mem (f := slotOf) hc'
            rw [hslot, ← hsame, hid] at hmem
            exact absurd hmem hnew
          · rw [hposition]
      · rename_i hid
        rw [hbefore]
        constructor
        · rintro ⟨c', hc', hslot⟩
          exact ⟨c', .inl hc', hslot⟩
        · rintro ⟨c', hc' | rfl, hplaced⟩
          · exact ⟨c', hc', hplaced⟩
          · exact absurd (Prod.mk.inj hplaced.1).2.symm hid
    · rw [if_neg hkey, hbefore]
      have hother : c.instrument ≠ name := by
        intro hsame
        have hjkey : current.names.idxOf? name = some key := hsame ▸ idxOf?_names hcurrent
        rw [idxOf?_names hjname] at hjkey
        exact hkey (Option.some.inj hjkey).symm
      constructor
      · rintro ⟨c', hc', hslot⟩
        exact ⟨c', .inl hc', hslot⟩
      · rintro ⟨c', hc' | rfl, hplaced⟩
        · exact ⟨c', hc', hplaced⟩
        · exact absurd (Prod.mk.inj hplaced.1).1 hother

/-- The run: they are placed in any order. -/
theorem Placed.restoredPositions (h : Placed second current venue done)
    {given : List PositionCheckpoint} (haccepts : ∀ c ∈ given, second.Accepts venue c)
    (hnodup : ((done ++ given).map slotOf).Nodup) :
    ∃ restored, current.restoredPositions given = .ok restored ∧
      Placed second restored venue (done ++ given) := by
  induction given generalizing current done with
  | nil => exact ⟨current, rfl, by rw [List.append_nil]; exact h⟩
  | cons c given ih =>
    have hnew : slotOf c ∉ done.map slotOf := by
      rw [List.map_append, List.nodup_append] at hnodup
      intro hmem
      exact hnodup.2.2 _ hmem _ (List.mem_map_of_mem (List.mem_cons_self ..)) rfl
    obtain ⟨next, hnext, hplaced⟩ := h.restorePosition (haccepts c (List.mem_cons_self ..)) hnew
    rw [List.append_cons] at hnodup ⊢
    obtain ⟨restored, hrestored, hall⟩ :=
      ih hplaced (fun c' hc' => haccepts c' (List.mem_cons_of_mem _ hc')) hnodup
    refine ⟨restored, ?_, hall⟩
    rw [NamedState.restoredPositions, List.foldlM_cons, hnext]
    exact hrestored

/-! ## The round trip -/

/-- The positions on `exchange`, of id `venue`, as an engine holds them: each holds something, in a
    slot of its manager's mode, and names assets of `venue` alone. -/
structure Genuine (engine : NamedState Data) (exchange : ExchangeIndex) (venue : ExchangeId) :
    Prop where
  holds : ∀ (i : InstrumentIndex)
    (state : InstrumentState Data ExchangeIndex AssetIndex InstrumentIndex),
    engine.state.instruments[i]? = some state → state.instrument.exchange = exchange →
      ∀ positionId position, state.position.positions.get? positionId = some position →
        0 < position.quantityAbs ∧ (state.position.mode = .netting → positionId = .netting)
  named : engine.AssetsNamed exchange venue

/-- An engine that has just been built, and lists what `first` does: every instrument of `exchange`,
    on the exchange `venue`, in netting mode only where that is, and every asset. -/
structure ListsAs {Data' : Type} (engine : NamedState Data') (first : NamedState Data)
    (exchange : ExchangeIndex) (venue : ExchangeId) : Prop where
  instruments : ∀ (i : InstrumentIndex) (name : InstrumentNameInternal)
    (state : InstrumentState Data ExchangeIndex AssetIndex InstrumentIndex),
    first.names[i]? = some name → first.state.instruments[i]? = some state →
      state.instrument.exchange = exchange →
        ∃ (j : InstrumentIndex)
          (state' : InstrumentState Data' ExchangeIndex AssetIndex InstrumentIndex),
          engine.names[j]? = some name ∧ engine.state.instruments[j]? = some state' ∧
            engine.state.connectivity[state'.instrument.exchange]? = some venue ∧
            (state'.position.mode = .netting → state.position.mode = .netting)
  assets : ∀ asset ∈ first.assets, asset ∈ engine.assets
  empty : ∀ (j : InstrumentIndex)
    (state' : InstrumentState Data' ExchangeIndex AssetIndex InstrumentIndex),
    engine.state.instruments[j]? = some state' → state'.position.positions.entries = []

variable {Data' : Type} {first : NamedState Data} {engine restored : NamedState Data'}

theorem Genuine.accepts (h : first.Genuine exchange venue)
    (hlists : engine.ListsAs first exchange venue) :
    ∀ c ∈ first.checkpoints exchange, engine.Accepts venue c := by
  intro c hc
  obtain ⟨i, name, state, position, hname, hstate, hexchange, hget, hposition⟩ :=
    mem_checkpoints.1 hc
  obtain ⟨j, state', hjname, hjstate, hvenue, hmode⟩ :=
    hlists.instruments i name state hname hstate hexchange
  obtain ⟨hpos, hslot⟩ := h.holds i state hstate hexchange c.positionId position hget
  have hinstrument : c.instrument = name := by rw [PositionCheckpoint.instrument, hposition]; rfl
  refine ⟨⟨j, state', by rw [hinstrument]; exact hjname, hjstate, hvenue,
    fun hnetting => hslot (hmode hnetting)⟩, by rw [hposition]; exact hpos, ?_⟩
  intro asset hasset
  rw [hposition, Position.assets_renamed] at hasset
  obtain ⟨index, hindex, rfl⟩ := List.mem_map.1 hasset
  obtain ⟨named, hnamed⟩ := h.named i state hstate hexchange c.positionId position hget index hindex
  rw [nameOf, hnamed]
  exact hlists.assets _ (List.mem_iff_getElem?.2 ⟨index, hnamed⟩)

/-- Where nothing is held, nothing is placed yet. -/
theorem Placed.start (h : ∀ (j : InstrumentIndex)
    (state' : InstrumentState Data' ExchangeIndex AssetIndex InstrumentIndex),
    engine.state.instruments[j]? = some state' → state'.position.positions.entries = []) :
    Placed engine engine venue [] := by
  refine ⟨rfl, rfl, rfl, fun _ => rfl, ?_⟩
  intro j name state _ hstate positionId position
  rw [IndexMap.get?_eq_some_iff, h j state hstate]
  simp

/-- The index in the second engine of an asset of the first. -/
def reindex (first : NamedState Data) (engine : NamedState Data') (index : AssetIndex) :
    AssetIndex :=
  (first.assets[index]?).elim index fun asset => (engine.assets.idxOf? asset).getD 0

theorem reindex_spec (hassets : ∀ asset ∈ first.assets, asset ∈ engine.assets) {index : AssetIndex}
    {asset : ExchangeAsset} (h : first.assets[index]? = some asset) :
    engine.assets[first.reindex engine index]? = some asset := by
  obtain ⟨index', hindex⟩ :=
    List.mem_iff_getElem?.1 (hassets asset (List.mem_iff_getElem?.2 ⟨index, h⟩))
  rw [reindex, h, Option.elim_some, idxOf?_of_getElem? engine.nodup_assets hindex]
  exact hindex

/-- Every position of `first` on `exchange` stands in its slot of `restored`, the same but for the
    index of its instrument and, by `reindexed`, of its assets. -/
def SamePositions (first : NamedState Data) (restored : NamedState Data') (exchange : ExchangeIndex)
    (reindexed : AssetIndex → AssetIndex) : Prop :=
  ∀ (i j : InstrumentIndex) (name : InstrumentNameInternal)
    (state : InstrumentState Data ExchangeIndex AssetIndex InstrumentIndex),
    first.names[i]? = some name → restored.names[j]? = some name →
      first.state.instruments[i]? = some state → state.instrument.exchange = exchange →
        ∃ state', restored.state.instruments[j]? = some state' ∧
          ∀ positionId, state'.position.positions.get? positionId =
            (state.position.positions.get? positionId).map fun position =>
              position.renamed j reindexed

theorem Placed.samePositions {given : List PositionCheckpoint}
    (h : Placed engine restored venue given) (hgenuine : first.Genuine exchange venue)
    (hlists : engine.ListsAs first exchange venue)
    (hgiven : ∀ c, c ∈ given ↔ c ∈ first.checkpoints exchange) :
    SamePositions first restored exchange (first.reindex engine) := by
  intro i j name state hname hjname hstate hexchange
  have hlt : j < restored.state.instruments.length := by
    rw [← restored.length_names]
    exact (List.getElem?_eq_some_iff.1 hjname).1
  refine ⟨restored.state.instruments[j], List.getElem?_eq_getElem hlt, ?_⟩
  intro positionId
  have hslot := h.slots j name _ hjname (List.getElem?_eq_getElem hlt) positionId
  -- A checkpoint of the slot is the position the first engine holds in it.
  have hback : ∀ c ∈ given, slotOf c = (name, positionId) →
      ∃ position, state.position.positions.get? positionId = some position ∧
        c.position.renamed j (engine.indexOf venue) =
          position.renamed j (first.reindex engine) := by
    intro c hc hslot
    obtain ⟨i', name', state', position, hname', hstate', hexchange', hget, hposition⟩ :=
      mem_checkpoints.1 ((hgiven c).1 hc)
    have hsame : name' = name := by
      have hinstrument : c.instrument = name' := by
        rw [PositionCheckpoint.instrument, hposition]
        rfl
      exact hinstrument.symm.trans (Prod.mk.inj hslot).1
    subst hsame
    have hi : i' = i :=
      Option.some.inj ((idxOf?_names hname').symm.trans (idxOf?_names hname))
    subst hi
    rw [hstate] at hstate'
    cases hstate'
    rw [(Prod.mk.inj hslot).2] at hget
    refine ⟨position, hget, ?_⟩
    rw [hposition, Position.renamed_renamed]
    apply Position.renamed_congr
    intro index hindex
    obtain ⟨named, hnamed⟩ := hgenuine.named i' state hstate hexchange positionId position hget
      index hindex
    have hnext := reindex_spec hlists.assets hnamed
    rw [Function.comp, nameOf, hnamed]
    exact indexOf_of_getElem? hnext
  ext next
  rw [hslot next]
  constructor
  · rintro ⟨c, hc, hcslot, rfl⟩
    obtain ⟨position, hget, heq⟩ := hback c hc hcslot
    rw [hget, heq]
    rfl
  · intro hnext
    obtain ⟨position, hget, rfl⟩ := Option.map_eq_some_iff.1 hnext
    have hc : (⟨positionId, position.renamed name first.nameOf⟩ : PositionCheckpoint) ∈
        first.checkpoints exchange :=
      mem_checkpoints.2 ⟨i, name, state, position, hname, hstate, hexchange, hget, rfl⟩
    obtain ⟨position', hget', heq⟩ := hback _ ((hgiven _).2 hc) rfl
    rw [hget] at hget'
    cases hget'
    exact ⟨_, (hgiven _).2 hc, rfl, heq.symm⟩

/-- What was placed is what a checkpoint of the second engine holds. -/
theorem Placed.checkpoints {given : List PositionCheckpoint} {exchange' : ExchangeIndex}
    (h : Placed engine restored venue given)
    (haccepts : ∀ c ∈ given, engine.Accepts venue c)
    (hexchange : engine.state.connectivity[exchange']? = some venue) :
    restored.AssetsNamed exchange' venue ∧ ∀ c, c ∈ restored.checkpoints exchange' ↔ c ∈ given := by
  -- Whatever stands in a slot is one of those placed, under the second engine's indices.
  have hfound : ∀ (j : InstrumentIndex)
      (state : InstrumentState Data' ExchangeIndex AssetIndex InstrumentIndex),
      restored.state.instruments[j]? = some state →
        ∃ name, restored.names[j]? = some name ∧ ∀ positionId position,
          state.position.positions.get? positionId = some position ↔
            ∃ c ∈ given, slotOf c = (name, positionId) ∧
              position = c.position.renamed j (engine.indexOf venue) := by
    intro j state hstate
    have hlt : j < restored.names.length := by
      rw [restored.length_names]
      exact (List.getElem?_eq_some_iff.1 hstate).1
    exact ⟨restored.names[j], List.getElem?_eq_getElem hlt,
      h.slots j _ state (List.getElem?_eq_getElem hlt) hstate⟩
  have hrename : ∀ c ∈ given, ∀ j : InstrumentIndex,
      (c.position.renamed j (engine.indexOf venue)).renamed c.instrument restored.nameOf =
        c.position := by
    intro c hc j
    rw [Position.renamed_renamed]
    refine (Position.renamed_congr ?_).trans Position.renamed_id
    intro asset hasset
    have hname := nameOf_indexOf ((haccepts c hc).assets asset hasset)
    rw [Function.comp, nameOf, h.assets]
    exact hname
  refine ⟨?_, fun c => ?_⟩
  · intro j state hstate _ positionId position hget index hindex
    obtain ⟨name, -, hslots⟩ := hfound j state hstate
    obtain ⟨c, hc, -, rfl⟩ := (hslots positionId position).1 hget
    rw [Position.assets_renamed] at hindex
    obtain ⟨asset, hasset, rfl⟩ := List.mem_map.1 hindex
    refine ⟨asset, ?_⟩
    rw [h.assets]
    exact getElem?_indexOf ((haccepts c hc).assets asset hasset)
  · rw [mem_checkpoints]
    constructor
    · rintro ⟨j, name, state, position, hname, hstate, -, hget, hposition⟩
      obtain ⟨name', hname', hslots⟩ := hfound j state hstate
      rw [hname] at hname'
      cases hname'
      obtain ⟨c', hc', hslot, rfl⟩ := (hslots c.positionId position).1 hget
      have hinstrument : c'.instrument = name := (Prod.mk.inj hslot).1
      rw [← hinstrument, hrename c' hc' j] at hposition
      have hsame : c = c' := by
        cases c
        cases c'
        simp only [slotOf, Prod.mk.injEq] at hslot hposition
        rw [hposition, hslot.2]
      exact hsame ▸ hc'
    · intro hc
      obtain ⟨j, state, hname, hstate, hvenue, -⟩ := (haccepts c hc).lists
      obtain ⟨state', hstate', hterms⟩ : ∃ state', restored.state.instruments[j]? = some state' ∧
          (state'.instrument, state'.position.mode) = (state.instrument, state.position.mode) := by
        have hmap := h.terms j
        rw [hstate, Option.map_some] at hmap
        exact Option.map_eq_some_iff.1 hmap
      have hname' : restored.names[j]? = some c.instrument := by rw [h.names]; exact hname
      obtain ⟨name, hsame, hslots⟩ := hfound j state' hstate'
      rw [hname'] at hsame
      cases hsame
      refine ⟨j, c.instrument, state', _, hname', hstate', ?_,
        (hslots c.positionId _).2 ⟨c, hc, rfl, rfl⟩, (hrename c hc j).symm⟩
      rw [(Prod.mk.inj hterms).1]
      have hidx := idxOf?_of_getElem? engine.nodup_exchanges hvenue
      rw [idxOf?_of_getElem? engine.nodup_exchanges hexchange] at hidx
      exact (Option.some.inj hidx).symm

/-- **The positions of a checkpoint come back.** Placed in any order in an engine that lists the
    same names, they stand in their slots, the same but for the indices, and a checkpoint of that
    engine holds them again. -/
theorem checkpoint_round_trip (hgenuine : first.Genuine exchange venue)
    (hlists : engine.ListsAs first exchange venue) {exchange' : ExchangeIndex}
    (hexchange : engine.state.connectivity[exchange']? = some venue) :
    ∃ checkpoints, first.positionCheckpoints exchange = .ok checkpoints ∧
      ∀ given : List PositionCheckpoint, given.Perm checkpoints →
        ∃ restored, engine.restoredPositions given = .ok restored ∧
          restored.names = engine.names ∧ restored.assets = engine.assets ∧
          (∃ reindexed : AssetIndex → AssetIndex,
            (∀ index asset, first.assets[index]? = some asset →
              restored.assets[reindexed index]? = some asset) ∧
            SamePositions first restored exchange reindexed) ∧
          ∃ again, restored.positionCheckpoints exchange' = .ok again ∧ again.Perm checkpoints := by
  refine ⟨first.checkpoints exchange, positionCheckpoints_eq_ok hgenuine.named, ?_⟩
  intro given hgiven
  have haccepts : ∀ c ∈ given, engine.Accepts venue c :=
    fun c hc => hgenuine.accepts hlists c (hgiven.mem_iff.1 hc)
  have hnodup : (given.map slotOf).Nodup := (hgiven.map slotOf).nodup_iff.2 nodup_slots
  have hstart : Placed engine engine venue [] := Placed.start hlists.empty
  obtain ⟨restored, hrestored, hplaced⟩ := hstart.restoredPositions haccepts hnodup
  rw [List.nil_append] at hplaced
  obtain ⟨hnamed, hagain⟩ := hplaced.checkpoints haccepts hexchange
  refine ⟨restored, hrestored, hplaced.names, hplaced.assets, ⟨first.reindex engine, ?_, ?_⟩,
    restored.checkpoints exchange', positionCheckpoints_eq_ok hnamed, ?_⟩
  · intro index asset hasset
    rw [hplaced.assets]
    exact reindex_spec hlists.assets hasset
  · exact hplaced.samePositions hgenuine hlists fun c => hgiven.mem_iff
  · have hsame : (restored.checkpoints exchange').Perm given :=
      (List.perm_ext_iff_of_nodup nodup_slots.of_map hnodup.of_map).2 hagain
    exact hsame.trans hgiven

end NamedState

/-! ## Two engines -/

namespace Sample

/-- A long of `quantity` at ten, valued in the asset of index `quote`. -/
def long (instrument : InstrumentIndex) (quote : AssetIndex) (quantity : Decimal) :
    Position AssetIndex InstrumentIndex :=
  (⟨⟨"acme_usd"⟩, .buy, quantity, 10, 0, some ⟨"p-1"⟩, 0, 0, 0⟩ : PositionSeed).position instrument
    quote 1

def slots (positions : List (Position AssetIndex InstrumentIndex)) :
    IndexMap PositionId (Position AssetIndex InstrumentIndex) :=
  positions.foldl (fun slots position => slots.insert ⟨"p-1"⟩ position) .empty

/-- Two instruments, with `positions` on the first, and a third asset of another exchange. -/
def firstEngine (positions : List (Position AssetIndex InstrumentIndex)) : NamedState Unit where
  state := ⟨.disabled, [⟨"venue"⟩, ⟨"other"⟩],
    [.init ⟨0, ⟨0, 1⟩, .spot, none⟩ 0 ⟨.hedging, slots positions, none⟩ (),
      .init ⟨0, ⟨1, 0⟩, .spot, none⟩ 0 (.new .hedging) ()]⟩
  names := [⟨"acme_usd"⟩, ⟨"usd_acme"⟩]
  assets := [⟨⟨"venue"⟩, ⟨"acme"⟩⟩, ⟨⟨"venue"⟩, ⟨"usd"⟩⟩, ⟨⟨"other"⟩, ⟨"eur"⟩⟩]
  length_names := rfl
  nodup_names := by decide
  nodup_assets := by decide
  nodup_exchanges := by
    show ([⟨"venue"⟩, ⟨"other"⟩] : List ExchangeId).Nodup
    decide

/-- The same names the other way round, with `positions` on the same instrument. -/
def secondEngine (mode : OmsMode) (positions : List (Position AssetIndex InstrumentIndex)) :
    NamedState Unit where
  state := ⟨.disabled, [⟨"other"⟩, ⟨"venue"⟩],
    [.init ⟨1, ⟨1, 2⟩, .spot, none⟩ 0 (.new mode) (),
      .init ⟨1, ⟨2, 1⟩, .spot, none⟩ 0 ⟨mode, slots positions, none⟩ ()]⟩
  names := [⟨"usd_acme"⟩, ⟨"acme_usd"⟩]
  assets := [⟨⟨"other"⟩, ⟨"eur"⟩⟩, ⟨⟨"venue"⟩, ⟨"usd"⟩⟩, ⟨⟨"venue"⟩, ⟨"acme"⟩⟩]
  length_names := rfl
  nodup_names := by decide
  nodup_assets := by decide
  nodup_exchanges := by
    show ([⟨"other"⟩, ⟨"venue"⟩] : List ExchangeId).Nodup
    decide

/-- The first engine holds nothing but what it was given. -/
theorem held_firstEngine {held : Position AssetIndex InstrumentIndex} {i : InstrumentIndex}
    {state : InstrumentState Unit ExchangeIndex AssetIndex InstrumentIndex}
    {positionId : PositionId} {position : Position AssetIndex InstrumentIndex}
    (hstate : (firstEngine [held]).state.instruments[i]? = some state)
    (hget : state.position.positions.get? positionId = some position) :
    position = held ∧ state.position.mode = .hedging := by
  match i, hstate with
  | 0, hstate =>
    cases hstate
    replace hget : (slots [held]).get? positionId = some position := hget
    rw [slots, List.foldl_cons, List.foldl_nil, IndexMap.get?_insert] at hget
    split at hget
    · exact ⟨(Option.some.inj hget).symm, rfl⟩
    · cases hget
  | 1, hstate =>
    cases hstate
    cases hget
  | _ + 2, hstate => cases hstate

theorem ne_ok_of_toBool {engine : NamedState Unit} {given : List PositionCheckpoint}
    (h : (engine.restoredPositions given).toBool = false) :
    ∀ restored, engine.restoredPositions given ≠ .ok restored := by
  intro restored heq
  rw [heq] at h
  cases h

end Sample

namespace NamedState

/-- The first engine holds three long, and the second lists the same names the other way round. -/
theorem checkpoint_round_trip_reversed :
    ∃ checkpoints, (Sample.firstEngine [Sample.long 0 1 3]).positionCheckpoints 0 =
        .ok checkpoints ∧
      ∃ restored, (Sample.secondEngine .hedging []).restoredPositions checkpoints = .ok restored ∧
        ∃ again, restored.positionCheckpoints 1 = .ok again ∧ again.Perm checkpoints := by
  have hgenuine : (Sample.firstEngine [Sample.long 0 1 3]).Genuine 0 ⟨"venue"⟩ := by
    constructor
    · intro i state hstate _ positionId position hget
      obtain ⟨rfl, hmode⟩ := Sample.held_firstEngine hstate hget
      refine ⟨by decide +kernel, fun hnetting => ?_⟩
      rw [hmode] at hnetting
      cases hnetting
    · intro i state hstate _ positionId position hget asset hasset
      obtain ⟨rfl, -⟩ := Sample.held_firstEngine hstate hget
      have husd : asset = 1 := by
        rcases Position.mem_assets.1 hasset with ⟨e, he, -⟩ | h | h
        · cases he
        · exact h
        · exact h
      rw [husd]
      exact ⟨⟨"usd"⟩, rfl⟩
  have hlists : (Sample.secondEngine .hedging []).ListsAs
      (Sample.firstEngine [Sample.long 0 1 3]) 0 ⟨"venue"⟩ := by
    constructor
    · intro i name state hname hstate _
      match i, hname, hstate with
      | 0, hname, hstate =>
        cases hname
        cases hstate
        exact ⟨1, _, rfl, rfl, rfl, id⟩
      | 1, hname, hstate =>
        cases hname
        cases hstate
        exact ⟨0, _, rfl, rfl, rfl, id⟩
      | _ + 2, hname, _ => cases hname
    · decide
    · intro j state hstate
      match j, hstate with
      | 0, hstate => cases hstate; rfl
      | 1, hstate => cases hstate; rfl
      | _ + 2, hstate => cases hstate
  have hvenue : (Sample.secondEngine .hedging []).state.connectivity[1]? = some ⟨"venue"⟩ := rfl
  obtain ⟨checkpoints, hcheckpoints, hall⟩ := checkpoint_round_trip hgenuine hlists hvenue
  obtain ⟨restored, hrestored, -, -, -, again, hagain, hperm⟩ := hall checkpoints (List.Perm.refl _)
  exact ⟨checkpoints, hcheckpoints, restored, hrestored, again, hagain, hperm⟩

/-- A position is refused by an engine of the other mode, by one that has the slot filled, if it
    holds nothing, and if it names an asset of another exchange. -/
theorem restored_positions_refused :
    (Sample.firstEngine []).names.Perm (Sample.secondEngine .netting []).names ∧
    (Sample.firstEngine []).assets.Perm (Sample.secondEngine .netting []).assets ∧
    (∃ checkpoints, (Sample.firstEngine [Sample.long 0 1 3]).positionCheckpoints 0 =
        .ok checkpoints ∧
      (∀ restored, (Sample.secondEngine .netting []).restoredPositions checkpoints ≠
        .ok restored) ∧
      ∀ restored, (Sample.secondEngine .hedging [Sample.long 1 1 3]).restoredPositions
        checkpoints ≠ .ok restored) ∧
    (∃ checkpoints, (Sample.firstEngine [Sample.long 0 1 0]).positionCheckpoints 0 =
        .ok checkpoints ∧
      ∀ restored, (Sample.secondEngine .hedging []).restoredPositions checkpoints ≠
        .ok restored) ∧
    ∃ checkpoints, (Sample.firstEngine [Sample.long 0 2 3]).positionCheckpoints 0 =
        .ok checkpoints ∧
      ∀ restored, (Sample.secondEngine .hedging []).restoredPositions checkpoints ≠
        .ok restored := by
  refine ⟨by decide, by decide, ⟨(Sample.firstEngine [Sample.long 0 1 3]).checkpoints 0, by decide +kernel,
      Sample.ne_ok_of_toBool (by decide +kernel), Sample.ne_ok_of_toBool (by decide +kernel)⟩,
    ⟨(Sample.firstEngine [Sample.long 0 1 0]).checkpoints 0, by decide +kernel,
      Sample.ne_ok_of_toBool (by decide +kernel)⟩,
    (Sample.firstEngine [Sample.long 0 2 3]).checkpoints 0, by decide +kernel,
    Sample.ne_ok_of_toBool (by decide +kernel)⟩

end NamedState

end Rustrade
