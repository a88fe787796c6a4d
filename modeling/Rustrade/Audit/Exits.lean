import Rustrade.Audit.Mirrors
import Rustrade.Engine.Settlement

/-!
# The positions an instrument's expiry and split end

The engine names each position it ends other than by a fill of the account, with the time it ended.
The replica takes it out by that name and as of that time, after whatever it replays. At an expiry
nothing else moves. A split moves every position of the equity, and the engine takes each one out as
it is rounded to nothing, between two that it keeps: no matter for the replica, since each position
has its own slot.
-/

set_option autoImplicit false

namespace Rustrade

namespace PositionManager

variable {AssetKey InstrumentKey : Type} {m : PositionManager AssetKey InstrumentKey}

/-- Take each ended position out, as of the time it ended. -/
def removeExits (self : PositionManager AssetKey InstrumentKey)
    (exits : List (PositionExited AssetKey InstrumentKey)) :
    PositionManager AssetKey InstrumentKey :=
  exits.foldl (fun self exit => (self.removeEnded exit.positionId exit.timeExit).1) self

theorem removeExits_append {exits exits' : List (PositionExited AssetKey InstrumentKey)} :
    m.removeExits (exits ++ exits') = (m.removeExits exits).removeExits exits' :=
  List.foldl_append

@[simp] theorem mode_removeEnded {positionId : PositionId} {time : DateTime} :
    (m.removeEnded positionId time).1.mode = m.mode := by
  unfold removeEnded
  split <;> rfl

variable [DecimalRange]

/-- Write each prepared split to its position. -/
def commitSplits (self : PositionManager AssetKey InstrumentKey) (lastPrice : Option Decimal)
    (es : List (PositionId × PreparedSplit)) : PositionManager AssetKey InstrumentKey :=
  es.foldl (fun self e => { self with
    positions := self.positions.modify e.1 fun position =>
      (position.commitSplit e.2 lastPrice).1 }) self

/-- A position no split is written to may be taken out before or after. -/
theorem removeEnded_commitSplits {lastPrice : Option Decimal} {positionId : PositionId}
    {time : DateTime} (es : List (PositionId × PreparedSplit))
    (h : positionId ∉ es.map Prod.fst) :
    ((m.commitSplits lastPrice es).removeEnded positionId time).1 =
      (m.removeEnded positionId time).1.commitSplits lastPrice es := by
  induction es generalizing m with
  | nil => rfl
  | cons e es ih =>
    rw [List.map_cons, List.mem_cons, not_or] at h
    obtain ⟨hne, hrest⟩ := h
    refine (ih hrest).trans ?_
    show commitSplits _ lastPrice es = commitSplits _ lastPrice es
    congr 1
    unfold removeEnded
    simp only [IndexMap.get?_modify, if_neg hne]
    split
    · rfl
    · simp only [IndexMap.remove_modify]
      rfl

theorem removeExits_commitSplits {lastPrice : Option Decimal}
    (es : List (PositionId × PreparedSplit))
    (exits : List (PositionExited AssetKey InstrumentKey))
    (h : ∀ exit ∈ exits, exit.positionId ∉ es.map Prod.fst) :
    (m.commitSplits lastPrice es).removeExits exits =
      (m.removeExits exits).commitSplits lastPrice es := by
  induction exits generalizing m with
  | nil => rfl
  | cons exit exits ih =>
    show (((m.commitSplits lastPrice es).removeEnded exit.positionId exit.timeExit).1).removeExits
      exits = _
    rw [removeEnded_commitSplits es (h exit (List.mem_cons_self ..))]
    exact ih fun other hother => h other (List.mem_cons_of_mem _ hother)

end PositionManager

namespace StateReplicaManager

variable {Data AssetKey : Type} {key : InstrumentIndex}
  {s : InstrumentState Data ExchangeIndex AssetKey InstrumentIndex}

theorem exitsOf_append {outputs outputs' : List (EngineOutput AssetKey)} :
    exitsOf key (outputs ++ outputs') = exitsOf key outputs ++ exitsOf key outputs' :=
  List.filterMap_append

theorem exitsOf_exit {exit : PositionExited AssetKey InstrumentIndex}
    (h : exit.instrument = key) : exitsOf key [EngineOutput.positionExit exit] = [exit] := by
  simp [exitsOf, h]

theorem steady_mirrorExit (exit : PositionExited AssetKey InstrumentIndex) :
    InstrumentState.Steady s (mirrorExit s exit) := by
  refine ⟨?_, rfl, id, id⟩
  simp [mirrorExit, InstrumentState.frame, TearSheetGenerator.updateFromPosition]

theorem foldl_mirrorExit (exits : List (PositionExited AssetKey InstrumentIndex)) :
    (exits.foldl mirrorExit s).position = s.position.removeExits exits ∧
      InstrumentState.Steady s (exits.foldl mirrorExit s) := by
  induction exits generalizing s with
  | nil => exact ⟨rfl, .refl⟩
  | cons exit exits ih =>
    have ih := ih (s := mirrorExit s exit)
    exact ⟨ih.1, (steady_mirrorExit exit).trans ih.2⟩

theorem foldl_mirrorSplitExit (exits : List (PositionExited AssetKey InstrumentIndex)) :
    (exits.foldl mirrorSplitExit s).position = s.position.removeExits exits ∧
      InstrumentState.Steady s (exits.foldl mirrorSplitExit s) := by
  induction exits generalizing s with
  | nil => exact ⟨rfl, .refl⟩
  | cons exit exits ih =>
    have ih := ih (s := mirrorSplitExit s exit)
    have hone : InstrumentState.Steady s (mirrorSplitExit s exit) :=
      (steady_mirrorExit exit).trans ⟨rfl, rfl, id, id⟩
    exact ⟨ih.1, hone.trans ih.2⟩

end StateReplicaManager

namespace InstrumentState

variable {Data AssetKey : Type} [DecimalRange] {key : InstrumentIndex}
  {s r : InstrumentState Data ExchangeIndex AssetKey InstrumentIndex}

/-! ## Settlement at expiry -/

/-- A fill against the whole of a position closes it. -/
theorem updateFromTradeWithId_whole {manager : PositionManager AssetKey InstrumentIndex}
    (trade : Trade AssetKey InstrumentIndex) {positionId : PositionId} (contractSize : Decimal)
    {position : Position AssetKey InstrumentIndex}
    (hget : manager.positions.get? positionId = some position)
    (hinstrument : position.instrument = trade.instrument) (hside : position.side ≠ trade.side)
    (hquantity : position.quantityAbs = |trade.quantity|) :
    ∃ exit : PositionExited AssetKey InstrumentIndex,
      exit.instrument = position.instrument ∧ exit.positionId = positionId ∧
        manager.updateFromTradeWithId trade positionId contractSize =
          ((manager.removeEnded positionId exit.timeExit).1, .applied (some exit)) := by
  have hclosed : ({ position with contractSize := contractSize }.updateFromTrade trade) =
      (none, some ({ position with
        contractSize := contractSize, trades := position.trades ++ [trade.id] }.close trade)) := by
    unfold Position.updateFromTrade Position.moveBy
    rw [if_neg (not_not.2 hinstrument), if_neg hside, if_neg (hquantity ▸ lt_irrefl _),
      if_pos hquantity]
  refine ⟨{ { position with contractSize := contractSize, trades := position.trades ++ [trade.id]
    }.close trade with positionId := positionId }, rfl, rfl, ?_⟩
  unfold PositionManager.updateFromTradeWithId PositionManager.removeEnded
  simp only [hget, hclosed]
  rfl

section Settlement

variable [DecidableEq AssetKey]

/-- Positions of the instrument at `key` were ended, just those reported, and nothing else done. -/
structure Ended (key : InstrumentIndex)
    (s : InstrumentState Data ExchangeIndex AssetKey InstrumentIndex)
    (did : InstrumentState Data ExchangeIndex AssetKey InstrumentIndex ×
      List (EngineOutput AssetKey)) : Prop where
  steady : Steady s did.1
  reported : ∀ output ∈ did.2, ∃ exit, output = EngineOutput.positionExit exit
  position : did.1.position = s.position.removeExits (StateReplicaManager.exitsOf key did.2)

omit [DecimalRange] [DecidableEq AssetKey] in
theorem ended_nothing : Ended key s (s, []) :=
  ⟨.refl, fun _ houtput => absurd houtput List.not_mem_nil, rfl⟩

omit [DecidableEq AssetKey] in
/-- A settlement ends the position it is of. -/
theorem ended_settlePosition (time : DateTime) (price : Decimal) (h : s.SizedOn key)
    (positionId : PositionId) :
    Ended key s (settlePosition key time price s positionId) ∧
      (s.position.positions.get? positionId ≠ none →
        (settlePosition key time price s positionId).2 ≠ []) := by
  unfold settlePosition
  cases hget : s.position.positions.get? positionId with
  | none => exact ⟨ended_nothing, fun h => absurd rfl h⟩
  | some position =>
    have hon := h.position.on positionId position hget
    have hpos := (h.position.represented positionId position hget).pos
    let trade := s.settlementTrade key (settlementTag positionId time) time price position
    have hside : position.side ≠ trade.side := by
      show position.side ≠ (s.settlementTrade key _ time price position).side
      unfold settlementTrade
      cases position.side <;> simp
    obtain ⟨exit, hinstrument, hid, happlied⟩ := updateFromTradeWithId_whole trade
      s.instrument.kind.contractSize hget hon hside (abs_of_pos hpos).symm
    simp only [show s.position.updateFromTradeWithId (s.settlementTrade key
      (settlementTag positionId time) time price position) positionId
        s.instrument.kind.contractSize = _ from happlied]
    refine ⟨⟨⟨?_, rfl, id, id⟩, ?_, ?_⟩, fun _ => List.cons_ne_nil _ _⟩
    · simp [InstrumentState.frame, TearSheetGenerator.updateFromPosition]
    · intro output houtput
      exact ⟨exit, List.mem_singleton.1 houtput⟩
    · have hexits : StateReplicaManager.exitsOf key [EngineOutput.positionExit exit] = [exit] :=
        StateReplicaManager.exitsOf_exit (hinstrument.trans hon)
      show _ = s.position.removeExits
        (StateReplicaManager.exitsOf key [EngineOutput.positionExit exit])
      rw [hexits, ← hid]
      rfl

theorem ended_settlePositions (time : DateTime) (price : Decimal) (h : s.SizedOn key)
    (positionIds : List PositionId) :
    Ended key s (settlePositions key time price s positionIds) := by
  induction positionIds generalizing s with
  | nil => exact ended_nothing
  | cons positionId positionIds ih =>
    obtain ⟨hone, -⟩ := ended_settlePosition time price h positionId
    have hsettled : (settlePosition key time price s positionId).1.SizedOn key :=
      h.settlePosition rfl
    have hrest := ih hsettled
    refine ⟨hone.steady.trans hrest.steady, ?_, ?_⟩
    · intro output houtput
      rcases List.mem_append.1 houtput with houtput | houtput
      · exact hone.reported output houtput
      · exact hrest.reported output houtput
    · show (settlePositions key time price _ positionIds).1.position = _
      rw [hrest.position, hone.position, ← PositionManager.removeExits_append,
        ← StateReplicaManager.exitsOf_append]
      rfl

omit [DecidableEq AssetKey] in
/-- What is held is reported. -/
theorem settlePositions_reports (time : DateTime) (price : Decimal) (h : s.SizedOn key)
    (hheld : s.position.positions.isEmpty = false) :
    (settlePositions key time price s s.position.positions.keys).2 ≠ [] := by
  obtain ⟨positionId, rest, hkeys⟩ : ∃ positionId rest,
      s.position.positions.keys = positionId :: rest := by
    refine List.exists_cons_of_ne_nil fun hnone => ?_
    rw [IndexMap.keys, List.map_eq_nil_iff] at hnone
    rw [IndexMap.isEmpty, hnone] at hheld
    cases hheld
  have hfirst : s.position.positions.get? positionId ≠ none := by
    have hmem : positionId ∈ s.position.positions.keys := hkeys ▸ List.mem_cons_self ..
    obtain ⟨position, hget⟩ := IndexMap.mem_keys_iff.1 hmem
    simp [hget]
  rw [hkeys]
  intro hnone
  exact (ended_settlePosition time price h positionId).2 hfirst (List.append_eq_nil_iff.1 hnone).1

end Settlement

/-! ## Splits -/

/-- Every position is on `key`. -/
def AllOn (key : InstrumentIndex) (manager : PositionManager AssetKey InstrumentIndex) : Prop :=
  ∀ positionId position, manager.positions.get? positionId = some position →
    position.instrument = key

/-- Every prepared split was written, and those positions ended that are reported. -/
structure Committed (key : InstrumentIndex) (lastPrice : Option Decimal)
    (es : List (PositionId × PreparedSplit))
    (s : InstrumentState Data ExchangeIndex AssetKey InstrumentIndex)
    (did : InstrumentState Data ExchangeIndex AssetKey InstrumentIndex ×
      List (EngineOutput AssetKey)) : Prop where
  steady : Steady s did.1
  exits : ∀ exit ∈ StateReplicaManager.exitsOf key did.2, exit.positionId ∈ es.map Prod.fst
  position : did.1.position =
    (s.position.commitSplits lastPrice es).removeExits (StateReplicaManager.exitsOf key did.2)
  allOn : AllOn key did.1.position

theorem steady_commitPosition {lastPrice : Option Decimal} {e : PositionId × PreparedSplit} :
    Steady s (s.commitPosition lastPrice e) := ⟨rfl, rfl, id, id⟩

theorem AllOn.commitPosition (h : AllOn key s.position) (lastPrice : Option Decimal)
    (e : PositionId × PreparedSplit) : AllOn key (s.commitPosition lastPrice e).position := by
  intro positionId position hget
  have hget : (s.position.positions.modify e.1 fun position =>
      (position.commitSplit e.2 lastPrice).1).get? positionId = some position := hget
  rw [IndexMap.get?_modify] at hget
  split at hget
  · obtain ⟨before, hbefore, rfl⟩ := Option.map_eq_some_iff.1 hget
    have hon := h positionId before hbefore
    unfold Position.commitSplit
    cases lastPrice <;> exact hon
  · exact h positionId position hget

omit [DecimalRange] in
theorem AllOn.removeEnded {manager : PositionManager AssetKey InstrumentIndex}
    {positionId : PositionId} {time : DateTime} (h : AllOn key manager) :
    AllOn key (manager.removeEnded positionId time).1 := by
  unfold PositionManager.removeEnded
  split
  · exact h
  · intro otherId position hget
    simp only [PositionManager.positions_recordPositionEnd, IndexMap.get?_remove] at hget
    split at hget
    · cases hget
    · exact h otherId position hget

omit [DecimalRange] in
/-- A position a split has rounded to nothing is taken out, and reported. -/
theorem endSplitPosition_spec {positionId : PositionId} (time : DateTime)
    {position : Position AssetKey InstrumentIndex}
    (hget : s.position.positions.get? positionId = some position) :
    ∃ exit : PositionExited AssetKey InstrumentIndex,
      exit.positionId = positionId ∧ exit.instrument = position.instrument ∧
        (s.endSplitPosition positionId time).2 = some exit ∧
        (s.endSplitPosition positionId time).1.position = s.position.removeExits [exit] ∧
        (s.endSplitPosition positionId time).1.position =
          (s.position.removeEnded positionId time).1 ∧
        Steady s (s.endSplitPosition positionId time).1 := by
  have hremoved : s.position.removeEnded positionId time =
      ((s.position.removeEnded positionId time).1, some position) := by
    unfold PositionManager.removeEnded
    rw [hget]
  have hmode : (s.position.removeEnded positionId time).1.mode = s.position.mode :=
    PositionManager.mode_removeEnded
  unfold endSplitPosition
  rw [hremoved]
  refine ⟨_, rfl, rfl, rfl, rfl, rfl, ⟨?_, rfl, id, id⟩⟩
  simp only [InstrumentState.frame, TearSheetGenerator.updateFromPosition, hmode]

theorem committed_commitEquityPosition (time : DateTime) (lastPrice : Option Decimal)
    (h : AllOn key s.position) (e : PositionId × PreparedSplit) :
    Committed key lastPrice [e] s (commitEquityPosition key time lastPrice s e) := by
  unfold commitEquityPosition
  cases hget : s.position.positions.get? e.1 with
  | none =>
    refine ⟨.refl, fun exit hexit => absurd hexit List.not_mem_nil, ?_, h⟩
    show s.position = (s.commitPosition lastPrice e).position
    unfold commitPosition
    rw [IndexMap.modify_of_none hget]
  | some position =>
    have hafter : (s.commitPosition lastPrice e).position.positions.get? e.1 =
        some (position.commitSplit e.2 lastPrice).1 := by
      show (s.position.positions.modify e.1 _).get? e.1 = _
      rw [IndexMap.get?_modify, if_pos rfl, hget]
      rfl
    have hon := h.commitPosition lastPrice e
    let remainder : List (EngineOutput AssetKey) :=
      if 0 < (position.commitSplit e.2 lastPrice).2.remainder then
        [.splitRemainder key e.1 position.side (position.commitSplit e.2 lastPrice).2.remainder
          (position.commitSplit e.2 lastPrice).1.priceEntryAverage]
      else []
    have hremainder : StateReplicaManager.exitsOf key remainder = [] := by
      show StateReplicaManager.exitsOf key (if _ then _ else _) = _
      split <;> rfl
    show Committed key lastPrice [e] s
      (if (position.commitSplit e.2 lastPrice).1.quantityAbs = 0 then
        (((s.commitPosition lastPrice e).endSplitPosition e.1 time).1, remainder ++
          (((s.commitPosition lastPrice e).endSplitPosition e.1 time).2.map
            EngineOutput.positionExit).toList)
      else (s.commitPosition lastPrice e, remainder))
    split
    · obtain ⟨exit, hid, hinstrument, hreported, hposition, hremoved, hsteady⟩ :=
        endSplitPosition_spec time hafter
      have hexits : StateReplicaManager.exitsOf key (remainder ++
          (((s.commitPosition lastPrice e).endSplitPosition e.1 time).2.map
            EngineOutput.positionExit).toList) = [exit] := by
        rw [StateReplicaManager.exitsOf_append, hremainder, hreported]
        exact StateReplicaManager.exitsOf_exit (hinstrument.trans (hon e.1 _ hafter))
      refine ⟨steady_commitPosition.trans hsteady, ?_, ?_, ?_⟩
      · rw [hexits]
        intro other hother
        rw [List.mem_singleton.1 hother, hid]
        exact List.mem_singleton_self _
      · rw [hexits]
        exact hposition
      · show AllOn key ((s.commitPosition lastPrice e).endSplitPosition e.1 time).1.position
        rw [hremoved]
        exact hon.removeEnded
    · refine ⟨steady_commitPosition, ?_, ?_, hon⟩
      · rw [hremainder]
        exact fun exit hexit => absurd hexit List.not_mem_nil
      · rw [hremainder]
        rfl

theorem committed_commitEquityPositions (time : DateTime) (lastPrice : Option Decimal)
    (h : AllOn key s.position) (es : List (PositionId × PreparedSplit))
    (hnodup : (es.map Prod.fst).Nodup) :
    Committed key lastPrice es s (commitEquityPositions key time lastPrice s es) := by
  induction es generalizing s with
  | nil => exact ⟨.refl, fun exit hexit => absurd hexit List.not_mem_nil, rfl, h⟩
  | cons e es ih =>
    rw [List.map_cons, List.nodup_cons] at hnodup
    obtain ⟨hapart, hnodup⟩ := hnodup
    have hone := committed_commitEquityPosition time lastPrice h e
    have hrest := ih hone.allOn hnodup
    refine ⟨hone.steady.trans hrest.steady, ?_, ?_, hrest.allOn⟩
    · intro exit hexit
      have hexit : exit ∈ StateReplicaManager.exitsOf key
          ((commitEquityPosition key time lastPrice s e).2 ++ _) :=
        hexit
      rw [StateReplicaManager.exitsOf_append, List.mem_append] at hexit
      rcases hexit with hexit | hexit
      · rw [List.map_cons, List.mem_singleton.1 (hone.exits exit hexit)]
        exact List.mem_cons_self ..
      · exact List.mem_cons_of_mem _ (hrest.exits exit hexit)
    · -- The rest was written past the position that ended, which none of it is.
      have hlater : ∀ exit ∈ StateReplicaManager.exitsOf key
          (commitEquityPosition key time lastPrice s e).2,
          exit.positionId ∉ es.map Prod.fst := by
        intro exit hexit
        rw [List.mem_singleton.1 (hone.exits exit hexit)]
        exact hapart
      have hwritten : ((s.position.commitSplits lastPrice [e]).commitSplits lastPrice es) =
          s.position.commitSplits lastPrice (e :: es) := rfl
      show (commitEquityPositions key time lastPrice _ es).1.position =
        (s.position.commitSplits lastPrice (e :: es)).removeExits (StateReplicaManager.exitsOf key
          ((commitEquityPosition key time lastPrice s e).2 ++ _))
      rw [hrest.position, hone.position, StateReplicaManager.exitsOf_append,
        PositionManager.removeExits_append, ← hwritten,
        PositionManager.removeExits_commitSplits es _ hlater]

/-! ## The copies -/

section Copies

open StateReplicaManager

theorem foldl_commitPosition (s : InstrumentState Data ExchangeIndex AssetKey InstrumentIndex)
    (lastPrice : Option Decimal) (es : List (PositionId × PreparedSplit)) :
    (es.foldl (fun self e => self.commitPosition lastPrice e) s).position =
        s.position.commitSplits lastPrice es ∧
      Steady s (es.foldl (fun self e => self.commitPosition lastPrice e) s) := by
  induction es generalizing s with
  | nil => exact ⟨rfl, .refl⟩
  | cons e es ih =>
    have ih := ih (s.commitPosition lastPrice e)
    exact ⟨ih.1, steady_commitPosition.trans ih.2⟩

variable [InstrumentDataState Data ExchangeIndex AssetKey InstrumentIndex] {mode : OmsMode}
  {hash hash' : HashOrder}

omit [DecimalRange] in
theorem Mirrors.markExpired (h : Mirrors mode s r) :
    Mirrors mode (s.markExpired hash) (r.markExpired hash') := by
  refine ⟨?_, h.position, h.data, h.mode, rfl, rfl, rfl⟩
  have hframe := h.frame
  simp only [InstrumentState.frame, Frame.mk.injEq] at hframe ⊢
  obtain ⟨hinstrument, hfee, hexpiry, -, hactions, hmode, hstart⟩ := hframe
  exact ⟨hinstrument, hfee, hexpiry, rfl, hactions, hmode, hstart⟩

omit [DecimalRange] in
theorem Mirrors.recordCorporateAction (h : Mirrors mode s r) (id : CorporateActionId) :
    Mirrors mode { s with corporateActionsProcessed := insert id s.corporateActionsProcessed }
      { r with corporateActionsProcessed := insert id r.corporateActionsProcessed } := by
  refine ⟨?_, h.position, h.data, h.mode, h.waiting, h.waitingCopy, h.unmarked⟩
  have hframe := h.frame
  simp only [InstrumentState.frame, Frame.mk.injEq] at hframe ⊢
  obtain ⟨hinstrument, hfee, hexpiry, hexpired, hactions, hmode, hstart⟩ := hframe
  exact ⟨hinstrument, hfee, hexpiry, hexpired, by rw [hactions], hmode, hstart⟩

omit [DecimalRange] in
theorem Mirrors.adjustStrike (h : Mirrors mode s r) (id : CorporateActionId) (strike : Decimal) :
    Mirrors mode (s.adjustStrike id strike) (r.adjustStrike id strike) := by
  unfold InstrumentState.adjustStrike
  rw [h.instrument]
  split
  · refine ⟨?_, h.position, h.data, h.mode, h.waiting, h.waitingCopy, h.unmarked⟩
    have hframe := h.frame
    simp only [InstrumentState.frame, Frame.mk.injEq] at hframe ⊢
    obtain ⟨-, hfee, hexpiry, hexpired, hactions, hmode, hstart⟩ := hframe
    exact ⟨trivial, hfee, hexpiry, hexpired, by rw [hactions], hmode, hstart⟩
  · exact h

omit [DecimalRange] in
/-- The engine's settlement of what it holds, and the replica's of what that reported. -/
theorem Mirrors.mirrorExpiry (h : Mirrors mode s r)
    {did : InstrumentState Data ExchangeIndex AssetKey InstrumentIndex ×
      List (EngineOutput AssetKey)}
    (hended : Ended key s did) (hreported : did.2 ≠ []) (hopen : s.expirationProcessed = false) :
    Mirrors mode (did.1.markExpired hash) (StateReplicaManager.mirrorExpiry hash' key did.2 r) := by
  have hopenCopy : r.expirationProcessed = false :=
    (congrArg Frame.expirationProcessed h.frame).trans hopen
  have hany : anyExit did.2 = true := by
    obtain ⟨output, rest, houtputs⟩ := List.exists_cons_of_ne_nil hreported
    obtain ⟨exit, hexit⟩ := hended.reported output (houtputs ▸ List.mem_cons_self ..)
    rw [houtputs, hexit]
    rfl
  obtain ⟨hposition, hsteady⟩ := foldl_mirrorExit (s := r)
    (StateReplicaManager.exitsOf key did.2)
  unfold StateReplicaManager.mirrorExpiry
  rw [hopenCopy, hany]
  refine Mirrors.markExpired (h.of_steady hended.steady hsteady ?_)
  rw [hposition, hended.position, h.position]

/-- The engine's split of an equity, and the replica's with what that reported. -/
theorem Mirrors.commitEquity (h : Mirrors mode s r) {es : List (PositionId × PreparedSplit)}
    {did : InstrumentState Data ExchangeIndex AssetKey InstrumentIndex ×
      List (EngineOutput AssetKey)}
    (hcommitted : Committed key s.lastPrice es s did) :
    Mirrors mode did.1 ((StateReplicaManager.exitsOf key did.2).foldl mirrorSplitExit
      (es.foldl (fun self e => self.commitPosition r.lastPrice e) r)) := by
  obtain ⟨hwritten, hsteady⟩ := foldl_commitPosition r r.lastPrice es
  obtain ⟨hposition, hsteady'⟩ := foldl_mirrorSplitExit (StateReplicaManager.exitsOf key did.2)
    (s := es.foldl (fun self e => self.commitPosition r.lastPrice e) r)
  refine h.of_steady hcommitted.steady (hsteady.trans hsteady') ?_
  rw [hposition, hwritten, hcommitted.position, h.position, h.lastPrice]

theorem Mirrors.commitOption (h : Mirrors mode s r) (id : CorporateActionId) (plan : OptionSplitPlan) :
    Mirrors mode (StateReplicaManager.commitOption id plan s)
      (StateReplicaManager.commitOption id plan r) := by
  have hadjusted := h.adjustStrike id plan.strikePostSplit
  obtain ⟨hposition, hsteady⟩ := foldl_commitPosition
    (s.adjustStrike id plan.strikePostSplit)
    (s.adjustStrike id plan.strikePostSplit).lastPrice plan.positions
  obtain ⟨hpositionCopy, hsteadyCopy⟩ := foldl_commitPosition
    (r.adjustStrike id plan.strikePostSplit)
    (r.adjustStrike id plan.strikePostSplit).lastPrice plan.positions
  refine hadjusted.of_steady hsteady hsteadyCopy ?_
  refine hpositionCopy.trans (Eq.trans ?_ hposition.symm)
  rw [hadjusted.position, hadjusted.lastPrice]

end Copies

end InstrumentState

end Rustrade
