import Rustrade.Shared.Actor

/-!
# Talking on the socket

`Working` is what holds of the task throughout an event, in the midst of an attach or a release too:
with no socket every registration is lost; with one, none is, and the index is sound. Sending,
reading and awaiting an answer keep it, and leave the members alone (`Talked`).
-/

set_option autoImplicit false

namespace Rustrade.Shared

namespace Actor

variable {P : Provider} {a a' : Actor P} {instants : List Instant}

/-- What holds throughout an event. -/
structure Working (a : Actor P) : Prop where
  sound : a.registry.Sound
  down : a.socket = none → ∀ id g, a.registry.get? id = some g → g.isRouted = false
  up : ∀ socket, a.socket = some socket →
    ∀ id g, a.registry.get? id = some g → g.isRouted = true
  heard : ∀ socket, a.socket = some socket → ∀ id g frames deadline,
    a.registry.get? id = some g → g.sink = .held frames deadline →
      frames = Registry.sentTo id socket.routed
  freed : ∀ e ∈ a.released, ∀ slot ∈ e.1, ¬ e.2.Holds slot

/-- What talking on the socket leaves alone. -/
structure Talked (instants : List Instant) (a a' : Actor P) : Prop where
  released : a'.released = a.released
  follows : a.registry.Follows instants a'.registry
  nextId : a'.registry.nextId = a.registry.nextId
  members : ∀ id, (a'.registry.get? id).map Registration.slots =
    (a.registry.get? id).map Registration.slots
  «open» : ∀ socket', a'.socket = some socket' → ∃ socket, a.socket = some socket ∧
    socket'.subscribed = socket.subscribed

theorem Talked.refl : Talked instants a a :=
  ⟨rfl, .refl, rfl, fun _ => rfl, fun socket h => ⟨socket, h, rfl⟩⟩

theorem Talked.trans {a'' : Actor P} (h : Talked instants a a') (h' : Talked instants a' a'') :
    Talked instants a a'' := by
  refine ⟨h'.released.trans h.released, h.follows.trans h'.follows, h'.nextId.trans h.nextId,
    fun id => (h'.members id).trans (h.members id), fun socket'' hopen => ?_⟩
  obtain ⟨socket', hopen', hsubscribed'⟩ := h'.open socket'' hopen
  obtain ⟨socket, hopen, hsubscribed⟩ := h.open socket' hopen'
  exact ⟨socket, hopen, hsubscribed'.trans hsubscribed⟩

/-- The slots held are those of the members. -/
theorem Talked.holds (h : Talked instants a a') {slot : P.Slot} :
    a'.registry.Holds slot ↔ a.registry.Holds slot := by
  have hsame {r r' : Registry P} (hmembers : ∀ id, (r'.get? id).map Registration.slots =
      (r.get? id).map Registration.slots) (hheld : r.Holds slot) : r'.Holds slot := by
    obtain ⟨id, g, hget, hslot⟩ := hheld
    have hmember := hmembers id
    rw [hget] at hmember
    obtain ⟨g', hget', hslots⟩ := Option.map_eq_some_iff.1 hmember
    exact ⟨id, g', hget', hslots ▸ hslot⟩
  exact ⟨hsame fun id => (h.members id).symm, hsame h.members⟩

theorem isEmpty_iff {r : Registry P} : r.isEmpty = true ↔ ∀ id, r.get? id = none := by
  unfold Registry.isEmpty IndexMap.isEmpty
  rw [List.isEmpty_iff]
  constructor
  · intro hnil id
    cases hget : r.get? id with
    | none => rfl
    | some g =>
      have hmem := IndexMap.get?_eq_some_iff.1 hget
      rw [hnil] at hmem
      cases hmem
  · intro hnone
    rw [List.eq_nil_iff_forall_not_mem]
    intro e he
    have hget : r.get? e.1 = some e.2 := IndexMap.get?_eq_some_iff.2 he
    rw [hnone] at hget
    cases hget

theorem Talked.isEmpty (h : Talked instants a a') :
    a'.registry.isEmpty = a.registry.isEmpty := by
  rw [Bool.eq_iff_iff, isEmpty_iff, isEmpty_iff]
  refine forall_congr' fun id => ?_
  have hmember := h.members id
  rw [← Option.map_eq_none_iff (f := Registration.slots), hmember, Option.map_eq_none_iff]

/-! ## Losing the socket -/

/-- Whatever becomes of the socket, a registry that lost every registration is in order without. -/
theorem Working.lost (h : Working a) (now : Instant) :
    Working { a with socket := none, registry := a.registry.loseAll now } where
  sound := h.sound.loseAll now
  down _ id g hget := by
    have hget : (a.registry.loseAll now).get? id = some g := hget
    rw [Registry.get?_loseAll] at hget
    obtain ⟨g', -, rfl⟩ := Option.map_eq_some_iff.1 hget
    rfl
  up _ h := by cases h
  heard _ h := by cases h
  freed := h.freed

theorem talked_lost {now : Instant} (hnow : now ∈ instants) :
    Talked instants a { a with socket := none, registry := a.registry.loseAll now } where
  released := rfl
  follows := Registry.follows_loseAll hnow
  nextId := rfl
  members id := by
    show ((a.registry.loseAll now).get? id).map _ = _
    rw [Registry.get?_loseAll, Option.map_map]
    rfl
  «open» _ h := by cases h

/-! ## Talking -/

variable [Protocol P]

/-- A talk ends with the socket it began with, if it settled, and keeps what is in order. -/
structure Spoke (instants : List Instant) (a : Actor P) (spoken : Actor P × Except Refusal Unit) :
    Prop where
  working : Working spoken.1
  talked : Talked instants a spoken.1
  settled : spoken.2 = .ok () → spoken.1.socket.isSome = a.socket.isSome

omit [Protocol P] in
theorem Spoke.after {spoken : Actor P × Except Refusal Unit} (h : Spoke instants a' spoken)
    (ht : Talked instants a a') (hopen : a'.socket.isSome = a.socket.isSome) :
    Spoke instants a spoken :=
  ⟨h.working, ht.trans h.talked, fun hok => (h.settled hok).trans hopen⟩

theorem Working.send (h : Working a) {now : Instant} (hnow : now ∈ instants)
    (failure : Option String) : Spoke instants a (a.send now failure) := by
  unfold Actor.send
  split
  · exact ⟨h, .refl, fun hok => by cases hok⟩
  · split
    · exact ⟨h, .refl, fun _ => rfl⟩
    · exact ⟨h.lost now, talked_lost hnow, fun hok => by cases hok⟩

theorem Working.sendAll (h : Working a) {now : Instant} (hnow : now ∈ instants)
    (messages : List P.Message) (sends : List (Option String)) :
    Spoke instants a (Actor.sendAll now a messages sends) := by
  induction messages generalizing a sends with
  | nil => exact ⟨h, .refl, fun _ => rfl⟩
  | cons message messages ih =>
    have hsent := h.send hnow sends.head?.join
    unfold Actor.sendAll
    simp only
    cases hresult : (a.send now sends.head?.join).2 with
    | ok => exact (ih hsent.working sends.tail).after hsent.talked (hsent.settled hresult)
    | error refusal => exact ⟨hsent.working, hsent.talked, fun hok => by cases hok⟩

/-- One read keeps what is in order, and the socket unless it is lost. -/
theorem Working.read (h : Working a) {now : Instant} (hnow : now ∈ instants)
    (arrival : Arrival P.Message) : Working (a.read now arrival).1 ∧
      Talked instants a (a.read now arrival).1 ∧
      ∀ answers, (a.read now arrival).2 = .done answers →
        (a.read now arrival).1.socket.isSome = a.socket.isSome := by
  cases arrival with
  | lost cause => exact ⟨h.lost now, talked_lost hnow, fun answers hdone => by cases hdone⟩
  | frame message =>
    obtain ⟨hnext, hindex, hget⟩ :=
      Registry.get?_deliverAll (r := a.registry) (Protocol.read a.registry message).1
    generalize hcarried : Protocol.read a.registry message = carried at hnext hindex hget
    -- The frames are delivered before the connection may be found closed.
    let delivered : Actor P := { a with
      socket := a.socket.map (Socket.hear carried.1)
      registry := a.registry.deliverAll carried.1 }
    have hworking : Working delivered := by
      refine ⟨h.sound.of_faces hnext hindex fun id => ?_, fun hnone id g' hget' => ?_,
        fun socket hsome id g' hget' => ?_,
        fun socket hsome id g' frames deadline hget' hsink => ?_, h.freed⟩
      · rw [hget, Option.map_map]
        cases a.registry.get? id with
        | none => rfl
        | some g =>
          exact congrArg some (Prod.ext rfl (Registry.isRouted_receive _ g.sink))
      · rw [hget] at hget'
        obtain ⟨g, hg, rfl⟩ := Option.map_eq_some_iff.1 hget'
        refine (Registry.isRouted_receive _ g.sink).trans ?_
        exact h.down (Option.map_eq_none_iff.1 hnone) id g hg
      · rw [hget] at hget'
        obtain ⟨g, hg, rfl⟩ := Option.map_eq_some_iff.1 hget'
        obtain ⟨socket', hsocket', -⟩ := Option.map_eq_some_iff.1 hsome
        refine (Registry.isRouted_receive _ g.sink).trans ?_
        exact h.up socket' hsocket' id g hg
      · rw [hget] at hget'
        obtain ⟨g, hg, rfl⟩ := Option.map_eq_some_iff.1 hget'
        obtain ⟨socket', hsocket', rfl⟩ := Option.map_eq_some_iff.1 hsome
        have hsink : Registry.receive (Registry.sentTo id carried.1) g.sink =
          .held frames deadline := hsink
        cases hbefore : g.sink with
        | live sent => rw [hbefore] at hsink; cases hsink
        | lost limit => rw [hbefore] at hsink; cases hsink
        | held kept limit =>
          rw [hbefore] at hsink
          cases hsink
          show _ = Registry.sentTo id (socket'.routed ++ carried.1)
          rw [Registry.sentTo_append, ← h.heard socket' hsocket' id g kept _ hg hbefore]
    have htalked : Talked instants a delivered := by
      refine ⟨rfl, .of_sub hnext.ge fun id g' _ hget' => ?_, hnext, fun id => ?_,
        fun socket' hsome => ?_⟩
      · rw [hget] at hget'
        obtain ⟨g, hg, rfl⟩ := Option.map_eq_some_iff.1 hget'
        exact ⟨g, hg, rfl, Registry.until?_receive _ g.sink⟩
      · show ((a.registry.deliverAll carried.1).get? id).map _ = _
        rw [hget, Option.map_map]
        rfl
      · obtain ⟨socket, hsocket, rfl⟩ := Option.map_eq_some_iff.1 hsome
        exact ⟨socket, hsocket, rfl⟩
    unfold Actor.read
    simp only
    rw [hcarried]
    cases carried.2 with
    | answers answers =>
      exact ⟨hworking, htalked, fun _ _ => Option.isSome_map⟩
    | closed cause =>
      exact ⟨hworking.lost now, htalked.trans (talked_lost hnow), fun _ hdone => by cases hdone⟩

theorem Working.await (h : Working a) {now : Instant} (hnow : now ∈ instants) (timeout : ℤ)
    (handshake : P.Handshake) (arrivals : List (Arrival P.Message)) :
    Spoke instants a (Actor.await now timeout a handshake arrivals) := by
  induction arrivals generalizing a handshake with
  | nil => exact ⟨h, .refl, fun hok => by cases hok⟩
  | cons arrival arrivals ih =>
    obtain ⟨hworking, htalked, hopen⟩ := h.read hnow arrival
    unfold Actor.await
    simp only
    cases hread : (a.read now arrival).2 with
    | lost cause => exact ⟨hworking, htalked, fun hok => by cases hok⟩
    | done answers =>
      simp only
      split
      · exact ⟨hworking, htalked, fun hok => by cases hok⟩
      · split
        · exact ⟨hworking, htalked, fun _ => hopen answers hread⟩
        · exact (ih hworking _).after htalked (hopen answers hread)

theorem Working.handshake (h : Working a) {talk : Talk P.Message} (hat : talk.at_ ∈ instants)
    (timeout : ℤ) (handshake : P.Handshake) :
    Spoke instants a (a.handshake talk timeout handshake) := by
  unfold Actor.handshake
  split
  · exact ⟨h, .refl, fun _ => rfl⟩
  · exact h.await hat timeout handshake talk.arrivals

end Actor

end Rustrade.Shared
