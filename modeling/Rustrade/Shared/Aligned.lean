import Rustrade.Shared.Talking

/-!
# What every event leaves aligned

Between two events the slots confirmed on the socket are also those some registration holds
(`Aligned`): each event either gives the socket up, or confirms what it added and releases what it
orphaned.
-/

set_option autoImplicit false

namespace Rustrade.Shared

namespace Actor

variable {P : Provider} [Protocol P] {a a' : Actor P} {instants : List Instant}

/-- With a socket, some stream is registered, and the slots confirmed are those held. -/
structure Aligned (a : Actor P) : Prop extends Working a where
  nonempty : ∀ socket, a.socket = some socket → a.registry.isEmpty = false
  subscribed : ∀ socket, a.socket = some socket →
    ∀ slot, slot ∈ socket.subscribed ↔ a.registry.Holds slot

omit [Protocol P] in
theorem Working.aligned (h : Working a) (hdown : a.socket = none) : Aligned a :=
  ⟨h, fun _ hopen => absurd (hdown.symm.trans hopen) (by simp),
    fun _ hopen => absurd (hdown.symm.trans hopen) (by simp)⟩

omit [Protocol P] in
theorem Aligned.talked (h : Aligned a) (hw : Working a') (ht : Talked instants a a') :
    Aligned a' := by
  refine ⟨hw, fun socket' hopen' => ?_, fun socket' hopen' slot => ?_⟩
  · obtain ⟨socket, hopen, -⟩ := ht.open socket' hopen'
    rw [ht.isEmpty]
    exact h.nonempty socket hopen
  · obtain ⟨socket, hopen, hsubscribed⟩ := ht.open socket' hopen'
    rw [hsubscribed, ht.holds]
    exact h.subscribed socket hopen slot

/-! ## Release -/

theorem Working.unsubscribe (h : Working a) {talk : Talk P.Message} (hat : talk.at_ ∈ instants)
    (slots : List P.Slot) :
    Working (a.unsubscribe slots talk) ∧ Talked instants a (a.unsubscribe slots talk) := by
  have hsent := h.sendAll hat (Protocol.release slots).1 talk.sends
  unfold Actor.unsubscribe
  simp only
  split
  · exact ⟨hsent.working, hsent.talked⟩
  · split
    · exact ⟨hsent.working, hsent.talked⟩
    · have hanswered := hsent.working.handshake hat releaseTimeout
      exact ⟨(hanswered _).working, hsent.talked.trans (hanswered _).talked⟩

/-- A release of what nothing holds any longer aligns the socket with the registry. -/
theorem Working.release (h : Working a) {slots : List P.Slot} {talk : Talk P.Message}
    (hat : talk.at_ ∈ instants)
    (hsubscribed : ∀ socket, a.socket = some socket →
      ∀ slot, slot ∈ socket.subscribed ∧ slot ∉ slots ↔ a.registry.Holds slot)
    (hfree : ∀ socket, a.socket = some socket → ∀ slot ∈ slots, ¬ a.registry.Holds slot) :
    Aligned (a.release slots talk) ∧
      a.registry.Follows instants (a.release slots talk).registry ∧
      ∀ id, ((a.release slots talk).registry.get? id).map Registration.slots =
        (a.registry.get? id).map Registration.slots := by
  unfold Actor.release
  by_cases hempty : a.registry.isEmpty = true
  · rw [if_pos hempty]
    have hclosed : Working a.close := by
      refine ⟨h.sound, fun _ id g hget => ?_, fun _ hopen => absurd hopen (by simp [close]),
        fun _ hopen => absurd hopen (by simp [close]), h.freed⟩
      have hget : a.registry.get? id = some g := hget
      rw [isEmpty_iff.1 hempty id] at hget
      cases hget
    exact ⟨hclosed.aligned rfl, .refl, fun _ => rfl⟩
  · rw [if_neg hempty]
    cases hopen : a.socket with
    | none => exact ⟨h.aligned hopen, .refl, fun _ => rfl⟩
    | some socket =>
      simp only
      by_cases hnil : slots.isEmpty = true
      · rw [if_pos hnil]
        rw [List.isEmpty_iff] at hnil
        subst hnil
        refine ⟨⟨h, fun _ _ => Bool.eq_false_iff.2 hempty, fun socket' hopen' slot => ?_⟩, .refl,
          fun _ => rfl⟩
        rw [← hsubscribed socket' hopen' slot]
        simp
      · rw [if_neg hnil]
        -- The slots come off before anything is sent, so all the talk is on an aligned connection.
        let releasing : Actor P := { a with
          socket := some { socket with subscribed := socket.subscribed \ slots.toFinset }
          released := a.released ++ [(slots, a.registry)] }
        have hreleasing : Aligned releasing := by
          refine ⟨⟨h.sound, fun hnone => absurd hnone (by simp), fun _ _ => h.up socket hopen,
              ?_, ?_⟩,
            fun _ _ => Bool.eq_false_iff.2 hempty, ?_⟩
          · intro socket' hopen'
            cases hopen'
            exact h.heard socket hopen
          · intro e he
            rcases List.mem_append.1 he with he | he
            · exact h.freed e he
            · rw [List.mem_singleton.1 he]
              exact hfree socket hopen
          · intro socket' hopen' slot
            cases hopen'
            rw [Finset.mem_sdiff, List.mem_toFinset]
            exact hsubscribed socket hopen slot
        obtain ⟨hworking, htalked⟩ := hreleasing.toWorking.unsubscribe hat slots
        exact ⟨hreleasing.talked hworking htalked, htalked.follows, htalked.members⟩

/-! ## Registrations added and removed -/

omit [Protocol P] in
/-- A registration that is not held for its stream, added to an open connection. -/
theorem Working.replaced (h : Working a) {registry : Registry P} (hsound : registry.Sound)
    (hopen : a.socket.isSome = true)
    (hget : ∀ id g', registry.get? id = some g' →
      (∃ frames, g'.sink = .live frames) ∨
        ∃ g, a.registry.get? id = some g ∧ g'.sink = g.sink) :
    Working { a with registry := registry } := by
  obtain ⟨socket, hsocket⟩ := Option.isSome_iff_exists.1 hopen
  refine ⟨hsound, fun hnone => absurd (hnone.symm.trans hsocket) (by simp), ?_, ?_, h.freed⟩
  · intro _ _ id g' hget'
    unfold Registration.isRouted
    rcases hget id g' hget' with ⟨frames, hlive⟩ | ⟨g, hg, hsink⟩
    · rw [hlive]
      rfl
    · rw [hsink]
      exact h.up socket hsocket id g hg
  · intro socket' hsocket' id g' frames deadline hget' hheld
    rcases hget id g' hget' with ⟨frames, hlive⟩ | ⟨g, hg, hsink⟩
    · rw [hlive] at hheld
      cases hheld
    · exact h.heard socket' hsocket' id g frames deadline hg (hsink.symm.trans hheld)

omit [Protocol P] in
/-- Registrations taken out of a connection. -/
theorem Working.shrunk (h : Working a) {registry : Registry P} (hsound : registry.Sound)
    (hget : ∀ id g, registry.get? id = some g → a.registry.get? id = some g) :
    Working { a with registry := registry } :=
  ⟨hsound, fun hnone id g hg => h.down hnone id g (hget id g hg),
    fun socket hsocket id g hg => h.up socket hsocket id g (hget id g hg),
    fun socket hsocket id g frames deadline hg => h.heard socket hsocket id g frames deadline
      (hget id g hg), h.freed⟩

omit [Protocol P] in
theorem get?_of_get?_remove {r : Registry P} {id other : AttachId} {g : Registration P}
    (h : (r.remove id).1.get? other = some g) : other ≠ id ∧ r.get? other = some g := by
  rw [Registry.get?_remove] at h
  split at h
  · cases h
  · exact ⟨‹_›, h⟩

/-! ## Subscribe -/

section Subscribe

variable {socket : Socket P} {request : AttachRequest P} {hash : HashOrder}

omit [Protocol P] in
theorem get?_registered (a : Actor P) (request : AttachRequest P)
    (batches : AttachId → P.Batch → P.Batch) (id : AttachId) :
    ((registered a request batches).registry.get? id).map
        (fun g : Registration P => (g.slots, g.sink)) =
      if id = a.registry.nextId then some (request.slots, .live [])
      else (a.registry.get? id).map fun g => (g.slots, g.sink) := by
  have hupdated : (registered a request batches).registry.get? id =
      ((a.registry.insertLive request).1.get? id).map fun g =>
        { g with batch := batches id g.batch } := IndexMap.get?_mapValues
  rw [hupdated, Option.map_map]
  unfold Registry.insertLive
  rw [Registry.get?_insert]
  split <;> rfl

omit [Protocol P] in
theorem registered_cases {batches : AttachId → P.Batch → P.Batch} {id : AttachId}
    {g' : Registration P} (hget' : (registered a request batches).registry.get? id = some g') :
    (id = a.registry.nextId ∧ g'.slots = request.slots ∧ g'.sink = .live []) ∨
      id ≠ a.registry.nextId ∧ ∃ g, a.registry.get? id = some g ∧ g'.slots = g.slots ∧
        g'.sink = g.sink := by
  have hseen := get?_registered a request batches id
  rw [hget'] at hseen
  by_cases hid : id = a.registry.nextId
  · rw [if_pos hid, Option.map_some, Option.some.injEq, Prod.mk.injEq] at hseen
    exact .inl ⟨hid, hseen⟩
  · rw [if_neg hid, eq_comm, Option.map_some, Option.map_eq_some_iff] at hseen
    obtain ⟨g, hget, hsame⟩ := hseen
    rw [Prod.mk.injEq] at hsame
    exact .inr ⟨hid, g, hget, hsame.1.symm, hsame.2.symm⟩

omit [Protocol P] in
theorem Working.registered (h : Working a) (request : AttachRequest P)
    (hopen : a.socket.isSome = true) (batches : AttachId → P.Batch → P.Batch)
    (instants : List Instant) :
    Working (Actor.registered a request batches) ∧
      a.registry.Follows instants (Actor.registered a request batches).registry := by
  have hinserted : (a.registry.insertLive request).1.Sound := h.sound.insert _
  have hsound : ((a.registry.insertLive request).1.updateBatches batches).Sound := by
    refine hinserted.of_faces rfl rfl fun id => ?_
    have hupdated : ((a.registry.insertLive request).1.updateBatches batches).get? id =
        ((a.registry.insertLive request).1.get? id).map fun g =>
          { g with batch := batches id g.batch } := IndexMap.get?_mapValues
    rw [hupdated, Option.map_map]
    rfl
  refine ⟨h.replaced hsound hopen fun id g' hget' => ?_,
    .of_sub (Nat.le_succ _) fun id g' hid hget' => ?_⟩
  · rcases registered_cases hget' with ⟨-, -, hlive⟩ | ⟨-, g, hget, -, hsink⟩
    · exact .inl ⟨[], hlive⟩
    · exact .inr ⟨g, hget, hsink⟩
  · rcases registered_cases hget' with ⟨hnew, -⟩ | ⟨-, g, hget, hslots, hsink⟩
    · exact absurd hnew hid.ne
    · exact ⟨g, hget, hslots, congrArg Sink.until? hsink⟩

omit [Protocol P] in
/-- The slots held with the request registered are the request's too. -/
theorem holds_registered (h : a.registry.Sound) {batches : AttachId → P.Batch → P.Batch}
    {slot : P.Slot} : (registered a request batches).registry.Holds slot ↔
      a.registry.Holds slot ∨ slot ∈ request.slots := by
  constructor
  · rintro ⟨id, g', hget', hslot⟩
    rcases registered_cases hget' with ⟨-, hslots, -⟩ | ⟨-, g, hget, hslots, -⟩
    · exact .inr (hslots ▸ hslot)
    · exact .inl ⟨id, g, hget, hslots ▸ hslot⟩
  · have hseen := get?_registered a request batches
    rintro (⟨id, g, hget, hslot⟩ | hslot)
    · have hid : id ≠ a.registry.nextId := (h.fresh id g hget).ne
      have hold := hseen id
      rw [if_neg hid, hget] at hold
      obtain ⟨g', hget', hsame⟩ := Option.map_eq_some_iff.1 hold
      rw [Prod.mk.injEq] at hsame
      exact ⟨id, g', hget', hsame.1 ▸ hslot⟩
    · have hnew := hseen a.registry.nextId
      rw [if_pos rfl] at hnew
      obtain ⟨g', hget', hsame⟩ := Option.map_eq_some_iff.1 hnew
      rw [Prod.mk.injEq] at hsame
      exact ⟨_, g', hget', hsame.1 ▸ hslot⟩

omit [Protocol P] in
/-- The request's registration taken out again leaves the slots that were held. -/
theorem holds_unregistered (h : a.registry.Sound) {batches : AttachId → P.Batch → P.Batch}
    (ht : Talked instants (registered a request batches) a') {slot : P.Slot} :
    (a'.registry.remove a.registry.nextId).1.Holds slot ↔ a.registry.Holds slot := by
  have hmember (id : AttachId) : (a'.registry.get? id).map Registration.slots =
      if id = a.registry.nextId then some request.slots
      else (a.registry.get? id).map Registration.slots := by
    rw [ht.members]
    have hseen := congrArg (Option.map Prod.fst)
      (get?_registered a request batches id)
    rw [Option.map_map] at hseen
    refine hseen.trans ?_
    split
    · rfl
    · rw [Option.map_map]
      rfl
  constructor
  · rintro ⟨id, g', hget', hslot⟩
    obtain ⟨hid, hget'⟩ := get?_of_get?_remove hget'
    have hold := hmember id
    rw [if_neg hid, hget', eq_comm, Option.map_some, Option.map_eq_some_iff] at hold
    obtain ⟨g, hget, hslots⟩ := hold
    exact ⟨id, g, hget, hslots ▸ hslot⟩
  · rintro ⟨id, g, hget, hslot⟩
    have hid : id ≠ a.registry.nextId := (h.fresh id g hget).ne
    have hold := hmember id
    rw [if_neg hid, hget, Option.map_some, Option.map_eq_some_iff] at hold
    obtain ⟨g', hget', hslots⟩ := hold
    refine ⟨id, g', ?_, hslots ▸ hslot⟩
    rw [Registry.get?_remove, if_neg hid]
    exact hget'

omit [Protocol P] in
/-- What a subscribe sends is what the request, and on a fresh socket any registration, wants and
    the socket has not. -/
theorem mem_sending (h : Working a) (hsocket : a.socket = some socket) {fresh : Bool}
    {slot : P.Slot} : slot ∈ a.sending hash socket request fresh ↔
      (slot ∈ request.slots ∨ fresh = true ∧ a.registry.Holds slot) ∧ slot ∉ socket.subscribed := by
  have hslots : slot ∈ a.registry.slots hash ↔ a.registry.Holds slot := by
    rw [h.sound.holds_iff (h.up socket hsocket)]
    unfold Registry.slots
    rw [HashOrder.mem_arrange, IndexMap.mem_keys_iff, ← not_iff_not, not_exists, not_not,
      ← h.sound.clean.get?_iff, Option.eq_none_iff_forall_ne_some]
  unfold sending
  rw [List.mem_eraseDups, List.mem_filter, List.mem_append]
  cases fresh <;> simp [hslots]

theorem Working.ask (h : Working a) {talk : Talk P.Message} (hat : talk.at_ ∈ instants)
    (timeout : ℤ) (subscribing : Subscribing P) :
    Spoke instants a (a.ask talk timeout subscribing) := by
  have hsent := h.sendAll hat subscribing.messages talk.sends
  unfold Actor.ask
  simp only
  cases hresult : (Actor.sendAll talk.at_ a subscribing.messages talk.sends).2 with
  | ok =>
    exact (hsent.working.handshake hat timeout _).after hsent.talked (hsent.settled hresult)
  | error refusal => exact ⟨hsent.working, hsent.talked, fun hok => by cases hok⟩

omit [Protocol P] in
/-- A confirmed subscribe. -/
theorem Working.confirm (hash : HashOrder) (h : Working a) (hsocket : a.socket = some socket)
    {fresh : Bool}
    (hheld : ∀ slot, slot ∈ socket.subscribed ∨ fresh = true ∧ a.registry.Holds slot ↔
      a.registry.Holds slot)
    {batches : AttachId → P.Batch → P.Batch} (hw : Working a')
    (ht : Talked instants (Actor.registered a request batches) a') :
    Aligned (a'.confirm (a.sending hash socket request fresh)) := by
  have hconfirmed {open' : Socket P}
      (h : (a'.confirm (a.sending hash socket request fresh)).socket = some open') :
      ∃ socket', a'.socket = some socket' ∧ open'.routed = socket'.routed ∧
        open'.subscribed =
          socket'.subscribed ∪ (a.sending hash socket request fresh).toFinset := by
    obtain ⟨socket', hsocket', rfl⟩ := Option.map_eq_some_iff.1 h
    exact ⟨socket', hsocket', rfl, rfl⟩
  refine ⟨⟨hw.sound, fun hnone => hw.down (Option.map_eq_none_iff.1 hnone), ?_, ?_, hw.freed⟩,
    ?_, ?_⟩
  · intro open' hopen
    obtain ⟨socket', hsocket', -, -⟩ := hconfirmed hopen
    exact hw.up socket' hsocket'
  · intro open' hopen
    obtain ⟨socket', hsocket', hrouted, -⟩ := hconfirmed hopen
    rw [hrouted]
    exact hw.heard socket' hsocket'
  · intro _ _
    show a'.registry.isEmpty = false
    rw [ht.isEmpty, Bool.eq_false_iff, Ne, isEmpty_iff]
    intro hnone
    have hseen := get?_registered a request batches a.registry.nextId
    rw [hnone, if_pos rfl] at hseen
    cases hseen
  · intro open' hopen slot
    obtain ⟨socket', hsocket', -, hadded⟩ := hconfirmed hopen
    obtain ⟨before, hbefore, hsubscribed⟩ := ht.open socket' hsocket'
    obtain rfl : socket = before := Option.some.inj (hsocket.symm.trans hbefore)
    show slot ∈ open'.subscribed ↔ a'.registry.Holds slot
    rw [hadded, ht.holds, holds_registered h.sound, Finset.mem_union, List.mem_toFinset,
      mem_sending h hsocket, hsubscribed, ← hheld slot]
    tauto

omit [Protocol P] in
theorem Working.withdraw (h : Working a) (id : AttachId) (instants : List Instant) :
    Working (a.withdraw id).1 ∧ a.registry.Follows instants (a.withdraw id).1.registry :=
  ⟨h.shrunk h.sound.remove fun _ _ hget => (get?_of_get?_remove hget).2, Registry.follows_remove⟩

/-- A subscribe on an aligned connection leaves it aligned, however it ends; on a fresh one, if it
succeeds. -/
theorem Working.subscribe (hash : HashOrder) (request : AttachRequest P) (h : Working a)
    (hsocket : a.socket = some socket) (fresh : Bool)
    (hfresh : fresh = true → socket.subscribed = ∅) (haligned : fresh = false → Aligned a)
    {talk releasing : Talk P.Message} (hat : talk.at_ ∈ instants)
    (hreleasing : releasing.at_ ∈ instants) :
    Working (a.subscribe hash request fresh talk releasing).1 ∧
      a.registry.Follows instants (a.subscribe hash request fresh talk releasing).1.registry ∧
      ((fresh = false ∨ ∃ attachment, (a.subscribe hash request fresh talk releasing).2 =
        .ok attachment) → Aligned (a.subscribe hash request fresh talk releasing).1) := by
  have hopen : a.socket.isSome = true := by rw [hsocket]; rfl
  have hheld : ∀ slot, slot ∈ socket.subscribed ∨ fresh = true ∧ a.registry.Holds slot ↔
      a.registry.Holds slot := by
    intro slot
    cases hf : fresh with
    | true => simp [hfresh hf]
    | false => simp [(haligned hf).subscribed socket hsocket slot]
  unfold Actor.subscribe
  split
  · rename_i hnone
    rw [hnone] at hsocket
    cases hsocket
  rename_i socket' hsocket'
  obtain rfl : socket = socket' := Option.some.inj (hsocket.symm.trans hsocket')
  cases hcheck : Protocol.check request socket.session a.registry with
  | error error =>
    refine ⟨h, .refl, fun hok => ?_⟩
    rcases hok with hf | ⟨attachment, hok⟩
    · exact haligned hf
    · cases hok
  | ok =>
    simp only
    generalize Protocol.subscribe (a.registry.insertLive request).1
      (a.registry.insertLive request).2 (a.sending hash socket request fresh) = subscribing
    obtain ⟨hregistered, hadded⟩ := h.registered request hopen subscribing.batches instants
    have hasked := hregistered.ask hat request.timeout subscribing
    generalize (a.registered request subscribing.batches).ask talk request.timeout subscribing =
      asked at hasked
    obtain ⟨hworking, htalked, -⟩ := hasked
    cases hresult : asked.2 with
    | ok =>
      have hconfirmed := h.confirm hash hsocket hheld hworking htalked
      exact ⟨hconfirmed.toWorking, hadded.trans htalked.follows, fun _ => hconfirmed⟩
    | error refusal =>
      obtain ⟨hwithdrawn, hremoved⟩ := hworking.withdraw a.registry.nextId instants
      have hfollows := (hadded.trans htalked.follows).trans hremoved
      -- What the socket had confirmed is what is held without the request.
      have hrelease (orphaned : List P.Slot) (hf : fresh = false)
          (horphaned : ∀ slot ∈ orphaned, slot ∈ (asked.1.withdraw a.registry.nextId).2) :
          Aligned ((asked.1.withdraw a.registry.nextId).1.release orphaned releasing) ∧
            a.registry.Follows instants
              ((asked.1.withdraw a.registry.nextId).1.release orphaned releasing).registry := by
        have hfree : ∀ open', asked.1.socket = some open' → ∀ slot ∈ orphaned,
            ¬ (asked.1.withdraw a.registry.nextId).1.registry.Holds slot := by
          intro open' hopen' slot hslot
          exact ((hworking.sound.mem_remove (hworking.up open' hopen')).1
            (horphaned slot hslot)).2
        have hsubscribed : ∀ open', asked.1.socket = some open' → ∀ slot,
            slot ∈ open'.subscribed ∧ slot ∉ orphaned ↔
              (asked.1.withdraw a.registry.nextId).1.registry.Holds slot := by
          intro open' hopen' slot
          obtain ⟨before, hbefore, hsubscribed⟩ := htalked.open open' hopen'
          obtain rfl : socket = before := Option.some.inj (hsocket.symm.trans hbefore)
          have hleft : (asked.1.withdraw a.registry.nextId).1.registry.Holds slot ↔
              a.registry.Holds slot := holds_unregistered h.sound htalked
          rw [hsubscribed, (haligned hf).subscribed socket hsocket slot, hleft]
          refine and_iff_left_of_imp fun hheld hslot => ?_
          exact hfree open' hopen' slot hslot (hleft.2 hheld)
        obtain ⟨hreleased, hafter, -⟩ := hwithdrawn.release hreleasing hsubscribed hfree
        exact ⟨hreleased, hfollows.trans hafter⟩
      cases refusal with
      | refused error =>
        cases fresh with
        | true => exact ⟨hwithdrawn, hfollows, fun hok => by simp at hok⟩
        | false =>
          obtain ⟨haligned', hfollows'⟩ := hrelease
            (if Protocol.refusalIsAtomic P then [] else (asked.1.withdraw a.registry.nextId).2) rfl
            (fun slot hslot => by
              split at hslot
              · cases hslot
              · exact hslot)
          exact ⟨haligned'.toWorking, hfollows', fun _ => haligned'⟩
      | failed error =>
        cases fresh with
        | true => exact ⟨hwithdrawn, hfollows, fun hok => by simp at hok⟩
        | false =>
          obtain ⟨haligned', hfollows'⟩ := hrelease _ rfl fun _ hslot => hslot
          exact ⟨haligned'.toWorking, hfollows', fun _ => haligned'⟩

end Subscribe

/-! ## The events -/

variable {hash : HashOrder}

/-- The instants at which the task may find the socket lost in an event. -/
def Event.losses : Event P → List Instant
  | .attach _ serving => [serving.talk.at_, serving.releasing.at_, serving.at_]
  | .detach _ talk | .expiry _ talk => [talk.at_]
  | .frame _ now | .keepalive now _ => [now]

/-- The reconnect holds every registration that was lost, on a socket that has heard nothing. -/
theorem Working.holdLost (hash : HashOrder) (h : Working a) (hdown : a.socket = none)
    (now : Instant) (url : String) (session : P.Session) : Working { a.connect now url session with
      registry := (a.connect now url session).registry.holdLost hash } := by
  have hlost := h.down hdown
  refine ⟨h.sound.holdLost hlost, fun hnone => absurd hnone (by simp [connect]), ?_, ?_, h.freed⟩
  · intro _ _ id g' hget'
    obtain ⟨g, hget, rfl⟩ := Option.map_eq_some_iff.1 (Registry.get?_holdLost.symm.trans hget')
    obtain ⟨deadline, hsink⟩ := Registry.sink_heldAgain (hlost id g hget)
    unfold Registration.isRouted
    rw [hsink]
    rfl
  · intro socket hopen id g' frames deadline hget' hheld
    obtain ⟨g, hget, rfl⟩ := Option.map_eq_some_iff.1 (Registry.get?_holdLost.symm.trans hget')
    obtain ⟨limit, hsink⟩ := Registry.sink_heldAgain (hlost id g hget)
    rw [hsink] at hheld
    cases hheld
    cases hopen
    rfl

theorem follows_holdLost {r : Registry P} : r.Follows instants (r.holdLost hash) := by
  refine .of_sub le_rfl fun id g' _ hget' => ?_
  rw [Registry.get?_holdLost] at hget'
  obtain ⟨g, hget, rfl⟩ := Option.map_eq_some_iff.1 hget'
  exact ⟨g, hget, Registry.slots_heldAgain g, Registry.until?_heldAgain g⟩

theorem forgetLost_sub {r : Registry P} {request : AttachRequest P} {id : AttachId}
    {g : Registration P} (h : (r.forgetLost hash request).get? id = some g) :
    r.get? id = some g := by
  obtain ⟨gone, -, hgone, hkept, -⟩ := Registry.get?_forgetLost r hash request
  by_cases hid : gone id
  · rw [hgone id hid] at h
    cases h
  · rw [← hkept id hid]
    exact h

/-- A re-attach leaves the slots held and the socket as they were. -/
theorem Aligned.reattach (h : Aligned a) (hopen : a.socket.isSome = true)
    {request : AttachRequest P} {registry : Registry P} {id : AttachId}
    (hreattach : a.registry.reattach hash request = some (registry, id)) :
    Aligned { a with registry := registry } ∧ a.registry.Follows instants registry := by
  obtain ⟨held, g, frames, deadline, hget, hsink, -, -, hnext, hsound, hafter⟩ :=
    Registry.reattach_spec h.sound hreattach
  have hheld : held < a.registry.nextId := h.sound.fresh held g hget
  -- The slots of the registration taken out are those of the one put in.
  have hholds (slot : P.Slot) : registry.Holds slot ↔ a.registry.Holds slot := by
    constructor
    · rintro ⟨other, g', hget', hslot⟩
      rw [hafter] at hget'
      split at hget'
      · cases hget'
        exact ⟨held, g, hget, hslot⟩
      · split at hget'
        · cases hget'
        · exact ⟨other, g', hget', hslot⟩
    · rintro ⟨other, g', hget', hslot⟩
      by_cases hother : other = held
      · subst hother
        rw [hget] at hget'
        cases hget'
        exact ⟨a.registry.nextId, { g with sink := .live frames }, by rw [hafter, if_pos rfl],
          hslot⟩
      · have hne : other ≠ a.registry.nextId := (h.sound.fresh other g' hget').ne
        exact ⟨other, g', by rw [hafter, if_neg hne, if_neg hother]; exact hget', hslot⟩
  refine ⟨⟨h.toWorking.replaced hsound hopen fun other g' hget' => ?_, fun _ _ => ?_,
    fun socket hsocket slot => ?_⟩, .of_sub (hnext ▸ Nat.le_succ _) fun other g' hid hget' => ?_⟩
  · rw [hafter] at hget'
    split at hget'
    · cases hget'
      exact .inl ⟨frames, rfl⟩
    · split at hget'
      · cases hget'
      · exact .inr ⟨g', hget', rfl⟩
  · rw [Bool.eq_false_iff, Ne, isEmpty_iff]
    intro hnone
    have hnew := hafter a.registry.nextId
    rw [if_pos rfl] at hnew
    exact absurd ((hnone _).symm.trans hnew) (by simp)
  · exact (h.subscribed socket hsocket slot).trans (hholds slot).symm
  · rw [hafter, if_neg hid.ne] at hget'
    split at hget'
    · cases hget'
    · exact ⟨g', hget', rfl, rfl⟩

/-- An attach that finds no socket connects, and leaves one only if the subscribe succeeds. -/
theorem Aligned.reconnect (h : Aligned a) (hdown : a.socket = none) (request : AttachRequest P)
    (serving : Serving P) (htalk : serving.talk.at_ ∈ instants)
    (hreleasing : serving.releasing.at_ ∈ instants) (hat : serving.at_ ∈ instants) :
    Aligned (a.attach hash request serving).1 ∧
      a.registry.Follows instants (a.attach hash request serving).1.registry := by
  unfold Actor.attach
  split
  · exact ⟨h, .refl⟩
  split
  · rename_i socket hsocket
    rw [hdown] at hsocket
    cases hsocket
  obtain ⟨-, -, -, -, hnext, hsound⟩ := Registry.get?_forgetLost a.registry hash request
  have hforgotten : Working { a with registry := a.registry.forgetLost hash request } :=
    h.toWorking.shrunk (hsound h.sound) fun _ _ => forgetLost_sub
  have hforgot : a.registry.Follows instants (a.registry.forgetLost hash request) :=
    .of_sub hnext.ge fun _ g' _ hget' => ⟨g', forgetLost_sub hget', rfl, rfl⟩
  simp only
  cases serving.connected with
  | error error => exact ⟨hforgotten.aligned hdown, hforgot⟩
  | ok session =>
    have hheld := hforgotten.holdLost hash hdown serving.at_ request.url session
    obtain ⟨hworking, hsubscribed, haligned⟩ := hheld.subscribe hash request rfl true (fun _ => rfl)
      (by simp) htalk hreleasing
    have hfollows := (hforgot.trans follows_holdLost).trans hsubscribed
    -- A subscribe that failed is not known to be aligned, but the socket does not survive it.
    simp only
    split
    · exact ⟨(hworking.lost serving.at_).aligned rfl,
        hfollows.trans (Registry.follows_loseAll hat)⟩
    · rename_i attachment hok
      exact ⟨haligned (.inr ⟨attachment, hok⟩), hfollows⟩

theorem Aligned.attach (h : Aligned a) (request : AttachRequest P) (serving : Serving P)
    (htalk : serving.talk.at_ ∈ instants) (hreleasing : serving.releasing.at_ ∈ instants)
    (hat : serving.at_ ∈ instants) : Aligned (a.attach hash request serving).1 ∧
      a.registry.Follows instants (a.attach hash request serving).1.registry := by
  cases hsocket : a.socket with
  | none => exact h.reconnect hsocket request serving htalk hreleasing hat
  | some socket =>
    unfold Actor.attach
    split
    · exact ⟨h, .refl⟩
    split
    · split
      · rename_i reattached hreattach
        exact h.reattach (by rw [hsocket]; rfl) hreattach
      · have hsubscribed := h.toWorking.subscribe hash request hsocket false (by simp) (fun _ => h)
          htalk hreleasing
        exact ⟨hsubscribed.2.2 (.inl rfl), hsubscribed.2.1⟩
    · rename_i hnone
      rw [hsocket] at hnone
      cases hnone

/-- Registrations taken out, and the slots only they held released. -/
theorem Aligned.shrunk (h : Aligned a) {registry : Registry P} (hsound : registry.Sound)
    (hnext : registry.nextId = a.registry.nextId)
    (hget : ∀ id g, registry.get? id = some g → a.registry.get? id = some g)
    {orphaned : List P.Slot} (horphaned : ∀ socket, a.socket = some socket → ∀ slot,
      slot ∈ orphaned ↔ a.registry.Holds slot ∧ ¬ registry.Holds slot)
    {talk : Talk P.Message} (hat : talk.at_ ∈ instants) :
    Aligned (Actor.release { a with registry := registry } orphaned talk) ∧
      a.registry.Follows instants
        (Actor.release { a with registry := registry } orphaned talk).registry ∧
      ∀ id, ((Actor.release { a with registry := registry } orphaned talk).registry.get? id).map
        Registration.slots = (registry.get? id).map Registration.slots := by
  have hleft {slot : P.Slot} (hheld : registry.Holds slot) : a.registry.Holds slot := by
    obtain ⟨id, g, hg, hslot⟩ := hheld
    exact ⟨id, g, hget id g hg, hslot⟩
  have hsubscribed : ∀ socket, a.socket = some socket →
      ∀ slot, slot ∈ socket.subscribed ∧ slot ∉ orphaned ↔ registry.Holds slot := by
    intro socket hsocket slot
    rw [h.subscribed socket hsocket, horphaned socket hsocket]
    constructor
    · rintro ⟨hheld, hkept⟩
      by_contra hfree
      exact hkept ⟨hheld, hfree⟩
    · exact fun hheld => ⟨hleft hheld, fun horphan => horphan.2 hheld⟩
  obtain ⟨haligned, hfollows, hmembers⟩ := (h.toWorking.shrunk hsound hget).release hat hsubscribed
    fun socket hsocket slot hslot => ((horphaned socket hsocket slot).1 hslot).2
  have hshrunk : a.registry.Follows instants registry :=
    .of_sub hnext.ge fun id g _ hg => ⟨g, hget id g hg, rfl, rfl⟩
  exact ⟨haligned, hshrunk.trans hfollows, hmembers⟩

theorem Aligned.detach (h : Aligned a) (id : AttachId) {talk : Talk P.Message}
    (hat : talk.at_ ∈ instants) :
    Aligned (a.detach id talk) ∧ a.registry.Follows instants (a.detach id talk).registry := by
  unfold Actor.detach
  split
  · exact ⟨h, .refl⟩
  · rename_i removed hremoved
    obtain ⟨rfl, -⟩ := Registry.removeLive_eq_some hremoved
    obtain ⟨haligned, hfollows, -⟩ := h.shrunk h.sound.remove Registry.nextId_remove
      (fun _ _ hget => (get?_of_get?_remove hget).2)
      (fun socket hsocket _ => h.sound.mem_remove (h.up socket hsocket)) hat
    exact ⟨haligned, hfollows⟩

theorem Aligned.expire (hash : HashOrder) (h : Aligned a) (now : Instant) {talk : Talk P.Message}
    (hat : talk.at_ ∈ instants) : Aligned (a.expire hash now talk) ∧
      a.registry.Follows instants (a.expire hash now talk).registry ∧
      ∀ id, ((a.expire hash now talk).registry.get? id).map Registration.slots =
        ((a.registry.get? id).filter fun g => !Registry.expired now g).map Registration.slots := by
  obtain ⟨hget, hnext, hsound⟩ := Registry.expire_spec a.registry hash now
  have hsub (id : AttachId) (g : Registration P)
      (hg : (a.registry.expire hash now).1.get? id = some g) : a.registry.get? id = some g := by
    rw [hget] at hg
    exact (Option.filter_eq_some_iff.1 hg).1
  obtain ⟨haligned, hfollows, hmembers⟩ := h.shrunk (hsound h.sound).1 hnext hsub
    (fun socket hsocket => (hsound h.sound).2 (h.up socket hsocket)) hat
  exact ⟨haligned, hfollows, fun id => (hmembers id).trans (by rw [hget])⟩

/-- A ping leaves what is held; so does a socket lost to one unanswered. -/
theorem Aligned.keepalive (h : Aligned a) {now : Instant} (hat : now ∈ instants)
    (failure : Option String) : Aligned (a.keepalive now failure) ∧
      a.registry.Follows instants (a.keepalive now failure).registry := by
  unfold Actor.keepalive
  split
  · exact ⟨h, .refl⟩
  rename_i socket hsocket
  split
  · exact ⟨h, .refl⟩
  rename_i keepalive _
  split
  · exact ⟨(h.lost now).aligned rfl, Registry.follows_loseAll hat⟩
  let pinged : Actor P := { a with
    socket := some { socket with
      keepalive := some { keepalive with unanswered := true, next := now + keepalive.interval } } }
  have htalked : Talked instants a pinged := by
    refine ⟨rfl, .refl, rfl, fun _ => rfl, fun socket' hopen => ?_⟩
    cases hopen
    exact ⟨socket, hsocket, rfl⟩
  have hworking : Working pinged := by
    refine ⟨h.sound, fun hnone => absurd hnone (by simp [pinged]), fun _ _ => h.up socket hsocket,
      ?_, h.freed⟩
    intro socket' hopen
    cases hopen
    exact h.heard socket hsocket
  have hsent := hworking.send hat failure
  have hall := htalked.trans hsent.talked
  exact ⟨h.talked hsent.working hall, hall.follows⟩

/-- Every event leaves the task aligned, and moves no registration to another identifier. -/
theorem Aligned.step (hash : HashOrder) (h : Aligned a) (e : Event P) :
    Aligned (a.step hash e) ∧ a.registry.Follows e.losses (a.step hash e).registry := by
  cases e with
  | attach request serving =>
    exact h.attach request serving (by simp [Event.losses]) (by simp [Event.losses])
      (by simp [Event.losses])
  | detach id talk => exact h.detach id (by simp [Event.losses])
  | expiry now talk =>
    have hat : talk.at_ ∈ Event.losses (.expiry now talk : Event P) := by simp [Event.losses]
    obtain ⟨haligned, hfollows, -⟩ := h.expire hash now hat
    exact ⟨haligned, hfollows⟩
  | keepalive now failure => exact h.keepalive (by simp [Event.losses]) failure
  | frame arrival now =>
    unfold Actor.step
    simp only
    split
    · have hnow : now ∈ Event.losses (.frame arrival now : Event P) := by simp [Event.losses]
      obtain ⟨hworking, htalked, -⟩ := h.toWorking.read hnow arrival
      exact ⟨h.talked hworking htalked, htalked.follows⟩
    · exact ⟨h, .refl⟩

omit [Protocol P] in
theorem aligned_new : Aligned (new : Actor P) := by
  have hworking : Working (new : Actor P) := by
    refine ⟨Registry.sound_empty, ?_, ?_, ?_, ?_⟩
    · intro _ _ _ hget
      cases hget
    · intro _ hopen
      cases hopen
    · intro _ hopen
      cases hopen
    · intro _ he
      cases he
  exact hworking.aligned rfl

end Actor

end Rustrade.Shared
