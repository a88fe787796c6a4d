import Mathlib.Tactic.Linarith
import Rustrade.Execution.AccountEvent
import Rustrade.Lib.IndexMap

/-!
# The registry of a shared connection

Several streams share one socket. Each attaches with the slots it wants, and has a registration:
attached, held by a reconnect its stream has not re-attached to yet, or lost with its socket. The
index lists, for each slot, the registrations that hold it on the socket; `Sound` says that it does,
and every operation keeps it.
-/

set_option autoImplicit false

namespace Rustrade.Shared

/-- Identifies one attach for the lifetime of the connection task. Never reused. -/
abbrev AttachId := ℕ

/-- A point of time, in nanoseconds. -/
abbrev Instant := ℤ

/-- How long a stream's place is kept after the socket it was reading is lost: thirty seconds. -/
def reattachGrace : ℤ := 30000000000

/-- What a provider shares a connection in terms of. -/
structure Provider where
  Slot : Type
  Batch : Type
  /-- What a stream is handed with its attachment. -/
  Attached : Type
  Session : Type
  Answer : Type
  Handshake : Type
  Message : Type
  [slotEq : DecidableEq Slot]

attribute [instance] Provider.slotEq

/-- Where a registration's frames go. -/
inductive Sink (Message : Type) where
  /-- Straight to the stream, which was sent these. -/
  | live (frames : List Message)
  /-- Kept, re-subscribed by a reconnect the stream has not re-attached to yet. -/
  | held (frames : List Message) (deadline : Instant)
  /-- Nowhere: the socket was lost, and nothing has reconnected since. -/
  | lost (deadline : Instant)

/-- When a registration waiting for its stream to re-attach is given up on. -/
def Sink.until? {Message : Type} : Sink Message → Option Instant
  | .live _ => none
  | .held _ deadline | .lost deadline => some deadline

def Sink.isRouted {Message : Type} : Sink Message → Bool
  | .lost _ => false
  | .live _ | .held _ _ => true

def Sink.deliver {Message : Type} (frame : Message) : Sink Message → Sink Message
  | .live frames => .live (frames ++ [frame])
  | .held frames deadline => .held (frames ++ [frame]) deadline
  | .lost deadline => .lost deadline

/-- What the loss of the socket at `now` leaves of a sink: a deadline already set is kept. -/
def Sink.lose {Message : Type} (now : Instant) (sink : Sink Message) : Sink Message :=
  .lost (sink.until?.getD (now + reattachGrace))

/-- One stream's batch, as the connection needs it. -/
structure AttachRequest (P : Provider) where
  exchange : ExchangeId
  url : String
  kind : String
  slots : List P.Slot
  distinct : slots.Nodup
  timeout : ℤ
  batch : P.Batch

/-- One attached stream's batch, and where its frames go. -/
structure Registration (P : Provider) where
  exchange : ExchangeId
  kind : String
  slots : List P.Slot
  distinct : slots.Nodup
  batch : P.Batch
  sink : Sink P.Message

/-! ## The index -/

/-- Which registrations hold each slot. -/
structure Index (P : Provider) where
  holders : IndexMap P.Slot (List AttachId)

namespace Index

variable {P : Provider} {ix : Index P} {id : AttachId} {slot : P.Slot} {slots : List P.Slot}

def empty : Index P := ⟨.empty⟩

def holdersOf (self : Index P) (slot : P.Slot) : List AttachId := (self.holders.get? slot).getD []

def link (self : Index P) (id : AttachId) (slots : List P.Slot) : Index P :=
  slots.foldl (fun self slot => ⟨self.holders.insert slot (self.holdersOf slot ++ [id])⟩) self

/-- Remove `id` from `slots`, with those nothing holds any longer. -/
def unlink (id : AttachId) : Index P → List P.Slot → Index P × List P.Slot
  | self, [] => (self, [])
  | self, slot :: slots =>
      match self.holders.get? slot with
      | none => unlink id self slots
      | some holders =>
          let holders := holders.filter (· ≠ id)
          if holders.isEmpty then
            let rest := unlink id ⟨self.holders.remove slot⟩ slots
            (rest.1, slot :: rest.2)
          else unlink id ⟨self.holders.insert slot holders⟩ slots

/-- No slot is listed without a holder. -/
def Clean (ix : Index P) : Prop := ∀ slot, ix.holders.get? slot ≠ some []

theorem clean_empty : (empty : Index P).Clean := fun _ h => by cases h

theorem Clean.get?_iff (h : ix.Clean) : ix.holders.get? slot = none ↔ ix.holdersOf slot = [] := by
  unfold holdersOf
  cases hget : ix.holders.get? slot with
  | none => simp
  | some holders =>
    have hne : holders ≠ [] := fun hnil => h slot (by rw [hget, hnil])
    simp [hne]

theorem holdersOf_insert {other : P.Slot} {holders : List AttachId} :
    (⟨ix.holders.insert other holders⟩ : Index P).holdersOf slot =
      if slot = other then holders else ix.holdersOf slot := by
  unfold holdersOf
  rw [IndexMap.get?_insert]
  split <;> rfl

theorem holdersOf_remove {other : P.Slot} :
    (⟨ix.holders.remove other⟩ : Index P).holdersOf slot =
      if slot = other then [] else ix.holdersOf slot := by
  unfold holdersOf
  rw [IndexMap.get?_remove]
  split <;> rfl

theorem Clean.insert (h : ix.Clean) {other : P.Slot} {holders : List AttachId}
    (hholders : holders ≠ []) : (⟨ix.holders.insert other holders⟩ : Index P).Clean := by
  intro slot hget
  rw [IndexMap.get?_insert] at hget
  split at hget
  · exact hholders (Option.some.inj hget)
  · exact h slot hget

theorem Clean.remove (h : ix.Clean) {other : P.Slot} :
    (⟨ix.holders.remove other⟩ : Index P).Clean := by
  intro slot hget
  rw [IndexMap.get?_remove] at hget
  split at hget
  · cases hget
  · exact h slot hget

theorem Clean.link (h : ix.Clean) : (ix.link id slots).Clean := by
  unfold Index.link
  induction slots generalizing ix with
  | nil => exact h
  | cons slot slots ih => exact ih (h.insert (by simp))

theorem holdersOf_link (hslots : slots.Nodup) :
    (ix.link id slots).holdersOf slot = ix.holdersOf slot ++ if slot ∈ slots then [id] else [] := by
  unfold link
  induction slots generalizing ix with
  | nil => simp
  | cons first slots ih =>
    rw [List.nodup_cons] at hslots
    rw [List.foldl_cons, ih hslots.2, holdersOf_insert]
    by_cases hfirst : slot = first
    · subst hfirst
      simp [hslots.1]
    · simp [hfirst]

theorem Clean.unlink (h : ix.Clean) : (Index.unlink id ix slots).1.Clean := by
  induction slots generalizing ix with
  | nil => exact h
  | cons slot slots ih =>
    unfold Index.unlink
    split
    · exact ih h
    · simp only
      split
      · exact ih h.remove
      · rename_i hholders
        exact ih (h.insert (by simpa using hholders))

theorem holdersOf_unlink : (unlink id ix slots).1.holdersOf slot =
    if slot ∈ slots then (ix.holdersOf slot).filter (· ≠ id) else ix.holdersOf slot := by
  induction slots generalizing ix with
  | nil => simp [unlink]
  | cons first slots ih =>
    unfold unlink
    split
    · rename_i hnone
      rw [ih]
      by_cases hfirst : slot = first
      · subst hfirst
        simp [holdersOf, hnone]
      · simp [hfirst]
    · rename_i holders hget
      have hfound : ix.holdersOf first = holders := by simp [holdersOf, hget]
      simp only
      split
      · rename_i hnil
        rw [List.isEmpty_iff] at hnil
        rw [ih, holdersOf_remove]
        by_cases hfirst : slot = first
        · subst hfirst
          rw [if_pos rfl, if_pos (List.mem_cons_self ..), hfound, hnil]
          simp
        · simp [hfirst]
      · rw [ih, holdersOf_insert]
        by_cases hfirst : slot = first
        · subst hfirst
          simp [hfound]
        · simp [hfirst]

/-- The slots named are those that had a holder and have none left. -/
theorem mem_unlink (h : ix.Clean) : slot ∈ (unlink id ix slots).2 ↔
    ix.holdersOf slot ≠ [] ∧ (unlink id ix slots).1.holdersOf slot = [] := by
  induction slots generalizing ix with
  | nil => simp [unlink]
  | cons first slots ih =>
    unfold unlink
    split
    · exact ih h
    · rename_i holders hget
      have hfound : ix.holdersOf first = holders := by simp [holdersOf, hget]
      have hholders : holders ≠ [] := fun hnil => h first (by rw [hget, hnil])
      simp only
      split
      · rw [List.mem_cons, ih h.remove, holdersOf_remove]
        by_cases hfirst : slot = first
        · subst hfirst
          simp [hfound, hholders, holdersOf_unlink, holdersOf_remove]
        · simp [hfirst]
      · rename_i hleft
        rw [ih (h.insert (by simpa using hleft)), holdersOf_insert]
        by_cases hfirst : slot = first
        · subst hfirst
          have hleft : holders.filter (· ≠ id) ≠ [] := by simpa using hleft
          simp only [if_true, hfound]
          exact and_congr_left fun _ => iff_of_true hleft hholders
        · simp [hfirst]

end Index

/-! ## The registry -/

/-- Every registration on one connection, and the index over them. -/
structure Registry (P : Provider) where
  nextId : AttachId
  registrations : IndexMap AttachId (Registration P)
  index : Index P

/-- An error an attach fails with. -/
inductive SocketError where
  | subscribe (message : String)
  | unacknowledged (reason : String) (unacknowledged : List String)
  | webSocket (cause : String)
  deriving DecidableEq

/-- What one frame amounted to, once whatever it carries for the streams is routed. -/
inductive Frame (P : Provider) where
  | answers (answers : List (Except SocketError P.Answer))
  | closed (cause : String)

/-- What subscribes slots: the messages, the handshake that confirms them, and what each
    registration's batch keeps of it. -/
structure Subscribing (P : Provider) where
  messages : List P.Message
  handshake : P.Handshake
  batches : AttachId → P.Batch → P.Batch

/-- What a provider supplies to share one connection among its streams. -/
class Protocol (P : Provider) where
  name : String
  /-- A refused subscribe added none of what it asked for. -/
  refusalIsAtomic : Bool
  /-- How often the connection pings the provider, if at all. -/
  keepalive : Option ℤ
  isSameStream : P.Batch → P.Batch → Bool
  attached : P.Batch → P.Attached
  /-- What a stream no longer registered is handed. -/
  unattached : P.Attached
  reset : P.Batch → P.Batch
  check : AttachRequest P → P.Session → Registry P → Except SocketError Unit
  subscribe : Registry P → AttachId → List P.Slot → Subscribing P
  release : List P.Slot → List P.Message × Option P.Handshake
  /-- The frames one message carries for the registrations, and what it answers. -/
  read : Registry P → P.Message → List (AttachId × P.Message) × Frame P
  refused : SocketError → SocketError
  isSettled : P.Handshake → Bool
  observe : P.Handshake → P.Answer → P.Handshake
  timedOut : P.Handshake → ℤ → String
  unconfirmed : P.Handshake → Option (List String)
  refusal : P.Handshake → SocketError → SocketError

namespace Registration

variable {P : Provider}

/-- Whether `request` is this registration's stream re-attaching. -/
def isRequestedBy [Protocol P] (self : Registration P) (request : AttachRequest P) : Bool :=
  self.exchange = request.exchange && self.kind = request.kind && self.slots = request.slots &&
    Protocol.isSameStream self.batch request.batch

def isRouted (self : Registration P) : Bool := self.sink.isRouted

def until? (self : Registration P) : Option Instant := self.sink.until?

def deliver (self : Registration P) (frame : P.Message) : Registration P :=
  { self with sink := self.sink.deliver frame }

end Registration

namespace Registry

variable {P : Provider}

def empty : Registry P := ⟨0, .empty, .empty⟩

def get? (self : Registry P) (id : AttachId) : Option (Registration P) :=
  self.registrations.get? id

def isEmpty (self : Registry P) : Bool := self.registrations.isEmpty

/-- Every slot the socket holds. -/
def slots (hash : HashOrder) (self : Registry P) : List P.Slot :=
  hash.arrange self.index.holders.keys

/-- Deliver one frame to registration `id`, or hold it for its stream. -/
def deliver (self : Registry P) (id : AttachId) (frame : P.Message) : Registry P :=
  { self with registrations := self.registrations.modify id fun g => g.deliver frame }

def deliverAll (self : Registry P) (frames : List (AttachId × P.Message)) : Registry P :=
  frames.foldl (fun self frame => self.deliver frame.1 frame.2) self

def updateBatches (self : Registry P) (batches : AttachId → P.Batch → P.Batch) : Registry P :=
  { self with
    registrations := self.registrations.mapValues fun id g =>
      { g with batch := batches id g.batch } }

def insert (self : Registry P) (registration : Registration P) : Registry P × AttachId :=
  ({ nextId := self.nextId + 1
     registrations := self.registrations.insert self.nextId registration
     index :=
       if registration.isRouted then self.index.link self.nextId registration.slots
       else self.index },
    self.nextId)

def insertLive (self : Registry P) (request : AttachRequest P) : Registry P × AttachId :=
  self.insert ⟨request.exchange, request.kind, request.slots, request.distinct, request.batch,
    .live []⟩

/-- Remove a registration in any state, with the slots nothing holds any longer. -/
def remove (self : Registry P) (id : AttachId) : Registry P × List P.Slot :=
  match self.get? id with
  | none => (self, [])
  | some registration =>
      let registrations := self.registrations.remove id
      if registration.isRouted then
        let unlinked := Index.unlink id self.index registration.slots
        ({ self with registrations := registrations, index := unlinked.1 }, unlinked.2)
      else ({ self with registrations := registrations }, [])

/-- Remove an attached registration; `none` for anything else. -/
def removeLive (self : Registry P) (id : AttachId) : Option (Registry P × List P.Slot) :=
  match (self.get? id).map Registration.sink with
  | some (.live _) => some (self.remove id)
  | _ => none

section Requested

variable [Protocol P]

/-- Re-attach the request's stream to the registration a reconnect is holding frames for, under a
    fresh identifier. -/
def reattach (hash : HashOrder) (self : Registry P) (request : AttachRequest P) :
    Option (Registry P × AttachId) :=
  let held := (hash.arrange self.registrations.entries).find? fun e =>
    match e.2.sink with
    | .held _ _ => e.2.isRequestedBy request
    | _ => false
  held.bind fun e =>
    match e.2.sink with
    | .held kept _ =>
        let unlinked := Index.unlink e.1 self.index e.2.slots
        some ({ self with
            registrations := self.registrations.remove e.1
            index := unlinked.1 }.insert { e.2 with sink := .live kept })
    | _ => none

/-- Drop the lost registration the request's stream left behind. -/
def forgetLost (hash : HashOrder) (self : Registry P) (request : AttachRequest P) : Registry P :=
  let lost := (hash.arrange self.registrations.entries).find? fun e =>
    !e.2.isRouted && e.2.isRequestedBy request
  match lost with
  | none => self
  | some e => { self with registrations := self.registrations.remove e.1 }

/-- A new socket re-subscribes what the lost one held, and holds frames for each registration. -/
def holdLost (hash : HashOrder) (self : Registry P) : Registry P :=
  let lost := (hash.arrange self.registrations.entries).filter fun e => !e.2.isRouted
  { self with
    registrations := self.registrations.mapValues fun _ g =>
      match g.sink with
      | .lost deadline => { g with sink := .held [] deadline, batch := Protocol.reset g.batch }
      | _ => g
    index := lost.foldl (fun index e => index.link e.1 e.2.slots) self.index }

end Requested

/-- Every attached or held registration loses its socket at `now`. -/
def loseAll (self : Registry P) (now : Instant) : Registry P :=
  { self with
    registrations := self.registrations.mapValues fun _ g => { g with sink := g.sink.lose now }
    index := .empty }

def nextExpiry (self : Registry P) : Option Instant :=
  (self.registrations.values.filterMap Registration.until?).min?

/-- Give up on one registration, adding the slots nothing holds any longer to `orphaned`. -/
def giveUp (acc : Registry P × List P.Slot) (id : AttachId) : Registry P × List P.Slot :=
  match acc.1.get? id with
  | none => acc
  | some registration =>
      let registrations := acc.1.registrations.remove id
      match registration.sink with
      | .held _ _ =>
          let unlinked := Index.unlink id acc.1.index registration.slots
          ({ acc.1 with registrations := registrations, index := unlinked.1 },
            acc.2 ++ unlinked.2)
      | .lost _ | .live _ => ({ acc.1 with registrations := registrations }, acc.2)

/-- Give up on every registration whose stream has not re-attached by `now`, with the slots nothing
    holds any longer. -/
def expire (hash : HashOrder) (self : Registry P) (now : Instant) : Registry P × List P.Slot :=
  let expired := (hash.arrange self.registrations.entries).filter fun e =>
    e.2.until?.any fun deadline => deadline ≤ now
  (expired.map Prod.fst).foldl giveUp (self, [])

/-! ### What holds of it -/

/-- Some registration holds the slot. -/
def Holds (r : Registry P) (slot : P.Slot) : Prop :=
  ∃ id g, r.get? id = some g ∧ slot ∈ g.slots

/-- The index lists, for each slot, each routed registration that holds it, and lists it once. -/
structure Sound (r : Registry P) : Prop where
  fresh : ∀ id g, r.get? id = some g → id < r.nextId
  clean : r.index.Clean
  once : ∀ slot, (r.index.holdersOf slot).Nodup
  holders : ∀ slot id, id ∈ r.index.holdersOf slot ↔
    ∃ g, r.get? id = some g ∧ g.isRouted = true ∧ slot ∈ g.slots

variable {r r' : Registry P} {id : AttachId} {slot : P.Slot}

theorem sound_empty : (empty : Registry P).Sound where
  fresh _ _ h := by cases h
  clean := Index.clean_empty
  once _ := List.nodup_nil
  holders _ _ := by
    constructor
    · intro h
      cases h
    · rintro ⟨_, h, -⟩
      cases h

/-- What of a registration the index depends on. -/
def face (g : Registration P) : List P.Slot × Bool := (g.slots, g.isRouted)

theorem get?_of_face (h : (r'.get? id).map face = (r.get? id).map face) {g' : Registration P}
    (hget : r'.get? id = some g') : ∃ g, r.get? id = some g ∧ face g = face g' := by
  rw [hget] at h
  exact Option.map_eq_some_iff.1 h.symm

theorem Sound.of_faces (h : r.Sound) (hnext : r'.nextId = r.nextId) (hindex : r'.index = r.index)
    (hfaces : ∀ id, (r'.get? id).map face = (r.get? id).map face) : r'.Sound where
  fresh id g' hget := by
    obtain ⟨g, hg, -⟩ := get?_of_face (hfaces id) hget
    rw [hnext]
    exact h.fresh id g hg
  clean := by rw [hindex]; exact h.clean
  once slot := by rw [hindex]; exact h.once slot
  holders slot id := by
    rw [hindex, h.holders]
    constructor
    · rintro ⟨g, hget, hrouted, hslot⟩
      obtain ⟨g', hget', hface⟩ := get?_of_face (hfaces id).symm hget
      simp only [face, Prod.mk.injEq] at hface
      exact ⟨g', hget', hface.2.trans hrouted, hface.1 ▸ hslot⟩
    · rintro ⟨g', hget', hrouted, hslot⟩
      obtain ⟨g, hget, hface⟩ := get?_of_face (hfaces id) hget'
      simp only [face, Prod.mk.injEq] at hface
      exact ⟨g, hget, hface.2.trans hrouted, hface.1 ▸ hslot⟩

theorem get?_insert {registration : Registration P} :
    (r.insert registration).1.get? id =
      if id = r.nextId then some registration else r.get? id := IndexMap.get?_insert

theorem Sound.insert (h : r.Sound) (registration : Registration P) :
    (r.insert registration).1.Sound := by
  have hnew : r.get? r.nextId = none := by
    cases hget : r.get? r.nextId with
    | none => rfl
    | some g => exact absurd (h.fresh _ g hget) (lt_irrefl _)
  have hholders (slot : P.Slot) : (r.insert registration).1.index.holdersOf slot =
      r.index.holdersOf slot ++
        if registration.isRouted = true ∧ slot ∈ registration.slots then [r.nextId] else [] := by
    unfold Registry.insert
    by_cases hrouted : registration.isRouted = true
    · simp [hrouted, Index.holdersOf_link registration.distinct]
    · simp [hrouted]
  have hunlisted (slot : P.Slot) : r.nextId ∉ r.index.holdersOf slot := by
    rw [h.holders, hnew]
    rintro ⟨_, hget, _⟩
    cases hget
  refine ⟨?_, ?_, ?_, ?_⟩
  · intro id g hget
    rw [get?_insert] at hget
    show id < r.nextId + 1
    split at hget
    · rename_i hid
      rw [hid]
      exact Nat.lt_succ_self _
    · exact (h.fresh id g hget).trans (Nat.lt_succ_self _)
  · show Index.Clean (if _ then _ else _)
    split
    · exact h.clean.link
    · exact h.clean
  · intro slot
    rw [hholders]
    split
    · exact List.nodup_append.2 ⟨h.once slot, List.nodup_singleton _, fun a ha b hb => by
        rw [List.mem_singleton] at hb
        intro hab
        exact hunlisted slot (hb ▸ hab ▸ ha)⟩
    · rw [List.append_nil]
      exact h.once slot
  · intro slot id
    rw [hholders, get?_insert, List.mem_append, h.holders]
    by_cases hid : id = r.nextId
    · subst hid
      simp only [if_true, hnew, reduceCtorEq, false_and, exists_false, false_or, Option.some.injEq]
      constructor
      · intro hmem
        split at hmem
        · rename_i hheld
          exact ⟨registration, rfl, hheld⟩
        · cases hmem
      · rintro ⟨g, hg, hheld⟩
        rw [if_pos (by rw [hg]; exact hheld)]
        exact List.mem_singleton_self _
    · simp only [if_neg hid]
      refine or_iff_left fun hmem => ?_
      split at hmem
      · exact hid (List.mem_singleton.1 hmem)
      · cases hmem

/-- Taking the registration at `id` out of the registry and of the index. -/
theorem Sound.removed (h : r.Sound) {g : Registration P} (hget : r.get? id = some g)
    {index : Index P} (hclean : index.Clean)
    (hindex : ∀ slot, index.holdersOf slot =
      if g.isRouted = true ∧ slot ∈ g.slots then (r.index.holdersOf slot).filter (· ≠ id)
      else r.index.holdersOf slot) :
    Sound { r with registrations := r.registrations.remove id, index := index } := by
  have hleft (other : AttachId) (slot : P.Slot) : other ∈ index.holdersOf slot ↔
      other ≠ id ∧ other ∈ r.index.holdersOf slot := by
    rw [hindex]
    split
    · simp [and_comm]
    · rename_i hfree
      refine ⟨fun hmem => ⟨?_, hmem⟩, And.right⟩
      intro hid
      subst hid
      obtain ⟨g', hget', hheld⟩ := (h.holders slot other).1 hmem
      rw [hget] at hget'
      cases hget'
      exact hfree hheld
  have hremaining (other : AttachId) :
      (r.registrations.remove id).get? other = if other = id then none else r.get? other :=
    IndexMap.get?_remove
  refine ⟨?_, hclean, ?_, ?_⟩
  · intro other g' hget'
    have hget' : (r.registrations.remove id).get? other = some g' := hget'
    rw [hremaining] at hget'
    split at hget'
    · cases hget'
    · exact h.fresh other g' hget'
  · intro slot
    show (index.holdersOf slot).Nodup
    rw [hindex]
    split
    · exact (h.once slot).filter _
    · exact h.once slot
  · intro slot other
    show other ∈ index.holdersOf slot ↔
      ∃ g, (r.registrations.remove id).get? other = some g ∧ g.isRouted = true ∧ slot ∈ g.slots
    rw [hleft, h.holders, hremaining]
    by_cases hid : other = id <;> simp [hid]

theorem get?_remove {other : AttachId} :
    (r.remove id).1.get? other = if other = id then none else r.get? other := by
  unfold remove
  cases hget : r.get? id with
  | none =>
    by_cases hid : other = id
    · rw [if_pos hid, hid]
      exact hget
    · rw [if_neg hid]
  | some g =>
    show Registry.get? (if _ then _ else _ : Registry P × List P.Slot).1 other = _
    split <;> exact IndexMap.get?_remove

theorem Sound.remove (h : r.Sound) : (r.remove id).1.Sound := by
  unfold Registry.remove
  cases hget : r.get? id with
  | none => exact h
  | some g =>
    simp only
    by_cases hrouted : g.isRouted = true
    · rw [if_pos hrouted]
      refine h.removed hget h.clean.unlink fun slot => ?_
      rw [Index.holdersOf_unlink]
      simp [hrouted]
    · rw [if_neg hrouted]
      exact h.removed hget h.clean fun slot => by simp [hrouted]

/-- What one operation does to the registrations: none is put under an identifier already handed
    out, none is given other slots, one that waits keeps its deadline, and one that begins to wait
    does so for the grace from one of the instants. -/
structure Follows (instants : List Instant) (r r' : Registry P) : Prop where
  nextId_le : r.nextId ≤ r'.nextId
  kept : ∀ id g', id < r.nextId → r'.get? id = some g' → ∃ g, r.get? id = some g ∧
    g'.slots = g.slots ∧ (∀ deadline, g.until? = some deadline → g'.until? = some deadline) ∧
      (g.until? = none → g'.until? = none ∨
        ∃ at_ ∈ instants, g'.until? = some (at_ + reattachGrace))

variable {instants : List Instant}

theorem Follows.refl : Follows instants r r :=
  ⟨le_rfl, fun _ g _ h => ⟨g, h, rfl, fun _ hd => hd, .inl⟩⟩

theorem Follows.trans {r'' : Registry P} (h : Follows instants r r')
    (h' : Follows instants r' r'') : Follows instants r r'' := by
  refine ⟨h.nextId_le.trans h'.nextId_le, fun id g'' hid hget'' => ?_⟩
  obtain ⟨g', hget', hslots', hwaits', hloses'⟩ := h'.kept id g'' (hid.trans_le h.nextId_le) hget''
  obtain ⟨g, hget, hslots, hwaits, hloses⟩ := h.kept id g' hid hget'
  refine ⟨g, hget, hslots'.trans hslots, fun deadline hd => hwaits' deadline (hwaits deadline hd),
    fun hlive => ?_⟩
  rcases hloses hlive with hlive' | ⟨at_, hat, hlost⟩
  · exact hloses' hlive'
  · exact .inr ⟨at_, hat, hwaits' _ hlost⟩

/-- Removals, and what leaves slots and deadlines as they were. -/
theorem Follows.of_sub (hnext : r.nextId ≤ r'.nextId)
    (h : ∀ id g', id < r.nextId → r'.get? id = some g' → ∃ g, r.get? id = some g ∧
      g'.slots = g.slots ∧ g'.until? = g.until?) : Follows instants r r' := by
  refine ⟨hnext, fun id g' hid hget' => ?_⟩
  obtain ⟨g, hget, hslots, huntil⟩ := h id g' hid hget'
  exact ⟨g, hget, hslots, fun deadline hd => huntil.trans hd,
    fun hlive => .inl (huntil.trans hlive)⟩

theorem nextId_remove : (r.remove id).1.nextId = r.nextId := by
  unfold remove
  split
  · rfl
  · simp only
    split <;> rfl

theorem follows_remove : Follows instants r (r.remove id).1 := by
  refine .of_sub nextId_remove.ge fun other g' _ hget' => ?_
  rw [get?_remove] at hget'
  split at hget'
  · cases hget'
  · exact ⟨g', hget', rfl, rfl⟩

/-- Only an attached registration is detached. -/
theorem removeLive_eq_some {removed : Registry P × List P.Slot}
    (h : r.removeLive id = some removed) :
    removed = r.remove id ∧ ∃ g, r.get? id = some g ∧ g.until? = none := by
  unfold removeLive at h
  split at h
  · rename_i frames hsink
    obtain ⟨g, hget, hlive⟩ := Option.map_eq_some_iff.1 hsink
    refine ⟨(Option.some.inj h).symm, g, hget, ?_⟩
    unfold Registration.until?
    rw [hlive]
    rfl
  · cases h

/-! ### What orphans a slot -/

/-- In a sound registry whose registrations are all routed, the index knows what is held. -/
theorem Sound.holds_iff (h : r.Sound) (hrouted : ∀ id g, r.get? id = some g → g.isRouted = true) :
    r.Holds slot ↔ r.index.holdersOf slot ≠ [] := by
  constructor
  · rintro ⟨id, g, hget, hslot⟩
    exact List.ne_nil_of_mem ((h.holders slot id).2 ⟨g, hget, hrouted id g hget, hslot⟩)
  · intro hheld
    obtain ⟨id, hid⟩ := List.exists_mem_of_ne_nil _ hheld
    obtain ⟨g, hget, -, hslot⟩ := (h.holders slot id).1 hid
    exact ⟨id, g, hget, hslot⟩

/-- A removal names the slots that were held and are no longer. -/
theorem Sound.mem_remove (h : r.Sound)
    (hrouted : ∀ id g, r.get? id = some g → g.isRouted = true) :
    slot ∈ (r.remove id).2 ↔ r.Holds slot ∧ ¬ (r.remove id).1.Holds slot := by
  have hrouted' : ∀ other g, (r.remove id).1.get? other = some g → g.isRouted = true := by
    intro other g hget
    rw [get?_remove] at hget
    split at hget
    · cases hget
    · exact hrouted other g hget
  rw [h.holds_iff hrouted, h.remove.holds_iff hrouted', not_not]
  unfold Registry.remove
  cases hget : r.get? id with
  | none =>
    simp only [List.not_mem_nil, false_iff, not_and]
    exact fun hheld hfree => hheld hfree
  | some g =>
    simp only [hrouted id g hget, if_true]
    exact Index.mem_unlink h.clean

/-! ### Delivery -/

theorem get?_deliver {other : AttachId} {frame : P.Message} : (r.deliver other frame).get? id =
    if id = other then (r.get? id).map (·.deliver frame) else r.get? id := by
  unfold deliver get?
  rw [IndexMap.get?_modify]

/-- The frames routed to `id`, in order. -/
def sentTo (id : AttachId) (frames : List (AttachId × P.Message)) : List P.Message :=
  (frames.filter fun e => e.1 = id).map Prod.snd

theorem sentTo_append (frames frames' : List (AttachId × P.Message)) :
    sentTo id (frames ++ frames') = sentTo id frames ++ sentTo id frames' := by
  simp [sentTo]

/-- What several frames make of a sink. -/
def receive (frames : List P.Message) : Sink P.Message → Sink P.Message
  | .live sent => .live (sent ++ frames)
  | .held kept deadline => .held (kept ++ frames) deadline
  | .lost deadline => .lost deadline

theorem isRouted_receive (frames : List P.Message) (sink : Sink P.Message) :
    (receive frames sink).isRouted = sink.isRouted := by cases sink <;> rfl

theorem until?_receive (frames : List P.Message) (sink : Sink P.Message) :
    (receive frames sink).until? = sink.until? := by cases sink <;> rfl

theorem receive_nil (sink : Sink P.Message) : receive [] sink = sink := by
  cases sink <;> simp [receive]

theorem receive_cons (frame : P.Message) (frames : List P.Message) (sink : Sink P.Message) :
    receive (frame :: frames) sink = receive frames (sink.deliver frame) := by
  cases sink <;> simp [receive, Sink.deliver]

theorem get?_deliverAll (frames : List (AttachId × P.Message)) :
    (r.deliverAll frames).nextId = r.nextId ∧ (r.deliverAll frames).index = r.index ∧
      ∀ id, (r.deliverAll frames).get? id =
        (r.get? id).map fun g => { g with sink := receive (sentTo id frames) g.sink } := by
  unfold deliverAll
  induction frames generalizing r with
  | nil => exact ⟨rfl, rfl, fun id => by simp [sentTo, receive_nil]⟩
  | cons frame frames ih =>
    obtain ⟨hnext, hindex, hget⟩ := ih (r := r.deliver frame.1 frame.2)
    refine ⟨hnext, hindex, fun id => ?_⟩
    rw [List.foldl_cons, hget, get?_deliver]
    by_cases hid : id = frame.1
    · subst hid
      simp [sentTo, Function.comp_def, receive_cons, Registration.deliver]
    · have hne : frame.1 ≠ id := fun h => hid h.symm
      simp [sentTo, hid, hne]

/-! ### The registrations after each operation -/

section Requested

variable [Protocol P] {hash : HashOrder} {request : AttachRequest P}

/-- A re-attach moves a held registration to a fresh identifier, with the frames held for it. -/
theorem reattach_spec (h : r.Sound) (hreattach : r.reattach hash request = some (r', id)) :
    ∃ held g frames deadline, r.get? held = some g ∧ g.sink = .held frames deadline ∧
      g.isRequestedBy request = true ∧ id = r.nextId ∧ r'.nextId = r.nextId + 1 ∧ r'.Sound ∧
      ∀ other, r'.get? other = if other = r.nextId then some { g with sink := .live frames }
        else if other = held then none else r.get? other := by
  unfold reattach at hreattach
  simp only at hreattach
  obtain ⟨e, hfound, hmoved⟩ := Option.bind_eq_some_iff.1 hreattach
  have hget : r.get? e.1 = some e.2 :=
    IndexMap.get?_eq_some_iff.2 (HashOrder.mem_arrange.1 (List.mem_of_find?_eq_some hfound))
  have hrequested := List.find?_some hfound
  split at hmoved
  · rename_i frames deadline hsink
    simp only [hsink] at hrequested
    have hrouted : e.2.isRouted = true := by
      unfold Registration.isRouted
      rw [hsink]
      rfl
    have hremoved : Sound { r with
        registrations := r.registrations.remove e.1
        index := (Index.unlink e.1 r.index e.2.slots).1 } := by
      refine h.removed hget h.clean.unlink fun slot => ?_
      rw [Index.holdersOf_unlink]
      simp [hrouted]
    cases hmoved
    refine ⟨e.1, e.2, frames, deadline, hget, hsink, hrequested, rfl, rfl, hremoved.insert _,
      fun other => ?_⟩
    refine get?_insert.trans (if_congr Iff.rfl rfl ?_)
    exact IndexMap.get?_remove
  · cases hmoved

/-- A registration held for the request's stream is found. -/
theorem isSome_reattach (hash : HashOrder) {g : Registration P} {frames : List P.Message}
    {deadline : Instant} (hget : r.get? id = some g) (hsink : g.sink = .held frames deadline)
    (hrequested : g.isRequestedBy request = true) : (r.reattach hash request).isSome = true := by
  unfold reattach
  simp only
  have hmem : (id, g) ∈ hash.arrange r.registrations.entries :=
    HashOrder.mem_arrange.2 (IndexMap.get?_eq_some_iff.1 hget)
  generalize hfound : List.find? _ (hash.arrange r.registrations.entries) = found
  cases found with
  | none =>
    have hskipped := List.find?_eq_none.1 hfound (id, g) hmem
    simp [hsink, hrequested] at hskipped
  | some e =>
    have hheld := List.find?_some hfound
    cases hkept : e.2.sink with
    | held kept _ => simp [hkept]
    | live frames => simp [hkept] at hheld
    | lost deadline => simp [hkept] at hheld

theorem get?_forgetLost (r : Registry P) (hash : HashOrder) (request : AttachRequest P) :
    ∃ gone : AttachId → Prop, (∀ id, gone id → ∃ g, r.get? id = some g ∧ g.isRouted = false) ∧
      (∀ id, gone id → (r.forgetLost hash request).get? id = none) ∧
      (∀ id, ¬ gone id → (r.forgetLost hash request).get? id = r.get? id) ∧
      (r.forgetLost hash request).nextId = r.nextId ∧
      (r.Sound → (r.forgetLost hash request).Sound) := by
  unfold forgetLost
  simp only
  split
  · exact ⟨fun _ => False, fun _ h => h.elim, fun _ h => h.elim, fun _ _ => rfl, rfl, id⟩
  · rename_i e hfound
    have hget : r.get? e.1 = some e.2 :=
      IndexMap.get?_eq_some_iff.2 (HashOrder.mem_arrange.1 (List.mem_of_find?_eq_some hfound))
    have hlost : e.2.isRouted = false := by
      have := List.find?_some hfound
      simp only [Bool.and_eq_true, Bool.not_eq_true'] at this
      exact this.1
    refine ⟨fun id => id = e.1, ?_, ?_, ?_, rfl, fun h => ?_⟩
    · rintro id rfl
      exact ⟨e.2, hget, hlost⟩
    · rintro id rfl
      exact IndexMap.get?_remove_self
    · intro id hid
      exact IndexMap.get?_remove_of_ne hid
    · exact h.removed hget h.clean fun slot => by simp [hlost]

/-- What a reconnect makes of a lost registration. -/
def heldAgain (g : Registration P) : Registration P :=
  match g.sink with
  | .lost deadline => { g with sink := .held [] deadline, batch := Protocol.reset g.batch }
  | _ => g

theorem get?_holdLost : (r.holdLost hash).get? id = (r.get? id).map heldAgain :=
  IndexMap.get?_mapValues

theorem slots_heldAgain (g : Registration P) : (heldAgain g).slots = g.slots := by
  unfold heldAgain
  split <;> rfl

theorem until?_heldAgain (g : Registration P) : (heldAgain g).until? = g.until? := by
  unfold heldAgain Registration.until?
  split
  · rename_i deadline hsink
    rw [hsink]
    rfl
  · rfl

theorem sink_heldAgain {g : Registration P} (h : g.isRouted = false) :
    ∃ deadline, (heldAgain g).sink = .held [] deadline := by
  unfold heldAgain
  unfold Registration.isRouted Sink.isRouted at h
  cases hsink : g.sink with
  | lost deadline => exact ⟨deadline, rfl⟩
  | live frames => rw [hsink] at h; cases h
  | held frames deadline => rw [hsink] at h; cases h

omit [Protocol P] in
theorem holdersOf_foldl_link (entries : List (AttachId × Registration P)) (ix : Index P) :
    (entries.foldl (fun index e => index.link e.1 e.2.slots) ix).holdersOf slot =
      ix.holdersOf slot ++ (entries.filter fun e => slot ∈ e.2.slots).map Prod.fst := by
  induction entries generalizing ix with
  | nil => simp
  | cons e entries ih =>
    rw [List.foldl_cons, ih, Index.holdersOf_link e.2.distinct]
    by_cases hslot : slot ∈ e.2.slots <;> simp [hslot]

omit [Protocol P] in
theorem clean_foldl_link (entries : List (AttachId × Registration P)) {ix : Index P}
    (h : ix.Clean) : (entries.foldl (fun index e => index.link e.1 e.2.slots) ix).Clean := by
  induction entries generalizing ix with
  | nil => exact h
  | cons e entries ih => exact ih h.link

/-- A reconnect of a connection that lost every registration holds every one of them. -/
theorem Sound.holdLost (h : r.Sound) (hlost : ∀ id g, r.get? id = some g → g.isRouted = false) :
    (r.holdLost hash).Sound := by
  -- The index starts empty, so what the fold links is all there is.
  have hunlisted (slot : P.Slot) : r.index.holdersOf slot = [] := by
    rw [List.eq_nil_iff_forall_not_mem]
    intro id hid
    obtain ⟨g, hget, hrouted, -⟩ := (h.holders slot id).1 hid
    rw [hlost id g hget] at hrouted
    cases hrouted
  have hall : (hash.arrange r.registrations.entries).filter (fun e => !e.2.isRouted) =
      hash.arrange r.registrations.entries := by
    rw [List.filter_eq_self]
    intro e he
    have hget : r.get? e.1 = some e.2 :=
      IndexMap.get?_eq_some_iff.2 (HashOrder.mem_arrange.1 he)
    rw [hlost e.1 e.2 hget]
    rfl
  have hholders (slot : P.Slot) : (r.holdLost hash).index.holdersOf slot =
      ((hash.arrange r.registrations.entries).filter fun e => slot ∈ e.2.slots).map Prod.fst := by
    show Index.holdersOf (List.foldl _ _ _) slot = _
    rw [holdersOf_foldl_link, hunlisted, hall, List.nil_append]
  refine ⟨fun id g' hget' => ?_, ?_, fun slot => ?_, fun slot id => ?_⟩
  · rw [get?_holdLost] at hget'
    obtain ⟨g, hget, -⟩ := Option.map_eq_some_iff.1 hget'
    exact h.fresh id g hget
  · exact clean_foldl_link _ h.clean
  · rw [hholders]
    have hkeys : ((hash.arrange r.registrations.entries).map Prod.fst).Nodup :=
      ((hash.perm _).map Prod.fst).nodup_iff.2 r.registrations.nodup
    exact hkeys.sublist (List.filter_sublist.map Prod.fst)
  · rw [hholders, get?_holdLost]
    constructor
    · intro hid
      obtain ⟨e, he, rfl⟩ := List.mem_map.1 hid
      rw [List.mem_filter, HashOrder.mem_arrange] at he
      have hget : r.get? e.1 = some e.2 := IndexMap.get?_eq_some_iff.2 he.1
      obtain ⟨deadline, hsink⟩ := sink_heldAgain (hlost e.1 e.2 hget)
      refine ⟨heldAgain e.2, by rw [hget]; rfl, ?_, ?_⟩
      · unfold Registration.isRouted
        rw [hsink]
        rfl
      · rw [slots_heldAgain]
        simpa using he.2
    · rintro ⟨g', hget', -, hslot⟩
      obtain ⟨g, hget, rfl⟩ := Option.map_eq_some_iff.1 hget'
      rw [slots_heldAgain] at hslot
      refine List.mem_map.2 ⟨(id, g), List.mem_filter.2 ⟨?_, by simpa using hslot⟩, rfl⟩
      exact HashOrder.mem_arrange.2 (IndexMap.get?_eq_some_iff.1 hget)

end Requested

theorem get?_loseAll {now : Instant} :
    (r.loseAll now).get? id = (r.get? id).map fun g => { g with sink := g.sink.lose now } :=
  IndexMap.get?_mapValues

theorem Sound.loseAll (h : r.Sound) (now : Instant) : (r.loseAll now).Sound := by
  refine ⟨fun id g' hget' => ?_, Index.clean_empty, fun _ => List.nodup_nil, fun slot id => ?_⟩
  · rw [get?_loseAll] at hget'
    obtain ⟨g, hget, -⟩ := Option.map_eq_some_iff.1 hget'
    exact h.fresh id g hget
  · constructor
    · intro hid
      cases hid
    · rintro ⟨g', hget', hrouted, -⟩
      rw [get?_loseAll] at hget'
      obtain ⟨g, -, rfl⟩ := Option.map_eq_some_iff.1 hget'
      cases hrouted

theorem follows_loseAll {now : Instant} (hnow : now ∈ instants) :
    Follows instants r (r.loseAll now) := by
  refine ⟨le_rfl, fun id g' _ hget' => ?_⟩
  rw [get?_loseAll] at hget'
  obtain ⟨g, hget, rfl⟩ := Option.map_eq_some_iff.1 hget'
  refine ⟨g, hget, rfl, fun deadline hd => ?_, fun hlive => .inr ⟨now, hnow, ?_⟩⟩
  · show some (g.sink.until?.getD _) = some deadline
    rw [show g.sink.until? = some deadline from hd]
    rfl
  · show some (g.sink.until?.getD _) = _
    rw [show g.sink.until? = none from hlive]
    rfl

/-! ### Expiry -/

theorem giveUp_eq {acc : Registry P × List P.Slot}
    (h : ∀ g, acc.1.get? id = some g → g.until? ≠ none) :
    giveUp acc id = ((acc.1.remove id).1, acc.2 ++ (acc.1.remove id).2) := by
  unfold giveUp remove
  cases hget : acc.1.get? id with
  | none => simp
  | some g =>
    have hwaits := h g hget
    unfold Registration.until? at hwaits
    cases hsink : g.sink with
    | live frames => rw [hsink] at hwaits; exact absurd rfl hwaits
    | held frames deadline => simp [hsink, Registration.isRouted, Sink.isRouted]
    | lost deadline => simp [hsink, Registration.isRouted, Sink.isRouted]

/-- Several waiting registrations given up on, one after another. -/
theorem foldl_giveUp (ids : List AttachId) (acc : Registry P × List P.Slot)
    (h : ∀ id ∈ ids, ∀ g, acc.1.get? id = some g → g.until? ≠ none) :
    (∀ other, (ids.foldl giveUp acc).1.get? other =
        if other ∈ ids then none else acc.1.get? other) ∧
      (ids.foldl giveUp acc).1.nextId = acc.1.nextId ∧
      (acc.1.Sound → (ids.foldl giveUp acc).1.Sound ∧
        ((∀ id g, acc.1.get? id = some g → g.isRouted = true) → ∀ slot,
          slot ∈ (ids.foldl giveUp acc).2 ↔
            slot ∈ acc.2 ∨ (acc.1.Holds slot ∧ ¬ (ids.foldl giveUp acc).1.Holds slot))) := by
  induction ids generalizing acc with
  | nil => exact ⟨fun _ => rfl, rfl, fun hsound => ⟨hsound, fun _ slot => by simp⟩⟩
  | cons id ids ih =>
    -- Giving up on the first is a removal, and leaves the others as they were, still waiting.
    have hone := giveUp_eq fun g hget => h id (List.mem_cons_self ..) g hget
    have hleft : ∀ other ∈ ids, ∀ g, (giveUp acc id).1.get? other = some g → g.until? ≠ none := by
      intro other hother g hget
      rw [hone] at hget
      have hget : (acc.1.remove id).1.get? other = some g := hget
      rw [get?_remove] at hget
      split at hget
      · cases hget
      · exact h other (List.mem_cons_of_mem _ hother) g hget
    obtain ⟨hget, hnext, hsound⟩ := ih (giveUp acc id) hleft
    rw [List.foldl_cons]
    refine ⟨fun other => ?_, ?_, fun hs => ?_⟩
    · rw [hget, hone]
      show (if other ∈ ids then none else (acc.1.remove id).1.get? other) = _
      rw [get?_remove]
      by_cases hid : other = id <;> simp [hid]
    · rw [hnext, hone]
      show (acc.1.remove id).1.nextId = _
      unfold remove
      split
      · rfl
      · simp only
        split <;> rfl
    · obtain ⟨hsound', horphaned⟩ := hsound (by rw [hone]; exact hs.remove)
      refine ⟨hsound', fun hrouted slot => ?_⟩
      have hrouted' : ∀ other g, (acc.1.remove id).1.get? other = some g → g.isRouted = true := by
        intro other g hget
        rw [get?_remove] at hget
        split at hget
        · cases hget
        · exact hrouted other g hget
      -- A slot freed at any point of the fold stays free: registrations are only taken out.
      have hshrinks : (ids.foldl giveUp (giveUp acc id)).1.Holds slot →
          (acc.1.remove id).1.Holds slot := by
        rintro ⟨other, g, hg, hslot⟩
        rw [hget] at hg
        split at hg
        · cases hg
        · rw [hone] at hg
          exact ⟨other, g, hg, hslot⟩
      have hshrinks' : (acc.1.remove id).1.Holds slot → acc.1.Holds slot := by
        rintro ⟨other, g, hg, hslot⟩
        rw [get?_remove] at hg
        split at hg
        · cases hg
        · exact ⟨other, g, hg, hslot⟩
      rw [horphaned (by rw [hone]; exact hrouted') slot]
      rw [hone] at hshrinks ⊢
      show slot ∈ acc.2 ++ (acc.1.remove id).2 ∨ (acc.1.remove id).1.Holds slot ∧ _ ↔ _
      rw [List.mem_append, hs.mem_remove hrouted]
      tauto

variable {hash : HashOrder} {now : Instant}

/-- Whether a registration is given up on at `now`. -/
def expired (now : Instant) (g : Registration P) : Bool :=
  g.until?.any fun deadline => deadline ≤ now

theorem expire_spec (r : Registry P) (hash : HashOrder) (now : Instant) :
    (∀ id, (r.expire hash now).1.get? id =
      (r.get? id).filter fun g => !expired now g) ∧
    (r.expire hash now).1.nextId = r.nextId ∧
    (r.Sound → (r.expire hash now).1.Sound ∧
      ((∀ id g, r.get? id = some g → g.isRouted = true) → ∀ slot,
        slot ∈ (r.expire hash now).2 ↔ r.Holds slot ∧ ¬ (r.expire hash now).1.Holds slot)) := by
  have hmem (id : AttachId) : id ∈ ((hash.arrange r.registrations.entries).filter fun e =>
      expired now e.2).map Prod.fst ↔ ∃ g, r.get? id = some g ∧ expired now g = true := by
    constructor
    · intro hid
      obtain ⟨e, he, rfl⟩ := List.mem_map.1 hid
      rw [List.mem_filter, HashOrder.mem_arrange] at he
      exact ⟨e.2, IndexMap.get?_eq_some_iff.2 he.1, he.2⟩
    · rintro ⟨g, hget, hexpired⟩
      refine List.mem_map.2 ⟨(id, g), List.mem_filter.2 ⟨?_, hexpired⟩, rfl⟩
      exact HashOrder.mem_arrange.2 (IndexMap.get?_eq_some_iff.1 hget)
  obtain ⟨hget, hnext, hsound⟩ := foldl_giveUp
    (((hash.arrange r.registrations.entries).filter fun e => expired now e.2).map Prod.fst) (r, [])
    (by
      intro id hid g hg hlive
      obtain ⟨g', hget, hexpired⟩ := (hmem id).1 hid
      rw [show r.get? id = some g from hg] at hget
      cases hget
      unfold expired at hexpired
      rw [hlive] at hexpired
      cases hexpired)
  refine ⟨fun id => ?_, hnext, fun hs => ⟨(hsound hs).1, fun hrouted slot => ?_⟩⟩
  · refine (hget id).trans ?_
    show (if id ∈ _ then none else r.get? id) = _
    by_cases hid : id ∈ ((hash.arrange r.registrations.entries).filter fun e =>
        expired now e.2).map Prod.fst
    · obtain ⟨g, hg, hexpired⟩ := (hmem id).1 hid
      rw [if_pos hid, hg]
      rw [Option.filter_some, hexpired]
      rfl
    · rw [if_neg hid]
      cases hg : r.get? id with
      | none => rfl
      | some g =>
        have hexpired : expired now g = false := by
          rw [Bool.eq_false_iff]
          exact fun h => hid ((hmem id).2 ⟨g, hg, h⟩)
        rw [Option.filter_some, hexpired]
        rfl
  · refine ((hsound hs).2 hrouted slot).trans ?_
    simp only [List.not_mem_nil, false_or]
    exact Iff.rfl

end Registry

end Rustrade.Shared
