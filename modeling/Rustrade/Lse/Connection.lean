import Mathlib.Data.List.MinMax
import Rustrade.Lse.Resume

/-!
# The shared London Strategic Edge connection

One socket serves every stream that holds the symbol. A stream attaches: it takes over the
registration held for it since the last reconnect, or joins, or opens the socket again for every
registration that was lost with the last one. A subscribe opens the symbol's one replay window at
the earliest watermark among the streams holding it (`planStarts`). A replayed frame goes only to
the streams a window was opened for.

The provider is the tape: the ticks published so far, replayed from the first one no earlier than
`start`, and then live without gap or overlap. An event that cannot happen in a state leaves it
unchanged.
-/

set_option autoImplicit false

namespace Rustrade.Lse

/-- A tick as it is sent: its place in the tape, and whether it is stamped a replay. -/
structure LseFrame where
  position : ℕ
  replay : Bool
  deriving DecidableEq, Repr

/-- Where a registration's frames go: to its stream, to be kept until the stream re-attaches, or
nowhere since the socket is lost. -/
inductive Sink where
  | live
  | held (frames : List LseFrame)
  | lost
  deriving DecidableEq, Repr

structure Registration where
  /-- The replay window opened on its behalf on the current socket. -/
  start : Option DateTime
  sink : Sink
  deriving DecidableEq, Repr

def Registration.isRouted (registration : Registration) : Bool := registration.sink ≠ .lost

/-- A stream's view of the connection: the frames it has yet to read, and whether they are the
last. -/
structure LseAttachment where
  frames : List LseFrame
  ended : Bool
  transformer : LseTransformer
  deriving DecidableEq, Repr

/-- The symbol's subscription on a socket: the next tick to be sent, and the first live one. -/
structure Subscription where
  next : ℕ
  live : ℕ
  deriving DecidableEq, Repr

/-- The connection, the streams that ever attached to it, and what each has emitted. -/
structure Connection (Key : Type) where
  published : ℕ
  /-- The socket, if one is open, and the symbol's subscription on it. -/
  socket : Option (Option Subscription)
  registrations : Key → Option Registration
  attachments : Key → Option LseAttachment
  streams : List Key
  marks : LseResumeState Key
  emitted : Key → List ℕ

inductive ConnectionEvent (Key : Type) where
  /-- The market trades: one more tick is published. -/
  | publish
  | attach (key : Key)
  /-- A stream that does not hold the symbol opens the socket. -/
  | attachOther
  /-- The socket sends its next frame of the symbol. -/
  | deliver
  /-- A stream takes its next frame. -/
  | consume (key : Key)
  | lose
  /-- The grace of a registration that has not been re-attached to is over. -/
  | expire (key : Key)
  /-- A stream is dropped by its owner. -/
  | detach (key : Key)
  deriving DecidableEq

namespace Connection

variable {Key : Type} [DecidableEq Key]

def init : Connection Key where
  published := 0
  socket := none
  registrations := fun _ => none
  attachments := fun _ => none
  streams := []
  marks := fun _ => none
  emitted := fun _ => []

/-- The streams whose registrations are routed the symbol's frames. -/
def holders (self : Connection Key) : List Key :=
  self.streams.filter fun key => (self.registrations key).any Registration.isRouted

section

variable (tape : ℕ → DateTime) (resumes : Key → Bool)

/-- The first tick of the tape a replay from `start` sends. -/
def replayFrom (start : DateTime) (published : ℕ) : ℕ :=
  (List.range published).findIdx fun position => start ≤ tape position

/-- The instant the stream last delivered the symbol at, if it resumes and has. -/
def watermark (self : Connection Key) (key : Key) : Option DateTime :=
  if resumes key then (self.marks key).map LseWatermark.timeExchange else none

/-- The window to open: at the earliest watermark of a holder, recorded on each that has one. -/
def planStarts (self : Connection Key) : Connection Key × Option DateTime :=
  match (self.holders.filterMap (self.watermark resumes)).min? with
  | none => (self, none)
  | some start =>
    ({ self with
        registrations := fun key =>
          (self.registrations key).map fun registration =>
            if registration.isRouted && (self.watermark resumes key).isSome then
              { registration with start := some start }
            else registration },
      some start)

/-- The symbol subscribed on the open socket. -/
def subscribe (self : Connection Key) : Connection Key :=
  let (self, start) := self.planStarts resumes
  let next := (start.map fun start => replayFrom tape start self.published).getD self.published
  { self with socket := some (some ⟨next, self.published⟩) }

/-- Every lost registration is routed again: its frames are kept until its stream re-attaches. -/
def holdLost (self : Connection Key) : Connection Key :=
  { self with
    registrations := fun key =>
      (self.registrations key).map fun registration =>
        if registration.sink = .lost then ⟨none, .held []⟩ else registration }

/-- The stream's attachment, with the frames already kept for it. -/
def handOver (self : Connection Key) (key : Key) (frames : List LseFrame) : Connection Key :=
  let start := (self.registrations key).bind Registration.start
  { self with
    attachments := Function.update self.attachments key
      (some ⟨frames, false, .tracker self.marks key (resumes key) start⟩) }

def insertLive (self : Connection Key) (key : Key) : Connection Key :=
  { self with
    registrations := Function.update self.registrations key (some ⟨none, .live⟩)
    streams := if key ∈ self.streams then self.streams else key :: self.streams }

/-- A stream that is not attached, or has read all of an attachment that ended. -/
def mayAttach (self : Connection Key) (key : Key) : Bool :=
  match self.attachments key with
  | none => true
  | some attachment => attachment.ended && attachment.frames.isEmpty

def attach (self : Connection Key) (key : Key) : Connection Key :=
  match self.socket with
  | some subscription =>
    match self.registrations key with
    | some ⟨start, .held frames⟩ =>
      let self :=
        { self with registrations := Function.update self.registrations key (some ⟨start, .live⟩) }
      self.handOver resumes key frames
    | _ =>
      let self := self.insertLive key
      -- A symbol the socket already holds is not sent again, and nothing is replayed for it.
      let self := if subscription.isSome then self else self.subscribe tape resumes
      self.handOver resumes key []
  | none =>
    -- The registration the stream lost is forgotten, every other one is held again.
    let self :=
      { self with
        registrations := Function.update self.registrations key none
        socket := some none }.holdLost
    let self := (self.insertLive key).subscribe tape resumes
    self.handOver resumes key []

def attachOther (self : Connection Key) : Connection Key :=
  match self.socket with
  | some _ => self
  | none =>
    let self := { self with socket := some none }.holdLost
    if self.holders.isEmpty then self else self.subscribe tape resumes

/-- A frame is accepted unless it is a replayed one and no window was opened. -/
def accepts (registration : Registration) (frame : LseFrame) : Bool :=
  !frame.replay || registration.start.isSome

def route (self : Connection Key) (frame : LseFrame) : Connection Key :=
  { self with
    registrations := fun key =>
      (self.registrations key).map fun registration =>
        match registration.sink with
        | .held frames =>
          if accepts registration frame then
            { registration with sink := .held (frames ++ [frame]) }
          else registration
        | _ => registration
    attachments := fun key =>
      match self.registrations key with
      | some registration =>
        if registration.sink = .live && accepts registration frame then
          (self.attachments key).map fun attachment =>
            { attachment with frames := attachment.frames ++ [frame] }
        else self.attachments key
      | none => self.attachments key }

def deliver (self : Connection Key) : Connection Key :=
  match self.socket with
  | some (some subscription) =>
    if subscription.next < self.published then
      { self.route ⟨subscription.next, subscription.next < subscription.live⟩ with
        socket := some (some { subscription with next := subscription.next + 1 }) }
    else self
  | _ => self

def consume (self : Connection Key) (key : Key) : Connection Key :=
  match self.attachments key with
  | some ⟨frame :: frames, ended, transformer⟩ =>
    let (transformer, marks, emits) :=
      transformer.transform self.marks key (tape frame.position)
    { self with
      attachments := Function.update self.attachments key (some ⟨frames, ended, transformer⟩)
      marks := marks
      emitted :=
        if emits then
          Function.update self.emitted key (self.emitted key ++ [frame.position])
        else self.emitted }
  | _ => self

/-- The socket is lost: every stream's frames end with those it already has. -/
def lose (self : Connection Key) : Connection Key :=
  { self with
    socket := none
    registrations := fun key =>
      (self.registrations key).map fun registration => { registration with sink := .lost }
    attachments := fun key =>
      (self.attachments key).map fun attachment => { attachment with ended := true } }

/-- A registration gone, and the symbol released if no stream holds it any longer. -/
def remove (self : Connection Key) (key : Key) : Connection Key :=
  let self := { self with registrations := Function.update self.registrations key none }
  if self.holders.isEmpty then { self with socket := self.socket.map fun _ => none } else self

def expire (self : Connection Key) (key : Key) : Connection Key :=
  match self.registrations key with
  | some ⟨_, .held _⟩ | some ⟨_, .lost⟩ => self.remove key
  | _ => self

def detach (self : Connection Key) (key : Key) : Connection Key :=
  let self := { self with attachments := Function.update self.attachments key none }
  match self.registrations key with
  | some ⟨_, .live⟩ => self.remove key
  | _ => self

def step (self : Connection Key) : ConnectionEvent Key → Connection Key
  | .publish => { self with published := self.published + 1 }
  | .attach key => if self.mayAttach key then self.attach tape resumes key else self
  | .attachOther => self.attachOther tape resumes
  | .deliver => self.deliver
  | .consume key => self.consume tape key
  | .lose => self.lose
  | .expire key => self.expire key
  | .detach key => self.detach key

end

end Connection

end Rustrade.Lse
