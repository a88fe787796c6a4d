import Mathlib.Data.Finset.Basic
import Mathlib.Data.Finset.SDiff
import Rustrade.Shared.Registry

/-!
# The task that owns a shared socket

The task takes one event at a time: an attach, a detach, a frame, an expiry, a ping that is due. An
attach or a release talks on the socket: it sends messages and reads until the provider's answers
settle it, routing every other frame meanwhile. What the socket does is the event's: how each send
ends, what arrives before the deadline, and when the socket is found to be lost.

`Socket.routed` and `Actor.released` are what the task has done, for what is said of runs: the
frames routed since the socket was opened, and the slots of each unsubscribe, with the registry as
it was sent. Nothing reads them.
-/

set_option autoImplicit false

namespace Rustrade.Shared

/-- What one read of the socket comes to. -/
inductive Arrival (Message : Type) where
  | frame (message : Message)
  /-- An error, or the end of the socket. -/
  | lost (cause : String)

/-- What the socket does while a request is sent and its answers are awaited. -/
structure Talk (Message : Type) where
  /-- How each send ends: why it failed, if it did. -/
  sends : List (Option String)
  /-- What arrives before the deadline. -/
  arrivals : List (Arrival Message)
  /-- When the socket is found to be lost, if it is. -/
  at_ : Instant

/-- Where a pinged socket is in its keepalive. -/
structure Keepalive where
  interval : ℤ
  next : Instant
  /-- A ping went out with nothing read since. -/
  unanswered : Bool

/-- The socket, what authentication reported about it, and what is subscribed on it. -/
structure Socket (P : Provider) where
  session : P.Session
  /-- The slots subscribed on this socket and confirmed. -/
  subscribed : Finset P.Slot
  keepalive : Option Keepalive
  routed : List (AttachId × P.Message)

/-- Anything read shows the socket alive. -/
def Socket.hear {P : Provider} (frames : List (AttachId × P.Message)) (self : Socket P) :
    Socket P :=
  { self with
    keepalive := self.keepalive.map fun keepalive => { keepalive with unanswered := false }
    routed := self.routed ++ frames }

structure Actor (P : Provider) where
  socket : Option (Socket P)
  /-- The endpoint every registration was attached through. -/
  endpoint : Option String
  registry : Registry P
  released : List (List P.Slot × Registry P)

/-- What reading one frame amounted to. -/
inductive Read (P : Provider) where
  | done (answers : List (Except SocketError P.Answer))
  | lost (cause : String)

/-- Why a handshake did not settle. -/
inductive Refusal where
  /-- The provider answered with a refusal. -/
  | refused (error : SocketError)
  /-- No answer: a timeout, a failed send or a lost socket. -/
  | failed (error : SocketError)

/-- One stream's view of the connection: its registration, and what it is handed. -/
structure Attachment (P : Provider) where
  id : AttachId
  attached : P.Attached

namespace Actor

variable {P : Provider}

def new : Actor P := ⟨none, none, .empty, []⟩

/-- The socket is gone: every registration waits for a reconnect. -/
def lose (self : Actor P) (now : Instant) : Actor P :=
  { self with socket := none, registry := self.registry.loseAll now }

/-- Close the socket deliberately. -/
def close (self : Actor P) : Actor P := { self with socket := none }

/-- Close the socket, and leave every registration waiting for a reconnect. -/
def disconnect (self : Actor P) (now : Instant) : Actor P :=
  { self.close with registry := self.registry.loseAll now }

section Protocol

variable [Protocol P]

def notOpen (P : Provider) [Protocol P] : SocketError :=
  .subscribe (Protocol.name P ++ " connection is not open")

/-- Send one message. A failed send loses the socket. -/
def send (self : Actor P) (now : Instant) (failure : Option String) :
    Actor P × Except Refusal Unit :=
  match self.socket with
  | none => (self, .error (.failed (notOpen P)))
  | some _ =>
      match failure with
      | none => (self, .ok ())
      | some cause => (self.lose now, .error (.failed (.webSocket cause)))

/-- Send messages until one fails. -/
def sendAll (now : Instant) : Actor P → List P.Message → List (Option String) →
    Actor P × Except Refusal Unit
  | self, [], _ => (self, .ok ())
  | self, _ :: messages, sends =>
      let sent := self.send now sends.head?.join
      match sent.2 with
      | .ok () => sendAll now sent.1 messages sends.tail
      | .error refusal => (sent.1, .error refusal)

/-- Classify one read, routing whatever it carries for the streams. -/
def read (self : Actor P) (now : Instant) (arrival : Arrival P.Message) : Actor P × Read P :=
  match arrival with
  | .lost cause => (self.lose now, .lost cause)
  | .frame message =>
      let carried := Protocol.read self.registry message
      let self := { self with
        socket := self.socket.map (Socket.hear carried.1)
        registry := self.registry.deliverAll carried.1 }
      match carried.2 with
      | .answers answers => (self, .done answers)
      | .closed cause => (self.lose now, .lost cause)

/-- The error a handshake that did not settle fails with, naming what it had not confirmed. -/
def unsettled (handshake : P.Handshake) (reason : String) : SocketError :=
  match Protocol.unconfirmed handshake with
  | some unacknowledged => .unacknowledged reason unacknowledged
  | none => .subscribe reason

/-- Every confirmation of one frame observed, and the last refusal in it. -/
def observeAll (handshake : P.Handshake) (answers : List (Except SocketError P.Answer)) :
    P.Handshake × Option SocketError :=
  answers.foldl (fun acc answer =>
    match answer with
    | .ok answer => (Protocol.observe acc.1 answer, acc.2)
    | .error error => (acc.1, some error)) (handshake, none)

/-- Read until the handshake settles, routing everything else as usual. -/
def await (now : Instant) (timeout : ℤ) : Actor P → P.Handshake → List (Arrival P.Message) →
    Actor P × Except Refusal Unit
  | self, handshake, [] =>
      (self, .error (.failed (unsettled handshake (Protocol.timedOut handshake timeout))))
  | self, handshake, arrival :: arrivals =>
      let read := self.read now arrival
      match read.2 with
      | .done answers =>
          let observed := observeAll handshake answers
          match observed.2 with
          | some error => (read.1, .error (.refused (Protocol.refusal observed.1 error)))
          | none =>
              if Protocol.isSettled observed.1 then (read.1, .ok ())
              else await now timeout read.1 observed.1 arrivals
      | .lost cause =>
          (read.1, .error (.failed (unsettled handshake
            (Protocol.name P ++ " connection lost while subscribing: " ++ cause))))

def handshake (self : Actor P) (talk : Talk P.Message) (timeout : ℤ) (handshake : P.Handshake) :
    Actor P × Except Refusal Unit :=
  if Protocol.isSettled handshake then (self, .ok ())
  else self.await talk.at_ timeout handshake talk.arrivals

/-- How long a release waits for the provider to confirm an unsubscribe: ten seconds. -/
def releaseTimeout : ℤ := 10000000000

/-- Send what releases the slots, and wait for the answer where the provider confirms one. -/
def unsubscribe (self : Actor P) (slots : List P.Slot) (talk : Talk P.Message) : Actor P :=
  let releasing := Protocol.release slots
  let sent := self.sendAll talk.at_ releasing.1 talk.sends
  match sent.2 with
  | .error _ => sent.1
  | .ok () =>
      match releasing.2 with
      | none => sent.1
      | some handshake => (sent.1.handshake talk releaseTimeout handshake).1

/-- Unsubscribe `slots`, which nothing holds any longer, or close the socket if nothing at all
    remains attached. -/
def release (self : Actor P) (slots : List P.Slot) (talk : Talk P.Message) : Actor P :=
  if self.registry.isEmpty then self.close
  else
    match self.socket with
    | none => self
    | some socket =>
        if slots.isEmpty then self
        else
          Actor.unsubscribe { self with
            socket := some { socket with subscribed := socket.subscribed \ slots.toFinset }
            released := self.released ++ [(slots, self.registry)] } slots talk

/-- A new socket, with nothing subscribed on it. -/
def connect (self : Actor P) (now : Instant) (url : String) (session : P.Session) : Actor P :=
  { self with
    endpoint := some url
    socket := some
      { session := session
        subscribed := ∅
        keepalive := (Protocol.keepalive P).map fun interval => ⟨interval, now + interval, false⟩
        routed := [] } }

def attachment (self : Actor P) (id : AttachId) : Attachment P :=
  ⟨id, ((self.registry.get? id).map fun g => Protocol.attached g.batch).getD Protocol.unattached⟩

/-- What the socket does not hold yet: of the request, and of every registration on a fresh one. -/
def sending (hash : HashOrder) (self : Actor P) (socket : Socket P) (request : AttachRequest P)
    (fresh : Bool) : List P.Slot :=
  ((request.slots ++ if fresh then self.registry.slots hash else []).filter fun slot =>
    slot ∉ socket.subscribed).eraseDups

/-- The request registered, with what the subscribe keeps in the batches. -/
def registered (self : Actor P) (request : AttachRequest P)
    (batches : AttachId → P.Batch → P.Batch) : Actor P :=
  { self with registry := (self.registry.insertLive request).1.updateBatches batches }

/-- The slots confirmed on the socket, if it is still there. -/
def confirm (self : Actor P) (slots : List P.Slot) : Actor P :=
  { self with
    socket := self.socket.map fun socket =>
      { socket with subscribed := socket.subscribed ∪ slots.toFinset } }

/-- The registration of an attach that failed taken out, with the slots nothing holds any longer. -/
def withdraw (self : Actor P) (id : AttachId) : Actor P × List P.Slot :=
  let removed := self.registry.remove id
  ({ self with registry := removed.1 }, removed.2)

/-- Send what subscribes, and wait for the answers. -/
def ask (self : Actor P) (talk : Talk P.Message) (timeout : ℤ) (subscribing : Subscribing P) :
    Actor P × Except Refusal Unit :=
  let sent := self.sendAll talk.at_ subscribing.messages talk.sends
  match sent.2 with
  | .ok () => sent.1.handshake talk timeout subscribing.handshake
  | .error refusal => (sent.1, .error refusal)

/-- Check the request, register it, and subscribe whatever the socket does not hold yet. -/
def subscribe (hash : HashOrder) (self : Actor P) (request : AttachRequest P) (fresh : Bool)
    (talk releasing : Talk P.Message) : Actor P × Except SocketError (Attachment P) :=
  match self.socket with
  | none => (self, .error (notOpen P))
  | some socket =>
      match Protocol.check request socket.session self.registry with
      | .error error => (self, .error error)
      | .ok () =>
          let sending := self.sending hash socket request fresh
          let inserted := self.registry.insertLive request
          let subscribing := Protocol.subscribe inserted.1 inserted.2 sending
          let asked := (self.registered request subscribing.batches).ask talk request.timeout
            subscribing
          match asked.2 with
          | .ok () =>
              let confirmed := asked.1.confirm sending
              (confirmed, .ok (confirmed.attachment inserted.2))
          | .error refusal =>
              let withdrawn := asked.1.withdraw inserted.2
              match refusal with
              | .refused error =>
                  -- A refusal that added nothing leaves nothing to unsubscribe.
                  let orphaned := if Protocol.refusalIsAtomic P then [] else withdrawn.2
                  (if fresh then withdrawn.1 else withdrawn.1.release orphaned releasing,
                    .error (Protocol.refused P error))
              | .failed error =>
                  (if fresh then withdrawn.1 else withdrawn.1.release withdrawn.2 releasing,
                    .error error)

/-- How a connect ends. -/
abbrev Connected (P : Provider) := Except SocketError P.Session

/-- What the outside does while an attach is served. -/
structure Serving (P : Provider) where
  connected : Connected P
  talk : Talk P.Message
  releasing : Talk P.Message
  at_ : Instant

def attach (hash : HashOrder) (self : Actor P) (request : AttachRequest P) (serving : Serving P) :
    Actor P × Except SocketError (Attachment P) :=
  if self.endpoint.any (· ≠ request.url) && !self.registry.isEmpty then
    (self, .error (.subscribe (request.exchange.val ++ " is served from " ++ request.url ++
      ", but this " ++ Protocol.name P ++ " connection is open to " ++ self.endpoint.getD "" ++
      " - streams sharing a connection must share an endpoint")))
  else
    match self.socket with
    | some _ =>
        match self.registry.reattach hash request with
        | some reattached =>
            let self := { self with registry := reattached.1 }
            (self, .ok (self.attachment reattached.2))
        | none => self.subscribe hash request false serving.talk serving.releasing
    | none =>
        let self := { self with registry := self.registry.forgetLost hash request }
        match serving.connected with
        | .error error => (self, .error error)
        | .ok session =>
            let self := self.connect serving.at_ request.url session
            let self := { self with registry := self.registry.holdLost hash }
            let attached := self.subscribe hash request true serving.talk serving.releasing
            -- A reconnect that did not complete leaves nothing trustworthy on the socket.
            match attached.2 with
            | .error error => (attached.1.disconnect serving.at_, .error error)
            | .ok attachment => (attached.1, .ok attachment)

def detach (self : Actor P) (id : AttachId) (talk : Talk P.Message) : Actor P :=
  match self.registry.removeLive id with
  | none => self
  | some removed => { self with registry := removed.1 }.release removed.2 talk

def expire (hash : HashOrder) (self : Actor P) (now : Instant) (talk : Talk P.Message) : Actor P :=
  let expired := self.registry.expire hash now
  { self with registry := expired.1 }.release expired.2 talk

/-- Ping the provider, or lose the socket if it delivered nothing since the last ping. -/
def keepalive (self : Actor P) (now : Instant) (failure : Option String) : Actor P :=
  match self.socket with
  | none => self
  | some socket =>
      match socket.keepalive with
      | none => self
      | some keepalive =>
          if keepalive.unanswered then self.lose now
          else
            let pinged := { self with
              socket := some { socket with
                keepalive := some { keepalive with
                  unanswered := true, next := now + keepalive.interval } } }
            (pinged.send now failure).1

/-- What the task is woken by. -/
inductive Event (P : Provider) where
  | attach (request : AttachRequest P) (serving : Serving P)
  | detach (id : AttachId) (talk : Talk P.Message)
  | frame (arrival : Arrival P.Message) (now : Instant)
  | expiry (now : Instant) (talk : Talk P.Message)
  | keepalive (now : Instant) (failure : Option String)

/-- Take one event. A frame is read from a socket, so none arrives without one. -/
def step (hash : HashOrder) (self : Actor P) : Event P → Actor P
  | .attach request serving => (self.attach hash request serving).1
  | .detach id talk => self.detach id talk
  | .frame arrival now => if self.socket.isSome then (self.read now arrival).1 else self
  | .expiry now talk => self.expire hash now talk
  | .keepalive now failure => self.keepalive now failure

end Protocol

end Actor

end Rustrade.Shared
