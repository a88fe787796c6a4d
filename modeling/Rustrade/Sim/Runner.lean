import Rustrade.Sim.Core

/-!
# The simulation runner

`SimRunner::poll_next` as a step function: a step is one turn of its loop, or the return of a
seeding event. An event returned is shown to the engine before the next turn, as it is when the
engine polls the runner inline. The source is any stream in order of time; it may have no end.
-/

set_option autoImplicit false

namespace Rustrade.Sim

open Mock

/-- A source in order of time: its events, until it ends. -/
structure Source (Event : Type) where
  next : ℕ → Option (Timed Event)
  ends : ∀ index, next index = none → next (index + 1) = none
  ascending : ∀ {index event event'}, next index = some event → next (index + 1) = some event' →
    event.time ≤ event'.time

/-- A source that was read whole. -/
def Source.ofList {Event : Type} (events : List (Timed Event))
    (h : events.Pairwise fun event event' => event.time ≤ event'.time) : Source Event where
  next index := events[index]?
  ends index hnone := by
    rw [List.getElem?_eq_none_iff] at hnone ⊢
    omega
  ascending {index event event'} hevent hevent' := by
    obtain ⟨hlt, rfl⟩ := List.getElem?_eq_some_iff.1 hevent
    obtain ⟨hlt', rfl⟩ := List.getElem?_eq_some_iff.1 hevent'
    exact List.pairwise_iff_getElem.1 h index (index + 1) hlt hlt' (Nat.lt_succ_self index)

structure SimRunner (MarketKind Other : Type) [VenueMarketUpdate MarketKind] where
  core : SimCore MarketKind Other
  /-- How many events of the source were drawn. -/
  drawn : ℕ
  sourceDone : Bool
  drainSignalled : Bool
  terminated : Bool
  /-- The venue and instant a run was abandoned at by the feedback limit. -/
  error : Option (ExchangeIndex × DateTime)

namespace SimRunner

variable {MarketKind Other : Type} [VenueMarketUpdate MarketKind]

def new (core : SimCore MarketKind Other) : SimRunner MarketKind Other :=
  ⟨core, 0, false, false, false, none⟩

variable (self : SimRunner MarketKind Other) (engine : Engine MarketKind Other)

/-- The event is returned, and the engine takes it. -/
def ready (event : Shown MarketKind Other) : SimRunner MarketKind Other :=
  { self with core := self.core.showTo engine event }

variable [DateTimeRange] [Build] [RandomStream] [DecimalScale]

/-- The queue leads: its earliest entry is popped, unless the feedback limit refuses it. -/
def queueLeads : Except SimFault (SimRunner MarketKind Other) :=
  match self.core.checkFeedback with
  | some next =>
    .ok { self with
      core := (self.core.record (.refused next)).abandon
      error := some (next.exchange, next.time)
      terminated := true }
  | none => do
    let (core, step) ← self.core.pop
    match step with
    | .emitted event => return { self with core }.ready engine event
    | .acted | .woken => return { self with core }
    | .empty => do
      let (core, scheduled) ← core.expireHeld
      if scheduled then return { self with core } else return { self with core, terminated := true }

/-- The source's next event is drawn. -/
def draw (timed : Timed (SourceEvent MarketKind Other)) :
    Except SimFault (SimRunner MarketKind Other) := do
  let (core, event) ← (self.core.record (.drew timed)).routeSource timed.time timed.value
  let self := { self with core, drawn := self.drawn + 1 }
  match event with
  | some event => return self.ready engine (.source event)
  | none => return self

/-- What a turn of the loop does once the requests are drained. -/
def turn (source : Source (SourceEvent MarketKind Other)) :
    Except SimFault (SimRunner MarketKind Other) :=
  match self.core.takeDeferred with
  | some (core, event) => .ok ({ self with core }.ready engine (.source event))
  | none =>
    if self.core.deferred.isSome then self.queueLeads engine
    else if self.sourceDone then
      if self.drainSignalled then self.queueLeads engine
      else
        .ok ({ self with
          core := { self.core with sinceSource := 0 }
          drainSignalled := true }.ready engine .shutdownAfterDrain)
    else match source.next self.drawn with
      | none =>
        .ok { self with
          core := { self.core with wakeups := self.core.wakeups.stop }
          sourceDone := true }
      | some timed =>
        if self.core.leads (timed.time, sourceClass timed.value) then self.queueLeads engine
        else self.draw engine timed

def step (source : Source (SourceEvent MarketKind Other)) :
    Except SimFault (SimRunner MarketKind Other) :=
  if self.terminated then .ok self
  else match self.core.seeding with
  | (exchange, snapshot) :: seeding =>
    .ok ({ self with core := { self.core with seeding } }.ready engine (.seeding exchange snapshot))
  | [] => do
    let (core, drain) ← self.core.drainRequests
    let self := { self with core }
    match drain with
    | .abandon =>
      return { self with core := (core.record .abandoned).abandon, terminated := true }
    | .continue => self.turn engine source

/-- The runner after so many steps. -/
def steps (source : Source (SourceEvent MarketKind Other)) :
    ℕ → Except SimFault (SimRunner MarketKind Other)
  | 0 => .ok self
  | count + 1 => do
    let self ← steps source count
    self.step engine source

end SimRunner

end Rustrade.Sim
