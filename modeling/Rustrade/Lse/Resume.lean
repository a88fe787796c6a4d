import Mathlib.Logic.Function.Basic
import Rustrade.Decimal

/-!
# Resuming a London Strategic Edge stream

What survives a reconnect is a watermark for each stream and symbol: the newest instant emitted
and how many events emitted carry exactly it. A resumed stream is replayed from an instant no later
than its watermark's, and skips what it had already emitted: silently before the watermark's
instant, by position inside it.

The model is of one symbol's share of the connection. `Key` names the dataset and the kind of a
stream, which with the symbol is what a watermark is filed under; a batch's other symbols have
watermarks, windows and frames of their own. What is only logged is left out.
-/

set_option autoImplicit false

namespace Rustrade.Lse

structure LseWatermark where
  timeExchange : DateTime
  countAtTime : ℕ
  deriving DecidableEq, Repr

/-- The watermarks of one symbol, by stream. -/
abbrev LseResumeState (Key : Type) := Key → Option LseWatermark

namespace LseResumeState

variable {Key : Type} [DecidableEq Key]

/-- A watermark once an event bearing `timeExchange` was emitted. An older instant is ignored. -/
def advance (timeExchange : DateTime) : Option LseWatermark → LseWatermark
  | some mark =>
    if mark.timeExchange < timeExchange then ⟨timeExchange, 1⟩
    else if timeExchange = mark.timeExchange then { mark with countAtTime := mark.countAtTime + 1 }
    else mark
  | none => ⟨timeExchange, 1⟩

def record (state : LseResumeState Key) (key : Key) (timeExchange : DateTime) :
    LseResumeState Key :=
  Function.update state key (some (advance timeExchange (state key)))

end LseResumeState

/-- What a stream still has to skip of a replay. -/
structure PendingDrop where
  timeExchange : DateTime
  remaining : ℕ
  openedEarlier : Bool
  passed : Bool
  deriving DecidableEq, Repr

namespace PendingDrop

def new (watermark : LseWatermark) (start : DateTime) : PendingDrop where
  timeExchange := watermark.timeExchange
  remaining := watermark.countAtTime
  openedEarlier := start < watermark.timeExchange
  passed := false

/-- Whether an event was already delivered by the connection this one replaced. -/
def shouldDrop (pending : PendingDrop) (timeExchange : DateTime) : PendingDrop × Bool :=
  if timeExchange = pending.timeExchange then
    if 0 < pending.remaining then ({ pending with remaining := pending.remaining - 1 }, true)
    else (pending, false)
  else if pending.timeExchange < timeExchange then
    ({ pending with remaining := 0, passed := true }, false)
  else (pending, pending.openedEarlier && !pending.passed)

end PendingDrop

/-- A stream's transformer: `resume` is absent unless the stream resumes, and names what is pending
only where a replay window was opened for it. -/
structure LseTransformer where
  resume : Option (Option PendingDrop)
  deriving DecidableEq, Repr

namespace LseTransformer

variable {Key : Type} [DecidableEq Key]

/-- `attached`: the tracker built from the window opened for the stream and the watermark it has
by now. -/
def tracker (state : LseResumeState Key) (key : Key) (resumes : Bool) (start : Option DateTime) :
    LseTransformer :=
  if resumes then
    ⟨some (start.bind fun start => (state key).map fun mark => .new mark start)⟩
  else ⟨none⟩

/-- One tick: the transformer and the watermarks after it, and whether it is emitted. -/
def transform (transformer : LseTransformer) (state : LseResumeState Key) (key : Key)
    (timeExchange : DateTime) : LseTransformer × LseResumeState Key × Bool :=
  match transformer.resume with
  | none => (transformer, state, true)
  | some none => (transformer, state.record key timeExchange, true)
  | some (some pending) =>
    let (pending, drop) := pending.shouldDrop timeExchange
    if drop then (⟨some (some pending)⟩, state, false)
    else (⟨some (some pending)⟩, state.record key timeExchange, true)

end LseTransformer

end Rustrade.Lse
