import Rustrade.Mock.Matching

/-!
# What is charged as time passes

A position and a loan are charged at the boundaries their models name. Every input first charges
each boundary the clock passes on its way to the input's time, earliest first, and remembers how far
it has charged. The caches of the next boundaries only say when there is nothing to do.
-/

set_option autoImplicit false

namespace Rustrade.Mock

/-- What falls due at a boundary: a position under one of the holding cost models, or a loan. -/
inductive Due where
  | holding (instrument : InstrumentNameExchange) (model : Nat)
  | interest (asset : AssetNameExchange) (principal : Decimal)
  deriving DecidableEq

namespace Due

/-- What orders the charges of one boundary: positions before loans, then names. -/
def rank : Due → Lex (Nat × Lex (String × Decimal))
  | holding instrument model => toLex (0, toLex (instrument.val, (model : Decimal)))
  | interest asset principal => toLex (1, toLex (asset.val, principal))

/-- The order charges are made in. -/
def before (a b : DateTime × Due) : Bool := toLex (a.1, a.2.rank) ≤ toLex (b.1, b.2.rank)

end Due

/-- The boundaries from `boundary` on, none past `through`. Each is later than the one before, so
    `fuel` of one more than the instants they can fall on is never spent. -/
def boundariesFrom (next : DateTime → Except Fault (Option DateTime)) (through : DateTime) :
    Nat → Option DateTime → Except Fault (List DateTime)
  | 0, _ => .ok []
  | _, none => .ok []
  | fuel + 1, some boundary => do
      -- The successor is asked for before the boundary is looked at.
      let following ← next boundary
      if boundary ≤ through then
        let rest ← boundariesFrom next through fuel following
        return boundary :: rest
      else return []

def boundariesThrough (next : DateTime → Except Fault (Option DateTime))
    (after through : DateTime) : Except Fault (List DateTime) := do
  let first ← next after
  boundariesFrom next through ((through - after).toNat + 1) first

namespace SimulatedVenue

variable (self : SimulatedVenue)

/-- The clock never moves back past what was charged. -/
def notBeforeReached (timeExchange : DateTime) : DateTime :=
  self.accruedThrough.elim timeExchange fun reached => max reached timeExchange

/-! ## One charge -/

def chargeInterestBoundary (boundary : DateTime) (asset : AssetNameExchange)
    (principal : Decimal) : Events := do
  let (venue, charged) ← self.chargeInterest asset principal (.boundary boundary)
  match charged with
  | none => return (venue, [])
  | some (balance, flow) =>
      return (venue, [venue.balanceEvent balance, venue.buildAccountEvent (.cashFlow flow)])

/-- What a holding cost is charged on: the market's price, or the position's entry without one. -/
def valuation (instrument : InstrumentNameExchange) (position : NetPosition) : Decimal :=
  (self.market[instrument]?.bind fun market => midOrLast market.snapshot).getD position.entry

def chargeHoldingCost (boundary : DateTime) (instrument : InstrumentNameExchange)
    (model : Nat) : Events :=
  match self.positions[instrument]?, self.instruments[instrument]? with
  | some position, some terms => do
      let quote := terms.underlying.quote
      let model ← expect self.holdingCosts[model]?
      let held : HeldPosition :=
        ⟨instrument, position.quantity, terms.kind.contractSize, position.entry,
          self.valuation instrument position⟩
      match model.charge held boundary with
      | none => return (self, [])
      | some charge =>
          if charge.amount = 0 then return (self, [])
          let (account, balance) ← self.account.charge quote charge.amount boundary
          let (id, venue) := { self with account }.cashFlowIdFetchAdd
          return (venue,
            [venue.balanceEvent balance,
              venue.buildAccountEvent (.cashFlow
                { kind := charge.kind
                  asset := quote
                  amount := charge.amount
                  instrument := some instrument
                  timeExchange := boundary
                  id := some id
                  period := none
                  loan := none })])
  | _, _ => .ok (self, [])

def chargeDue (due : DateTime × Due) : Events :=
  match due.2 with
  | .holding instrument model => self.chargeHoldingCost due.1 instrument model
  | .interest asset principal => self.chargeInterestBoundary due.1 asset principal

/-! ## Every charge due -/

def holdingDue (after now : DateTime) : Except Fault (List (List (DateTime × Due))) :=
  let held := self.positions.toList.flatMap fun e =>
    self.holdingCosts.zipIdx.map fun model => (e.1, model)
  held.mapM fun (instrument, model, index) => do
    let boundaries ← boundariesThrough (nextBoundary model instrument) after now
    return boundaries.map fun boundary => (boundary, Due.holding instrument index)

def interestDue (after now : DateTime) : Except Fault (List (List (DateTime × Due))) :=
  match self.marginInterest with
  | none => .ok []
  | some model => self.account.loans.mapM fun (asset, principal) => do
      let boundaries ← boundariesThrough (nextInterestBoundary model asset) after now
      return boundaries.map fun boundary => (boundary, Due.interest asset principal)

/-- Everything that falls due after `after` and through `now`, in the order it is charged. -/
def dueThrough (after now : DateTime) : Except Fault (List (DateTime × Due)) := do
  let holding ← self.holdingDue after now
  let interest ← self.interestDue after now
  return (holding ++ interest).flatten.mergeSort Due.before

/-- Charge everything due through `now`. The clock's first move starts the charging. -/
def accrue (now : DateTime) : Events :=
  match self.accruedThrough with
  | none => do
      let venue ← { self with accruedThrough := some now }.refreshNextCharge
      let venue ← venue.refreshNextInterest
      return (venue, [])
  | some after =>
      if now ≤ after then .ok (self, [])
      else do
        let refreshed ← self.refreshNextInterestIfLoansChanged
        let venue := { refreshed with accruedThrough := some now }
        let falls (next : Option DateTime) : Bool := next.any fun due => due ≤ now
        if !falls venue.nextCharge && !falls venue.nextInterest then return (venue, [])
        let due ← venue.dueThrough after now
        let (venue, events) ← Gather.run chargeDue venue due
        let venue ← venue.refreshNextCharge
        let venue ← venue.refreshNextInterest
        return (venue, events)

end SimulatedVenue

end Rustrade.Mock
