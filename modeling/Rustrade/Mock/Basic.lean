import Mathlib.Data.Prod.Lex
import Mathlib.Data.String.Basic
import Rustrade.Execution.AccountEvent
import Rustrade.Lib.BTreeMap

/-!
# The simulated venue's vocabulary

The names the venue keys its ledger by, what an asset balance says, and what the venue reports.
Names are compared as their text is, which is the order of every sorted list of the source.

A hash map of the source is a `BTreeMap` here: wherever the venue iterates one, it sums, asks for
any, or sorts what it gathered, so the order it was iterated in shows nowhere. What is only logged
is left out, and so is the text of a message, whose figures are kept.
-/

set_option autoImplicit false

namespace Rustrade.Mock

/-! ## Names -/

/-- An asset, by the name its venue gives it. -/
structure AssetNameExchange where
  val : String
  deriving DecidableEq, Repr

/-- An instrument, by the name its venue gives it. -/
structure InstrumentNameExchange where
  val : String
  deriving DecidableEq, Repr

instance : LinearOrder AssetNameExchange :=
  LinearOrder.lift' AssetNameExchange.val fun a b h => by cases a; cases b; cases h; rfl

instance : LinearOrder InstrumentNameExchange :=
  LinearOrder.lift' InstrumentNameExchange.val fun a b h => by cases a; cases b; cases h; rfl

instance : LinearOrder ClientOrderId :=
  LinearOrder.lift' ClientOrderId.val fun a b h => by cases a; cases b; cases h; rfl

abbrev VenueInstrument := Instrument ExchangeId AssetNameExchange

abbrev VenueTrade := Trade AssetNameExchange InstrumentNameExchange

abbrev VenueOrder (State : Type) := Order ExchangeId InstrumentNameExchange State

/-- An open order held by a simulated venue. -/
abbrev OpenOrder := VenueOrder Open

/-! ## Panics -/

/-- The debug assertions of the source, by the function each stands in. -/
inductive DebugAssertion where
  | settle
  | release
  | commit
  | settledHolding
  | dequeue
  | consume
  | record
  | matchResting
  | releaseHeld
  | settleResting
  | commitAfresh
  deriving DecidableEq, Repr

/-- How a call ends without an answer: a panic, or a debug assertion that fails. -/
inductive Fault where
  | panic
  | debugAssertion (failed : DebugAssertion)
  deriving DecidableEq, Repr

/-- Whether the crate is built with `debug_assertions`. -/
class Build where
  debugAssertions : Bool

/-- `debug_assert!`: nothing in a release build. -/
def debugAssert [Build] (name : DebugAssertion) (p : Prop) [Decidable p] : Except Fault Unit :=
  if Build.debugAssertions && !decide p then .error (.debugAssertion name) else .ok ()

/-- `assert!`. -/
def assert (p : Prop) [Decidable p] : Except Fault Unit := if p then .ok () else .error .panic

/-- `expect`. -/
def expect {α : Type} : Option α → Except Fault α
  | some a => .ok a
  | none => .error .panic

/-! ## Balances -/

/-- What is owed of one asset. -/
structure MarginDetails where
  borrowed : Decimal
  interest : Decimal
  deriving DecidableEq

namespace MarginDetails

def default : MarginDetails := ⟨0, 0⟩

def owed (self : MarginDetails) : Decimal := self.borrowed + self.interest

end MarginDetails

/-- Gross holdings, the part of them free to trade, and the debt of a margin account. -/
structure Balance where
  total : Decimal
  free : Decimal
  margin : Option MarginDetails
  deriving DecidableEq

namespace Balance

def new (total free : Decimal) : Balance := ⟨total, free, none⟩

def netAsset (self : Balance) : Decimal :=
  match self.margin with
  | some margin => self.total - margin.owed
  | none => self.total

end Balance

structure AssetBalance where
  asset : AssetNameExchange
  balance : Balance
  timeExchange : DateTime
  deriving DecidableEq

/-- What an order does to the account's loans. -/
inductive MarginEffect where
  | noSideEffect
  | borrow
  | repay
  deriving DecidableEq, Repr

/-! ## Cash flows and notices -/

/-- What a cash flow is for, with the figures it was charged from. -/
inductive CashFlowKind where
  | funding (rate positionQuantity : Option Decimal)
  | borrowFee (rate quantity : Option Decimal)
  | marginInterest (rate principal : Option Decimal) (timing : Option InterestTiming)
  | financing (rate notional : Option Decimal)
  | rebate
  | liquidationFee (rate repaid : Option Decimal)
  | other (name : String)
  deriving DecidableEq

structure CashFlowId where
  val : String
  deriving DecidableEq, Repr

structure CashFlow where
  kind : CashFlowKind
  asset : AssetNameExchange
  amount : Decimal
  instrument : Option InstrumentNameExchange
  timeExchange : DateTime
  id : Option CashFlowId
  period : Option CashFlowPeriod
  loan : Option CashFlowLoan
  deriving DecidableEq

inductive MarginDebtKind where
  | borrow
  | repay
  | interest
  deriving DecidableEq, Repr

/-- The debt of one asset, restated. -/
structure MarginDebtUpdate where
  asset : AssetNameExchange
  debt : MarginDetails
  kind : MarginDebtKind
  timeExchange : DateTime
  deriving DecidableEq

inductive NoticeKind where
  | marginCall
  | liquidation
  | marginRestored
  deriving DecidableEq, Repr

structure AccountNotice where
  kind : NoticeKind
  timeExchange : DateTime
  marginLevel : Option Decimal
  deriving DecidableEq

/-! ## Events -/

inductive AccountEventKind where
  | balanceSnapshot (balance : AssetBalance)
  | orderSnapshot (order : VenueOrder OrderState)
  | trade (trade : VenueTrade)
  | cashFlow (flow : CashFlow)
  | marginDebt (update : MarginDebtUpdate)
  | notice (notice : AccountNotice)
  deriving DecidableEq

structure AccountEvent where
  exchange : ExchangeId
  kind : AccountEventKind
  deriving DecidableEq

/-! ## Account snapshots -/

/-- A position as a venue reports it. -/
structure ReportedPosition where
  quantity : Decimal
  entryPrice : Option Decimal
  timeExchange : DateTime
  deriving DecidableEq

inductive PositionReport where
  | unreported
  | flat
  | open (position : ReportedPosition)
  deriving DecidableEq

namespace PositionReport

def fromPosition (position : ReportedPosition) : PositionReport :=
  if position.quantity = 0 then .flat else .open position

def open? : PositionReport → Option ReportedPosition
  | .open position => some position
  | .unreported | .flat => none

end PositionReport

/-- The orders a venue lists for one instrument, and the position it reports there. -/
structure InstrumentSnapshot
    extends InstrumentAccountSnapshot ExchangeId InstrumentNameExchange where
  position : PositionReport
  deriving DecidableEq

structure AccountSnapshot where
  exchange : ExchangeId
  balances : List AssetBalance
  instruments : List InstrumentSnapshot

end Rustrade.Mock
