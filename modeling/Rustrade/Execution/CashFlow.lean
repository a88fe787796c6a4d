import Rustrade.Execution.Order

/-!
# Cash flows

Cash that moves into or out of an account other than by a trade, as the venue posts it. Of a
flow's kind only one question is asked here, whether it is interest charged on taking a loan, so
a kind keeps the timing of its interest and leaves out its rates.
-/

set_option autoImplicit false

namespace Rustrade

inductive InterestTiming where
  | periodic
  | onBorrow
  | other (name : String)
  deriving DecidableEq, Repr

inductive CashFlowKind where
  | funding
  | borrowFee
  | marginInterest (timing : Option InterestTiming)
  | financing
  | rebate
  | liquidationFee
  | other (name : String)
  deriving DecidableEq, Repr

/-- The time a charge is for: from `start`, up to and not including `stop`. -/
structure CashFlowPeriod where
  start : DateTime
  stop : DateTime
  start_lt_stop : start < stop
  deriving DecidableEq

def CashFlowPeriod.contains (self : CashFlowPeriod) (time : DateTime) : Bool :=
  self.start ≤ time && time < self.stop

/-- The loan a charge is on, by the order that took it. -/
structure CashFlowLoan where
  time : DateTime
  orderId : OrderId
  cid : ClientOrderId
  deriving DecidableEq

structure CashFlow (AssetKey InstrumentKey : Type) where
  kind : CashFlowKind
  asset : AssetKey
  amount : Decimal
  instrument : Option InstrumentKey
  timeExchange : DateTime
  period : Option CashFlowPeriod
  loan : Option CashFlowLoan
  deriving DecidableEq

/-- The period of a flow that is the charge on a new loan, if its producer gave one. -/
def onBorrowPeriod {AssetKey InstrumentKey : Type} (flow : CashFlow AssetKey InstrumentKey) :
    Option CashFlowPeriod :=
  match flow.kind with
  | .marginInterest (some .onBorrow) => flow.period
  | _ => none

end Rustrade
