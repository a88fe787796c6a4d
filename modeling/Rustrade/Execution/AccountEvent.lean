import Rustrade.Execution.CashFlow
import Rustrade.Execution.Trade

/-!
# What an account stream reports

One event of a venue's account stream. The kinds that reach an instrument carry what the
instrument reads of them; a kind that only moves asset balances, or is only logged, carries
nothing.
-/

set_option autoImplicit false

namespace Rustrade

/-- The orders a venue lists for one instrument, and whether the list is complete. -/
structure InstrumentAccountSnapshot (ExchangeKey InstrumentKey : Type) where
  instrument : InstrumentKey
  orders : List (Order ExchangeKey InstrumentKey OrderState)
  ordersComplete : Bool
  deriving DecidableEq

inductive AccountEventKind (ExchangeKey AssetKey InstrumentKey : Type) where
  | snapshot (instruments : List (InstrumentAccountSnapshot ExchangeKey InstrumentKey))
  | balanceSnapshot
  | balanceStreamUpdate
  | instrumentBalanceUpdate
  | instrumentBalanceSnapshot
  | orderSnapshot (order : Order ExchangeKey InstrumentKey OrderState)
  | orderCancelled (response : OrderResponseCancel ExchangeKey InstrumentKey)
  | trade (trade : Trade AssetKey InstrumentKey)
  | streamTerminated
  | venueCheckpoint
  | fillRecoveryGaveUp
  | tradeAmended
  | reinitFailed
  | cashFlow (flow : CashFlow AssetKey InstrumentKey)
  | notice
  | marginDebt

structure AccountEvent (ExchangeKey AssetKey InstrumentKey : Type) where
  exchange : ExchangeKey
  kind : AccountEventKind ExchangeKey AssetKey InstrumentKey

/-- The venue an event stream is from, whether the engine tracks it or not. -/
structure ExchangeId where
  val : String
  deriving DecidableEq, Repr

/-- One market print of an instrument. -/
structure MarketEvent (InstrumentKey MarketEventKind : Type) where
  timeExchange : DateTime
  exchange : ExchangeId
  instrument : InstrumentKey
  kind : MarketEventKind

end Rustrade
