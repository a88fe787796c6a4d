import Rustrade.Accrual.Tiles
import Rustrade.Audit.Hedging
import Rustrade.Binance.VenueBook
import Rustrade.Candles.Aggregate
import Rustrade.Engine.Checkpoint
import Rustrade.Engine.Floored
import Rustrade.Engine.Overdue
import Rustrade.Engine.RoundTrip
import Rustrade.Engine.Settlement
import Rustrade.Engine.Strikes
import Rustrade.Execution.BookParts
import Rustrade.Execution.OrderRules
import Rustrade.ExecutionManager.Answers
import Rustrade.ExecutionManager.Backfill
import Rustrade.ExecutionManager.LookupTimes
import Rustrade.Hyperliquid.Precision
import Rustrade.Ibkr.Revisions
import Rustrade.Ibkr.VenueDepth
import Rustrade.Index.ExecutionMap
import Rustrade.Index.Serialisation
import Rustrade.InstrumentState.Attribution
import Rustrade.InstrumentState.Buffering
import Rustrade.InstrumentState.Fees
import Rustrade.InstrumentState.LateFill
import Rustrade.InstrumentState.Resync
import Rustrade.InstrumentState.Reuse
import Rustrade.InstrumentState.Settlement
import Rustrade.InstrumentState.Sized
import Rustrade.InstrumentState.Stranded
import Rustrade.Lib.DecimalArithmetic
import Rustrade.Lib.Deviations
import Rustrade.Lib.Fitted
import Rustrade.Lib.Latest
import Rustrade.Lib.Related
import Rustrade.Lib.Rounding
import Rustrade.Lib.Runs
import Rustrade.Lib.Scaled
import Rustrade.Lse.Resumed
import Rustrade.Mock.Lent
import Rustrade.Mock.PriceWindow
import Rustrade.Mock.Priority
import Rustrade.Mock.Restored
import Rustrade.Orders.Identity
import Rustrade.Orders.Live
import Rustrade.Orders.Reports
import Rustrade.Orders.Retired
import Rustrade.Osi.RoundTrip
import Rustrade.Position.Ledger
import Rustrade.Position.Represented
import Rustrade.Recovery.Runs
import Rustrade.Sim.Deadlines
import Rustrade.Sim.Refines
import Rustrade.Sim.Woken
import Rustrade.Statistic.DataSet
import Rustrade.Statistic.Reports
import Rustrade.Streams.Merge
import Rustrade.Shared.Runs
