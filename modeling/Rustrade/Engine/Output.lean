import Rustrade.EngineState

/-!
# What the engine reports

The outputs of one event: what closed, what was cut, what a corporate action did and what was
refused. Those that only echo a request, a strategy's hook or a connection are left out.
-/

set_option autoImplicit false

namespace Rustrade

/-- Why a corporate action was not applied. -/
inductive UnsupportedCorporateActionReason where
  | instrumentKindNotSupported
  | actionKindNotSupported
  | positionStateInvalid
  | arithmeticOverflow
  | ambiguousSplitTarget
  | unknownInstrument
  deriving DecidableEq, Repr

/-- Why an expiry was not settled. -/
inductive ContractExpiryNotSettledReason where
  | instrumentNeverExpires
  | settlementPriceUnavailable
  | ambiguousUnderlying
  | unknownInstrument
  deriving DecidableEq, Repr

/-- An order resting when its instrument splits. -/
structure OpenOrderAtSplit where
  cid : ClientOrderId
  pricePreSplit : Option Decimal
  quantityPreSplit : Decimal
  deriving DecidableEq

inductive EngineOutput (AssetKey : Type) where
  | positionExit (exited : PositionExited AssetKey InstrumentIndex)
  | splitRemainder (instrument : InstrumentIndex) (positionId : PositionId) (side : Side)
      (quantityFractionalDisposed priceEntryAveragePostSplit : Decimal)
  | openOrdersAtSplit (instrument : InstrumentIndex) (orders : List OpenOrderAtSplit)
  | optionPositionAdjustedForSplit (optionInstrument : InstrumentIndex) (ratio : SplitRatio)
      (strikePreSplit strikePostSplit : Decimal) (positionId : PositionId)
  | optionPositionsRequireIdentityChange (splitInstrument : InstrumentIndex) (ratio : SplitRatio)
      (affectedOptions : List InstrumentIndex)
  | unsupportedCorporateAction (instrument : InstrumentIndex) (kind : CorporateActionKind)
      (reason : UnsupportedCorporateActionReason)
  | corporateActionAlreadyProcessed (instrument : InstrumentIndex) (kind : CorporateActionKind)
      (id : CorporateActionId)
  | untrackedExchange (exchange : ExchangeId)
  | contractExpiryNotSettled (instrument : InstrumentIndex)
      (reason : ContractExpiryNotSettledReason)
  | reduceOnlyCapped (capped : ReduceOnlyCapped InstrumentIndex)
  | feeConversion (conversion : FeeConversion AssetKey InstrumentIndex)
  deriving DecidableEq

namespace FillsApplied

variable {AssetKey : Type}

/-- The outputs of an account event, in the order of the audit. -/
def outputs (self : FillsApplied AssetKey InstrumentIndex) : List (EngineOutput AssetKey) :=
  (self.feeConversion.map EngineOutput.feeConversion).toList ++
    self.capped.map EngineOutput.reduceOnlyCapped ++
    (self.exited.map EngineOutput.positionExit).toList

end FillsApplied

end Rustrade
