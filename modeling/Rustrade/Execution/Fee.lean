import Rustrade.Decimal

/-!
# Commission models

The commission an engine adds to a fill whose venue reports none, in quote.
-/

set_option autoImplicit false

namespace Rustrade

inductive Liquidity where
  | taker
  | maker
  deriving DecidableEq, Repr

structure PerContractFeeModel where
  commissionPerContract : Decimal
  deriving DecidableEq

structure PercentageFeeModel where
  rate : Decimal
  makerRate : Option Decimal
  deriving DecidableEq

def PercentageFeeModel.rateFor (self : PercentageFeeModel) : Liquidity → Decimal
  | .maker => self.makerRate.getD self.rate
  | .taker => self.rate

inductive FeeModelConfig where
  | zero
  | perContract (model : PerContractFeeModel)
  | percentage (model : PercentageFeeModel)
  deriving DecidableEq

def FeeModelConfig.computeFee (self : FeeModelConfig) (price quantity contractSize : Decimal)
    (liquidity : Liquidity) : Decimal :=
  match self with
  | .zero => 0
  | .perContract model => model.commissionPerContract * |quantity|
  | .percentage model => model.rateFor liquidity * price * |quantity| * contractSize

end Rustrade
