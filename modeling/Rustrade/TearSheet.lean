import Rustrade.Position

/-!
# What a tear sheet is made of

`TearSheetGenerator` counts what happened to an instrument's orders and fills, and books each
position that closed and each fee no position carried. Its returns and drawdowns are folds over
those bookings, read by nothing that trades, so the bookings themselves are kept here, in order.
-/

set_option autoImplicit false

namespace Rustrade

/-- How many positions opened by a fallback routing are listed. -/
abbrev maxFallbackPositions : Nat := 16

/-- What moves the PnL of a tear sheet. -/
inductive Booking (AssetKey InstrumentKey : Type) where
  | closed (exited : PositionExited AssetKey InstrumentKey)
  | feeUnattributed (fee : Decimal) (time : DateTime)
  deriving DecidableEq

structure TearSheetGenerator (AssetKey InstrumentKey : Type) where
  timeEngineStart : DateTime
  booked : List (Booking AssetKey InstrumentKey)
  ordersOpened : Nat
  ordersRejected : Nat
  firstRejectionReason : Option OrderError
  fillsRoutedByFallback : Nat
  fillsUnmatched : Nat
  fillsForced : Nat
  fillsUnallocated : Nat
  fillsDust : Nat
  dustQuantity : Decimal
  dustValue : Decimal
  fillsReduceOnlyCapped : Nat
  reduceOnlyExcess : Decimal
  fillsFreeBaseTraded : Nat
  freeBaseTraded : Decimal
  fillsFeeUnconverted : Nat
  firstFallbackDetail : Option String
  fallbackPositions : List PositionId
  deriving DecidableEq

namespace TearSheetGenerator

variable {AssetKey InstrumentKey : Type}

def init (timeEngineStart : DateTime) : TearSheetGenerator AssetKey InstrumentKey :=
  { timeEngineStart := timeEngineStart
    booked := []
    ordersOpened := 0
    ordersRejected := 0
    firstRejectionReason := none
    fillsRoutedByFallback := 0
    fillsUnmatched := 0
    fillsForced := 0
    fillsUnallocated := 0
    fillsDust := 0
    dustQuantity := 0
    dustValue := 0
    fillsReduceOnlyCapped := 0
    reduceOnlyExcess := 0
    fillsFreeBaseTraded := 0
    freeBaseTraded := 0
    fillsFeeUnconverted := 0
    firstFallbackDetail := none
    fallbackPositions := [] }

def recordOpenRequested (self : TearSheetGenerator AssetKey InstrumentKey) :
    TearSheetGenerator AssetKey InstrumentKey :=
  { self with ordersOpened := self.ordersOpened + 1 }

def recordOpenRejected (self : TearSheetGenerator AssetKey InstrumentKey) (reason : OrderError) :
    TearSheetGenerator AssetKey InstrumentKey :=
  { self with
    ordersRejected := self.ordersRejected + 1
    firstRejectionReason := self.firstRejectionReason.or (some reason) }

/-- List a position a fallback routing opened, once, while there is room. -/
def recordFallbackPosition (self : TearSheetGenerator AssetKey InstrumentKey)
    (positionId : PositionId) (detail : String) : TearSheetGenerator AssetKey InstrumentKey :=
  { self with
    firstFallbackDetail := self.firstFallbackDetail.or (some detail)
    fallbackPositions :=
      if self.fallbackPositions.length < maxFallbackPositions ∧
          positionId ∉ self.fallbackPositions then
        self.fallbackPositions ++ [positionId]
      else self.fallbackPositions }

def recordFillRoutedByFallback (self : TearSheetGenerator AssetKey InstrumentKey)
    (positionId : PositionId) (detail : String) : TearSheetGenerator AssetKey InstrumentKey :=
  { self with fillsRoutedByFallback := self.fillsRoutedByFallback + 1 }.recordFallbackPosition
    positionId detail

def recordFillUnmatched (self : TearSheetGenerator AssetKey InstrumentKey)
    (positionId : PositionId) (detail : String) : TearSheetGenerator AssetKey InstrumentKey :=
  { self with fillsUnmatched := self.fillsUnmatched + 1 }.recordFallbackPosition positionId detail

def recordFillForced (self : TearSheetGenerator AssetKey InstrumentKey) :
    TearSheetGenerator AssetKey InstrumentKey :=
  { self with fillsForced := self.fillsForced + 1 }

def recordFillUnallocated (self : TearSheetGenerator AssetKey InstrumentKey) :
    TearSheetGenerator AssetKey InstrumentKey :=
  { self with fillsUnallocated := self.fillsUnallocated + 1 }

def recordFillFeeUnconverted (self : TearSheetGenerator AssetKey InstrumentKey) :
    TearSheetGenerator AssetKey InstrumentKey :=
  { self with fillsFeeUnconverted := self.fillsFeeUnconverted + 1 }

/-- Book a position that closed. -/
def updateFromPosition (self : TearSheetGenerator AssetKey InstrumentKey)
    (position : PositionExited AssetKey InstrumentKey) :
    TearSheetGenerator AssetKey InstrumentKey :=
  { self with booked := self.booked ++ [.closed position] }

/-- Book a fee no position carries. -/
def recordFeeUnattributed (self : TearSheetGenerator AssetKey InstrumentKey) (fee : Decimal)
    (time : DateTime) : TearSheetGenerator AssetKey InstrumentKey :=
  { self with booked := self.booked ++ [.feeUnattributed fee time] }

variable [DecimalRange]

/-- Both totals hold their last good value if either does not fit. -/
def recordFillDust (self : TearSheetGenerator AssetKey InstrumentKey) (quantity value : Decimal) :
    TearSheetGenerator AssetKey InstrumentKey :=
  let counted := { self with fillsDust := self.fillsDust + 1 }
  match Decimal.checkedAdd self.dustQuantity quantity,
      Decimal.checkedAdd self.dustValue value with
  | some newQuantity, some newValue =>
      { counted with dustQuantity := newQuantity, dustValue := newValue }
  | _, _ => counted

@[simp] theorem timeEngineStart_recordFillDust {self : TearSheetGenerator AssetKey InstrumentKey}
    {quantity value : Decimal} :
    (self.recordFillDust quantity value).timeEngineStart = self.timeEngineStart := by
  unfold recordFillDust
  simp only
  split <;> rfl

def recordFillFreeBaseTraded (self : TearSheetGenerator AssetKey InstrumentKey)
    (excessValue : Decimal) : TearSheetGenerator AssetKey InstrumentKey :=
  { self with
    fillsFreeBaseTraded := self.fillsFreeBaseTraded + 1
    freeBaseTraded := (Decimal.checkedAdd self.freeBaseTraded excessValue).getD
      self.freeBaseTraded }

def recordFillReduceOnlyCapped (self : TearSheetGenerator AssetKey InstrumentKey)
    (excessValue : Decimal) : TearSheetGenerator AssetKey InstrumentKey :=
  { self with
    fillsReduceOnlyCapped := self.fillsReduceOnlyCapped + 1
    reduceOnlyExcess := (Decimal.checkedAdd self.reduceOnlyExcess excessValue).getD
      self.reduceOnlyExcess }

end TearSheetGenerator

end Rustrade
