import Mathlib.Data.Rat.Defs
import Mathlib.Order.MinMax
import Rustrade.Mock.OpenOrders

/-!
# The account a simulated venue keeps

Balances, the orders open and ended, and the trades printed. An amount an order holds is out of
`free` and still in `total`: `reserve` takes it out, and it leaves `total` when it is settled or
comes back to `free` when it is released. A margin account lends what an order lacks, and repays it
out of what a fill delivers.
-/

set_option autoImplicit false

namespace Rustrade.Mock

/-! ## Commitments -/

/-- What one arrival pays at once and what it holds, in the one asset it pays with. -/
structure Debit where
  asset : AssetNameExchange
  settled : Decimal
  reserved : Decimal
  deriving DecidableEq

/-- What a fill adds to a balance. A negative amount takes. -/
structure Delivery where
  asset : AssetNameExchange
  amount : Decimal
  deriving DecidableEq

/-- What a fill gives back: margin paid back into the asset it pays with, or a delivery. -/
inductive Credit where
  | paidBack (amount : Decimal)
  | delivery (delivery : Delivery)
  deriving DecidableEq

/-- What a credit pays back, and what it delivers. -/
def creditParts [Build] (credit : Option Credit) : Except Fault (Decimal × Option Delivery) :=
  match credit with
  | some (.paidBack amount) => do
      debugAssert .commit (0 ≤ amount)
      return (amount, none)
  | some (.delivery delivery) => .ok (0, some delivery)
  | none => .ok (0, none)

structure Committed where
  paid : AssetBalance
  received : Option AssetBalance
  borrowed : Decimal
  excessBorrowed : Decimal
  deriving DecidableEq

/-- What was lent of the shortfall itself. -/
def Committed.shortfallBorrowed (self : Committed) : Decimal := self.borrowed - self.excessBorrowed

structure BalanceInsufficient where
  asset : AssetNameExchange
  free : Decimal
  required : Decimal
  borrowable : Option Decimal
  minBorrow : Option Decimal
  maxBorrow : Option Decimal
  deriving DecidableEq

/-- What a margin account may be lent for one commitment. -/
structure Lending where
  borrowable : Decimal
  minBorrow : Decimal
  maxBorrow : Option Decimal
  deriving DecidableEq

/-- Repay interest and then principal out of a balance, as far as `available` goes, and whether that
    cleared the loan. -/
def repay (balance : Balance) (available : Decimal) : Balance × Bool :=
  match balance.margin with
  | none => (balance, false)
  | some margin =>
      let available := max available 0
      let interest := min margin.interest available
      let principal := min margin.borrowed (available - interest)
      let repaid := interest + principal
      ({ total := balance.total - repaid
         free := balance.free - repaid
         margin := some ⟨margin.borrowed - principal, margin.interest - interest⟩ },
        decide (0 < principal) && decide (margin.borrowed - principal = 0))

/-! ## The account -/

structure AccountState where
  balances : BTreeMap AssetNameExchange AssetBalance
  ordersOpen : OpenOrders
  ordersCancelled : BTreeMap ClientOrderId (VenueOrder Cancelled)
  ordersFilled : BTreeMap ClientOrderId (VenueOrder Filled)
  ordersExpired : BTreeMap ClientOrderId (VenueOrder Expired)
  trades : List VenueTrade
  margin : Bool
  loansChanged : Nat

namespace AccountState

def enableMargin (self : AccountState) : AccountState :=
  { self with
    margin := true
    balances := self.balances.map fun _ balance =>
      { balance with balance := { balance.balance with
          margin := some (balance.balance.margin.getD .default) } } }

/-! ### Queries -/

def free (self : AccountState) (asset : AssetNameExchange) : Decimal :=
  (self.balances[asset]?.map fun balance => balance.balance.free).getD 0

def owed (self : AccountState) (asset : AssetNameExchange) : Decimal :=
  ((self.balances[asset]?.bind fun balance => balance.balance.margin).map MarginDetails.owed).getD 0

/-- What a cap on the asset's debt leaves to lend. -/
def capRoom (self : AccountState) (asset : AssetNameExchange) (cap : Decimal) : Decimal :=
  max (cap - self.owed asset) 0

/-- The principal owed of each asset that owes any. -/
def loans (self : AccountState) : List (AssetNameExchange × Decimal) :=
  self.balances.toList.filterMap fun e =>
    e.2.balance.margin.bind fun margin =>
      if 0 < margin.borrowed then some (e.1, margin.borrowed) else none

def allBalances (self : AccountState) : List AssetBalance := self.balances.toList.map Prod.snd

def tradesSince (self : AccountState) (timeSince : DateTime) : List VenueTrade :=
  self.trades.filter fun trade => timeSince ≤ trade.timeExchange

/-! ### Open and ended orders -/

def forgetEnded (self : AccountState) (cid : ClientOrderId) : AccountState :=
  { self with
    ordersCancelled := self.ordersCancelled.erase cid
    ordersFilled := self.ordersFilled.erase cid
    ordersExpired := self.ordersExpired.erase cid }

def book (self : AccountState) (order : OpenOrder) (reservation : Option Reservation) :
    Except AlreadyResting AccountState := do
  let ordersOpen ← self.ordersOpen.insert order reservation
  return { self with ordersOpen }.forgetEnded order.key.cid

def hold (self : AccountState) (order : OpenOrder) (reservation : Option Reservation) :
    Except AlreadyResting AccountState := do
  let ordersOpen ← self.ordersOpen.hold order reservation
  return { self with ordersOpen }.forgetEnded order.key.cid

def takeHeld (self : AccountState) (instrument : InstrumentNameExchange) :
    List ClientOrderId × AccountState :=
  let (held, ordersOpen) := self.ordersOpen.takeHeld instrument
  (held, { self with ordersOpen })

def removeOrder [Build] (self : AccountState) (cid : ClientOrderId) :
    Except Fault (Option RestingOrder × AccountState) := do
  let (resting, ordersOpen) ← self.ordersOpen.remove cid
  return (resting, { self with ordersOpen })

def ackCancelled (self : AccountState) (order : VenueOrder Cancelled) : AccountState :=
  let forgot := self.forgetEnded order.key.cid
  { forgot with ordersCancelled := forgot.ordersCancelled.insert order.key.cid order }

def ackFilled (self : AccountState) (order : VenueOrder Filled) : AccountState :=
  let forgot := self.forgetEnded order.key.cid
  { forgot with ordersFilled := forgot.ordersFilled.insert order.key.cid order }

def ackExpired (self : AccountState) (order : VenueOrder Expired) : AccountState :=
  let forgot := self.forgetEnded order.key.cid
  { forgot with ordersExpired := forgot.ordersExpired.insert order.key.cid order }

def isCancelled (self : AccountState) (cid : ClientOrderId) : Bool :=
  self.ordersCancelled.contains cid

def isFilled (self : AccountState) (cid : ClientOrderId) : Bool := self.ordersFilled.contains cid

def isExpired (self : AccountState) (cid : ClientOrderId) : Bool := self.ordersExpired.contains cid

/-- How the latest order under `cid` ended, unless one is open under it. -/
def orderEnded (self : AccountState) (cid : ClientOrderId) :
    Option (VenueOrder InactiveOrderState) :=
  if self.ordersOpen.contains cid then none
  else match self.ordersFilled[cid]? with
    | some filled => some { filled with state := .fullyFilled filled.state }
    | none => match self.ordersCancelled[cid]? with
      | some cancelled => some { cancelled with state := .cancelled cancelled.state }
      | none => self.ordersExpired[cid]?.map fun expired =>
          { expired with state := .expired expired.state }

def ackTrade (self : AccountState) (trade : VenueTrade) : AccountState :=
  { self with trades := self.trades ++ [trade] }

def updateTimeExchange (self : AccountState) (timeExchange : DateTime) : AccountState :=
  { self with balances := self.balances.map fun _ balance => { balance with timeExchange } }

/-! ### Moves of one balance -/

def setBalance (self : AccountState) (asset : AssetNameExchange) (balance : AssetBalance) :
    AccountState :=
  { self with balances := self.balances.insert asset balance }

def balanceExpect (self : AccountState) (asset : AssetNameExchange) : Except Fault AssetBalance :=
  expect self.balances[asset]?

/-- The balance of `asset`, opened at zero if the account never held it. -/
def balanceOrOpen (self : AccountState) (asset : AssetNameExchange) (timeExchange : DateTime) :
    AssetBalance :=
  self.balances[asset]?.getD
    ⟨asset, { Balance.new 0 0 with margin := if self.margin then some .default else none },
      timeExchange⟩

/-- Change a balance the account has, and stamp it. -/
def restate (self : AccountState) (asset : AssetNameExchange) (timeExchange : DateTime)
    (change : Balance → Balance) : Except Fault (AccountState × AssetBalance) := do
  let balance ← self.balanceExpect asset
  let restated := { balance with balance := change balance.balance, timeExchange }
  return (self.setBalance asset restated, restated)

def chargeInterest (self : AccountState) (asset : AssetNameExchange) (interest : Decimal)
    (timeExchange : DateTime) : Except Fault (AccountState × AssetBalance) :=
  self.restate asset timeExchange fun balance =>
    let margin := balance.margin.getD .default
    { balance with margin := some { margin with interest := margin.interest + interest } }

/-- Take `amount` out of what is free, if it is. -/
def reserve (self : AccountState) (asset : AssetNameExchange) (amount : Decimal)
    (timeExchange : DateTime) :
    Except Fault (AccountState × Except BalanceInsufficient AssetBalance) := do
  let balance ← self.balanceExpect asset
  if balance.balance.free < amount then
    return (self, .error ⟨asset, balance.balance.free, amount, none, none, none⟩)
  let (reserved, restated) ← self.restate asset timeExchange fun balance =>
    { balance with free := balance.free - amount }
  return (reserved, .ok restated)

/-- Let go of `amount` that was reserved. -/
def settle [Build] (self : AccountState) (asset : AssetNameExchange) (amount : Decimal)
    (timeExchange : DateTime) : Except Fault (AccountState × AssetBalance) := do
  let balance ← self.balanceExpect asset
  debugAssert .settle (balance.balance.free ≤ balance.balance.total - amount)
  self.restate asset timeExchange fun balance => { balance with total := balance.total - amount }

/-- Return `amount` that was reserved to what is free. -/
def release [Build] (self : AccountState) (asset : AssetNameExchange) (amount : Decimal)
    (timeExchange : DateTime) : Except Fault (AccountState × AssetBalance) := do
  let balance ← self.balanceExpect asset
  debugAssert .release (balance.balance.free + amount ≤ balance.balance.total)
  self.restate asset timeExchange fun balance => { balance with free := balance.free + amount }

/-- Add `amount` to a balance, or take it, whatever that leaves. -/
def charge (self : AccountState) (asset : AssetNameExchange) (amount : Decimal)
    (timeExchange : DateTime) : Except Fault (AccountState × AssetBalance) :=
  self.restate asset timeExchange fun balance =>
    { balance with total := balance.total + amount, free := balance.free + amount }

def deliver (self : AccountState) (delivery : Delivery) (effect : MarginEffect)
    (timeExchange : DateTime) : AccountState × AssetBalance :=
  let repays := self.margin && effect = .repay
  let balance := self.balanceOrOpen delivery.asset timeExchange
  let credited := { balance.balance with
    total := balance.balance.total + delivery.amount
    free := balance.balance.free + delivery.amount }
  let (left, cleared) := if repays then repay credited delivery.amount else (credited, false)
  let restated := { balance with balance := left, timeExchange }
  ({ self.setBalance delivery.asset restated with
      loansChanged := self.loansChanged + cleared.toNat }, restated)

/-- Repay the loan out of what is free, up to `amount`. -/
def repayLoan (self : AccountState) (asset : AssetNameExchange) (amount : Decimal)
    (timeExchange : DateTime) : Except Fault (AccountState × AssetBalance) := do
  let balance ← self.balanceExpect asset
  let (left, cleared) := repay balance.balance (min amount balance.balance.free)
  let restated := { balance with balance := left, timeExchange }
  return ({ self.setBalance asset restated with
      loansChanged := self.loansChanged + cleared.toNat }, restated)

def releaseReservation [Build] (self : AccountState) (reservation : Reservation)
    (autoRepayAtCancel : Bool) (timeExchange : DateTime) :
    Except Fault (AccountState × AssetBalance) := do
  let (released, balance) ← self.release reservation.asset reservation.amount timeExchange
  if autoRepayAtCancel && reservation.loan ≠ 0 then
    released.repayLoan reservation.asset reservation.loan timeExchange
  else return (released, balance)

/-- Lend `amount`, opening the balance if the account never held the asset. -/
def borrow (self : AccountState) (asset : AssetNameExchange) (amount : Decimal)
    (timeExchange : DateTime) : AccountState :=
  let balance := self.balanceOrOpen asset timeExchange
  let margin := balance.balance.margin.getD .default
  let opened : Bool := margin.borrowed = 0
  { self.setBalance asset { balance with balance :=
      { total := balance.balance.total + amount
        free := balance.balance.free + amount
        margin := some { margin with borrowed := margin.borrowed + amount } } } with
    loansChanged := self.loansChanged + opened.toNat }

/-- Pay `amount` back into the asset, without restating it. -/
def fund (self : AccountState) (asset : AssetNameExchange) (amount : Decimal) :
    Except Fault AccountState := do
  let balance ← self.balanceExpect asset
  return self.setBalance asset { balance with balance := { balance.balance with
    total := balance.balance.total + amount, free := balance.balance.free + amount } }

/-! ### Committing an arrival -/

/-- What is free of the asset an arrival pays with, which a cash account must have. -/
def freeToPay (self : AccountState) (asset : AssetNameExchange) : Except Fault Decimal :=
  if self.margin then .ok (self.free asset)
  else do
    let balance ← self.balanceExpect asset
    return balance.balance.free

/-- What the account is lent towards `debit` with `available` at hand, and what of that is beyond
    the shortfall. -/
def lend (self : AccountState) (debit : Debit) (available : Decimal) (lends : Bool)
    (lending : Lending) : Except BalanceInsufficient (Decimal × Decimal) :=
  let required := debit.settled + debit.reserved
  let capped := (lending.maxBorrow.map fun cap => self.capRoom debit.asset cap).filter
    fun room => room < lending.borrowable
  let lendable := capped.getD lending.borrowable
  let shortfall := required - available
  let loan := max shortfall lending.minBorrow
  if shortfall ≤ 0 then .ok (0, 0)
  else if lends && loan ≤ lendable then .ok (loan, loan - shortfall)
  else .error
    { asset := debit.asset
      free := available
      required
      borrowable := if lends then some (max lendable 0) else none
      minBorrow := if lends && shortfall ≤ lendable then some lending.minBorrow else none
      maxBorrow := lending.maxBorrow.filter fun _ => lends && capped.isSome }

/-- A delivery that takes more than is free of its asset. -/
def uncovered (self : AccountState) (delivery : Delivery) : Option BalanceInsufficient :=
  let free := self.free delivery.asset
  if delivery.amount < 0 ∧ free + delivery.amount < 0 then
    some ⟨delivery.asset, free, -delivery.amount, none, none, none⟩
  else none

/-- What a fill delivers, restated, if it delivers anything. -/
def deliverAny (self : AccountState) (delivery : Option Delivery) (effect : MarginEffect)
    (timeExchange : DateTime) : AccountState × Option AssetBalance :=
  match delivery with
  | none => (self, none)
  | some delivery =>
      let (account, balance) := self.deliver delivery effect timeExchange
      (account, some balance)

variable [Build]

omit [Build] in
/-- Pay back what closing a position gives, if it gives anything. -/
def fundAny (self : AccountState) (asset : AssetNameExchange) (funding : Decimal) :
    Except Fault AccountState :=
  if funding = 0 then .ok self else self.fund asset funding

/-- Pay and hold what one arrival requires, with what its fill gives back, or move nothing. -/
def commit (self : AccountState) (debit : Debit) (credit : Option Credit) (effect : MarginEffect)
    (lending : Lending) (timeExchange : DateTime) :
    Except Fault (AccountState × Except BalanceInsufficient Committed) := do
  let (funding, delivery) ← creditParts credit
  let required := debit.settled + debit.reserved
  let free ← self.freeToPay debit.asset
  match self.lend debit (free + funding) (self.margin && effect = .borrow) lending with
  | .error insufficient => return (self, .error insufficient)
  | .ok (borrowed, excessBorrowed) =>
  match delivery.bind self.uncovered with
  | some insufficient => return (self, .error insufficient)
  | none =>
  let lent := if borrowed = 0 then self else self.borrow debit.asset borrowed timeExchange
  let funded ← lent.fundAny debit.asset funding
  let (reserved, outcome) ← funded.reserve debit.asset required timeExchange
  match outcome with
  | .error insufficient => return (reserved, .error insufficient)
  | .ok _ =>
  let (settled, paid) ← reserved.settle debit.asset debit.settled timeExchange
  let (delivered, received) := settled.deliverAny delivery effect timeExchange
  return (delivered, .ok { paid, received, borrowed, excessBorrowed })

end AccountState

/-! ## Snapshots and seeds -/

/-- An order listed more than once. -/
structure DuplicateSeededOrder where
  cid : ClientOrderId
  deriving DecidableEq

structure AccountStateSnapshot where
  balances : List AssetBalance
  ordersOpen : List OpenOrderEntry
  ordersCancelled : List (VenueOrder Cancelled)
  ordersFilled : List (VenueOrder Filled)
  ordersExpired : List (VenueOrder Expired)
  trades : List VenueTrade
  margin : Bool
  loansChanged : Nat
  deriving DecidableEq

/-- Every instrument an order or a trade of the snapshot names. -/
def AccountStateSnapshot.instruments (self : AccountStateSnapshot) : List InstrumentNameExchange :=
  self.ordersOpen.map (fun entry => entry.resting.order.key.instrument) ++
    self.ordersCancelled.map (fun order => order.key.instrument) ++
    self.ordersFilled.map (fun order => order.key.instrument) ++
    self.ordersExpired.map (fun order => order.key.instrument) ++
    self.trades.map (fun trade => trade.instrument)

/-- Ended orders by their ids, unless two share one. -/
def ordersById {State : Type} (orders : List (VenueOrder State)) :
    Except DuplicateSeededOrder (BTreeMap ClientOrderId (VenueOrder State)) :=
  orders.foldlM (fun map order =>
    if map.contains order.key.cid then .error ⟨order.key.cid⟩
    else .ok (map.insert order.key.cid order)) ∅

/-- Balances by their assets. -/
def balancesByAsset (balances : List AssetBalance) : BTreeMap AssetNameExchange AssetBalance :=
  balances.foldl (fun map balance => map.insert balance.asset balance) ∅

namespace AccountState

def snapshot (self : AccountState) : AccountStateSnapshot :=
  { balances := self.balances.toList.map Prod.snd
    ordersOpen := self.ordersOpen.entries
    ordersCancelled := self.ordersCancelled.toList.map Prod.snd
    ordersFilled := self.ordersFilled.toList.map Prod.snd
    ordersExpired := self.ordersExpired.toList.map Prod.snd
    trades := self.trades
    margin := self.margin
    loansChanged := self.loansChanged }

/-- The open orders of a snapshot. -/
def openOrders (entries : List OpenOrderEntry) : Except DuplicateSeededOrder OpenOrders :=
  match OpenOrders.fromEntries entries with
  | .ok book => .ok book
  | .error resting => .error ⟨resting.refused.order.key.cid⟩

def fromSnapshot (snapshot : AccountStateSnapshot) :
    Except DuplicateSeededOrder AccountState := do
  let ordersOpen ← openOrders snapshot.ordersOpen
  let ordersCancelled ← ordersById snapshot.ordersCancelled
  let ordersFilled ← ordersById snapshot.ordersFilled
  let ordersExpired ← ordersById snapshot.ordersExpired
  return {
    balances := balancesByAsset snapshot.balances
    ordersOpen
    ordersCancelled
    ordersFilled
    ordersExpired
    trades := snapshot.trades
    margin := snapshot.margin
    loansChanged := snapshot.loansChanged }

/-- Seed one order of an account snapshot: an open one rests with nothing held against it, a
    cancelled one is remembered, and any other is not seeded. -/
def seedOrder (seeded : OpenOrders × BTreeMap ClientOrderId (VenueOrder Cancelled))
    (order : VenueOrder OrderState) :
    Except DuplicateSeededOrder (OpenOrders × BTreeMap ClientOrderId (VenueOrder Cancelled)) :=
  let (ordersOpen, ordersCancelled) := seeded
  match order.state with
  | .active _ => match asOpen order with
    | none => .ok seeded
    | some opened =>
        let cid := opened.key.cid
        if ordersCancelled.contains cid then .error ⟨cid⟩
        else match ordersOpen.insert opened none with
          | .error _ => .error ⟨cid⟩
          | .ok booked => .ok (booked, ordersCancelled)
  | .inactive (.cancelled cancelled) =>
      let cid := order.key.cid
      if ordersOpen.contains cid || ordersCancelled.contains cid then .error ⟨cid⟩
      else .ok (ordersOpen, ordersCancelled.insert cid { order with state := cancelled })
  | .inactive _ => .ok seeded

def tryFrom (value : AccountSnapshot) : Except DuplicateSeededOrder AccountState := do
  let (ordersOpen, ordersCancelled) ←
    (value.instruments.flatMap fun snapshot => snapshot.orders).foldlM seedOrder (.default, ∅)
  return {
    balances := balancesByAsset value.balances
    ordersOpen
    ordersCancelled
    ordersFilled := ∅
    ordersExpired := ∅
    trades := []
    margin := false
    loansChanged := 0 }

end AccountState

end Rustrade.Mock
