import Mathlib.Data.List.Dedup
import Rustrade.Mock.Inputs

/-!
# What a simulated venue says of itself

The snapshot of its account a client starts from, and the snapshot of its whole state a venue is
restored from. The second holds what the venue has accumulated and neither its configuration nor
its market: both are given again.
-/

set_option autoImplicit false

namespace Rustrade.Mock

namespace SimulatedVenue

variable (self : SimulatedVenue)

/-! ## The account, for a client -/

/-- Every order the account reports: open, cancelled or expired. -/
def reportedOrders : List (VenueOrder OrderState) :=
  (self.account.ordersOpen.iter.map fun order =>
      { order with state := OrderState.active (.open order.state) }) ++
    (self.account.ordersCancelled.toList.map fun e =>
      { e.2 with state := OrderState.inactive (.cancelled e.2.state) }) ++
    self.account.ordersExpired.toList.map fun e =>
      { e.2 with state := OrderState.inactive (.expired e.2.state) }

/-- The position of a cash-settled instrument, which is reported even while it is flat. -/
def positionReport (name : InstrumentNameExchange) (instrument : VenueInstrument) :
    PositionReport :=
  match instrument.kind with
  | .cfd _ =>
      let position := self.positions[name]?.getD .default
      .fromPosition ⟨position.quantity,
        if position.quantity ≠ 0 then some position.entry else none, self.timeExchange⟩
  | _ => .unreported

def instrumentSnapshot (name : InstrumentNameExchange) : Option InstrumentSnapshot :=
  let orders := (self.reportedOrders.filter fun order => order.key.instrument = name).mergeSort
    fun a b => a.key.cid ≤ b.key.cid
  let position := (self.instruments[name]?.map fun instrument =>
    self.positionReport name instrument).getD .unreported
  if orders.isEmpty && position = .unreported then none
  else some { instrument := name, orders, ordersComplete := true, position }

/-- The account's balances, and every instrument that has an order or a position to report, by
    name. -/
def accountSnapshot : AccountSnapshot :=
  let names := (self.instruments.toList.map Prod.fst ++
    self.reportedOrders.map fun order => order.key.instrument).dedup.mergeSort fun a b => a ≤ b
  { exchange := self.exchange
    balances := self.account.allBalances
    instruments := names.filterMap self.instrumentSnapshot }

/-- How the orders asked for ended, each once. -/
def ordersEnded (orders : List (OrderKey ExchangeId InstrumentNameExchange)) :
    List (VenueOrder InactiveOrderState) :=
  let ended (key : OrderKey ExchangeId InstrumentNameExchange) :
      Option (VenueOrder InactiveOrderState) :=
    ((self.account.orderEnded key.cid).filter fun order =>
      order.key.instrument = key.instrument).map fun order => { order with key }
  -- The first key of each id that names an ended order is the one reported.
  (orders.filterMap ended).foldl (fun reported order =>
    if reported.any fun earlier => earlier.key.cid = order.key.cid then reported
    else reported ++ [order]) []

end SimulatedVenue

/-! ## The venue, to be restored -/

structure SimulatedVenueSnapshot where
  version : Nat
  exchange : ExchangeId
  regime : VenueRegime
  instruments : List InstrumentNameExchange
  account : AccountStateSnapshot
  positions : List (InstrumentNameExchange × NetPosition)
  orderSequence : Nat
  orderIdStart : Nat
  tradeSequence : Nat
  cashFlowSequence : Nat
  timeExchange : DateTime
  accruedThrough : Option DateTime
  reportedDebt : List (AssetNameExchange × MarginDetails)
  liquidationUnderWay : Bool
  marginCalled : Bool
  borrowPrices : List (InstrumentNameExchange × PriceWindow)
  slippageDraws : Nat
  checkpointSequence : Nat
  deriving DecidableEq

/-- The format version written, and the only one restored. -/
def SimulatedVenueSnapshot.VERSION : Nat := 1

structure VenueCheckpoint where
  id : Nat
  snapshot : SimulatedVenueSnapshot

inductive VenueRestoreError where
  | unsupportedVersion (found supported : Nat)
  | exchangeMismatch (snapshot config : ExchangeId)
  | instrumentsMismatch (onlyInSnapshot onlyInVenue : List InstrumentNameExchange)
  | unknownInstrument (instrument : InstrumentNameExchange)
  | marginMismatch (snapshotMargin : Bool)
  | duplicateOrder (duplicate : DuplicateSeededOrder)
  | duplicateInstrument (instrument : InstrumentNameExchange)
  | duplicateAsset (asset : AssetNameExchange)
  deriving DecidableEq

/-- The first item that equals an earlier one. -/
def firstRepeat {T : Type} [DecidableEq T] (items : List T) : Option T :=
  let rec go (seen : List T) : List T → Option T
    | [] => none
    | item :: rest => if item ∈ seen then some item else go (item :: seen) rest
  go [] items

/-- The map of a list of entries. -/
def mapOf {K V : Type} [LinearOrder K] (entries : List (K × V)) : BTreeMap K V :=
  entries.foldl (fun map e => map.insert e.1 e.2) ∅

namespace SimulatedVenue

def snapshot (self : SimulatedVenue) : SimulatedVenueSnapshot :=
  { version := SimulatedVenueSnapshot.VERSION
    exchange := self.exchange
    regime := self.regime
    instruments := self.instruments.toList.map Prod.fst
    account := self.account.snapshot
    positions := self.positions.toList
    orderSequence := self.orderSequence
    orderIdStart := self.orderIdStart
    tradeSequence := self.tradeSequence
    cashFlowSequence := self.cashFlowSequence
    timeExchange := self.timeExchangeLatest
    accruedThrough := self.accruedThrough
    reportedDebt := self.reportedDebt.toList
    liquidationUnderWay := self.liquidation.underWay
    marginCalled := self.liquidation.marginCalled
    borrowPrices := self.borrowPrices.toList
    slippageDraws := self.slippage.draws
    checkpointSequence := self.checkpointSequence }

/-- The snapshot, numbered as the venue's next checkpoint. -/
def checkpoint (self : SimulatedVenue) : VenueCheckpoint × SimulatedVenue :=
  let venue := { self with checkpointSequence := self.checkpointSequence + 1 }
  (⟨venue.checkpointSequence, venue.snapshot⟩, venue)

/-- Why a snapshot is not restored, where it is not for an order id listed twice. -/
def restoreRefusal (config : MockExecutionConfig)
    (instruments : BTreeMap InstrumentNameExchange VenueInstrument)
    (snapshot : SimulatedVenueSnapshot) : Option VenueRestoreError :=
  let trading := instruments.toList.map Prod.fst
  let onlyInSnapshot := (snapshot.instruments.filter fun name => name ∉ trading).dedup.mergeSort
    fun a b => a ≤ b
  let onlyInVenue := trading.filter fun name => name ∉ snapshot.instruments
  let named := snapshot.account.instruments ++ snapshot.positions.map Prod.fst ++
    snapshot.borrowPrices.map Prod.fst
  if snapshot.version ≠ SimulatedVenueSnapshot.VERSION then
    some (.unsupportedVersion snapshot.version SimulatedVenueSnapshot.VERSION)
  else if snapshot.exchange ≠ config.mockedExchange then
    some (.exchangeMismatch snapshot.exchange config.mockedExchange)
  else if onlyInSnapshot ≠ [] ∨ onlyInVenue ≠ [] then
    some (.instrumentsMismatch onlyInSnapshot onlyInVenue)
  else match named.find? fun name => !instruments.contains name with
  | some unknown => some (.unknownInstrument unknown)
  | none => match (firstRepeat (snapshot.positions.map Prod.fst)).or
      (firstRepeat (snapshot.borrowPrices.map Prod.fst)) with
  | some twice => some (.duplicateInstrument twice)
  | none => match (firstRepeat (snapshot.account.balances.map AssetBalance.asset)).or
      (firstRepeat (snapshot.reportedDebt.map Prod.fst)) with
  | some twice => some (.duplicateAsset twice)
  | none =>
      if snapshot.account.margin ≠ config.spotMargin.isSome then
        some (.marginMismatch snapshot.account.margin)
      else none

/-- The venue a snapshot was taken of, as `config` configures it. -/
def fromSnapshot (config : MockExecutionConfig)
    (instruments : BTreeMap InstrumentNameExchange VenueInstrument)
    (snapshot : SimulatedVenueSnapshot) :
    Except Fault (Except VenueRestoreError SimulatedVenue) :=
  match restoreRefusal config instruments snapshot with
  | some refusal => .ok (.error refusal)
  | none => match AccountState.fromSnapshot snapshot.account with
  | .error duplicate => .ok (.error (.duplicateOrder duplicate))
  | .ok account => do
      let assembled := assemble config instruments snapshot.regime account
        (mapOf snapshot.positions) snapshot.orderIdStart (mapOf snapshot.reportedDebt)
      -- A window the configuration does not set would never be read or trimmed.
      let windowed := config.spotMargin.any fun margin => margin.borrowPriceWindow.isSome
      let restored : SimulatedVenue := { assembled with
        orderSequence := snapshot.orderSequence
        tradeSequence := snapshot.tradeSequence
        cashFlowSequence := snapshot.cashFlowSequence
        timeExchangeLatest := snapshot.timeExchange
        accruedThrough := snapshot.accruedThrough
        liquidation := ⟨snapshot.liquidationUnderWay, snapshot.marginCalled⟩
        borrowPrices := if windowed then mapOf snapshot.borrowPrices else ∅
        slippage := .resumed config.slippage snapshot.slippageDraws
        checkpointSequence := snapshot.checkpointSequence }
      let charged ← restored.refreshNextCharge
      let venue ← charged.refreshNextInterest
      return .ok venue

end SimulatedVenue

end Rustrade.Mock
