import Mathlib.Algebra.Order.Pi
import Rustrade.Mock.BookIndex
import Rustrade.Mock.Inputs

/-!
# What every step of the venue keeps

The invariant of a simulated venue, and the relation every piece of an input keeps between the
venue before it and the venue after: the restatements a client follows, the trades printed, what is
withheld beyond what the open orders reserve, and what the balances and positions come to when each
trade is recorded in turn. Pieces compose; what one of them leaves open, the next one closes.
-/

set_option autoImplicit false

namespace Rustrade.Mock

/-- What is asked of a venue: that no fill pays and delivers one asset, that nothing is withheld
    less than nothing, or that the account is a cash account charged nothing but its fills. -/
structure Asked where
  paired : Prop
  solvent : Prop
  cash : Prop

/-! ## Reservations -/

/-- What a reservation takes out of each asset. -/
def reservedBy (reservation : Option Reservation) : AssetNameExchange → Decimal :=
  reservation.elim 0 fun reservation => Pi.single reservation.asset reservation.amount

@[simp] theorem reservedBy_none : reservedBy none = 0 := rfl

@[simp] theorem reservedBy_some {reservation : Reservation} :
    reservedBy (some reservation) = Pi.single reservation.asset reservation.amount := rfl

/-- What the open orders reserve of each asset. -/
def OpenOrders.reserved (book : OpenOrders) : AssetNameExchange → Decimal :=
  BTreeMap.total book.byId fun _ resting => reservedBy resting.reservation

theorem OpenOrders.Removed.reserved {before after : OpenOrders} {cid : ClientOrderId}
    (h : before.Removed cid after) {resting : RestingOrder}
    (hsome : before.byId[cid]? = some resting) :
    before.reserved = reservedBy resting.reservation + after.reserved := by
  unfold OpenOrders.reserved
  rw [BTreeMap.total_erase hsome, h.byId]

/-! ## What a fill moves -/

/-- The asset an order of an instrument pays with. -/
def InstrumentTerms.pays (terms : InstrumentTerms) (side : Side) : AssetNameExchange :=
  if terms.cashSettled then terms.underlying.quote
  else match side with
    | .buy => terms.underlying.quote
    | .sell => terms.underlying.base

/-- What a fill adds to each total. -/
def Settlement.moved (self : Settlement) : AssetNameExchange → Decimal :=
  Pi.single self.asset (AccountState.paidBack (some self.credit) - self.amount) +
    AccountState.deliveredBy (some self.credit)

/-- What the account's totals and net positions come to. -/
structure Books where
  total : AssetNameExchange → Decimal
  positions : BTreeMap InstrumentNameExchange NetPosition

/-- The net positions after a fill of a cash-settled instrument. A flat one is not kept. -/
def positionsAfter (positions : BTreeMap InstrumentNameExchange NetPosition)
    (instrument : InstrumentNameExchange) (side : Side) (fill : Fill) :
    BTreeMap InstrumentNameExchange NetPosition :=
  let position := (positions[instrument]?.getD .default).after side fill.quantity fill.price
  if position.quantity = 0 then positions.erase instrument
  else positions.insert instrument position

namespace Books

/-- The books once more is moved. -/
def plus (books : Books) (moved : AssetNameExchange → Decimal) : Books :=
  { books with total := books.total + moved }

@[simp] theorem plus_zero (books : Books) : books.plus 0 = books := by
  simp [plus]

theorem plus_plus (books : Books) (moved moved' : AssetNameExchange → Decimal) :
    (books.plus moved).plus moved' = books.plus (moved + moved') := by
  simp [plus, add_assoc]

end Books

/-! ## What the events say -/

def AccountEvent.restatement? (event : AccountEvent) : Option AssetBalance :=
  match event.kind with
  | .balanceSnapshot balance => some balance
  | _ => none

def AccountEvent.trade? (event : AccountEvent) : Option VenueTrade :=
  match event.kind with
  | .trade trade => some trade
  | _ => none

def AccountEvent.isMarginDebt (event : AccountEvent) : Bool :=
  match event.kind with
  | .marginDebt _ => true
  | _ => false

def restatements (events : List AccountEvent) : List AssetBalance :=
  events.filterMap AccountEvent.restatement?

def tradesOf (events : List AccountEvent) : List VenueTrade :=
  events.filterMap AccountEvent.trade?

@[simp] theorem restatements_nil : restatements [] = [] := rfl

@[simp] theorem tradesOf_nil : tradesOf [] = [] := rfl

@[simp] theorem restatements_append {events more : List AccountEvent} :
    restatements (events ++ more) = restatements events ++ restatements more :=
  List.filterMap_append

@[simp] theorem tradesOf_append {events more : List AccountEvent} :
    tradesOf (events ++ more) = tradesOf events ++ tradesOf more :=
  List.filterMap_append

namespace SimulatedVenue

/-! ## What an input does not change -/

/-- The part of a venue its inputs leave as it was built. -/
structure Setup where
  exchange : ExchangeId
  feeModel : FeeModelConfig
  spotFeeAsset : SpotFeeAsset
  fillModel : FillModel
  instruments : BTreeMap InstrumentNameExchange VenueInstrument
  regime : VenueRegime
  holdingCosts : List HoldingCostModel
  shortability : Option ShortabilityProvider
  marketOrderTiming : MarketOrderTiming
  staleMarket : StaleMarketPolicy
  spotMargin : Option SpotMarginConfig
  feeAsset : Option FeeAssetConfig
  marginInterest : Option MarginInterestModel

def setup (v : SimulatedVenue) : Setup :=
  { exchange := v.exchange
    feeModel := v.feeModel
    spotFeeAsset := v.spotFeeAsset
    fillModel := v.fillModel
    instruments := v.instruments
    regime := v.regime
    holdingCosts := v.holdingCosts
    shortability := v.shortability
    marketOrderTiming := v.marketOrderTiming
    staleMarket := v.staleMarket
    spotMargin := v.spotMargin
    feeAsset := v.feeAsset
    marginInterest := v.marginInterest }

/-- The part of a venue its balances, its open orders and its trades are read off. -/
structure Core where
  setup : Setup
  balances : BTreeMap AssetNameExchange AssetBalance
  ordersOpen : OpenOrders
  trades : List VenueTrade
  margin : Bool
  positions : BTreeMap InstrumentNameExchange NetPosition

def core (v : SimulatedVenue) : Core :=
  { setup := v.setup
    balances := v.account.balances
    ordersOpen := v.account.ordersOpen
    trades := v.account.trades
    margin := v.account.margin
    positions := v.positions }

variable (v w : SimulatedVenue)

/-- What is withheld of each asset beyond what the open orders reserve. -/
def unreserved : AssetNameExchange → Decimal :=
  v.account.copy.withheld - v.account.ordersOpen.reserved

def books : Books := ⟨v.account.copy.total, v.positions⟩

/-- The books once a trade is recorded, at the fee it reports. -/
def record (books : Books) (trade : VenueTrade) : Books :=
  match v.instrumentTerms trade.instrument with
  | .error _ => books
  | .ok terms =>
      let position := if terms.cashSettled then
          books.positions[trade.instrument]?.getD .default else .default
      let settlement := settlementWithFee v.spotFeeAsset terms position trade.side trade.quantity
        trade.price (trade.fees.feesQuote.getD 0)
      { total := books.total + settlement.moved
        positions := if terms.cashSettled then
            positionsAfter books.positions trade.instrument trade.side
              ⟨trade.quantity, trade.price⟩
          else books.positions }

/-- Buying a unit at a price costs nothing less than nothing, its fee included. -/
def Costs (terms : InstrumentTerms) (side : Side) (price : Decimal) (liquidity : Liquidity) :
    Prop :=
  terms.cashSettled = false → side = .buy →
    0 ≤ (v.settlement terms .default .buy 1 price liquidity).amount

/-! ## The invariant -/

/-- What an open order holds is in the asset it pays with. A queued spot order holds what its fill
    at its limit will settle. -/
def Reserves (asked : Asked) (queued : Prop) (order : OpenOrder) (reservation : Reservation) :
    Prop :=
  ∃ terms, v.instrumentTerms order.key.instrument = .ok terms ∧
    reservation.asset = terms.pays order.side ∧
    (queued → terms.cashSettled = false → ∀ limit, order.price = some limit →
      reservation.amount = (v.settlement terms .default order.side
        (order.state.quantityRemaining order.quantity) limit .maker).amount) ∧
    (asked.solvent → 0 ≤ reservation.amount ∧
      ∀ limit, order.price = some limit → v.Costs terms order.side limit .maker)

/-- The invariant of a venue between the pieces of its inputs. -/
structure Sound (asked : Asked) (v : SimulatedVenue) : Prop where
  listed : v.account.Listed
  margin : v.account.margin = v.spotMargin.isSome
  indexed : v.account.ordersOpen.Indexed
  reserves : ∀ (cid : ClientOrderId) (resting : RestingOrder) (reservation : Reservation),
    v.account.ordersOpen.byId[cid]? = some resting → resting.reservation = some reservation →
      v.Reserves asked (cid ∉ v.account.ordersOpen.unqueued) resting.order reservation
  paired : asked.paired → ∀ instrument terms, v.instrumentTerms instrument = .ok terms →
    terms.cashSettled = false → terms.underlying.base ≠ terms.underlying.quote
  solvent : asked.solvent → 0 ≤ v.unreserved
  cash : asked.cash → v.spotMargin = none ∧ v.feeAsset = none ∧ v.holdingCosts = []

/-- What a piece of an input keeps: the client's copy follows the restatements, `held` is withheld
    beyond what the orders reserve, and the trades recorded give the books, but for `moved`. -/
structure Kept (asked : Asked) (v : SimulatedVenue) (restatements : List AssetBalance)
    (printed : List VenueTrade) (held moved : AssetNameExchange → Decimal) (w : SimulatedVenue) :
    Prop where
  setup : w.setup = v.setup
  sound : w.Sound asked
  copy : asked.paired → w.account.copy = v.account.copy.follow restatements
  unreserved : w.unreserved = v.unreserved + held
  trades : w.account.trades = v.account.trades ++ printed
  books : asked.cash → w.books = (printed.foldl v.record v.books).plus moved

variable {v w}

/-! ## What only depends on how the venue was built -/

theorem instrumentTerms_congr (h : w.setup = v.setup) (instrument : InstrumentNameExchange) :
    w.instrumentTerms instrument = v.instrumentTerms instrument := by
  have hinstruments : w.instruments = v.instruments := congrArg Setup.instruments h
  unfold instrumentTerms
  rw [hinstruments]

theorem settlement_congr (h : w.setup = v.setup) : w.settlement = v.settlement := by
  have hfees : w.feeModel = v.feeModel := congrArg Setup.feeModel h
  have hasset : w.spotFeeAsset = v.spotFeeAsset := congrArg Setup.spotFeeAsset h
  unfold settlement
  rw [hfees, hasset]

theorem spotMargin_congr (h : w.setup = v.setup) : w.spotMargin = v.spotMargin :=
  congrArg Setup.spotMargin h

theorem record_congr (h : w.setup = v.setup) : w.record = v.record := by
  funext books trade
  have hasset : w.spotFeeAsset = v.spotFeeAsset := congrArg Setup.spotFeeAsset h
  unfold record
  rw [instrumentTerms_congr h, hasset]

theorem costs_congr (h : w.setup = v.setup) {terms : InstrumentTerms} {side : Side}
    {price : Decimal} {liquidity : Liquidity} :
    w.Costs terms side price liquidity ↔ v.Costs terms side price liquidity := by
  unfold Costs
  rw [settlement_congr h]

theorem reserves_congr {asked : Asked} {queued queued' : Prop} {order : OpenOrder}
    {reservation : Reservation} (h : w.setup = v.setup) (hqueued : queued' → queued)
    (hreserves : v.Reserves asked queued order reservation) :
    w.Reserves asked queued' order reservation := by
  obtain ⟨terms, hterms, hasset, hexact, hsolvent⟩ := hreserves
  refine ⟨terms, (instrumentTerms_congr h _).trans hterms, hasset, ?_, ?_⟩
  · intro hq
    rw [settlement_congr h]
    exact hexact (hqueued hq)
  · intro hs
    refine ⟨(hsolvent hs).1, fun limit hlimit => ?_⟩
    exact (costs_congr h).2 ((hsolvent hs).2 limit hlimit)

/-! ## Recording trades -/

/-- What is moved besides waits while trades are recorded: what each moves does not read totals. -/
theorem record_plus (books : Books) (moved : AssetNameExchange → Decimal) (trade : VenueTrade) :
    v.record (books.plus moved) trade = (v.record books trade).plus moved := by
  unfold record
  cases v.instrumentTerms trade.instrument with
  | error _ => rfl
  | ok terms =>
    simp only [Books.plus, Books.mk.injEq, and_true]
    exact add_right_comm _ _ _

theorem foldl_record_plus (books : Books) (moved : AssetNameExchange → Decimal)
    (printed : List VenueTrade) :
    printed.foldl v.record (books.plus moved) = (printed.foldl v.record books).plus moved := by
  induction printed generalizing books with
  | nil => rfl
  | cons trade rest ih => rw [List.foldl_cons, List.foldl_cons, record_plus, ih]

/-! ## The invariant and the relation -/

variable {asked : Asked}

/-- Only the core of a venue is asked anything. -/
theorem Sound.of_core (h : v.Sound asked) (hcore : w.core = v.core) : w.Sound asked := by
  have hsetup : w.setup = v.setup := congrArg Core.setup hcore
  have hbalances : w.account.balances = v.account.balances := congrArg Core.balances hcore
  have hmargin : w.account.margin = v.account.margin := congrArg Core.margin hcore
  have horders : w.account.ordersOpen = v.account.ordersOpen := congrArg Core.ordersOpen hcore
  refine
    { listed := ⟨?_, ?_⟩
      margin := ?_
      indexed := ?_
      reserves := ?_
      paired := ?_
      solvent := ?_
      cash := ?_ }
  · rw [hbalances]
    exact h.listed.keyed
  · rw [hbalances, hmargin]
    exact h.listed.lent
  · rw [hmargin, spotMargin_congr hsetup]
    exact h.margin
  · rw [horders]
    exact h.indexed
  · rw [horders]
    intro cid resting reservation hsome hreservation
    exact reserves_congr hsetup id (h.reserves cid resting reservation hsome hreservation)
  · intro hpaired instrument terms hterms
    rw [instrumentTerms_congr hsetup] at hterms
    exact h.paired hpaired instrument terms hterms
  · unfold unreserved AccountState.copy
    rw [hbalances, horders]
    exact h.solvent
  · intro hcash
    have hfee : w.feeAsset = v.feeAsset := congrArg Setup.feeAsset hsetup
    have hcosts : w.holdingCosts = v.holdingCosts := congrArg Setup.holdingCosts hsetup
    rw [spotMargin_congr hsetup, hfee, hcosts]
    exact h.cash hcash

namespace Kept

variable {restated more : List AssetBalance} {printed printed' : List VenueTrade}
  {held held' moved moved' : AssetNameExchange → Decimal} {u : SimulatedVenue}

/-- A piece that leaves the core as it was. -/
theorem of_core (h : v.Sound asked) (hcore : w.core = v.core) : Kept asked v [] [] 0 0 w where
  setup := congrArg Core.setup hcore
  sound := h.of_core hcore
  copy := by
    intro _
    unfold AccountState.copy
    rw [show w.account.balances = v.account.balances from congrArg Core.balances hcore]
    rfl
  unreserved := by
    unfold SimulatedVenue.unreserved AccountState.copy
    rw [show w.account.balances = v.account.balances from congrArg Core.balances hcore,
      show w.account.ordersOpen = v.account.ordersOpen from congrArg Core.ordersOpen hcore,
      add_zero]
  trades := by
    rw [show w.account.trades = v.account.trades from congrArg Core.trades hcore,
      List.append_nil]
  books := by
    intro _
    unfold SimulatedVenue.books AccountState.copy
    rw [show w.account.balances = v.account.balances from congrArg Core.balances hcore,
      show w.positions = v.positions from congrArg Core.positions hcore, Books.plus_zero]
    rfl

theorem refl (h : v.Sound asked) : Kept asked v [] [] 0 0 v := of_core h rfl

theorem trans (hfirst : Kept asked v restated printed held moved w)
    (hsecond : Kept asked w more printed' held' moved' u) :
    Kept asked v (restated ++ more) (printed ++ printed') (held + held') (moved + moved') u where
  setup := hsecond.setup.trans hfirst.setup
  sound := hsecond.sound
  copy hpaired := by
    rw [hsecond.copy hpaired, hfirst.copy hpaired, Copy.follow_append]
  unreserved := by rw [hsecond.unreserved, hfirst.unreserved, add_assoc]
  trades := by rw [hsecond.trades, hfirst.trades, List.append_assoc]
  books hcash := by
    rw [hsecond.books hcash, hfirst.books hcash, record_congr hfirst.setup, foldl_record_plus,
      Books.plus_plus, List.foldl_append]

end Kept

end SimulatedVenue

end Rustrade.Mock
