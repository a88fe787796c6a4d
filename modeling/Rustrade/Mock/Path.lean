import Rustrade.Mock.Kept

/-!
# Paths through an input

An input moves a venue by a few kinds of move: of its ledger, of its orders, its market and its
draws, of a position by a fill, and by the charges of time. A relation each of them keeps holds
between the venue before an input and the venue after, whichever way the input takes. The paths an
order takes are followed here once, for every such relation.
-/

set_option autoImplicit false

theorem Except.gives_true {ε α : Type} {x : Except ε α} : x.Gives fun _ => True := by
  cases x with
  | ok a => trivial
  | error e => exact id

namespace Rustrade.Mock

/-! ## Ended orders -/

/-- Each order is filed under its own id. -/
def ById {State : Type} (orders : BTreeMap ClientOrderId (VenueOrder State)) : Prop :=
  ∀ (cid : ClientOrderId) (order : VenueOrder State), orders[cid]? = some order →
    order.key.cid = cid

namespace ById

variable {State : Type} {orders : BTreeMap ClientOrderId (VenueOrder State)}

theorem empty : ById (∅ : BTreeMap ClientOrderId (VenueOrder State)) := by
  intro cid order hsome
  rw [BTreeMap.get?_empty] at hsome
  cases hsome

theorem insert (h : ById orders) (order : VenueOrder State) :
    ById (orders.insert order.key.cid order) := by
  intro cid found hfound
  rw [BTreeMap.get?_insert] at hfound
  split at hfound
  · rename_i hsame
    cases hfound
    exact hsame
  · exact h cid found hfound

theorem erase (h : ById orders) (forgotten : ClientOrderId) : ById (orders.erase forgotten) := by
  intro cid found hfound
  rw [BTreeMap.get?_erase] at hfound
  split at hfound
  · cases hfound
  · exact h cid found hfound

end ById

namespace AccountState

/-- The orders of an account, open and ended. -/
structure Orders where
  ordersOpen : OpenOrders
  ordersCancelled : BTreeMap ClientOrderId (VenueOrder Cancelled)
  ordersFilled : BTreeMap ClientOrderId (VenueOrder Filled)
  ordersExpired : BTreeMap ClientOrderId (VenueOrder Expired)

def orders (account : AccountState) : Orders :=
  ⟨account.ordersOpen, account.ordersCancelled, account.ordersFilled, account.ordersExpired⟩

/-- Each ended order of the account is filed under its own id. -/
structure EndedById (account : AccountState) : Prop where
  cancelled : ById account.ordersCancelled
  filled : ById account.ordersFilled
  expired : ById account.ordersExpired

namespace EndedById

variable {account : AccountState}

theorem forgetEnded (h : account.EndedById) (cid : ClientOrderId) :
    (account.forgetEnded cid).EndedById :=
  ⟨h.cancelled.erase cid, h.filled.erase cid, h.expired.erase cid⟩

theorem ackCancelled (h : account.EndedById) (order : VenueOrder Cancelled) :
    (account.ackCancelled order).EndedById :=
  ⟨(h.cancelled.erase _).insert order, h.filled.erase _, h.expired.erase _⟩

theorem ackFilled (h : account.EndedById) (order : VenueOrder Filled) :
    (account.ackFilled order).EndedById :=
  ⟨h.cancelled.erase _, (h.filled.erase _).insert order, h.expired.erase _⟩

theorem ackExpired (h : account.EndedById) (order : VenueOrder Expired) :
    (account.ackExpired order).EndedById :=
  ⟨h.cancelled.erase _, h.filled.erase _, (h.expired.erase _).insert order⟩

theorem ackTrade (h : account.EndedById) (trade : VenueTrade) :
    (account.ackTrade trade).EndedById :=
  ⟨h.cancelled, h.filled, h.expired⟩

end EndedById

end AccountState

/-! ## The ledger -/

namespace AccountState

theorem debugAssert_gives [Build] {name : DebugAssertion} {p : Prop} [Decidable p] :
    (debugAssert name p).Gives fun _ => True := Except.gives_true

/-- What an account has, can be lent and owes, and its open orders. -/
structure Standing where
  margin : Bool
  balances : BTreeMap AssetNameExchange AssetBalance
  loansChanged : Nat
  ordersOpen : OpenOrders

def standing (account : AccountState) : Standing :=
  ⟨account.margin, account.balances, account.loansChanged, account.ordersOpen⟩

/-- A relation every move of the ledger and of the open orders keeps, but for taking the held. -/
structure Path [Build] (A : AccountState → AccountState → Prop) : Prop where
  trans {a b c : AccountState} : A a b → A b c → A a c
  /-- The trades are no part of it, nor the ended orders but that each is filed under its id. -/
  same {a b : AccountState} : b.standing = a.standing → (a.EndedById → b.EndedById) → A a b
  book {a b : AccountState} {order : OpenOrder} {reservation : Option Reservation} :
    a.book order reservation = .ok b → A a b
  hold {a b : AccountState} {order : OpenOrder} {reservation : Option Reservation} :
    a.hold order reservation = .ok b → A a b
  removeOrder {a : AccountState} {cid : ClientOrderId} :
    (a.removeOrder cid).Gives fun r => A a r.2
  restamp {a : AccountState} {timeExchange : DateTime} : A a (a.updateTimeExchange timeExchange)
  charge {a : AccountState} {asset : AssetNameExchange} {amount : Decimal}
    {timeExchange : DateTime} : (a.charge asset amount timeExchange).Gives fun r => A a r.1
  chargeInterest {a : AccountState} {asset : AssetNameExchange} {interest : Decimal}
    {timeExchange : DateTime} :
    (a.chargeInterest asset interest timeExchange).Gives fun r => A a r.1
  settle {a : AccountState} {asset : AssetNameExchange} {amount : Decimal}
    {timeExchange : DateTime} : (a.settle asset amount timeExchange).Gives fun r => A a r.1
  release {a : AccountState} {asset : AssetNameExchange} {amount : Decimal}
    {timeExchange : DateTime} : (a.release asset amount timeExchange).Gives fun r => A a r.1
  repayLoan {a : AccountState} {asset : AssetNameExchange} {amount : Decimal}
    {timeExchange : DateTime} : (a.repayLoan asset amount timeExchange).Gives fun r => A a r.1
  deliver {a : AccountState} {delivery : Delivery} {effect : MarginEffect}
    {timeExchange : DateTime} : A a (a.deliver delivery effect timeExchange).1

namespace Path

variable [Build] {A : AccountState → AccountState → Prop} {account : AccountState}
  {timeExchange : DateTime}

theorem refl (hp : Path A) (account : AccountState) : A account account := hp.same rfl id

theorem releaseReservation (hp : Path A) {reservation : Reservation} {autoRepayAtCancel : Bool} :
    (account.releaseReservation reservation autoRepayAtCancel timeExchange).Gives fun r =>
      A account r.1 := by
  unfold AccountState.releaseReservation
  apply hp.release.bind
  intro ⟨released, balance⟩ hreleased
  dsimp only
  split
  · exact hp.repayLoan.mono fun _ hr => hp.trans hreleased hr
  · exact hreleased

end Path

end AccountState

/-! ## The venue -/

namespace SimulatedVenue

variable {v u w : SimulatedVenue} {timeExchange : DateTime}

/-- What the charges of a venue are read off, its ledger apart. -/
structure Charging where
  setup : Setup
  positions : BTreeMap InstrumentNameExchange NetPosition
  accruedThrough : Option DateTime
  nextCharge : Option DateTime
  nextInterest : Option DateTime
  nextInterestLoans : Nat

def charging (v : SimulatedVenue) : Charging :=
  ⟨v.setup, v.positions, v.accruedThrough, v.nextCharge, v.nextInterest, v.nextInterestLoans⟩

variable [Build]

/-- A relation every move of a venue keeps, but for the release of its held orders. `Priced` is what
    a commitment is promised of the market its order is priced from, and `A` what the moves of the
    ledger keep. -/
structure Moves
    (Priced : SimulatedVenue → InstrumentNameExchange → InstrumentTerms → Option MarketSnapshot →
      Prop)
    (A : AccountState → AccountState → Prop) (R : SimulatedVenue → SimulatedVenue → Prop) :
    Prop where
  account : AccountState.Path A
  trans {v u w : SimulatedVenue} : R v u → R u w → R v w
  ledger {v w : SimulatedVenue} : w.charging = v.charging → A v.account w.account → R v w
  recordFill {v : SimulatedVenue} {terms : InstrumentTerms} {instrument : InstrumentNameExchange}
    {side : Side} {fill : Fill} : (v.recordFill terms instrument side fill).Gives (R v)
  commit {v : SimulatedVenue} {debit : Debit} {credit : Option Credit} {effect : MarginEffect}
    {terms : InstrumentTerms} {market : Option MarketSnapshot} {borrower : Option Borrower}
    {timeExchange : DateTime} (instrument : InstrumentNameExchange) :
    Priced v instrument terms market →
      (v.commit debit credit effect terms market borrower timeExchange).Gives fun r => R v r.1
  accrue {v : SimulatedVenue} {now : DateTime} : (v.accrue now).Gives fun r => R v r.1
  finish {v : SimulatedVenue} {events : List AccountEvent} :
    (v.finish events).Gives fun r => R v r.1
  priced_none {v : SimulatedVenue} {instrument : InstrumentNameExchange} {terms : InstrumentTerms} :
    Priced v instrument terms none
  priced_own {v : SimulatedVenue} {instrument : InstrumentNameExchange} {terms : InstrumentTerms} :
    v.instrumentTerms instrument = .ok terms →
      Priced v instrument terms (v.market[instrument]?.map fun market => market.snapshot)
  priced_getD {v : SimulatedVenue} {instrument : InstrumentNameExchange} {terms : InstrumentTerms}
    {market : Option MarketSnapshot} : v.instrumentTerms instrument = .ok terms →
      Priced v instrument terms market → Priced v instrument terms (some (market.getD .default))
  priced_draw {v : SimulatedVenue} {instrument : InstrumentNameExchange} {terms : InstrumentTerms}
    {market : Option MarketSnapshot} {slippage : Slippage} :
    Priced v instrument terms market → Priced { v with slippage } instrument terms market

namespace Moves

variable {Priced : SimulatedVenue → InstrumentNameExchange → InstrumentTerms →
    Option MarketSnapshot → Prop}
  {A : AccountState → AccountState → Prop} {R : SimulatedVenue → SimulatedVenue → Prop}
  {order : OpenOrder} {terms : InstrumentTerms} {reservation : Option Reservation}
  {instrument : InstrumentNameExchange} {cid : ClientOrderId} {settlement : Settlement}
  {debit : Debit} {credit : Option Credit}

/-! ### Rules -/

/-- A move of the orders, the market, the draws or the sequences alone. -/
theorem aside (hp : Moves Priced A R) (hcharging : w.charging = v.charging)
    (hstanding : w.account.standing = v.account.standing)
    (hended : v.account.EndedById → w.account.EndedById) : R v w :=
  hp.ledger hcharging (hp.account.same hstanding hended)

theorem refl (hp : Moves Priced A R) (v : SimulatedVenue) : R v v := hp.aside rfl rfl id

/-- What goes on from where the venue is. -/
theorem onward (hp : Moves Priced A R) {α : Type} {x : Except Fault (SimulatedVenue × α)}
    (h : R v u) (hx : x.Gives fun r => R u r.1) : x.Gives fun r => R v r.1 :=
  hx.mono fun _ hr => hp.trans h hr

theorem andThen (hp : Moves Priced A R) {first : Events} {next : SimulatedVenue → Events}
    (hfirst : first.Gives fun r => R v r.1) (hnext : ∀ u, (next u).Gives fun r => R u r.1) :
    (Gather.andThen first next).Gives fun r => R v r.1 := by
  apply Gather.andThen_ensures hfirst
  intro u events hu
  exact hp.onward hu (hnext u)

theorem run (hp : Moves Priced A R) {Item : Type} {step : SimulatedVenue → Item → Events}
    (hstep : ∀ u item, (step u item).Gives fun r => R u r.1) (items : List Item) :
    (Gather.run step v items).Gives fun r => R v r.1 :=
  Gather.run_gives hp.refl hp.trans hstep v items

/-! ### Interest and holds -/

theorem releaseReservation (hp : Moves Priced A R) {reservation : Reservation} :
    (v.releaseReservation reservation timeExchange).Gives fun r => R v r.1 := by
  apply hp.account.releaseReservation.bind
  exact fun _ hr => hp.ledger rfl hr

theorem releaseHeld (hp : Moves Priced A R) :
    (v.releaseHeld reservation timeExchange).Gives fun r => R v r.1 := by
  unfold SimulatedVenue.releaseHeld
  split
  · exact hp.refl v
  · apply hp.releaseReservation.bind
    exact fun _ hr => hr

theorem removeOrder (hp : Moves Priced A R) : (v.removeOrder cid).Gives fun r => R v r.2 := by
  apply hp.account.removeOrder.bind
  exact fun _ hr => hp.ledger rfl hr

/-! ### Commitments -/

theorem releaseAfresh (hp : Moves Priced A R) :
    (v.releaseAfresh reservation timeExchange).Gives fun r => R v r.1 := by
  unfold SimulatedVenue.releaseAfresh
  split
  · exact hp.refl v
  · apply hp.account.release.bind
    exact fun _ hr => hp.ledger rfl hr

theorem repayUnused (hp : Moves Priced A R) {reservation : Reservation} {commitment : Commitment} :
    (v.repayUnused reservation debit commitment timeExchange).Gives fun r => R v r.1 := by
  unfold SimulatedVenue.repayUnused
  dsimp only
  split
  · apply Except.gives_true.bind
    intro _ _
    apply hp.account.repayLoan.bind
    exact fun _ hr => hp.ledger rfl hr
  · exact hp.refl v

theorem keepAfresh (hp : Moves Priced A R) {released : Option (Reservation × AssetBalance)}
    {commitment : Commitment} :
    (v.keepAfresh released debit commitment timeExchange).Gives fun r => R v r.1 := by
  unfold SimulatedVenue.keepAfresh
  split
  · exact hp.refl v
  · apply hp.repayUnused.bind
    exact fun _ hr => hr

theorem giveBackAfresh (hp : Moves Priced A R) {released : Option (Reservation × AssetBalance)} :
    (v.giveBackAfresh released timeExchange).Gives fun r => R v r.1 := by
  unfold SimulatedVenue.giveBackAfresh
  split
  · exact hp.refl v
  · split
    · exact hp.refl v
    · apply hp.account.repayLoan.bind
      exact fun _ hr => hp.ledger rfl hr

/-- An order costed afresh is priced from no market. -/
theorem commitAfresh (hp : Moves Priced A R) :
    (v.commitAfresh order terms reservation debit credit timeExchange).Gives fun r => R v r.1 := by
  apply hp.releaseAfresh.bind
  intro ⟨freed, released⟩ hfreed
  apply (hp.onward hfreed (hp.commit order.key.instrument hp.priced_none)).bind
  rintro ⟨after, insufficient | commitment⟩ hcommitted
  · exact hp.onward hcommitted hp.giveBackAfresh
  · exact hp.onward hcommitted hp.keepAfresh

theorem settleRestingAfresh (hp : Moves Priced A R) :
    (v.settleRestingAfresh order terms reservation settlement timeExchange).Gives fun r =>
      R v r.1 := by
  apply hp.commitAfresh.bind
  rintro ⟨after, _ | _⟩ hmoved
  · exact hmoved
  · exact hmoved

theorem settleReserved (hp : Moves Priced A R) {reservation : Reservation} {delivery : Delivery} :
    (v.settleReserved reservation settlement delivery timeExchange).Gives fun r => R v r.1 := by
  apply Except.gives_true.bind
  intro _ _
  apply hp.account.settle.bind
  intro ⟨settled, paid⟩ hsettled
  exact hp.ledger rfl (hp.account.trans hsettled hp.account.deliver)

theorem settleSeeded (hp : Moves Priced A R) :
    (v.settleSeeded order terms settlement timeExchange).Gives fun r => R v r.1 := by
  apply (hp.commit order.key.instrument hp.priced_none).bind
  rintro ⟨after, _ | commitment⟩ hmoved
  · exact id
  · exact hmoved

theorem settleResting (hp : Moves Priced A R) :
    (v.settleResting order terms reservation settlement timeExchange).Gives fun r => R v r.1 := by
  unfold SimulatedVenue.settleResting
  split
  · exact hp.settleRestingAfresh
  split
  · exact hp.settleRestingAfresh
  split
  · exact hp.settleRestingAfresh
  split
  · apply hp.settleSeeded.bind
    exact fun _ hr => hr
  · apply hp.settleReserved.bind
    exact fun _ hr => hr

theorem takeFeeApart (hp : Moves Priced A R) {commitment : Commitment} :
    (v.takeFeeApart settlement commitment timeExchange).Gives fun r => R v r.1 := by
  unfold SimulatedVenue.takeFeeApart
  split
  · exact hp.refl v
  · apply hp.account.charge.bind
    exact fun _ hr => hp.ledger rfl hr

/-! ### Fills and ends -/

theorem consumeDepth (hp : Moves Priced A R) {side : Side} {quantity : Decimal} :
    (v.consumeDepth instrument side quantity).Gives (R v) := by
  unfold SimulatedVenue.consumeDepth
  split
  · exact hp.refl v
  · apply Except.gives_true.bind
    exact fun _ _ => hp.aside rfl rfl id

theorem printFill (hp : Moves Priced A R) {fill : Fill} {fees : AssetFees AssetNameExchange} :
    (v.printFill terms order fill fees timeExchange).Gives fun r => R v r.1 := by
  apply hp.recordFill.bind
  exact fun _ hr => hp.trans hr (hp.aside rfl rfl (·.ackTrade _))

theorem retireExpired (hp : Moves Priced A R) {resting : RestingOrder} :
    (v.retireExpired resting timeExchange).Gives fun r => R v r.1 := by
  apply hp.releaseHeld.bind
  exact fun _ hr => hp.trans hr (hp.aside rfl rfl (·.ackExpired _))

theorem cancelReleased (hp : Moves Priced A R) {resting : RestingOrder} :
    (v.cancelReleased resting timeExchange).Gives fun r => R v r.1 := by
  apply hp.releaseHeld.bind
  exact fun _ hr => hp.trans hr (hp.aside rfl rfl (·.ackCancelled _))

/-! ### Resting orders -/

theorem crossResting (hp : Moves Priced A R) {crossing : ClientOrderId × Decimal} :
    (v.crossResting terms instrument timeExchange crossing).Gives fun r => R v r.1 := by
  apply hp.removeOrder.bind
  rintro ⟨_ | ⟨order, reservation⟩, venue⟩ hremoved
  · exact hremoved
  apply Except.gives_true.bind
  intro _ _
  apply (hp.onward hremoved hp.settleResting).bind
  rintro ⟨settled, commitment | released⟩ hsettled
  · apply (hp.onward hsettled hp.takeFeeApart).bind
    intro ⟨charged, commitment⟩ hcharged
    apply (hp.onward hcharged hp.printFill).bind
    exact fun _ hr => hp.trans hr (hp.aside rfl rfl (·.ackFilled _))
  · exact hp.trans hsettled (hp.aside rfl rfl (·.ackCancelled _))

theorem matchResting (hp : Moves Priced A R) {snapshot : MarketSnapshot} :
    (v.matchResting instrument snapshot timeExchange).Gives fun r => R v r.1 := by
  unfold SimulatedVenue.matchResting
  dsimp only
  split
  · exact hp.refl v
  split
  · exact id
  · exact hp.run (fun _ _ => hp.crossResting) _

/-! ### Held orders -/

theorem bookRested (hp : Moves Priced A R) {reservation : Reservation} :
    (v.bookRested order reservation).Gives (R v) := by
  unfold SimulatedVenue.bookRested
  cases hbooked : v.account.book order (some reservation) with
  | error resting => exact id
  | ok account => exact hp.ledger rfl (hp.account.book hbooked)

variable [RandomStream]

theorem fillHeld (hp : Moves Priced A R) {resting : RestingOrder} {release : Release} :
    (v.fillHeld resting release terms timeExchange).Gives fun r => R v r.1 := by
  unfold SimulatedVenue.fillHeld
  extract_lets order side quantity filledQuantity
  split
  · exact hp.cancelReleased
  rename_i reference _
  split
  · exact hp.cancelReleased
  have hdrawn : R v { v with slippage := (v.slippage.apply side reference).2 } :=
    hp.aside rfl rfl id
  apply (hp.onward hdrawn hp.settleRestingAfresh).bind
  rintro ⟨settled, commitment | released⟩ hsettled
  · apply (hp.onward hsettled hp.takeFeeApart).bind
    intro ⟨charged, commitment⟩ hcharged
    apply hp.consumeDepth.bind
    intro consumed hconsumed
    apply (hp.onward (hp.trans hcharged hconsumed) hp.printFill).bind
    intro ⟨printed, trade⟩ hprinted
    dsimp only
    split
    · exact hp.trans hprinted (hp.aside rfl rfl (·.ackFilled _))
    · exact hp.trans hprinted (hp.aside rfl rfl (·.ackCancelled _))
  · exact hp.trans hsettled (hp.aside rfl rfl (·.ackCancelled _))

omit [RandomStream] in
theorem printRelease (hp : Moves Priced A R) {decided : LimitRelease} {commitment : Commitment} :
    (v.printRelease terms order decided commitment timeExchange).Gives fun r => R v r.1 := by
  unfold SimulatedVenue.printRelease
  split
  · exact hp.refl v
  · apply hp.takeFeeApart.bind
    intro ⟨charged, commitment⟩ hcharged
    apply hp.consumeDepth.bind
    intro consumed hconsumed
    apply (hp.onward (hp.trans hcharged hconsumed) hp.printFill).bind
    exact fun _ hr => hr

theorem releaseHeldLimit (hp : Moves Priced A R) {resting : RestingOrder} {limit : Decimal}
    {release : Release} :
    (v.releaseHeldLimit resting limit release terms timeExchange).Gives fun r => R v r.1 := by
  unfold SimulatedVenue.releaseHeldLimit
  dsimp only
  split
  · exact hp.cancelReleased
  apply Except.gives_true.bind
  intro ⟨debit, credit⟩ _
  have hdrawn : R v { v with slippage :=
      (v.limitRelease resting.order limit release terms).2 } :=
    hp.aside rfl rfl id
  apply (hp.onward hdrawn hp.commitAfresh).bind
  rintro ⟨committed, ⟨commitment, loan, excessBorrowed⟩ | released⟩ hcommitted
  · apply (hp.onward hcommitted hp.printRelease).bind
    intro ⟨printed, commitment, trade⟩ hprinted
    dsimp only
    split
    · apply hp.bookRested.bind
      exact fun _ hr => hp.trans hprinted hr
    · apply Except.gives_true.bind
      exact fun _ _ =>
        hp.trans hprinted (hp.aside rfl rfl (·.ackFilled _))
  · exact hp.trans hcommitted (hp.aside rfl rfl (·.ackCancelled _))

theorem releaseOne (hp : Moves Priced A R) {release : Release} :
    (v.releaseOne release terms timeExchange cid).Gives fun r => R v r.1 := by
  apply hp.removeOrder.bind
  rintro ⟨_ | resting, venue⟩ hremoved
  · exact hremoved
  apply Except.gives_true.bind
  intro _ _
  split
  · exact hp.onward hremoved hp.releaseHeldLimit
  · exact hp.onward hremoved hp.fillHeld

/-- What the release of one held order after another keeps, so does the release of them all, where
    taking them keeps it. -/
theorem releaseTaking (hp : Moves Priced A R) {release : Release}
    (htaken : R v { v with account := (v.account.takeHeld instrument).2 }) :
    (v.release instrument release timeExchange).Gives fun r => R v r.1 := by
  unfold SimulatedVenue.release
  dsimp only
  split
  · exact htaken
  split
  · exact id
  · exact hp.onward htaken (hp.run (fun _ _ => hp.releaseOne) _)

/-! ### Ends -/

omit [RandomStream]

theorem cancelOpen (hp : Moves Priced A R) :
    (v.cancelOpen timeExchange cid).Gives fun r => R v r.1 := by
  apply hp.removeOrder.bind
  rintro ⟨_ | resting, venue⟩ hremoved
  · exact hremoved
  · exact hp.onward hremoved hp.cancelReleased

theorem retireOpen (hp : Moves Priced A R) :
    (v.retireOpen timeExchange cid).Gives fun r => R v r.1 := by
  apply hp.removeOrder.bind
  rintro ⟨_ | resting, venue⟩ hremoved
  · exact hremoved
  · exact hp.onward hremoved hp.retireExpired

theorem cancelHeldImmediate (hp : Moves Priced A R) :
    (v.cancelHeldImmediate instrument timeExchange).Gives fun r => R v r.1 :=
  hp.run (fun _ _ => hp.cancelOpen) _

theorem sweepExpired (hp : Moves Priced A R) :
    (v.sweepExpired timeExchange).Gives fun r => R v r.1 :=
  hp.run (fun _ _ => hp.retireOpen) _

theorem cancelEveryOrder (hp : Moves Priced A R) :
    (v.cancelEveryOrder timeExchange).Gives fun r => R v r.1 :=
  hp.run (fun _ _ => hp.cancelOpen) _

theorem retireHeld (hp : Moves Priced A R) : (v.retireHeld timeExchange).Gives fun r => R v r.1 :=
  hp.run (fun _ _ => hp.retireOpen) _

/-! ### Arrivals -/

variable {request : OpenRequest} {market : Option MarketSnapshot}

theorem restOrder (hp : Moves Priced A R) {limit filledQuantity : Decimal}
    (hterms : v.instrumentTerms request.key.instrument = .ok terms) :
    (v.restOrder request limit terms filledQuantity).Gives fun r => R v r.1 := by
  apply (hp.commit request.key.instrument (hp.priced_own hterms)).bind
  rintro ⟨committed, insufficient | commitment⟩ hcommitted
  · exact hcommitted
  · have hnamed : R v { committed with orderSequence := committed.orderSequence + 1 } :=
      hp.trans hcommitted (hp.aside rfl rfl id)
    apply hp.bookRested.bind
    exact fun _ hr => hp.trans hnamed hr

theorem holdOnArrival (hp : Moves Priced A R)
    (hpriced : Priced v request.key.instrument terms market) :
    (v.holdOnArrival request market terms).Gives fun r => R v r.1 := by
  unfold SimulatedVenue.holdOnArrival
  extract_lets waitsForBar barless
  split
  · exact hp.refl v
  dsimp only
  split
  · exact hp.refl v
  apply (hp.commit request.key.instrument hpriced).bind
  rintro ⟨committed, insufficient | commitment⟩ hcommitted
  · exact hcommitted
  · dsimp only
    cases hheld : AccountState.hold _ _ _ with
    | error resting => exact id
    | ok account => exact hp.trans hcommitted (hp.ledger rfl (hp.account.hold hheld))

theorem retireFilled (hp : Moves Priced A R) {orderId : OrderId} {fill : Fill}
    {held : Option Settlement} {committed : Committed} :
    (v.retireFilled request orderId fill held committed timeExchange).Gives fun r => R v r.1 := by
  unfold SimulatedVenue.retireFilled
  split
  · apply hp.bookRested.bind
    exact fun _ hr => hr
  · split
    · exact hp.aside rfl rfl (·.ackFilled _)
    · exact hp.aside rfl rfl (·.ackCancelled _)

theorem printArrival (hp : Moves Priced A R) {fill : Fill} {fees : AssetFees AssetNameExchange} :
    (v.printArrival request terms fill fees timeExchange).Gives fun r => R v r.1 := by
  apply hp.consumeDepth.bind
  intro consumed hconsumed
  apply hp.recordFill.bind
  exact fun _ hr => hp.trans (hp.trans hconsumed hr) (hp.aside rfl rfl (·.ackTrade _))

variable [RandomStream]

theorem fillOnArrival (hp : Moves Priced A R) {remainder : Remainder}
    (hterms : v.instrumentTerms request.key.instrument = .ok terms)
    (hpriced : Priced v request.key.instrument terms market) :
    (v.fillOnArrival request market terms remainder).Gives fun r => R v r.1 := by
  unfold SimulatedVenue.fillOnArrival
  extract_lets marketSupplied seen side timeExchange filledQuantity unfilled
  split
  · exact hp.refl v
  rename_i reference _
  split
  · split
    · exact hp.restOrder hterms
    · exact hp.aside rfl rfl (·.ackCancelled _)
    · exact hp.aside rfl rfl (·.ackCancelled _)
  have hdrawn : R v { v with slippage := (v.slippage.apply side reference).2 } :=
    hp.aside rfl rfl id
  apply Except.gives_true.bind
  intro debit _
  apply (hp.onward hdrawn (hp.commit request.key.instrument
    (hp.priced_draw (hp.priced_getD hterms hpriced)))).bind
  rintro ⟨committed, insufficient | commitment⟩ hcommitted
  · exact hp.trans hcommitted (hp.aside rfl rfl id)
  · apply (hp.onward hcommitted hp.takeFeeApart).bind
    intro ⟨charged, commitment⟩ hcharged
    apply (hp.onward hcharged hp.printArrival).bind
    intro ⟨printed, trade⟩ hprinted
    apply (hp.onward hprinted hp.retireFilled).bind
    exact fun _ hr => hr

theorem decideArrival (hp : Moves Priced A R) {now : DateTime}
    (hterms : v.instrumentTerms request.key.instrument = .ok terms)
    (hpriced : Priced v request.key.instrument terms market) :
    (v.decideArrival request market terms now).Gives fun r => R v r.1 := by
  have hcancelled : (v.cancelOnArrival request now).Gives fun r => R v r.1 :=
    hp.aside rfl rfl (·.ackCancelled _)
  have hexpired : (v.expireOnArrival request now).Gives fun r => R v r.1 :=
    hp.aside rfl rfl (·.ackExpired _)
  have hfilled (remainder : Remainder) :
      (v.fillOnArrival request market terms remainder).Gives fun r => R v r.1 :=
    hp.fillOnArrival hterms hpriced
  have hheld : (v.holdOnArrival request market terms).Gives fun r => R v r.1 :=
    hp.holdOnArrival hpriced
  unfold SimulatedVenue.decideArrival
  extract_lets waitsForBar
  split
  · split
    · split
      · exact hheld
      · exact hfilled _
    · split
      · exact hheld
      · exact hfilled _
    · exact hexpired
    · exact hcancelled
    · exact hcancelled
    · exact hcancelled
  · extract_lets marketable
    split
    · exact hfilled _
    · exact hfilled _
    · exact hfilled _
    · exact hp.restOrder hterms
    · exact hcancelled
    · exact hexpired

theorem gateArrival (hp : Moves Priced A R)
    (hterms : v.instrumentTerms request.key.instrument = .ok terms)
    (hpriced : Priced v request.key.instrument terms market) :
    (v.gateArrival request market terms).Gives fun r => R v r.1 := by
  unfold SimulatedVenue.gateArrival
  extract_lets now expired
  split
  · split
    · exact hp.refl v
    · split
      · exact hp.refl v
      · exact hp.holdOnArrival hpriced
    · exact hp.decideArrival hterms hpriced
    · exact hp.decideArrival hterms hpriced
  · exact hp.decideArrival hterms hpriced

/-- An arriving order, priced as a commitment of the venue may be. -/
theorem openOrderInner (hp : Moves Priced A R)
    (hpriced : ∀ terms, v.instrumentTerms request.key.instrument = .ok terms →
      Priced v request.key.instrument terms market) :
    (v.openOrderInner request market).Gives fun r => R v r.1 := by
  unfold SimulatedVenue.openOrderInner
  split
  · exact hp.refl v
  split
  · exact hp.refl v
  split
  · exact hp.refl v
  split
  · exact hp.refl v
  rename_i terms hterms
  split
  · exact hp.refl v
  split
  · exact hp.refl v
  split
  · exact hp.refl v
  split
  · exact hp.refl v
  exact hp.gateArrival hterms (hpriced terms hterms)

omit [RandomStream]

/-! ### A liquidation -/

section Liquidation

variable [RandomStream] [DecimalScale] {valuation asset : AssetNameExchange}

omit [DecimalScale] in
theorem leg (hp : Moves Priced A R) {pay receive : AssetNameExchange} {want : Decimal} :
    (v.leg pay receive want).Gives fun r => R v r.1 := by
  have hsame : R v v := hp.refl v
  unfold SimulatedVenue.leg
  extract_lets pair
  clear_value pair
  cases pair with
  | none => exact hsame
  | some pair =>
  dsimp only
  generalize (if pair.inverse = true then Side.buy else Side.sell) = side
  split
  · apply Except.gives_true.bind
    rintro (_ | reference) _
    · exact hsame
    · dsimp only
      split
      · exact hp.aside rfl rfl id
      · split
        · exact hp.aside rfl rfl id
        · split
          · exact hp.aside rfl rfl id
          · exact hp.aside rfl rfl id
  · exact hsame

omit [RandomStream] [DecimalScale] in
theorem printLeg (hp : Moves Priced A R) {leg : Leg} {quantity : Decimal}
    {fees : AssetFees AssetNameExchange} :
    (v.printLeg leg quantity fees timeExchange).Gives fun r => R v r.1 := by
  apply hp.consumeDepth.bind
  exact fun _ hr => hp.trans hr (hp.aside rfl rfl (·.ackTrade _))

omit [RandomStream] in
/-- A liquidation's trade is priced from no market. -/
theorem fillLeg (hp : Moves Priced A R) {leg : Leg} {want : Decimal} :
    (v.fillLeg leg want timeExchange).Gives fun r => R v r.1.1 := by
  unfold SimulatedVenue.fillLeg
  split
  · exact hp.refl v
  · apply (hp.commit leg.instrument hp.priced_none).bind
    rintro ⟨committed, insufficient | commitment⟩ hcommitted
    · exact hcommitted
    · apply (hp.onward hcommitted hp.takeFeeApart).bind
      intro ⟨charged, commitment⟩ hcharged
      apply (hp.onward hcharged hp.printLeg).bind
      exact fun _ hr => hr

theorem raiseFrom (hp : Moves Priced A R) {raising : SimulatedVenue × Decimal} :
    (SimulatedVenue.raiseFrom valuation timeExchange raising asset).Gives fun r =>
      R raising.1 r.1.1 := by
  unfold SimulatedVenue.raiseFrom
  dsimp only
  split
  · exact hp.refl _
  · apply hp.leg.bind
    rintro ⟨drawn, _ | leg⟩ hdrawn
    · exact hdrawn
    · apply hp.fillLeg.bind
      exact fun _ hr => hp.trans hdrawn hr

theorem raise (hp : Moves Priced A R) {need : Decimal} :
    (v.raise valuation need timeExchange).Gives fun r => R v r.1 := by
  unfold SimulatedVenue.raise
  extract_lets held
  have hrun : (Gather.run (SimulatedVenue.raiseFrom valuation timeExchange) (v, need) held).Gives
      fun r => R v r.1.1 :=
    Gather.run_gives (R := fun u w => R u.1 w.1) (fun u => hp.refl u.1) hp.trans
      (fun _ _ => hp.raiseFrom) (v, need) held
  apply hrun.bind
  exact fun _ hr => hr

theorem buyBack (hp : Moves Priced A R) :
    (v.buyBack valuation timeExchange asset).Gives fun r => R v r.1 := by
  unfold SimulatedVenue.buyBack
  extract_lets owed
  split
  · exact hp.refl v
  · apply hp.leg.bind
    rintro ⟨drawn, _ | leg⟩ hdrawn
    · exact hdrawn
    · apply hp.onward hdrawn
      apply hp.andThen hp.raise
      intro raised
      apply hp.fillLeg.bind
      exact fun _ hr => hr

omit [RandomStream] [DecimalScale] in
theorem repayOwed (hp : Moves Priced A R) :
    (v.repayOwed timeExchange asset).Gives fun r => R v r.1 := by
  unfold SimulatedVenue.repayOwed
  split
  · apply hp.account.repayLoan.bind
    exact fun _ hr => hp.ledger rfl hr
  · exact hp.refl v

theorem chargeLiquidationFee (hp : Moves Priced A R) {rate repaid : Decimal} :
    (v.chargeLiquidationFee valuation rate repaid timeExchange).Gives fun r => R v r.1 := by
  unfold SimulatedVenue.chargeLiquidationFee
  extract_lets fee
  split
  · exact hp.refl v
  · apply hp.andThen hp.raise
    intro raised
    exact hp.ledger rfl hp.account.deliver

omit [RandomStream] [DecimalScale] in
theorem beginLiquidation (hp : Moves Priced A R) {level : Decimal} :
    R v (v.beginLiquidation level timeExchange).1 := by
  unfold SimulatedVenue.beginLiquidation
  split
  · exact hp.refl v
  · exact hp.aside rfl rfl id

omit [RandomStream] [DecimalScale] in
theorem endLiquidation (hp : Moves Priced A R) : R v v.endLiquidation := by
  unfold SimulatedVenue.endLiquidation
  split
  · exact hp.aside rfl rfl id
  · exact hp.refl v

theorem repayDebts (hp : Moves Priced A R) {liquidation : SpotMarginLiquidation} :
    (v.repayDebts liquidation valuation timeExchange).Gives fun r => R v r.1 := by
  unfold SimulatedVenue.repayDebts
  extract_lets debtBefore
  apply hp.andThen (hp.run (fun _ _ => hp.repayOwed) _)
  intro repaid
  apply hp.andThen hp.raise
  intro raised
  apply hp.andThen (hp.run (fun _ _ => hp.buyBack) _)
  intro bought
  exact hp.chargeLiquidationFee

theorem liquidate (hp : Moves Priced A R) {liquidation : SpotMarginLiquidation} {level : Decimal} :
    (v.liquidate liquidation valuation level timeExchange).Gives fun r => R v r.1 := by
  have hbegun : (.ok (v.beginLiquidation level timeExchange) : Events).Gives fun r => R v r.1 :=
    hp.beginLiquidation
  apply hp.andThen hbegun
  intro begun
  apply hp.andThen hp.cancelEveryOrder
  intro cancelled
  apply hp.andThen hp.repayDebts
  intro repaid
  exact hp.endLiquidation

omit [RandomStream] [DecimalScale] in
theorem noteMarginCall (hp : Moves Priced A R) {called : Bool} {level : Option Decimal} :
    R v (v.noteMarginCall called level timeExchange).1 := by
  unfold SimulatedVenue.noteMarginCall
  split
  · exact hp.refl v
  · exact hp.aside rfl rfl id

theorem checkMargin (hp : Moves Priced A R) :
    (v.checkMargin timeExchange).Gives fun r => R v r.1 := by
  unfold SimulatedVenue.checkMargin
  split
  · split
    · have hended : R v { v with liquidation := { v.liquidation with underWay := false } } :=
        hp.aside rfl rfl id
      exact hp.trans hended hp.noteMarginCall
    · split
      · exact hp.refl v
      · split
        · exact hp.refl v
        · extract_lets level
          split
          · exact hp.liquidate
          · split
            · exact hp.refl v
            · exact hp.noteMarginCall
  · exact hp.refl v

/-! ### Inputs -/

omit [RandomStream] [DecimalScale] in
theorem recordBorrowPrice (hp : Moves Priced A R) {snapshot : MarketSnapshot}
    {bar : Option MarketBar} :
    (v.recordBorrowPrice instrument snapshot bar timeExchange).Gives (R v) := by
  unfold SimulatedVenue.recordBorrowPrice
  split
  · exact hp.refl v
  split
  · extract_lets prices
    split
    · apply Except.gives_true.bind
      exact fun _ _ => hp.aside rfl rfl id
    · exact hp.refl v
  · exact hp.refl v

theorem advanceTime (hp : Moves Priced A R) :
    (v.advanceTime timeExchange).Gives fun r => R v r.1 := by
  unfold SimulatedVenue.advanceTime
  extract_lets reached
  have hpieces : (Gather.andThen (v.accrue reached) fun venue =>
      Gather.andThen ((venue.reached reached).sweepExpired reached) fun venue =>
        venue.checkMargin reached).Gives fun r => R v r.1 := by
    apply hp.andThen hp.accrue
    intro accrued
    have hreached : R accrued (accrued.reached reached) :=
      hp.ledger rfl hp.account.restamp
    exact hp.andThen (hp.onward hreached hp.sweepExpired) fun _ => hp.checkMargin
  apply hpieces.bind
  intro ⟨venue, events⟩ hvenue
  exact hp.onward hvenue hp.finish

omit [DecimalScale] in
theorem openOrder (hp : Moves Priced A R)
    (hpriced : ∀ terms, v.instrumentTerms request.key.instrument = .ok terms →
      Priced v request.key.instrument terms (v.pricingMarket request)) :
    (v.openOrder request).Gives fun r => R v r.1 := by
  apply (hp.openOrderInner hpriced).bind
  intro ⟨venue, response, notifications⟩ hopened
  apply (hp.onward hopened hp.finish).bind
  exact fun _ hr => hr

omit [RandomStream] [DecimalScale] in
theorem cancelOrder (hp : Moves Priced A R) {request : CancelRequest} :
    (v.cancelOrder request).Gives fun r => R v r.1 := by
  apply hp.removeOrder.bind
  rintro ⟨_ | ⟨order, reservation⟩, venue⟩ hremoved
  · exact hremoved
  · apply (hp.onward hremoved hp.releaseHeld).bind
    intro ⟨released, given⟩ hreleased
    apply (hp.onward hreleased hp.finish).bind
    exact fun _ hr => hp.trans hr (hp.aside rfl rfl (·.ackCancelled _))

omit [RandomStream] [DecimalScale] in
theorem expireHeld (hp : Moves Priced A R) :
    (v.expireHeld timeExchange).Gives fun r => R v r.1 := by
  apply hp.retireHeld.bind
  intro ⟨venue, events⟩ hretired
  exact hp.onward hretired hp.finish

end Liquidation

end Moves

variable [RandomStream]

/-- A relation every move of a venue keeps, the release of its held orders among them. -/
structure Path
    (Priced : SimulatedVenue → InstrumentNameExchange → InstrumentTerms → Option MarketSnapshot →
      Prop)
    (A : AccountState → AccountState → Prop) (R : SimulatedVenue → SimulatedVenue → Prop) :
    Prop extends Moves Priced A R where
  release {v : SimulatedVenue} {instrument : InstrumentNameExchange} {release : Release}
    {timeExchange : DateTime} : (v.release instrument release timeExchange).Gives fun r => R v r.1

namespace Path

variable {Priced : SimulatedVenue → InstrumentNameExchange → InstrumentTerms →
    Option MarketSnapshot → Prop}
  {A : AccountState → AccountState → Prop} {R : SimulatedVenue → SimulatedVenue → Prop}
  {instrument : InstrumentNameExchange}

theorem trade (hp : Path Priced A R) {observation : MarketObservation} :
    (v.trade instrument observation timeExchange).Gives fun r => R v r.1 := by
  have hcross (u : SimulatedVenue) (crosses : Bool) :
      (if crosses then u.matchResting instrument observation.snapshot timeExchange
        else .ok (u, [])).Gives fun r => R u r.1 := by
    split
    · exact hp.matchResting
    · exact hp.refl u
  unfold SimulatedVenue.trade
  extract_lets crosses cross
  split
  · extract_lets held
    apply hp.andThen
    · show held.Gives _
      unfold held
      split
      · exact hp.refl v
      · split
        · exact hp.release
        · exact hp.cancelHeldImmediate
    · exact fun u => hcross u crosses
  · apply hp.andThen (hcross v crosses)
    intro u
    split
    · exact hp.release
    · exact hp.refl u

variable [DecimalScale]

theorem applyMarket (hp : Path Priced A R) {observation : MarketObservation} :
    (v.applyMarket instrument observation timeExchange).Gives fun r => R v r.1 := by
  unfold SimulatedVenue.applyMarket
  extract_lets reached
  have hpieces : (Gather.andThen (v.accrue reached) fun venue => do
      let venue ← (venue.observe instrument observation reached).recordBorrowPrice instrument
        observation.snapshot observation.bar reached
      Gather.andThen (venue.sweepExpired reached) fun venue =>
        Gather.andThen (venue.trade instrument observation reached) fun venue =>
          venue.checkMargin reached).Gives fun r => R v r.1 := by
    apply hp.andThen hp.accrue
    intro accrued
    have hobserved : R accrued (accrued.observe instrument observation reached) :=
      hp.aside rfl rfl id
    apply hp.recordBorrowPrice.bind
    intro recorded hrecorded
    apply hp.onward (hp.trans hobserved hrecorded)
    apply hp.andThen hp.sweepExpired
    intro swept
    exact hp.andThen hp.trade fun _ => hp.checkMargin
  apply hpieces.bind
  intro ⟨venue, events⟩ hvenue
  exact hp.onward hvenue hp.finish

/-- An input, whichever way it takes. -/
theorem step (hp : Path Priced A R) (input : Input)
    (hpriced : ∀ request, input = .openOrder request →
      ∀ terms, v.instrumentTerms request.key.instrument = .ok terms →
        Priced v request.key.instrument terms (v.pricingMarket request)) :
    (v.step input).Gives fun r => R v r.1 := by
  cases input with
  | advanceTime timeExchange =>
    apply hp.advanceTime.bind
    exact fun _ hr => hr
  | applyMarket instrument observation timeExchange =>
    apply hp.applyMarket.bind
    exact fun _ hr => hr
  | openOrder request =>
    apply (hp.openOrder (hpriced request rfl)).bind
    exact fun _ hr => hr
  | cancelOrder request =>
    apply hp.cancelOrder.bind
    exact fun _ hr => hr
  | expireHeld timeExchange =>
    apply hp.expireHeld.bind
    exact fun _ hr => hr

end Path

end SimulatedVenue

end Rustrade.Mock
