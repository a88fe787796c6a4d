import Rustrade.Mock.LendsInputs
import Rustrade.Mock.Snapshot

/-!
# A loan is never made into a liquidation

Every loan a venue driven by its own markets makes leaves the debt within the leverage limit at the
current prices, and the margin level above the one the account is liquidated at, but for an order
whose own market stands in for one the venue does not hold, ahead of one it does.
-/

set_option autoImplicit false

namespace Rustrade.Mock

namespace SimulatedVenue

/-! ## Reachable venues -/

section Reachable

variable [Build] [RandomStream] [DecimalScale]

/-- A venue driven by its own markets: built or restored as `config` says, given its settings, and
    driven by inputs. -/
inductive Reachable (config : MockExecutionConfig)
    (instruments : BTreeMap InstrumentNameExchange VenueInstrument) : SimulatedVenue → Prop where
  | built {venue : SimulatedVenue} (h : withRegime config instruments .marketDriven = .ok venue) :
      Reachable config instruments venue
  | restored {venue : SimulatedVenue} {snapshot : SimulatedVenueSnapshot}
      (hregime : snapshot.regime = .marketDriven)
      (h : fromSnapshot config instruments snapshot = .ok (.ok venue)) :
      Reachable config instruments venue
  | withHoldingCosts {venue after : SimulatedVenue} {models : List HoldingCostModel}
      (hvenue : Reachable config instruments venue) (h : venue.withHoldingCosts models = .ok after) :
      Reachable config instruments after
  | withMarginInterest {venue after : SimulatedVenue} {model : MarginInterestModel}
      (hvenue : Reachable config instruments venue) (h : venue.withMarginInterest model = .ok after) :
      Reachable config instruments after
  | withFillModel {venue : SimulatedVenue} {model : FillModel}
      (hvenue : Reachable config instruments venue) :
      Reachable config instruments (venue.withFillModel model)
  | withShortability {venue : SimulatedVenue} {provider : ShortabilityProvider}
      (hvenue : Reachable config instruments venue) :
      Reachable config instruments (venue.withShortability provider)
  | checkpoint {venue : SimulatedVenue} (hvenue : Reachable config instruments venue) :
      Reachable config instruments venue.checkpoint.2
  | input {venue after : SimulatedVenue} {input : Input} {answer : Answer}
      (hvenue : Reachable config instruments venue) (h : venue.step input = .ok (after, answer)) :
      Reachable config instruments after

end Reachable

/-- What of a venue's build a loan depends on. -/
structure Driven (config : MockExecutionConfig)
    (instruments : BTreeMap InstrumentNameExchange VenueInstrument) (venue : SimulatedVenue) :
    Prop where
  regime : venue.regime = .marketDriven
  instruments : venue.instruments = instruments
  spotMargin : venue.spotMargin = config.spotMargin
  margin : venue.account.margin = config.spotMargin.isSome
  keyed : venue.account.Keyed

theorem keyed_balancesByAsset {account : AccountState} {balances : List AssetBalance}
    (h : account.balances = balancesByAsset balances) : account.Keyed := by
  have hfold : ∀ (map : BTreeMap AssetNameExchange AssetBalance),
      (∀ (asset : AssetNameExchange) (balance : AssetBalance),
        map[asset]? = some balance → balance.asset = asset) →
      ∀ (asset : AssetNameExchange) (balance : AssetBalance),
        (balances.foldl (fun map balance => map.insert balance.asset balance) map)[asset]? =
          some balance → balance.asset = asset := by
    clear h
    induction balances with
    | nil => exact fun map hmap => hmap
    | cons first rest ih =>
      intro map hmap
      apply ih
      intro asset balance hbalance
      rw [BTreeMap.get?_insert] at hbalance
      split at hbalance
      · rename_i hsame
        cases hbalance
        exact hsame
      · exact hmap asset balance hbalance
  intro asset balance hbalance
  rw [h] at hbalance
  apply hfold ∅ _ asset balance hbalance
  intro asset balance hnone
  rw [BTreeMap.get?_empty] at hnone
  cases hnone

theorem enableMargin_keyed {account : AccountState} (h : account.Keyed) :
    account.enableMargin.Keyed := by
  intro asset balance hbalance
  obtain ⟨found, hfound, rfl⟩ : ∃ found, account.balances[asset]? = some found ∧
      { found with balance := { found.balance with
        margin := some (found.balance.margin.getD .default) } } = balance := by
    simpa [AccountState.enableMargin, Std.ExtTreeMap.getElem?_map] using hbalance
  exact h asset found hfound

/-- A seeded account is a cash account. -/
theorem tryFrom_keyed {value : AccountSnapshot} {account : AccountState}
    (h : AccountState.tryFrom value = .ok account) : account.Keyed ∧ account.margin = false := by
  obtain ⟨seeded, -, h⟩ := Except.bind_eq_ok.1 h
  cases Except.pure_eq_ok.1 h
  exact ⟨keyed_balancesByAsset rfl, rfl⟩

theorem fromSnapshot_keyed {snapshot : AccountStateSnapshot} {account : AccountState}
    (h : AccountState.fromSnapshot snapshot = .ok account) :
    account.Keyed ∧ account.margin = snapshot.margin := by
  obtain ⟨ordersOpen, -, h⟩ := Except.bind_eq_ok.1 h
  obtain ⟨ordersCancelled, -, h⟩ := Except.bind_eq_ok.1 h
  obtain ⟨ordersFilled, -, h⟩ := Except.bind_eq_ok.1 h
  obtain ⟨ordersExpired, -, h⟩ := Except.bind_eq_ok.1 h
  cases Except.pure_eq_ok.1 h
  exact ⟨keyed_balancesByAsset rfl, rfl⟩

variable {config : MockExecutionConfig}
  {instruments : BTreeMap InstrumentNameExchange VenueInstrument} {v w : SimulatedVenue}

theorem Driven.ofStill (h : Driven config instruments v) (hstill : v.Still w) : Driven config instruments w where
  regime := (congrArg Setup.regime hstill.setup).trans h.regime
  instruments := (congrArg Setup.instruments hstill.setup).trans h.instruments
  spotMargin := (congrArg Setup.spotMargin hstill.setup).trans h.spotMargin
  margin := hstill.margin.trans h.margin
  keyed := (AccountState.Calm.of_balances hstill.margin hstill.balances).keyed h.keyed

theorem withRegime_driven (h : withRegime config instruments .marketDriven = .ok v) :
    Driven config instruments v := by
  obtain ⟨positions, -, h⟩ := Except.bind_eq_ok.1 h
  obtain ⟨seeded, hseeded, h⟩ := Except.bind_eq_ok.1 h
  cases Except.pure_eq_ok.1 h
  have hseed : seeded.Keyed ∧ seeded.margin = false := by
    cases htry : AccountState.tryFrom config.initialState with
    | error duplicate => rw [htry] at hseeded; cases hseeded
    | ok account =>
      rw [htry] at hseeded
      cases hseeded
      exact tryFrom_keyed htry
  obtain ⟨hkeyed, hcash⟩ := hseed
  have haccount : (if config.spotMargin.isSome then seeded.enableMargin else seeded).margin =
        config.spotMargin.isSome ∧
      (if config.spotMargin.isSome then seeded.enableMargin else seeded).Keyed := by
    cases config.spotMargin with
    | some margin => exact ⟨rfl, enableMargin_keyed hkeyed⟩
    | none => exact ⟨hcash, hkeyed⟩
  exact ⟨rfl, rfl, rfl, haccount.1, haccount.2⟩

/-- A snapshot of an account of the other kind is refused. -/
theorem margin_of_restoreRefusal {snapshot : SimulatedVenueSnapshot}
    (h : restoreRefusal config instruments snapshot = none) :
    snapshot.account.margin = config.spotMargin.isSome := by
  unfold restoreRefusal at h
  dsimp only at h
  split at h
  · cases h
  split at h
  · cases h
  split at h
  · cases h
  split at h
  · cases h
  split at h
  · cases h
  split at h
  · cases h
  split at h
  · cases h
  rename_i hsame
  exact not_not.1 hsame

theorem fromSnapshot_driven [RandomStream] {snapshot : SimulatedVenueSnapshot}
    (hregime : snapshot.regime = .marketDriven)
    (h : fromSnapshot config instruments snapshot = .ok (.ok v)) : Driven config instruments v := by
  unfold fromSnapshot at h
  split at h
  · cases h
  rename_i hrefusal
  split at h
  · cases h
  rename_i account haccount
  have hmargin : snapshot.account.margin = config.spotMargin.isSome := margin_of_restoreRefusal hrefusal
  obtain ⟨hkeyed, hsame⟩ := fromSnapshot_keyed haccount
  obtain ⟨charged, hcharged, h⟩ := Except.bind_eq_ok.1 h
  obtain ⟨venue, hvenue, h⟩ := Except.bind_eq_ok.1 h
  cases Except.pure_eq_ok.1 h
  have hstill := refreshNextCharge_still.result hcharged
  have hnext := refreshNextInterest_still.result hvenue
  refine Driven.ofStill (Driven.ofStill ?_ hstill) hnext
  exact ⟨hregime, rfl, rfl, hsame.trans hmargin, hkeyed⟩

section Driven

variable [Build]

theorem Lends.margin {loans : List Loan} (h : v.Lends loans w) :
    w.account.margin = v.account.margin := by
  induction h with
  | refl => rfl
  | quiet _ hquiet ih => exact hquiet.account.margin.trans ih
  | loan _ _ ih => exact ih

theorem Lends.keyed {loans : List Loan} (h : v.Lends loans w) (hkeyed : v.account.Keyed) :
    w.account.Keyed := by
  induction h with
  | refl => exact hkeyed
  | quiet _ hquiet ih => exact hquiet.account.keyed ih
  | loan _ _ ih => exact ih.setBalance ih.balanceOrOpen

theorem Driven.lends {loans : List Loan} (h : Driven config instruments v) (hlends : v.Lends loans w) :
    Driven config instruments w where
  regime := (congrArg Setup.regime hlends.setup).trans h.regime
  instruments := (congrArg Setup.instruments hlends.setup).trans h.instruments
  spotMargin := (congrArg Setup.spotMargin hlends.setup).trans h.spotMargin
  margin := hlends.margin.trans h.margin
  keyed := hlends.keyed h.keyed

variable [RandomStream] [DecimalScale]

/-- Every reachable venue is driven by its own markets, lends as it was configured to, and keeps
    each balance under its own asset. -/
theorem Reachable.driven (h : v.Reachable config instruments) : Driven config instruments v := by
  induction h with
  | built h => exact withRegime_driven h
  | restored hregime h => exact fromSnapshot_driven hregime h
  | @withHoldingCosts venue _ models _ h ih =>
    have hgiven : Driven config instruments { venue with holdingCosts := models } :=
      ⟨ih.regime, ih.instruments, ih.spotMargin, ih.margin, ih.keyed⟩
    exact hgiven.ofStill (refreshNextCharge_still.result h)
  | @withMarginInterest venue _ model _ h ih =>
    obtain ⟨_, -, h⟩ := Except.bind_eq_ok.1 h
    have hgiven : Driven config instruments { venue with marginInterest := some model } :=
      ⟨ih.regime, ih.instruments, ih.spotMargin, ih.margin, ih.keyed⟩
    exact hgiven.ofStill (refreshNextInterest_still.result h)
  | withFillModel _ ih => exact ⟨ih.regime, ih.instruments, ih.spotMargin, ih.margin, ih.keyed⟩
  | withShortability _ ih => exact ⟨ih.regime, ih.instruments, ih.spotMargin, ih.margin, ih.keyed⟩
  | checkpoint _ ih => exact ⟨ih.regime, ih.instruments, ih.spotMargin, ih.margin, ih.keyed⟩
  | input _ h ih =>
    obtain ⟨loans, hlends⟩ := (step_leads ih.regime _).result h
    exact ih.lends hlends

end Driven

/-! ## Limits on a loan -/

/-- The order's own market values the account in place of another: see `Shadowed`. -/
def Loan.Shadowed (self : Loan) : Prop :=
  self.market.isSome = true ∧ self.venue.Shadowed self.instrument self.terms

/-- Valued at the current prices, a loan leaves the debt within the leverage limit and the margin
    level above the one the account is liquidated at, and is no more than those prices leave. -/
structure Loan.Limited (loan : Loan) (config : SpotMarginConfig) : Prop where
  level : ∃ weighted, loan.lent.valued config .borrow none .current = some weighted ∧
    weighted.debt ≤ (config.maxLeverage - 1) * weighted.equity ∧
    ∃ equity, loan.lent.valued config .liquidation none .current =
        some ⟨equity, weighted.debt⟩ ∧
      ∀ liquidation, config.liquidation = some liquidation → 0 < weighted.debt →
        liquidation.level < (equity + weighted.debt) / weighted.debt
  current : ∃ room, loan.venue.roomAt config loan.debit.asset none .current = some room ∧
    loan.amount ≤ room

/-- What may be borrowed is within the room the current prices leave. -/
theorem borrowable_le {config : SpotMarginConfig} {debit : Debit} {terms : InstrumentTerms}
    {market : Option MarketSnapshot} {amount : Decimal} (hmargin : v.spotMargin = some config)
    (hpos : 0 < amount) (h : amount ≤ v.borrowable debit .borrow terms market) :
    terms.cashSettled = false ∧ ∃ room,
      v.roomAt config debit.asset (market.map fun market => (terms.underlying, market)) .current =
        some room ∧ amount ≤ room := by
  unfold borrowable at h
  rw [hmargin] at h
  dsimp only at h
  split at h
  · exact absurd hpos (not_lt.2 h)
  rename_i hlends
  refine ⟨by simpa using fun hcash => hlends (.inr (.inl hcash)), ?_⟩
  cases hroom : v.leverageRoom config debit.asset
      (market.map fun market => (terms.underlying, market)) with
  | none =>
    rw [hroom] at h
    exact absurd hpos (not_lt.2 h)
  | some room =>
    rw [hroom] at h
    obtain ⟨current, hcurrent, hle⟩ := leverageRoom_le hroom
    exact ⟨current, hcurrent, le_trans h hle⟩

theorem Loan.Made.limited [Build] {loan : Loan} {margin : SpotMarginConfig} (h : loan.Made)
    (hmargin : loan.venue.spotMargin = some margin) (hkeyed : loan.venue.account.Keyed)
    (hshadowed : ¬ loan.Shadowed) : loan.Limited margin := by
  obtain ⟨hspot, room, hroom, hmost⟩ := borrowable_le hmargin h.positive h.within
  rw [roomAt_own h.own hspot fun hsome hstands => hshadowed ⟨hsome, hstands⟩] at hroom
  exact ⟨limited_of_room hkeyed hroom h.positive hmost, room, hroom, hmost⟩

/-- A margin account that may owe twice what it is worth, liquidated at a level of 1.4. -/
def leveraged : SpotMarginConfig where
  repr :=
    { valuationAsset := ⟨"USDT"⟩
      maxLeverage := 3
      marginEffect := .borrow
      autoRepayAtCancel := false
      minBorrow := ∅
      maxBorrow := ∅
      borrowCollateralRatio := ∅
      liquidationCollateralRatio := ∅
      borrowPriceWindow := none
      liquidation := some ⟨⟨14 / 10, 0, none⟩, by decide +kernel⟩ }
  accepted := by decide +kernel

/-- A venue that holds one unit of the base asset for its client. -/
def leveragedVenue : MockExecutionConfig where
  mockedExchange := ⟨"mock"⟩
  initialState := ⟨⟨"mock"⟩, [⟨⟨"BTC"⟩, ⟨1, 1, none⟩, 0⟩], []⟩
  feeModel := .zero
  fillModel := .lastPrice
  spotFeeAsset := .quote
  slippage := ⟨.none, le_rfl, le_rfl, one_pos⟩
  marketOrderTiming := .onArrival
  staleMarket := .off
  spotMargin := some leveraged
  feeAsset := none

/-- Spot instruments of one pair. -/
def spotPairs (names : List String) : BTreeMap InstrumentNameExchange VenueInstrument :=
  names.foldl (fun map name => map.insert ⟨name⟩ ⟨⟨"mock"⟩, ⟨⟨"BTC"⟩, ⟨"USDT"⟩⟩, .spot, none⟩) ∅

def lastPriced (name : String) (price : Decimal) : Input :=
  .applyMarket ⟨name⟩ ⟨.fromLastPrice (some price), .unknown, none, true⟩ 0

/-- A buy of two at 150, which costs 300 that the account does not have. -/
def leveragedBuy (venue : SimulatedVenue) : Loan where
  venue
  instrument := ⟨"C"⟩
  terms := ⟨⟨⟨"BTC"⟩, ⟨"USDT"⟩⟩, 1, false⟩
  market := some (.fromLastPrice (some 200))
  debit := ⟨⟨"USDT"⟩, 0, 300⟩
  amount := 300
  timeExchange := 0

/-- What is evaluated of a venue that lends to the buy: the order's terms and market, the loan, and
    what the account then comes to. -/
def lendsToBuy [Build] (venue : SimulatedVenue) (worth : Valued) : Bool :=
  let loan := leveragedBuy venue
  let committed : Bool :=
    match venue.commit loan.debit none .borrow loan.terms loan.market none 0 with
    | .ok (_, .ok commitment) => commitment.committed.borrowed = 300
    | _ => false
  decide ((venue.instrumentTerms loan.instrument).toOption = some loan.terms) &&
    decide (venue.market[loan.instrument]?.map (fun seen => seen.snapshot) = loan.market) &&
    decide (300 ≤ venue.borrowable loan.debit .borrow loan.terms loan.market) && committed &&
    decide (loan.lent.valued leveraged .borrow none .current = some worth)

theorem made_of_lendsToBuy [Build] {worth : Valued} (h : lendsToBuy v worth = true) :
    (leveragedBuy v).Made ∧
      (leveragedBuy v).lent.valued leveraged .borrow none .current = some worth := by
  unfold lendsToBuy at h
  simp only [Bool.and_eq_true, decide_eq_true_eq] at h
  obtain ⟨⟨⟨⟨hterms, hmarket⟩, hwithin⟩, hcommit⟩, hworth⟩ := h
  refine ⟨⟨by norm_num [leveragedBuy], hwithin, ?_, ?_⟩, hworth⟩
  · intro snapshot hsnapshot
    constructor
    · show v.instrumentTerms (leveragedBuy v).instrument = .ok (leveragedBuy v).terms
      cases hfound : v.instrumentTerms (leveragedBuy v).instrument with
      | error reason => rw [hfound] at hterms; cases hterms
      | ok terms =>
        rw [hfound] at hterms
        rw [Option.some.inj hterms]
    · intro price _
      rw [hsnapshot] at hmarket
      exact Option.map_eq_some_iff.1 hmarket
  · split at hcommit
    · rename_i after commitment hcommitted
      exact ⟨none, none, after, commitment, hcommitted, of_decide_eq_true hcommit⟩
    · cases hcommit

theorem spotPairs_singleton {name : String} {instrument : InstrumentNameExchange}
    {data : VenueInstrument} (h : (spotPairs [name])[instrument]? = some data) :
    instrument = ⟨name⟩ := by
  unfold spotPairs at h
  rw [List.foldl_cons, List.foldl_nil, BTreeMap.get?_insert] at h
  split at h
  · rename_i hsame
    exact hsame.symm
  · rw [BTreeMap.get?_empty] at h
    cases h

/-- The venue of a list of spot instruments, once inputs drove it. -/
def drivenBy [Build] [RandomStream] [DecimalScale] (names : List String) (inputs : List Input)
    (check : SimulatedVenue → Bool) : Bool :=
  match withRegime leveragedVenue (spotPairs names) .marketDriven with
  | .ok venue => match venue.answers inputs with
    | .ok (after, _) => check after
    | .error _ => false
  | .error _ => false

theorem Reachable.answers [Build] [RandomStream] [DecimalScale] {inputs : List Input}
    {answers : List Answer} (h : v.Reachable config instruments)
    (hrun : v.answers inputs = .ok (w, answers)) : w.Reachable config instruments := by
  have hstep (u : SimulatedVenue) (input : Input) (hu : u.Reachable config instruments) :
      Except.Gives ((step u input).bind fun answered => .ok (answered.1, [answered.2]))
        fun r => r.1.Reachable config instruments := by
    have hinput : (step u input).Gives fun r => r.1.Reachable config instruments := by
      cases hgives : step u input with
      | error fault => exact id
      | ok answered => exact hu.input hgives
    apply hinput.bind
    exact fun r hr => hr
  have hreached : (v.answers inputs).Gives fun r =>
      True ∧ r.1.Reachable config instruments := by
    unfold SimulatedVenue.answers
    apply Gather.run_ensures (P := fun (u : SimulatedVenue) _ => u.Reachable config instruments)
      (R := fun (_ : SimulatedVenue) (_ : List Answer) _ => True) (fun _ => trivial) (fun _ _ => trivial) _ h
    intro u input _ hu
    exact (hstep u input hu).mono fun _ hr => ⟨trivial, hr⟩
  exact (hreached.result hrun).2

theorem reachable_of_drivenBy [Build] [RandomStream] [DecimalScale] {names : List String}
    {inputs : List Input} {check : SimulatedVenue → Bool} (h : drivenBy names inputs check = true) :
    ∃ after, after.Reachable leveragedVenue (spotPairs names) ∧ check after = true := by
  unfold drivenBy at h
  split at h
  · rename_i venue hbuilt
    split at h
    · rename_i after answers hrun
      exact ⟨after, Reachable.answers (.built hbuilt) hrun, h⟩
    · cases h
  · cases h

end SimulatedVenue

end Rustrade.Mock
