import Rustrade.Mock.Kept
import Rustrade.Mock.LendsWithin

/-!
# How much more an account may borrow

The venue answers how much it would lend for an order on an instrument and a side. The answer
carries no market, so it is the venue's own markets that value the account; an order arriving next
is lent what the answer says, unless its own market stands in for one the venue does not hold.
-/

set_option autoImplicit false

namespace Rustrade.Mock

/-- How much more of an asset an account can borrow, and the most it may owe of it. -/
structure BorrowCapacity where
  asset : AssetNameExchange
  borrowableNow : Option Decimal
  accountLimit : Option Decimal
  deriving DecidableEq

/-- Why a venue lends nothing against an instrument. -/
inductive CapacityRefusal where
  | instrumentInvalid (reason : SimulatedVenue.InstrumentInvalid)
  | cashSettled
  | noSpotMargin
  deriving DecidableEq

namespace SimulatedVenue

/-- Whether the venue's markets value every asset the account holds any of. -/
def valuesEveryHolding (self : SimulatedVenue) (valuation : AssetNameExchange) : Bool :=
  self.account.allBalances.all fun balance =>
    balance.balance.total = 0 || (self.priceIn balance.asset valuation none).isSome

/-- How much more the account can borrow for an order on an instrument and a side. -/
def borrowCapacity (self : SimulatedVenue) (instrument : InstrumentNameExchange) (side : Side) :
    Except CapacityRefusal BorrowCapacity :=
  match self.instrumentTerms instrument with
  | .error reason => .error (.instrumentInvalid reason)
  | .ok terms => match self.spotMargin with
    | none => .error .noSpotMargin
    | some config =>
      if terms.cashSettled then .error .cashSettled
      else
        let asset := match side with
          | .buy => terms.underlying.quote
          | .sell => terms.underlying.base
        let cap := config.maxBorrow asset
        let capRoom := cap.map fun cap => self.account.capRoom asset cap
        let minBorrow := config.minBorrow asset
        -- The cap alone rules a loan out when it leaves none, or less than the least.
        let ruledOut := self.liquidation.underWay ||
          capRoom.any fun room => room = 0 || room < minBorrow
        let room : Option Decimal :=
          if ruledOut then some 0
          else if self.valuesEveryHolding config.valuationAsset then
            (self.leverageRoom config asset none).map fun room =>
              capRoom.elim room fun capRoom => min capRoom room
          else none
        .ok
          { asset
            borrowableNow := room.map fun room => if room < minBorrow then 0 else room
            accountLimit := cap }

end SimulatedVenue

/-! ## Loans taken -/

/-- The principal of a balance. -/
def Balance.borrowed (self : Balance) : Decimal :=
  (self.margin.map MarginDetails.borrowed).getD 0

namespace AccountState

section

variable {account mid after : AccountState} {asset : AssetNameExchange} {amount : Decimal}
  {debit : Debit} {credit : Option Credit} {lending : Lending} {timeExchange : DateTime}

/-- The principal of an asset's loan. -/
def borrowed (account : AccountState) (asset : AssetNameExchange) : Decimal :=
  (account.balances[asset]?.map fun balance => balance.balance.borrowed).getD 0

/-- No loan is taken or repaid. -/
def SameLoans (before after : AccountState) : Prop :=
  ∀ asset, after.borrowed asset = before.borrowed asset

namespace SameLoans

theorem refl : account.SameLoans account := fun _ => rfl

theorem trans (h : account.SameLoans mid) (hnext : mid.SameLoans after) :
    account.SameLoans after := fun asset => (hnext asset).trans (h asset)

theorem of_balances (h : after.balances = account.balances) : account.SameLoans after := by
  intro asset
  unfold borrowed
  rw [h]

end SameLoans

theorem borrowed_setBalance {restated : AssetBalance} (other : AssetNameExchange) :
    (account.setBalance asset restated).borrowed other =
      if asset = other then restated.balance.borrowed else account.borrowed other := by
  show ((account.balances.insert asset restated)[other]?.map _).getD 0 = _
  rw [BTreeMap.get?_insert]
  split <;> rfl

theorem sameLoans_setBalance {restated : AssetBalance}
    (h : restated.balance.borrowed = account.borrowed asset) :
    account.SameLoans (account.setBalance asset restated) := by
  intro other
  rw [borrowed_setBalance]
  split
  · rename_i hsame
    rw [h, hsame]
  · rfl

theorem borrowed_of_some {balance : AssetBalance} (h : account.balances[asset]? = some balance) :
    account.borrowed asset = balance.balance.borrowed := by
  simp [borrowed, h]

theorem borrowed_balanceOrOpen :
    (account.balanceOrOpen asset timeExchange).balance.borrowed = account.borrowed asset := by
  unfold borrowed balanceOrOpen
  cases account.balances[asset]? with
  | some balance => rfl
  | none =>
    cases hmargin : account.margin <;>
      simp [Balance.borrowed, MarginDetails.default, Balance.new]

theorem restate_sameLoans {change : Balance → Balance}
    (h : ∀ balance, (change balance).borrowed = balance.borrowed) :
    (account.restate asset timeExchange change).Gives fun r => account.SameLoans r.1 := by
  apply balanceExpect_gives.bind
  intro balance hbalance
  apply sameLoans_setBalance
  rw [borrowed_of_some hbalance]
  exact h balance.balance

theorem chargeInterest_sameLoans :
    (account.chargeInterest asset amount timeExchange).Gives fun r => account.SameLoans r.1 := by
  apply restate_sameLoans
  intro balance
  unfold Balance.borrowed
  cases balance.margin <;> rfl

theorem charge_sameLoans :
    (account.charge asset amount timeExchange).Gives fun r => account.SameLoans r.1 :=
  restate_sameLoans fun _ => rfl

theorem reserve_sameLoans :
    (account.reserve asset amount timeExchange).Gives fun r => account.SameLoans r.1 := by
  apply balanceExpect_gives.bind
  intro balance _
  split
  · exact SameLoans.refl
  · have hrestated : (account.restate asset timeExchange fun balance =>
        { balance with free := balance.free - amount }).Gives fun r => account.SameLoans r.1 :=
      restate_sameLoans fun _ => rfl
    apply hrestated.bind
    exact fun r hr => hr

theorem fundAny_sameLoans : (account.fundAny asset amount).Gives account.SameLoans := by
  unfold fundAny
  split
  · exact SameLoans.refl
  · apply balanceExpect_gives.bind
    intro balance hbalance
    apply sameLoans_setBalance
    exact (borrowed_of_some hbalance).symm

/-- An order that does not repay is delivered all it fills for. -/
theorem deliverAny_sameLoans (delivery : Option Delivery) {effect : MarginEffect}
    (heffect : effect ≠ .repay) :
    account.SameLoans (account.deliverAny delivery effect timeExchange).1 := by
  cases delivery with
  | none => exact SameLoans.refl
  | some delivery =>
    unfold deliverAny deliver
    simp only [heffect, decide_false, Bool.and_false, Bool.false_eq_true, if_false]
    apply sameLoans_setBalance
    exact borrowed_balanceOrOpen

theorem settle_sameLoans [Build] :
    (account.settle asset amount timeExchange).Gives fun r => account.SameLoans r.1 := by
  apply balanceExpect_gives.bind
  intro balance _
  apply debugAssert_gives.bind
  intro _ _
  exact restate_sameLoans fun _ => rfl

theorem borrow_borrowed (other : AssetNameExchange) :
    (account.borrow asset amount timeExchange).borrowed other =
      account.borrowed other + if asset = other then amount else 0 := by
  show ((account.balances.insert asset _)[other]?.map _).getD 0 = _
  rw [BTreeMap.get?_insert]
  split
  · rename_i hsame
    have hopened : (account.balanceOrOpen asset timeExchange).balance.borrowed =
        account.borrowed asset := borrowed_balanceOrOpen
    rw [← hsame, ← hopened]
    show MarginDetails.borrowed _ + _ = _
    unfold Balance.borrowed
    cases (account.balanceOrOpen asset timeExchange).balance.margin <;> rfl
  · rw [add_zero]
    rfl

/-- A commitment of an order that borrows adds to the loans what it lends of what it pays with. -/
theorem commit_borrowed [Build] :
    (account.commit debit credit .borrow lending timeExchange).Gives fun r =>
      match r.2 with
      | .error _ => True
      | .ok committed => ∀ asset, r.1.borrowed asset =
          account.borrowed asset + if debit.asset = asset then committed.borrowed else 0 := by
  unfold commit
  apply Except.gives_true.bind
  intro ⟨funding, delivery⟩ _
  apply Except.gives_true.bind
  intro free _
  cases account.lend debit (free + funding) _ lending with
  | error insufficient => trivial
  | ok lent =>
  obtain ⟨borrowed, excessBorrowed⟩ := lent
  cases delivery.bind account.uncovered with
  | some insufficient => trivial
  | none =>
  apply fundAny_sameLoans.bind
  intro funded hfunded
  apply reserve_sameLoans.bind
  rintro ⟨reserved, _ | balance⟩ hreserved
  · trivial
  apply settle_sameLoans.bind
  intro ⟨settled, paid⟩ hsettled
  have hdelivered : settled.SameLoans (settled.deliverAny delivery .borrow timeExchange).1 :=
    deliverAny_sameLoans delivery (by decide)
  intro asset
  refine (((hfunded.trans hreserved).trans hsettled).trans hdelivered asset).trans ?_
  dsimp only
  split
  · rename_i hnone
    rw [hnone, ite_self, add_zero]
  · exact borrow_borrowed asset

end

end AccountState

/-! ## What the ledger lends -/

namespace AccountState

variable {account : AccountState} {debit : Debit} {credit : Option Credit} {effect : MarginEffect}
  {lending : Lending} {timeExchange : DateTime}

/-- The most a commitment is lent of an asset. -/
def lendable (account : AccountState) (asset : AssetNameExchange) (lending : Lending) : Decimal :=
  let capped := (lending.maxBorrow.map fun cap => account.capRoom asset cap).filter
    fun room => room < lending.borrowable
  capped.getD lending.borrowable

/-- What an order lacks is lent, or the least that is, exactly where it is within what may be. -/
theorem lend_of_short {available : Decimal} (lends : Bool) (hlends : lends = true)
    (hshort : 0 < debit.settled + debit.reserved - available) :
    match account.lend debit available lends lending with
    | .error _ => ¬ max (debit.settled + debit.reserved - available) lending.minBorrow ≤
        account.lendable debit.asset lending
    | .ok (borrowed, _) => max (debit.settled + debit.reserved - available) lending.minBorrow ≤
          account.lendable debit.asset lending ∧
        borrowed = max (debit.settled + debit.reserved - available) lending.minBorrow := by
  subst hlends
  unfold lend
  extract_lets required capped most shortfall loan
  rw [if_neg (not_le.2 hshort)]
  by_cases hfits : loan ≤ most
  · rw [if_pos (by simpa using hfits)]
    exact ⟨hfits, rfl⟩
  · rw [if_neg (by simpa using hfits)]
    exact hfits

/-- A margin account commits an order that borrows, pays nothing back and takes nothing away, where
    what it lacks may be lent, and only there. -/
theorem commit_of_short [Build] (hmargin : account.margin = true) (hpaid : paidBack credit = 0)
    (hdelivers : ∀ delivery, deliveryOf credit = some delivery → 0 ≤ delivery.amount)
    (hshort : 0 < debit.settled + debit.reserved - account.free debit.asset) :
    (account.commit debit credit .borrow lending timeExchange).Gives fun r =>
      match r.2 with
      | .error _ => ¬ max (debit.settled + debit.reserved - account.free debit.asset)
          lending.minBorrow ≤ account.lendable debit.asset lending
      | .ok committed => max (debit.settled + debit.reserved - account.free debit.asset)
            lending.minBorrow ≤ account.lendable debit.asset lending ∧
          committed.borrowed = max (debit.settled + debit.reserved - account.free debit.asset)
            lending.minBorrow := by
  have hparts : (creditParts credit).Ensures (Broken False) fun parts =>
      parts = (paidBack credit, deliveryOf credit) := creditParts_ensures
  have hfree : (account.freeToPay debit.asset).Ensures (Broken False) fun free =>
      free = account.free debit.asset := freeToPay_ensures
  unfold commit
  apply hparts.gives.bind
  rintro _ rfl
  apply hfree.gives.bind
  rintro _ rfl
  rw [hpaid, add_zero]
  have hlends : (account.margin && decide ((MarginEffect.borrow : MarginEffect) = .borrow)) = true := by
    rw [hmargin]
    rfl
  have hlent := @lend_of_short account debit lending (account.free debit.asset)
    (account.margin && decide ((MarginEffect.borrow : MarginEffect) = .borrow)) hlends hshort
  cases hlend : account.lend debit (account.free debit.asset)
      (account.margin && decide ((MarginEffect.borrow : MarginEffect) = .borrow)) lending with
  | error insufficient =>
    rw [hlend] at hlent
    exact hlent
  | ok lent =>
  obtain ⟨borrowed, excessBorrowed⟩ := lent
  rw [hlend] at hlent
  obtain ⟨hcovers, -⟩ := lend_covers hlend
  have hcovered : (deliveryOf credit).bind account.uncovered = none := by
    cases hdelivery : deliveryOf credit with
    | none => rfl
    | some delivery =>
      have hnonneg : ¬ delivery.amount < 0 := not_lt.2 (hdelivers delivery hdelivery)
      simp [uncovered, hnonneg]
  rw [hcovered]
  apply fundAny_shifts.bind
  intro funded hfunded
  apply reserve_shifts.bind
  rintro ⟨reserved, _ | balance⟩ houtcome
  · -- What was lent covers what is required, so the reserve is never refused.
    obtain ⟨-, hrefused⟩ := houtcome
    rw [hfunded.free] at hrefused
    linarith
  apply settle_calm.bind
  rintro ⟨settled, paid⟩ -
  exact hlent

end AccountState

/-! ## What the venue lends -/

namespace SimulatedVenue

variable {v w : SimulatedVenue} {instrument : InstrumentNameExchange} {terms : InstrumentTerms}
  {market : Option MarketSnapshot} {margin : SpotMarginConfig} {asset : AssetNameExchange}

/-- An order's own market may value the account where the venue's do not: an instrument of its pair
    that is before it by name holds no market, and prices are looked up over a window or another of
    the pair has a price. -/
def StandsIn (self : SimulatedVenue) (instrument : InstrumentNameExchange)
    (terms : InstrumentTerms) : Prop :=
  self.Shadowed instrument terms ∨
    (∃ config since, self.spotMargin = some config ∧ self.borrowWindowSince config = some since) ∧
      self.Unseen instrument terms

/-- The room at some prices only depends on what each asset is priced at. -/
theorem roomAt_congr {priced other : Priced} {prices : Prices}
    (h : ∀ (asset valuation : AssetNameExchange) (owes : Bool),
      v.priceOf asset valuation priced prices owes = v.priceOf asset valuation other prices owes) :
    v.roomAt margin asset priced prices = v.roomAt margin asset other prices := by
  have hvalued : v.valued margin .borrow priced prices = v.valued margin .borrow other prices := by
    unfold valued
    congr 1
    funext valued balance
    unfold valueBalance
    dsimp only
    rw [h]
  unfold roomAt
  rw [h, hvalued]

theorem leverageRoom_eq {priced : Priced} : v.leverageRoom margin asset priced =
    (v.roomAt margin asset priced .current).bind fun current =>
      match v.borrowWindowSince margin with
      | none => some current
      | some since => (v.roomAt margin asset priced (.window since asset)).bind fun windowed =>
          some (min current windowed) := rfl

/-- An order's own market leaves the room the venue's markets do, unless it stands in for one. -/
theorem leverageRoom_own (hmargin : v.spotMargin = some margin)
    (hown : v.OwnMarket instrument terms market) (hspot : terms.cashSettled = false)
    (hstands : ¬ v.StandsIn instrument terms) :
    v.leverageRoom margin asset (market.map fun market => (terms.underlying, market)) =
      v.leverageRoom margin asset none := by
  cases market with
  | none => rfl
  | some snapshot =>
    have hcurrent : v.roomAt margin asset (some (terms.underlying, snapshot)) .current =
        v.roomAt margin asset none .current := by
      apply roomAt_congr
      intro asset valuation owes
      exact priceOf_own (hown snapshot rfl) hspot fun h => hstands (.inl h)
    show v.leverageRoom margin asset (some (terms.underlying, snapshot)) = _
    rw [leverageRoom_eq, leverageRoom_eq, hcurrent]
    cases hsince : v.borrowWindowSince margin with
    | none => rfl
    | some since =>
      have hwindowed : v.roomAt margin asset (some (terms.underlying, snapshot))
          (.window since asset) = v.roomAt margin asset none (.window since asset) := by
        apply roomAt_congr
        intro asset valuation owes
        exact priceOf_seen (hown snapshot rfl) hspot fun h =>
          hstands (.inr ⟨⟨margin, since, hmargin, hsince⟩, h⟩)
      dsimp only
      rw [hwindowed]

theorem borrowCapacity_eq {capacity : BorrowCapacity} {side : Side}
    (hmargin : v.spotMargin = some margin) (hterms : v.instrumentTerms instrument = .ok terms)
    (h : v.borrowCapacity instrument side = .ok capacity) :
    terms.cashSettled = false ∧ capacity.asset = terms.pays side ∧
      capacity.borrowableNow = (
        if v.liquidation.underWay || (margin.maxBorrow (terms.pays side)).any fun cap =>
            v.account.capRoom (terms.pays side) cap = 0 ||
              v.account.capRoom (terms.pays side) cap < margin.minBorrow (terms.pays side)
        then some 0
        else if v.valuesEveryHolding margin.valuationAsset then
          (v.leverageRoom margin (terms.pays side) none).map fun room =>
            (margin.maxBorrow (terms.pays side)).elim room fun cap =>
              min (v.account.capRoom (terms.pays side) cap) room
        else none : Option Decimal).map fun room =>
          if room < margin.minBorrow (terms.pays side) then 0 else room := by
  unfold borrowCapacity at h
  rw [hterms, hmargin] at h
  dsimp only at h
  split at h
  · cases h
  rename_i hcash
  have hspot : terms.cashSettled = false := by simpa using hcash
  refine ⟨hspot, ?_⟩
  cases side with
  | buy =>
    have hpays : terms.pays .buy = terms.underlying.quote := by simp [InstrumentTerms.pays, hspot]
    rw [hpays]
    cases h
    refine ⟨rfl, ?_⟩
    dsimp only
    cases margin.maxBorrow terms.underlying.quote <;> rfl
  | sell =>
    have hpays : terms.pays .sell = terms.underlying.base := by simp [InstrumentTerms.pays, hspot]
    rw [hpays]
    cases h
    refine ⟨rfl, ?_⟩
    dsimp only
    cases margin.maxBorrow terms.underlying.base <;> rfl

/-- What may be lent of the asset an order pays with is what the venue answers, where it matters: a
    loan of at least the minimum is within the one exactly where it is within the other. -/
theorem lendable_iff {capacity : BorrowCapacity} {side : Side} {k loan : Decimal}
    (hmargin : v.spotMargin = some margin) (hterms : v.instrumentTerms instrument = .ok terms)
    (hcapacity : v.borrowCapacity instrument side = .ok capacity)
    (hk : capacity.borrowableNow = some k) {lending : Lending}
    (hborrowable : lending.borrowable = if v.liquidation.underWay then 0
      else (v.leverageRoom margin (terms.pays side) none).getD 0)
    (hmax : lending.maxBorrow = margin.maxBorrow (terms.pays side)) (hpos : 0 < loan)
    (hleast : margin.minBorrow (terms.pays side) ≤ loan) :
    loan ≤ v.account.lendable (terms.pays side) lending ↔ loan ≤ k := by
  obtain ⟨-, -, hroom⟩ := borrowCapacity_eq hmargin hterms hcapacity
  rw [hk] at hroom
  unfold AccountState.lendable
  rw [hmax, hborrowable]
  have hzero : ¬ loan ≤ 0 := not_le.2 hpos
  have hcap (cap : Decimal) : 0 ≤ v.account.capRoom (terms.pays side) cap := le_max_right _ _
  -- Below the minimum nothing is lent, and the answer says so.
  have hleastly (room : Decimal) :
      loan ≤ (if room < margin.minBorrow (terms.pays side) then 0 else room) ↔ loan ≤ room := by
    split
    · rename_i hbelow
      exact iff_of_false hzero fun h => absurd (hleast.trans h) (not_le.2 hbelow)
    · exact Iff.rfl
  by_cases hliquidating : v.liquidation.underWay = true
  · rw [hliquidating, Bool.true_or, if_pos rfl] at hroom
    rw [if_pos hliquidating, ← Option.some.inj hroom.symm, hleastly]
    refine iff_of_false ?_ hzero
    cases margin.maxBorrow (terms.pays side) with
    | none => exact hzero
    | some cap =>
      have hroomy : ¬ v.account.capRoom (terms.pays side) cap < 0 := not_lt.2 (hcap cap)
      simpa [Option.filter, hroomy] using hpos
  · rw [if_neg hliquidating]
    rw [Bool.not_eq_true] at hliquidating
    rw [hliquidating, Bool.false_or] at hroom
    cases hmaximum : margin.maxBorrow (terms.pays side) with
    | none =>
      rw [hmaximum] at hroom
      simp only [Option.any_none, Bool.false_eq_true, if_false, Option.elim_none,
        Option.map_id'] at hroom
      split at hroom
      · cases hleverage : v.leverageRoom margin (terms.pays side) none with
        | none => rw [hleverage] at hroom; cases hroom
        | some room =>
          rw [hleverage] at hroom
          rw [Option.some.inj hroom, hleastly]
          exact Iff.rfl
      · cases hroom
    | some cap =>
      set capRoom := v.account.capRoom (terms.pays side) cap with hcapRoom
      rw [hmaximum] at hroom
      simp only [Option.any_some, Option.elim_some, ← hcapRoom] at hroom
      have hwithin (room : Decimal) :
          loan ≤ (((some cap).map fun cap => v.account.capRoom (terms.pays side) cap).filter
            fun left => left < room).getD room ↔ loan ≤ min capRoom room := by
        rw [Option.map_some, ← hcapRoom]
        by_cases hdecides : capRoom < room
        · simp [Option.filter, hdecides, min_eq_left hdecides.le]
        · simp [Option.filter, hdecides, min_eq_right (not_lt.1 hdecides)]
      rw [hwithin]
      split at hroom
      · -- The cap alone rules the loan out.
        rename_i hruled
        rw [Option.some.inj hroom, hleastly]
        refine iff_of_false ?_ hzero
        intro hfits
        have hleft : loan ≤ capRoom := hfits.trans (min_le_left _ _)
        simp only [Bool.or_eq_true, decide_eq_true_eq] at hruled
        rcases hruled with hnothing | hbelow
        · rw [hnothing] at hleft
          exact hzero hleft
        · exact absurd (hleast.trans hleft) (not_le.2 hbelow)
      · split at hroom
        · cases hleverage : v.leverageRoom margin (terms.pays side) none with
          | none => rw [hleverage] at hroom; cases hroom
          | some room =>
            rw [hleverage] at hroom
            rw [Option.some.inj hroom, hleastly]
            exact Iff.rfl
        · cases hroom

variable [Build] {debit : Debit} {credit : Option Credit} {borrower : Option Borrower}
  {timeExchange : DateTime}

/-- A commitment of an order that lacks some of what it pays with is made where what it lacks, or
    the least that is lent, is within the answer, and only there, and is lent exactly that. -/
theorem commit_of_capacity {capacity : BorrowCapacity} {side : Side} {k : Decimal}
    (hmargin : v.spotMargin = some margin) (hlends : v.account.margin = true)
    (hterms : v.instrumentTerms instrument = .ok terms)
    (hown : v.OwnMarket instrument terms market) (hstands : ¬ v.StandsIn instrument terms)
    (hcapacity : v.borrowCapacity instrument side = .ok capacity)
    (hk : capacity.borrowableNow = some k) (hasset : debit.asset = terms.pays side)
    (hpaid : AccountState.paidBack credit = 0)
    (hdelivers : ∀ delivery, AccountState.deliveryOf credit = some delivery → 0 ≤ delivery.amount)
    (hshort : 0 < debit.settled + debit.reserved - v.account.free debit.asset) :
    (v.commit debit credit .borrow terms market borrower timeExchange).Gives fun r =>
      match r.2 with
      | .error _ => ¬ max (debit.settled + debit.reserved - v.account.free debit.asset)
          (margin.minBorrow debit.asset) ≤ k
      | .ok commitment => max (debit.settled + debit.reserved - v.account.free debit.asset)
            (margin.minBorrow debit.asset) ≤ k ∧
          commitment.committed.borrowed =
            max (debit.settled + debit.reserved - v.account.free debit.asset)
              (margin.minBorrow debit.asset) := by
  obtain ⟨hspot, -, -⟩ := borrowCapacity_eq hmargin hterms hcapacity
  have hfree : ¬ debit.settled + debit.reserved ≤ v.account.free debit.asset := by
    intro h
    linarith
  have hborrowable : v.borrowable debit .borrow terms market =
      if v.liquidation.underWay then 0
      else (v.leverageRoom margin (terms.pays side) none).getD 0 := by
    unfold borrowable
    rw [hmargin]
    simp only [ne_eq, not_true_eq_false, hspot, Bool.false_eq_true, hfree, false_or, or_false]
    rw [leverageRoom_own hmargin hown hspot hstands, hasset]
  have hloan : 0 < max (debit.settled + debit.reserved - v.account.free debit.asset)
      (margin.minBorrow debit.asset) := lt_max_of_lt_left hshort
  have hleast : margin.minBorrow (terms.pays side) ≤
      max (debit.settled + debit.reserved - v.account.free debit.asset)
        (margin.minBorrow debit.asset) := by
    rw [← hasset]
    exact le_max_right _ _
  set loan := max (debit.settled + debit.reserved - v.account.free debit.asset)
    (margin.minBorrow debit.asset) with hdefinition
  set lending : Lending := ⟨v.borrowable debit .borrow terms market,
    margin.minBorrow debit.asset, margin.maxBorrow debit.asset⟩
  have hfits : loan ≤ v.account.lendable (terms.pays side) lending ↔ loan ≤ k :=
    lendable_iff hmargin hterms hcapacity hk hborrowable (by rw [← hasset]) hloan hleast
  rw [← hasset] at hfits
  unfold commit
  rw [hmargin]
  dsimp only
  have hcommits : (v.account.commit debit credit .borrow lending timeExchange).Gives fun r =>
      match r.2 with
      | .error _ => ¬ loan ≤ v.account.lendable debit.asset lending
      | .ok committed => loan ≤ v.account.lendable debit.asset lending ∧
          committed.borrowed = loan := AccountState.commit_of_short hlends hpaid hdelivers hshort
  apply hcommits.bind
  rintro ⟨account, insufficient | committed⟩ houtcome
  · exact fun h => houtcome (hfits.2 h)
  · obtain ⟨hfit, hborrowed⟩ := houtcome
    have hmade : loan ≤ k ∧ committed.borrowed = loan := ⟨hfits.1 hfit, hborrowed⟩
    dsimp only
    split
    · apply Except.gives_true.bind
      rintro ⟨charged, _ | ⟨balance, flow⟩⟩ _
      · exact hmade
      · exact hmade
    · exact hmade

end SimulatedVenue

end Rustrade.Mock
