import Rustrade.Mock.Lent
import Rustrade.Mock.Valuation

/-!
# What an account is worth once it is lent to

A loan leaves what each asset is net of its debt as it was, and adds to the debts what it comes to.
A loan within the room the leverage limit leaves keeps the debt within the limit, and the ratios and
the liquidation level a configuration is accepted with put the margin level above the one the
account is liquidated at.
-/

set_option autoImplicit false

namespace Rustrade.Mock

/-! ## What an accepted configuration says -/

namespace SpotMarginRepr

variable {repr : SpotMarginRepr}

/-- What is asked of a configuration for a loan within its limit not to be liquidated. -/
structure Orders (repr : SpotMarginRepr) : Prop where
  leverage : 1 ≤ repr.maxLeverage
  ratios : ∀ e ∈ repr.borrowCollateralRatio.toList ++ repr.liquidationCollateralRatio.toList,
    ratioOf repr.borrowCollateralRatio e.1 ≤ ratioOf repr.liquidationCollateralRatio e.1
  level : ∀ liquidation, repr.liquidation = some liquidation →
    liquidation.level * (repr.maxLeverage - 1) < repr.maxLeverage

theorem orders_of_refusal (h : repr.refusal = none) : repr.Orders := by
  unfold refusal at h
  dsimp only at h
  split at h
  · cases h
  rename_i hleverage
  split at h
  · cases h
  split at h
  · cases h
  split at h
  · cases h
  split at h
  · cases h
  rename_i hratios
  split at h
  · cases h
  split at h
  · cases h
  rename_i hlevel
  constructor
  · exact not_lt.1 hleverage
  · intro e he
    have hnone := List.find?_eq_none.1 hratios e he
    simpa using hnone
  · intro liquidation hsome
    rw [hsome] at hlevel
    simpa [Option.filter] using hlevel

end SpotMarginRepr

namespace SpotMarginConfig

variable (config : SpotMarginConfig)

/-- The constructors accept no ratio for liquidation below the one for borrowing. -/
theorem borrowCollateralRatio_le (asset : AssetNameExchange) :
    config.borrowCollateralRatio asset ≤ config.liquidationCollateralRatio asset := by
  have hratios := (SpotMarginRepr.orders_of_refusal config.accepted).ratios
  by_cases hborrow : ∃ ratio, config.repr.borrowCollateralRatio[asset]? = some ratio
  · obtain ⟨ratio, hratio⟩ := hborrow
    exact hratios (asset, ratio) (List.mem_append_left _ (BTreeMap.mem_toList.2 hratio))
  by_cases hliquidation : ∃ ratio, config.repr.liquidationCollateralRatio[asset]? = some ratio
  · obtain ⟨ratio, hratio⟩ := hliquidation
    exact hratios (asset, ratio) (List.mem_append_right _ (BTreeMap.mem_toList.2 hratio))
  · unfold borrowCollateralRatio liquidationCollateralRatio ratioOf
    rw [Option.eq_none_iff_forall_ne_some.2 fun ratio h => hborrow ⟨ratio, h⟩,
      Option.eq_none_iff_forall_ne_some.2 fun ratio h => hliquidation ⟨ratio, h⟩]

theorem level_mul_lt {liquidation : SpotMarginLiquidation}
    (h : config.liquidation = some liquidation) :
    liquidation.level * (config.maxLeverage - 1) < config.maxLeverage :=
  (SpotMarginRepr.orders_of_refusal config.accepted).level liquidation h

/-- A debt within the leverage limit leaves the margin level above the liquidation level. -/
theorem level_lt {liquidation : SpotMarginLiquidation} {equity weighted debt : Decimal}
    (h : config.liquidation = some liquidation) (hlimit : debt ≤ (config.maxLeverage - 1) * weighted)
    (hweighted : weighted ≤ equity) (hdebt : 0 < debt) :
    liquidation.level < (equity + debt) / debt := by
  have hleverage : 0 ≤ config.maxLeverage - 1 :=
    sub_nonneg.2 (SpotMarginRepr.orders_of_refusal config.accepted).leverage
  have hroom : 0 < config.maxLeverage - 1 := by
    rcases hleverage.lt_or_eq with hpos | hzero
    · exact hpos
    · rw [← hzero, zero_mul] at hlimit
      exact absurd hdebt (not_lt.2 hlimit)
  have hlevel := config.level_mul_lt h
  rw [lt_div_iff₀ hdebt]
  -- `level · (leverage − 1) < leverage` is `(level − 1) · (leverage − 1) < 1`.
  have hscaled : (liquidation.level * debt) * (config.maxLeverage - 1) <
      (equity + debt) * (config.maxLeverage - 1) := by
    calc (liquidation.level * debt) * (config.maxLeverage - 1)
        = (liquidation.level * (config.maxLeverage - 1)) * debt := by ring
      _ < config.maxLeverage * debt := mul_lt_mul_of_pos_right hlevel hdebt
      _ = debt + (config.maxLeverage - 1) * debt := by ring
      _ ≤ (config.maxLeverage - 1) * equity + (config.maxLeverage - 1) * debt := by
          have := mul_le_mul_of_nonneg_left hweighted hleverage
          linarith
      _ = (equity + debt) * (config.maxLeverage - 1) := by ring
  exact lt_of_mul_lt_mul_right hscaled hleverage

end SpotMarginConfig

/-! ## Balances under their own assets -/

namespace AccountState

/-- Each balance is kept under its own asset. -/
def Keyed (account : AccountState) : Prop :=
  ∀ (asset : AssetNameExchange) (balance : AssetBalance),
    account.balances[asset]? = some balance → balance.asset = asset

theorem Keyed.balanceOrOpen {account : AccountState} {asset : AssetNameExchange}
    {timeExchange : DateTime} (h : account.Keyed) :
    (account.balanceOrOpen asset timeExchange).asset = asset := by
  unfold AccountState.balanceOrOpen
  cases hbalance : account.balances[asset]? with
  | none => rfl
  | some balance => exact h asset balance hbalance

theorem Keyed.setBalance {account : AccountState} {asset : AssetNameExchange}
    {balance : AssetBalance} (h : account.Keyed) (hasset : balance.asset = asset) :
    (account.setBalance asset balance).Keyed := by
  intro other found hfound
  rw [show (account.setBalance asset balance).balances[other]? =
    (account.balances.insert asset balance)[other]? from rfl, BTreeMap.get?_insert] at hfound
  split at hfound
  · rename_i hsame
    cases hfound
    rw [hasset, hsame]
  · exact h other found hfound

end AccountState

/-! ## Prices -/

namespace SimulatedVenue

variable {self : SimulatedVenue} {config : SpotMarginConfig} {check : MarginCheck}
  {asset valuation : AssetNameExchange} {priced : Priced} {prices : Prices}

theorem priceOf_pos {owes : Bool} {price : Decimal}
    (h : self.priceOf asset valuation priced .current owes = some price) : 0 < price := by
  unfold priceOf at h
  split at h
  · cases h
    exact one_pos
  · obtain ⟨pair, -, hpair⟩ := List.exists_of_findSome?_eq_some h
    obtain ⟨seen, -, hseen⟩ := Option.bind_eq_some_iff.1 hpair
    split at hseen
    · cases hseen
    · rename_i hpos
      cases hseen
      show 0 < if pair.inverse then 1 / seen else seen
      split
      · exact one_div_pos.2 (not_le.1 hpos)
      · exact not_le.1 hpos

/-! ## What the balances come to -/

/-- What one balance is worth beyond what is owed of it, as a check weights it. -/
def equityOf (self : SimulatedVenue) (config : SpotMarginConfig) (check : MarginCheck)
    (priced : Priced) (prices : Prices) (balance : AssetBalance) : Decimal :=
  (self.priceOf balance.asset config.valuationAsset priced prices (0 < owed balance)).elim 0
    fun price =>
      let net := balance.balance.netAsset
      net * (if 0 < net then check.collateralRatio config balance.asset else 1) * price

def debtOf (self : SimulatedVenue) (config : SpotMarginConfig) (priced : Priced) (prices : Prices)
    (balance : AssetBalance) : Decimal :=
  (self.priceOf balance.asset config.valuationAsset priced prices (0 < owed balance)).elim 0
    fun price => owed balance * price

/-- A balance that can be valued: an asset that is owed has a price. -/
def Valuable (self : SimulatedVenue) (config : SpotMarginConfig) (priced : Priced)
    (prices : Prices) (balance : AssetBalance) : Prop :=
  0 < owed balance → (self.priceOf balance.asset config.valuationAsset priced prices
    (0 < owed balance)).isSome = true

theorem valueBalance_eq_some {before after : Valued} {balance : AssetBalance} :
    self.valueBalance config check priced prices before balance = some after ↔
      self.Valuable config priced prices balance ∧
        after = ⟨before.equity + self.equityOf config check priced prices balance,
          before.debt + self.debtOf config priced prices balance⟩ := by
  unfold valueBalance Valuable equityOf debtOf
  dsimp only
  cases self.priceOf balance.asset config.valuationAsset priced prices (0 < owed balance) with
  | some price => simp [eq_comm]
  | none =>
    by_cases howed : 0 < owed balance
    · simp [howed]
    · simp only [howed, if_false, Option.some.injEq, false_imp_iff, true_and, Option.elim_none,
        add_zero]
      exact eq_comm

theorem foldlM_valueBalance {before after : Valued} {balances : List AssetBalance} :
    balances.foldlM (self.valueBalance config check priced prices) before = some after ↔
      (∀ balance ∈ balances, self.Valuable config priced prices balance) ∧
        after = ⟨before.equity + (balances.map (self.equityOf config check priced prices)).sum,
          before.debt + (balances.map (self.debtOf config priced prices)).sum⟩ := by
  induction balances generalizing before with
  | nil => simp [eq_comm]
  | cons balance rest ih =>
    rw [List.foldlM_cons]
    show (self.valueBalance config check priced prices before balance).bind _ = _ ↔ _
    rw [Option.bind_eq_some_iff]
    simp only [valueBalance_eq_some, ih, List.forall_mem_cons, List.map_cons, List.sum_cons]
    constructor
    · rintro ⟨mid, ⟨hvaluable, rfl⟩, hrest, rfl⟩
      exact ⟨⟨hvaluable, hrest⟩, by simp [add_assoc]⟩
    · rintro ⟨⟨hvaluable, hrest⟩, rfl⟩
      exact ⟨_, ⟨hvaluable, rfl⟩, hrest, by simp [add_assoc]⟩

/-- What a venue's balances are valued at are totals over them. -/
theorem valued_eq_some {after : Valued} :
    self.valued config check priced prices = some after ↔
      (∀ (asset : AssetNameExchange) (balance : AssetBalance),
        self.account.balances[asset]? = some balance → self.Valuable config priced prices balance) ∧
      after = ⟨BTreeMap.total self.account.balances fun _ balance =>
          self.equityOf config check priced prices balance,
        BTreeMap.total self.account.balances fun _ balance =>
          self.debtOf config priced prices balance⟩ := by
  unfold valued AccountState.allBalances BTreeMap.total
  rw [foldlM_valueBalance, List.forall_mem_map, List.map_map, List.map_map]
  constructor
  · rintro ⟨hvaluable, rfl⟩
    refine ⟨fun asset balance hbalance => ?_, by simp [Function.comp_def]⟩
    exact hvaluable (asset, balance) (BTreeMap.mem_toList.2 hbalance)
  · rintro ⟨hvaluable, rfl⟩
    refine ⟨?_, by simp [Function.comp_def]⟩
    rintro ⟨asset, balance⟩ hmem
    exact hvaluable asset balance (BTreeMap.mem_toList.1 hmem)

/-- The ratios of a liquidation weight nothing less than those of a borrow. -/
theorem equityOf_le (balance : AssetBalance) :
    self.equityOf config .borrow priced .current balance ≤
      self.equityOf config .liquidation priced .current balance := by
  unfold equityOf
  cases hprice : self.priceOf balance.asset config.valuationAsset priced .current
      (0 < owed balance) with
  | none => exact le_rfl
  | some price =>
    simp only [Option.elim_some]
    have hpos := priceOf_pos hprice
    split
    · rename_i hnet
      apply mul_le_mul_of_nonneg_right _ hpos.le
      apply mul_le_mul_of_nonneg_left _ hnet.le
      exact config.borrowCollateralRatio_le balance.asset
    · exact le_rfl

theorem valued_liquidation {weighted : Valued}
    (h : self.valued config .borrow priced .current = some weighted) :
    ∃ equity, weighted.equity ≤ equity ∧
      self.valued config .liquidation priced .current = some ⟨equity, weighted.debt⟩ := by
  obtain ⟨hvaluable, rfl⟩ := valued_eq_some.1 h
  refine ⟨_, ?_, valued_eq_some.2 ⟨hvaluable, rfl⟩⟩
  exact List.sum_le_sum fun e _ => equityOf_le e.2

/-! ## A loan -/

/-- The venue once its account is lent `amount` of an asset. -/
def lentTo (self : SimulatedVenue) (asset : AssetNameExchange) (amount : Decimal)
    (timeExchange : DateTime) : SimulatedVenue :=
  { self with account := self.account.borrow asset amount timeExchange }

variable {amount : Decimal} {timeExchange : DateTime}

/-- A loan adds what it comes to to the debts, and nothing to the equity. -/
theorem valued_lentTo {worth : Valued} {price : Decimal} (hlisted : self.account.Keyed)
    (h : self.valued config check priced .current = some worth)
    (hprice : self.priceOf asset config.valuationAsset priced .current true = some price) :
    (self.lentTo asset amount timeExchange).valued config check priced .current =
      some ⟨worth.equity, worth.debt + amount * price⟩ := by
  obtain ⟨hvaluable, rfl⟩ := valued_eq_some.1 h
  set found := self.account.balanceOrOpen asset timeExchange with hfound
  set margin := found.balance.margin.getD .default with hmargin
  set restated : AssetBalance := { found with balance :=
    { total := found.balance.total + amount
      free := found.balance.free + amount
      margin := some { margin with borrowed := margin.borrowed + amount } } } with hrestated
  have hbalances : (self.lentTo asset amount timeExchange).account.balances =
      self.account.balances.insert asset restated := rfl
  have hasset : found.asset = asset := hlisted.balanceOrOpen
  have howed : owed restated = owed found + amount := by
    show margin.borrowed + amount + margin.interest = (found.balance.margin.map _).getD 0 + amount
    rw [hmargin]
    cases found.balance.margin with
    | none => simp [MarginDetails.default]
    | some margin =>
      simp only [Option.getD_some, Option.map_some, MarginDetails.owed]
      ring
  have hnet : restated.balance.netAsset = found.balance.netAsset := by
    rw [Balance.netAsset_eq, Balance.netAsset_eq]
    have hdebt : restated.balance.owed = found.balance.owed + amount := howed
    rw [hdebt]
    show found.balance.total + amount - _ = _
    ring
  have hpriceOf (owes : Bool) :
      self.priceOf asset config.valuationAsset priced .current owes = some price := hprice
  have hequity : self.equityOf config check priced .current restated =
      self.equityOf config check priced .current found := by
    unfold equityOf
    show (self.priceOf found.asset _ _ _ _).elim _ _ = _
    rw [hasset, hpriceOf, hpriceOf, hnet]
  have hdebt : self.debtOf config priced .current restated =
      self.debtOf config priced .current found + amount * price := by
    unfold debtOf
    show (self.priceOf found.asset _ _ _ _).elim _ _ = _
    rw [hasset, hpriceOf, hpriceOf, howed]
    exact add_mul _ _ _
  apply valued_eq_some.2
  rw [hbalances]
  refine ⟨?_, ?_⟩
  · intro other balance hother
    rw [BTreeMap.get?_insert] at hother
    split at hother
    · cases hother
      intro _
      show (self.priceOf found.asset config.valuationAsset priced .current _).isSome = true
      rw [hasset, hpriceOf]
      rfl
    · exact hvaluable other balance hother
  · show _ = Valued.mk (BTreeMap.total _ fun _ balance => self.equityOf config check priced
      .current balance) (BTreeMap.total _ fun _ balance => self.debtOf config priced .current balance)
    cases hbalance : self.account.balances[asset]? with
    | some balance =>
      have hsame : found = balance := by simp [hfound, AccountState.balanceOrOpen, hbalance]
      have htotal := BTreeMap.total_replace (w := restated)
        (f := fun _ balance => self.equityOf config check priced .current balance) hbalance
      have howes := BTreeMap.total_replace (w := restated)
        (f := fun _ balance => self.debtOf config priced .current balance) hbalance
      rw [hequity, hsame] at htotal
      rw [hdebt, hsame] at howes
      rw [add_right_cancel htotal]
      congr 1
      linarith
    | none =>
      have hopened : found.balance.netAsset = 0 ∧ owed found = 0 := by
        have hnew : found.balance = { Balance.new 0 0 with
            margin := if self.account.margin then some .default else none } := by
          simp [hfound, AccountState.balanceOrOpen, hbalance]
        unfold owed
        rw [Balance.netAsset_eq, Balance.owed, hnew]
        cases self.account.margin <;>
          simp [Balance.new, MarginDetails.owed, MarginDetails.default]
      have hnothing : self.equityOf config check priced .current found = 0 := by
        unfold equityOf
        rw [hasset, hpriceOf, hopened.1]
        simp
      have hclear : self.debtOf config priced .current found = 0 := by
        unfold debtOf
        rw [hasset, hpriceOf, hopened.2]
        simp
      rw [BTreeMap.total_insert hbalance, BTreeMap.total_insert hbalance, hequity, hdebt, hnothing,
        hclear, zero_add, zero_add, add_comm]

/-! ## The room the leverage limit leaves -/

/-- How much of an asset the leverage limit leaves to borrow at some prices. -/
def roomAt (self : SimulatedVenue) (config : SpotMarginConfig) (asset : AssetNameExchange)
    (priced : Priced) (prices : Prices) : Option Decimal := do
  let assetPrice ← self.priceOf asset config.valuationAsset priced prices true
  let valued ← self.valued config .borrow priced prices
  let headroom := (config.maxLeverage - 1) * valued.equity - valued.debt
  some (max headroom 0 / assetPrice)

/-- A window leaves no more room than the current prices do. -/
theorem leverageRoom_le {room : Decimal} (h : self.leverageRoom config asset priced = some room) :
    ∃ current, self.roomAt config asset priced .current = some current ∧ room ≤ current := by
  unfold leverageRoom at h
  obtain ⟨current, hcurrent, h⟩ := Option.bind_eq_some_iff.1 h
  refine ⟨current, hcurrent, ?_⟩
  split at h
  · cases h
    exact le_rfl
  · obtain ⟨windowed, -, h⟩ := Option.bind_eq_some_iff.1 h
    cases h
    exact min_le_left _ _

/-- A loan within the room at the current prices keeps the debt within the leverage limit, and the
    margin level above the one the account is liquidated at. -/
theorem limited_of_room {room : Decimal} (hkeyed : self.account.Keyed)
    (h : self.roomAt config asset priced .current = some room) (hpos : 0 < amount)
    (hroom : amount ≤ room) :
    ∃ weighted, (self.lentTo asset amount timeExchange).valued config .borrow priced .current =
        some weighted ∧
      weighted.debt ≤ (config.maxLeverage - 1) * weighted.equity ∧
      ∃ equity, (self.lentTo asset amount timeExchange).valued config .liquidation priced .current =
          some ⟨equity, weighted.debt⟩ ∧
        ∀ liquidation, config.liquidation = some liquidation → 0 < weighted.debt →
          liquidation.level < (equity + weighted.debt) / weighted.debt := by
  obtain ⟨price, hprice, h⟩ := Option.bind_eq_some_iff.1 h
  obtain ⟨worth, hworth, h⟩ := Option.bind_eq_some_iff.1 h
  have hpricePos : 0 < price := priceOf_pos hprice
  have hlent : (self.lentTo asset amount timeExchange).valued config .borrow priced .current =
      some ⟨worth.equity, worth.debt + amount * price⟩ := valued_lentTo hkeyed hworth hprice
  have hlimit : worth.debt + amount * price ≤ (config.maxLeverage - 1) * worth.equity := by
    rw [← Option.some.inj h, le_div_iff₀ hpricePos] at hroom
    rcases le_max_iff.1 hroom with hhead | hzero
    · linarith
    · exact absurd (mul_pos hpos hpricePos) (not_lt.2 hzero)
  refine ⟨_, hlent, hlimit, ?_⟩
  obtain ⟨equity, hweighted, hliquidation⟩ := valued_liquidation hlent
  refine ⟨equity, hliquidation, ?_⟩
  intro liquidation hsome hdebt
  exact config.level_lt hsome hlimit hweighted hdebt

end SimulatedVenue

end Rustrade.Mock
