import Rustrade.Position
import Rustrade.Lib.Ensures

/-!
# The keys of a position

A position names its instrument once, and an asset for each of its fees and for each carry of a
third asset. `mapPositionKeys` rewrites the keys through lookups that may fail; where none fails it
is `renamed`, which composes, and reads each lookup only at the assets the position names.
-/

set_option autoImplicit false

namespace Rustrade

namespace Position

variable {AssetFrom AssetTo AssetKey InstrumentFrom InstrumentTo InstrumentKey ε : Type}

/-- `self` with its instrument key mapped by `instrument` and every asset key by `asset`. -/
def mapPositionKeys (self : Position AssetFrom InstrumentFrom)
    (instrument : InstrumentFrom → Except ε InstrumentTo) (asset : AssetFrom → Except ε AssetTo) :
    Except ε (Position AssetTo InstrumentTo) := do
  let fees (fees : AssetFees AssetFrom) : Except ε (AssetFees AssetTo) := do
    return ⟨← asset fees.asset, fees.fees, fees.feesQuote⟩
  let key ← instrument self.instrument
  let other ← self.carryAssets.other.mapM fun e => do return (← asset e.1, e.2)
  let feesEnter ← fees self.feesEnter
  let feesExit ← fees self.feesExit
  return {
    instrument := key
    side := self.side
    priceEntryAverage := self.priceEntryAverage
    quantityAbs := self.quantityAbs
    quantityAbsMax := self.quantityAbsMax
    pnlUnrealised := self.pnlUnrealised
    pnlRealised := self.pnlRealised
    carry := self.carry
    carryAssets := ⟨self.carryAssets.base, other⟩
    feesEnter := feesEnter
    feesExit := feesExit
    timeEnter := self.timeEnter
    timeExchangeUpdate := self.timeExchangeUpdate
    trades := self.trades
    ordersEnter := self.ordersEnter
    contractSize := self.contractSize }

/-- The assets the position names. -/
def assets (self : Position AssetKey InstrumentKey) : List AssetKey :=
  self.carryAssets.other.map Prod.fst ++ [self.feesEnter.asset, self.feesExit.asset]

/-- The position on the instrument `key`, with its assets renamed. -/
def renamed (self : Position AssetFrom InstrumentFrom) (key : InstrumentTo)
    (asset : AssetFrom → AssetTo) : Position AssetTo InstrumentTo where
  instrument := key
  side := self.side
  priceEntryAverage := self.priceEntryAverage
  quantityAbs := self.quantityAbs
  quantityAbsMax := self.quantityAbsMax
  pnlUnrealised := self.pnlUnrealised
  pnlRealised := self.pnlRealised
  carry := self.carry
  carryAssets := ⟨self.carryAssets.base, self.carryAssets.other.map fun e => (asset e.1, e.2)⟩
  feesEnter := ⟨asset self.feesEnter.asset, self.feesEnter.fees, self.feesEnter.feesQuote⟩
  feesExit := ⟨asset self.feesExit.asset, self.feesExit.fees, self.feesExit.feesQuote⟩
  timeEnter := self.timeEnter
  timeExchangeUpdate := self.timeExchangeUpdate
  trades := self.trades
  ordersEnter := self.ordersEnter
  contractSize := self.contractSize

variable {self : Position AssetFrom InstrumentFrom}

theorem mem_assets {asset : AssetFrom} : asset ∈ self.assets ↔
    (∃ e ∈ self.carryAssets.other, e.1 = asset) ∨ asset = self.feesEnter.asset ∨
      asset = self.feesExit.asset := by
  simp [assets]

/-- Where no lookup fails, the keys are renamed. -/
theorem mapPositionKeys_eq_ok {instrument : InstrumentFrom → Except ε InstrumentTo}
    {asset : AssetFrom → Except ε AssetTo} {key : InstrumentTo} {name : AssetFrom → AssetTo}
    (hkey : instrument self.instrument = .ok key)
    (hasset : ∀ held ∈ self.assets, asset held = .ok (name held)) :
    self.mapPositionKeys instrument asset = .ok (self.renamed key name) := by
  have hcarry : (self.carryAssets.other.mapM fun e => do return (← asset e.1, e.2)) =
      (.ok (self.carryAssets.other.map fun e => (name e.1, e.2)) : Except ε _) := by
    apply Except.mapM_eq_ok
    intro e he
    rw [hasset e.1 (mem_assets.2 (.inl ⟨e, he, rfl⟩))]
    rfl
  have henter := hasset self.feesEnter.asset (mem_assets.2 (.inr (.inl rfl)))
  have hexit := hasset self.feesExit.asset (mem_assets.2 (.inr (.inr rfl)))
  unfold mapPositionKeys
  rw [hkey, hcarry]
  dsimp only
  rw [henter, hexit]
  rfl

theorem assets_renamed {key : InstrumentTo} {name : AssetFrom → AssetTo} :
    (self.renamed key name).assets = self.assets.map name := by
  simp [assets, renamed, Function.comp_def]

/-- The first instrument is forgotten, and the assets go through both. -/
theorem renamed_renamed {key : InstrumentTo} {key' : InstrumentKey} {name : AssetFrom → AssetTo}
    {name' : AssetTo → AssetKey} :
    (self.renamed key name).renamed key' name' = self.renamed key' (name' ∘ name) := by
  simp [renamed, Function.comp_def]

/-- Only the assets the position names are looked up. -/
theorem renamed_congr {key : InstrumentTo} {name name' : AssetFrom → AssetTo}
    (h : ∀ held ∈ self.assets, name held = name' held) :
    self.renamed key name = self.renamed key name' := by
  have hother : (self.carryAssets.other.map fun e => (name e.1, e.2)) =
      self.carryAssets.other.map fun e => (name' e.1, e.2) := by
    apply List.map_congr_left
    intro e he
    rw [h e.1 (mem_assets.2 (.inl ⟨e, he, rfl⟩))]
  unfold renamed
  rw [hother, h self.feesEnter.asset (mem_assets.2 (.inr (.inl rfl))),
    h self.feesExit.asset (mem_assets.2 (.inr (.inr rfl)))]

/-- What is renamed to itself is unchanged. -/
theorem renamed_id : self.renamed self.instrument id = self := by
  simp [renamed]

end Position

end Rustrade
