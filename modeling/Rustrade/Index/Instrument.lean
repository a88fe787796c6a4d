import Mathlib.Data.Prod.Lex
import Mathlib.Data.String.Basic
import Mathlib.Order.WithBot
import Rustrade.Instrument

/-!
# Instruments as they are configured

The whole of an instrument, with its names, the convention it is quoted in, its specification and
the venue its prices come from. Assets and instruments are ordered field by field, as the source
derives it, so a collection of them can be sorted.
-/

set_option autoImplicit false

namespace Rustrade.Index

/-! ## Names -/

/-- How a name is put in lower case, Unicode's table being left open. A name that was is left as it
    is. -/
class NameCase where
  normalise : String → String
  idempotent : ∀ name, normalise (normalise name) = normalise name

/-- A name in lower case: there is no other way to make one. -/
structure AssetNameInternal [NameCase] where
  name : String
  normal : NameCase.normalise name = name
deriving DecidableEq

def AssetNameInternal.new [NameCase] (name : String) : AssetNameInternal :=
  ⟨NameCase.normalise name, NameCase.idempotent name⟩

structure AssetNameExchange where
  name : String
deriving DecidableEq, Repr

/-- The field is public, so a name may be made that is not in lower case. -/
structure InstrumentNameInternal where
  name : String
deriving DecidableEq, Repr

def InstrumentNameInternal.new [NameCase] (name : String) : InstrumentNameInternal :=
  ⟨NameCase.normalise name⟩

structure InstrumentNameExchange where
  name : String
deriving DecidableEq, Repr

/-- `to_ascii_lowercase_smolstr`. -/
def toAsciiLowercase (name : String) : String := name.map Char.toLower

structure Asset [NameCase] where
  nameInternal : AssetNameInternal
  nameExchange : AssetNameExchange
deriving DecidableEq

structure ExchangeAsset (ExchangeId : Type) [NameCase] where
  exchange : ExchangeId
  asset : Asset
deriving DecidableEq

/-! ## Instruments -/

inductive InstrumentQuoteAsset where
  | underlyingBase
  | underlyingQuote
deriving DecidableEq, Repr

structure InstrumentSpecPrice where
  min : Decimal
  tickSize : Decimal
deriving DecidableEq, Repr

structure InstrumentSpecNotional where
  min : Decimal
deriving DecidableEq, Repr

structure InstrumentSpec (AssetKey : Type) where
  price : InstrumentSpecPrice
  quantity : InstrumentSpecQuantity AssetKey
  notional : InstrumentSpecNotional
deriving DecidableEq

structure DataVenue (ExchangeKey : Type) where
  exchange : ExchangeKey
  nameExchange : Option InstrumentNameExchange
deriving DecidableEq

structure Instrument (ExchangeKey AssetKey : Type) where
  exchange : ExchangeKey
  nameInternal : InstrumentNameInternal
  nameExchange : InstrumentNameExchange
  underlying : Underlying AssetKey
  quote : InstrumentQuoteAsset
  kind : InstrumentKind AssetKey
  spec : Option (InstrumentSpec AssetKey)
  dataVenue : Option (DataVenue ExchangeKey)
deriving DecidableEq

def settlementAsset {AssetKey : Type} : InstrumentKind AssetKey → Option AssetKey
  | .spot => none
  | .perpetual contract => some contract.settlementAsset
  | .future contract => some contract.settlementAsset
  | .option contract => some contract.settlementAsset
  | .cfd contract => some contract.settlementAsset

/-! ## Keys -/

section

variable {E E' A A' ε : Type}

def mapVenue (dataVenue : Option (DataVenue E)) (findExchange : E → Except ε E') :
    Except ε (Option (DataVenue E')) :=
  match dataVenue with
  | none => .ok none
  | some venue => do return some { venue with exchange := ← findExchange venue.exchange }

/-- The lookup is of the data venue and of the execution venue. -/
def Instrument.mapExchangeKey (self : Instrument E A) (findExchange : E → Except ε E') :
    Except ε (Instrument E' A) := do
  let dataVenue ← mapVenue self.dataVenue findExchange
  let exchange ← findExchange self.exchange
  return { self with exchange, dataVenue }

def mapUnit (unit : OrderQuantityUnits A) (findAsset : A → Except ε A') :
    Except ε (OrderQuantityUnits A') :=
  match unit with
  | .asset asset => do return .asset (← findAsset asset)
  | .contract => .ok .contract
  | .quote => .ok .quote

def mapKind (kind : InstrumentKind A) (findAsset : A → Except ε A') :
    Except ε (InstrumentKind A') :=
  match kind with
  | .spot => .ok .spot
  | .perpetual contract => do
    return .perpetual ⟨contract.contractSize, ← findAsset contract.settlementAsset⟩
  | .future contract => do
    return .future ⟨contract.contractSize, ← findAsset contract.settlementAsset, contract.expiry⟩
  | .option contract => do
    return .option ⟨contract.contractSize, ← findAsset contract.settlementAsset, contract.kind,
      contract.exercise, contract.expiry, contract.strike⟩
  | .cfd contract => do return .cfd ⟨contract.contractSize, ← findAsset contract.settlementAsset⟩

def mapSpec (spec : Option (InstrumentSpec A)) (findAsset : A → Except ε A') :
    Except ε (Option (InstrumentSpec A')) :=
  match spec with
  | none => .ok none
  | some spec => do
    let unit ← mapUnit spec.quantity.unit findAsset
    return some ⟨spec.price, ⟨unit, spec.quantity.min, spec.quantity.increment⟩, spec.notional⟩

def Instrument.mapAssetKeyWithLookup (self : Instrument E A) (findAsset : A → Except ε A') :
    Except ε (Instrument E A') := do
  let base ← findAsset self.underlying.base
  let quote ← findAsset self.underlying.quote
  let kind ← mapKind self.kind findAsset
  let spec ← mapSpec self.spec findAsset
  return { self with underlying := ⟨base, quote⟩, kind, spec }

end

/-! ## Order -/

section

variable [NameCase]

/-- The fields of an asset, in the order they are compared. -/
def Asset.key (asset : Asset) : String ×ₗ String :=
  toLex (asset.nameInternal.name, asset.nameExchange.name)

instance : LinearOrder Asset :=
  LinearOrder.lift' Asset.key fun a b h => by
    cases a with | mk internal exchange =>
    cases internal; cases exchange
    cases b with | mk internal exchange =>
    cases internal; cases exchange
    cases h
    rfl

variable {E : Type} [LinearOrder E]

def ExchangeAsset.key (asset : ExchangeAsset E) : E ×ₗ Asset := toLex (asset.exchange, asset.asset)

instance : LinearOrder (ExchangeAsset E) :=
  LinearOrder.lift' ExchangeAsset.key fun a b h => by
    cases a
    cases b
    cases h
    rfl

def optionKindKey : OptionKind → ℕ
  | .call => 0
  | .put => 1

def exerciseKey : OptionExercise → ℕ
  | .american => 0
  | .bermudan => 1
  | .european => 2

def quoteKey : InstrumentQuoteAsset → ℕ
  | .underlyingBase => 0
  | .underlyingQuote => 1

/-- None is below any. -/
def optionKey {α β : Type} (key : α → β) : Option α → WithBot β
  | none => ⊥
  | some a => ↑(key a)

/-- What a kind is compared by once its variant is: contract size, settlement asset, option terms,
    expiry and strike. A field its variant does not have is the same for all of them. -/
abbrev TermsKey : Type := WithBot (ℚ ×ₗ Asset) ×ₗ ℕ ×ₗ ℕ ×ₗ ℤ ×ₗ ℚ

def kindKey : InstrumentKind Asset → ℕ ×ₗ TermsKey
  | .spot => toLex (0, toLex (⊥, toLex (0, toLex (0, toLex (0, 0)))))
  | .perpetual contract => toLex (1,
      toLex (↑(toLex (contract.contractSize, contract.settlementAsset)),
        toLex (0, toLex (0, toLex (0, 0)))))
  | .future contract => toLex (2,
      toLex (↑(toLex (contract.contractSize, contract.settlementAsset)),
        toLex (0, toLex (0, toLex (contract.expiry, 0)))))
  | .option contract => toLex (3,
      toLex (↑(toLex (contract.contractSize, contract.settlementAsset)),
        toLex (optionKindKey contract.kind, toLex (exerciseKey contract.exercise,
          toLex (contract.expiry, contract.strike)))))
  | .cfd contract => toLex (4,
      toLex (↑(toLex (contract.contractSize, contract.settlementAsset)),
        toLex (0, toLex (0, toLex (0, 0)))))

def unitKey : OrderQuantityUnits Asset → ℕ ×ₗ WithBot Asset
  | .asset asset => toLex (0, ↑asset)
  | .contract => toLex (1, ⊥)
  | .quote => toLex (2, ⊥)

abbrev SpecKey : Type := ℚ ×ₗ ℚ ×ₗ (ℕ ×ₗ WithBot Asset) ×ₗ ℚ ×ₗ ℚ ×ₗ ℚ

def specKey (spec : InstrumentSpec Asset) : SpecKey :=
  toLex (spec.price.min, toLex (spec.price.tickSize, toLex (unitKey spec.quantity.unit,
    toLex (spec.quantity.min, toLex (spec.quantity.increment, spec.notional.min)))))

def venueKey (venue : DataVenue E) : E ×ₗ WithBot String :=
  toLex (venue.exchange, optionKey InstrumentNameExchange.name venue.nameExchange)

abbrev InstrumentKey (E : Type) : Type :=
  E ×ₗ String ×ₗ String ×ₗ Asset ×ₗ Asset ×ₗ ℕ ×ₗ (ℕ ×ₗ TermsKey) ×ₗ WithBot SpecKey ×ₗ
    WithBot (E ×ₗ WithBot String)

/-- The fields of an instrument, in the order they are compared. -/
def Instrument.key (self : Instrument E Asset) : InstrumentKey E :=
  toLex (self.exchange, toLex (self.nameInternal.name, toLex (self.nameExchange.name,
    toLex (self.underlying.base, toLex (self.underlying.quote, toLex (quoteKey self.quote,
      toLex (kindKey self.kind,
        toLex (optionKey specKey self.spec, optionKey venueKey self.dataVenue))))))))

omit [NameCase] in
theorem optionKindKey_injective : Function.Injective optionKindKey := by
  intro a b h
  cases a <;> cases b <;> first | rfl | cases h

omit [NameCase] in
theorem exerciseKey_injective : Function.Injective exerciseKey := by
  intro a b h
  cases a <;> cases b <;> first | rfl | cases h

omit [NameCase] in
theorem quoteKey_injective : Function.Injective quoteKey := by
  intro a b h
  cases a <;> cases b <;> first | rfl | cases h

theorem kindKey_injective : Function.Injective kindKey := by
  intro a b h
  cases a <;> cases b <;> simp [kindKey] at h ⊢
  · rename_i a b
    cases a
    cases b
    simpa using h
  · rename_i a b
    cases a
    cases b
    simpa [and_assoc] using h
  · rename_i a b
    cases a
    cases b
    simpa [and_assoc, optionKindKey_injective.eq_iff, exerciseKey_injective.eq_iff] using h
  · rename_i a b
    cases a
    cases b
    simpa using h

theorem unitKey_injective : Function.Injective unitKey := by
  intro a b h
  cases a <;> cases b <;> simp [unitKey] at h ⊢
  exact h

omit [NameCase] in
theorem optionKey_injective {α β : Type} {key : α → β} (hkey : Function.Injective key) :
    Function.Injective (optionKey key) := by
  intro a b h
  cases a with
  | none =>
    cases b with
    | none => rfl
    | some b => cases h
  | some a =>
    cases b with
    | none => cases h
    | some b => rw [hkey (WithBot.coe_injective h)]

omit [NameCase] in
theorem nameExchange_injective : Function.Injective InstrumentNameExchange.name := by
  intro a b h
  cases a
  cases b
  cases h
  rfl

theorem specKey_injective : Function.Injective specKey := by
  intro a b h
  obtain ⟨⟨minA, tickA⟩, ⟨unitA, leastA, stepA⟩, ⟨notionalA⟩⟩ := a
  obtain ⟨⟨minB, tickB⟩, ⟨unitB, leastB, stepB⟩, ⟨notionalB⟩⟩ := b
  simp only [specKey, EmbeddingLike.apply_eq_iff_eq, Prod.mk.injEq,
    unitKey_injective.eq_iff] at h
  obtain ⟨rfl, rfl, rfl, rfl, rfl, rfl⟩ := h
  rfl

omit [NameCase] [LinearOrder E] in
theorem venueKey_injective : Function.Injective (venueKey : DataVenue E → _) := by
  intro a b h
  obtain ⟨exchangeA, nameA⟩ := a
  obtain ⟨exchangeB, nameB⟩ := b
  simp only [venueKey, EmbeddingLike.apply_eq_iff_eq, Prod.mk.injEq,
    (optionKey_injective nameExchange_injective).eq_iff] at h
  obtain ⟨rfl, rfl⟩ := h
  rfl

omit [LinearOrder E] in
theorem Instrument.key_injective : Function.Injective (Instrument.key : Instrument E Asset → _) := by
  intro a b h
  obtain ⟨exchangeA, ⟨internalA⟩, ⟨nameA⟩, ⟨baseA, underA⟩, quoteA, kindA, specA, venueA⟩ := a
  obtain ⟨exchangeB, ⟨internalB⟩, ⟨nameB⟩, ⟨baseB, underB⟩, quoteB, kindB, specB, venueB⟩ := b
  simp only [key, EmbeddingLike.apply_eq_iff_eq, Prod.mk.injEq, quoteKey_injective.eq_iff,
    kindKey_injective.eq_iff, (optionKey_injective specKey_injective).eq_iff,
    (optionKey_injective venueKey_injective).eq_iff] at h
  obtain ⟨rfl, rfl, rfl, rfl, rfl, rfl, rfl, rfl, rfl⟩ := h
  rfl

instance : LinearOrder (Instrument E Asset) :=
  LinearOrder.lift' Instrument.key Instrument.key_injective

end

end Rustrade.Index
