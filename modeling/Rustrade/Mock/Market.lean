import Mathlib.Data.Rat.Floor
import Rustrade.Mock.Basic

/-!
# The market a simulated venue prices from

What a feed shows of an instrument, the models that turn it into the price of a taker's fill, and
the slippage that moves such a price against its order.

The generator slippage draws from belongs to another crate. It is the stream of values one seed
gives, so a position in the stream is the number of values drawn.
-/

set_option autoImplicit false

namespace Rustrade.Mock

/-! ## What a feed shows -/

structure MarketSnapshot where
  bestBid : Option Decimal
  bestAsk : Option Decimal
  lastPrice : Option Decimal
  deriving DecidableEq

namespace MarketSnapshot

def default : MarketSnapshot := ⟨none, none, none⟩

def fromLastPrice (lastPrice : Option Decimal) : MarketSnapshot := ⟨none, none, lastPrice⟩

def isEmpty (self : MarketSnapshot) : Bool :=
  self.bestBid.isNone && self.bestAsk.isNone && self.lastPrice.isNone

def midPrice (self : MarketSnapshot) : Option Decimal :=
  match self.bestBid, self.bestAsk with
  | some bid, some ask => some ((bid + ask) / 2)
  | _, _ => none

end MarketSnapshot

structure MarketBar where
  «open» : Decimal
  high : Decimal
  low : Decimal
  close : Decimal
  deriving DecidableEq

/-- The size on offer at each side of the book, where the feed gives one. -/
structure MarketDepth where
  bestBid : Option Decimal
  bestAsk : Option Decimal
  deriving DecidableEq

namespace MarketDepth

def unknown : MarketDepth := ⟨none, none⟩

def availableTo (self : MarketDepth) : Side → Option Decimal
  | .buy => self.bestAsk
  | .sell => self.bestBid

/-- What is left of the depth a taker on `side` took `quantity` from. -/
def consume [Build] (self : MarketDepth) (side : Side) (quantity : Decimal) :
    Except Fault MarketDepth := do
  debugAssert .consume (0 ≤ quantity)
  let left (available : Decimal) : Decimal := max (available - quantity) 0
  match side with
  | .buy => return { self with bestAsk := self.bestAsk.map left }
  | .sell => return { self with bestBid := self.bestBid.map left }

end MarketDepth

/-- One observation of an instrument. -/
structure MarketObservation where
  snapshot : MarketSnapshot
  depth : MarketDepth
  bar : Option MarketBar
  fresh : Bool
  deriving DecidableEq

/-! ## Pricing a taker -/

/-- Everything a fill model may price from. -/
structure FillContext where
  side : Side
  quantity : Decimal
  market : MarketSnapshot
  deriving DecidableEq

/-- The price of a fill the venue has decided on, or `none` where the market shows nothing to price
    it from. A pure function of its context. -/
structure FillModel where
  fillPrice : FillContext → Option Decimal

def LastPriceFillModel : FillModel where
  fillPrice fill :=
    fill.market.lastPrice.or <| match fill.side with
      | .buy => fill.market.bestAsk
      | .sell => fill.market.bestBid

def BidAskFillModel : FillModel where
  fillPrice fill :=
    match fill.side with
    | .buy => fill.market.bestAsk.or fill.market.lastPrice
    | .sell => fill.market.bestBid.or fill.market.lastPrice

def MidpointFillModel : FillModel where
  fillPrice fill := fill.market.midPrice.or fill.market.lastPrice

inductive SimFillConfig where
  | lastPrice
  | bidAsk
  | midpoint
  deriving DecidableEq, Repr

def SimFillConfig.model : SimFillConfig → FillModel
  | .lastPrice => LastPriceFillModel
  | .bidAsk => BidAskFillModel
  | .midpoint => MidpointFillModel

/-- Which price of the next bar fills an order held for it. -/
inductive NextBarPrice where
  | «open»
  | adverseExtreme
  deriving DecidableEq, Repr

def NextBarPrice.reference (self : NextBarPrice) (side : Side) (bar : MarketBar) : Decimal :=
  match self, side with
  | .open, _ => bar.open
  | .adverseExtreme, .buy => bar.high
  | .adverseExtreme, .sell => bar.low

/-- When a market order fills. -/
inductive MarketOrderTiming where
  | onArrival
  | nextBar (price : NextBarPrice)
  deriving DecidableEq, Repr

/-- What becomes of an order when its instrument's market is stale. -/
inductive StaleMarketPolicy where
  | off
  | wait (maxAge : ℤ)
  deriving DecidableEq, Repr

def StaleMarketPolicy.isWait : StaleMarketPolicy → Bool
  | .wait _ => true
  | .off => false

/-! ## Slippage -/

/-- `round_dp`: to `places` decimal places, a half to the even neighbour. -/
def roundDp (x : Decimal) (places : Nat) : Decimal :=
  let scaled := x * 10 ^ places
  let below := ⌊scaled⌋
  let rest := scaled - below
  let rounded :=
    if rest < 1 / 2 then below
    else if 1 / 2 < rest then below + 1
    else if below % 2 = 0 then below
    else below + 1
  rounded / 10 ^ places

/-- How far a taker's fill is moved against it, as a fraction of its price. -/
inductive SlippageRepr where
  | none
  | fixed (rate : Decimal)
  | uniform (low high : Decimal) (seed : Nat)
  deriving DecidableEq

namespace SlippageRepr

def low : SlippageRepr → Decimal
  | .none => 0
  | .fixed rate => rate
  | .uniform low _ _ => low

def high : SlippageRepr → Decimal
  | .none => 0
  | .fixed rate => rate
  | .uniform _ high _ => high

def seed : SlippageRepr → Option Nat
  | .uniform _ _ seed => some seed
  | .none | .fixed _ => Option.none

end SlippageRepr

/-- A slippage whose rates a venue can apply. -/
structure SlippageConfig where
  repr : SlippageRepr
  low_nonneg : 0 ≤ repr.low
  low_le_high : repr.low ≤ repr.high
  high_lt_one : repr.high < 1

def SlippageConfig.none : SlippageConfig := ⟨.none, by decide, by decide, by decide⟩

/-- The values a seeded generator yields, by their place in its stream. -/
class RandomStream where
  value : (seed place : Nat) → Nat
  value_lt : ∀ seed place, value seed place < 2 ^ 64

/-- A slippage and how many values of its stream it has drawn. -/
structure Slippage where
  config : SlippageConfig
  draws : Nat

namespace Slippage

variable [RandomStream]

def new (config : SlippageConfig) : Slippage := ⟨config, 0⟩

def resumed (config : SlippageConfig) (draws : Nat) : Slippage := ⟨config, draws⟩

/-- The rate for one fill, and the stream after it. A range of one rate draws nothing. -/
def draw (self : Slippage) : Decimal × Slippage :=
  let low := self.config.repr.low
  let high := self.config.repr.high
  if low = high then (low, self)
  else
    let value := RandomStream.value (self.config.repr.seed.getD 0) self.draws
    let unit : Decimal := value / (2 ^ 64 - 1)
    (max low (min high (roundDp (low + (high - low) * unit) 12)),
      { self with draws := self.draws + 1 })

/-- `reference` moved against an order on `side` by the rate drawn for it. -/
def apply (self : Slippage) (side : Side) (reference : Decimal) : Decimal × Slippage :=
  let (rate, drawn) := self.draw
  (if rate = 0 then reference
    else match side with
      | .buy => reference * (1 + rate)
      | .sell => reference * (1 - rate), drawn)

end Slippage

end Rustrade.Mock
