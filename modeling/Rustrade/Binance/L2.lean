import Rustrade.Books

/-!
# Binance level two streams

An L2 stream begins from a snapshot of the book taken over HTTP and goes on with the differences
the venue sends. Each market has a sequencer that decides which differences may be applied:
`BinanceSpotOrderBookL2Sequencer` and `BinanceFuturesUsdOrderBookL2Sequencer` number a stream by
the same ids and bound the first message and the later ones differently. `L2Stream` is what the
two transformers share: an accepted message becomes an update of the book, a dropped one nothing,
a rejected one an error.
-/

set_option autoImplicit false

namespace Rustrade.Binance

/-- The one `DataError` a sequencer raises: `firstUpdateId` does not follow on. -/
inductive DataError where
  | invalidSequence (prevLastUpdateId firstUpdateId : UInt64)
deriving DecidableEq, Repr

structure BinanceLevel where
  price : Decimal
  amount : Decimal
deriving DecidableEq, Repr

def BinanceLevel.level (level : BinanceLevel) : Level := ⟨level.price, level.amount⟩

structure BinanceOrderBookL2Snapshot where
  lastUpdateId : UInt64
  timeExchange : Option DateTime
  timeEngine : Option DateTime
  bids : List BinanceLevel
  asks : List BinanceLevel
deriving DecidableEq, Repr

/-- The snapshot as an event; `timeReceived` is the local clock. -/
def BinanceOrderBookL2Snapshot.event (snapshot : BinanceOrderBookL2Snapshot)
    (timeReceived : DateTime) : OrderBook :=
  .new snapshot.lastUpdateId ⟨snapshot.timeEngine, snapshot.timeExchange, timeReceived⟩
    (snapshot.bids.map BinanceLevel.level) (snapshot.asks.map BinanceLevel.level)

/-- What a transformer makes of one market's snapshots and messages. -/
structure L2Stream where
  Sequencer : Type
  Update : Type
  new : UInt64 → Sequencer
  validateSequence : Sequencer → Update → Sequencer × Except DataError (Option Update)
  /-- The accepted message as an update of the book. -/
  event : Update → DateTime → OrderBookEvent

/-! ## Spot -/

structure BinanceSpotOrderBookL2Update where
  timeExchange : DateTime
  firstUpdateId : UInt64
  lastUpdateId : UInt64
  bids : List BinanceLevel
  asks : List BinanceLevel
deriving DecidableEq, Repr

def BinanceSpotOrderBookL2Update.event (update : BinanceSpotOrderBookL2Update)
    (timeReceived : DateTime) : OrderBookEvent :=
  .update (.new update.lastUpdateId ⟨none, some update.timeExchange, timeReceived⟩
    (update.bids.map BinanceLevel.level) (update.asks.map BinanceLevel.level))

structure BinanceSpotOrderBookL2Sequencer where
  updatesProcessed : UInt64
  lastUpdateId : UInt64
  prevLastUpdateId : UInt64
deriving DecidableEq, Repr

namespace BinanceSpotOrderBookL2Sequencer

variable (sequencer : BinanceSpotOrderBookL2Sequencer) (update : BinanceSpotOrderBookL2Update)

def new (lastUpdateId : UInt64) : BinanceSpotOrderBookL2Sequencer where
  updatesProcessed := 0
  lastUpdateId := lastUpdateId
  prevLastUpdateId := lastUpdateId

def isFirstUpdate : Bool := sequencer.updatesProcessed == 0

def validateFirstUpdate : Except DataError Unit :=
  let expectedNextId := sequencer.lastUpdateId + 1
  if update.firstUpdateId ≤ expectedNextId ∧ update.lastUpdateId ≥ expectedNextId then .ok ()
  else .error (.invalidSequence sequencer.lastUpdateId update.firstUpdateId)

def validateNextUpdate : Except DataError Unit :=
  let expectedNextId := sequencer.lastUpdateId + 1
  if update.firstUpdateId = expectedNextId then .ok ()
  else .error (.invalidSequence sequencer.lastUpdateId update.firstUpdateId)

def validateSequence :
    BinanceSpotOrderBookL2Sequencer × Except DataError (Option BinanceSpotOrderBookL2Update) :=
  if update.lastUpdateId ≤ sequencer.lastUpdateId then (sequencer, .ok none)
  else
    let validated :=
      if sequencer.isFirstUpdate then sequencer.validateFirstUpdate update
      else sequencer.validateNextUpdate update
    match validated with
    | .error error => (sequencer, .error error)
    | .ok () =>
      ({ updatesProcessed := sequencer.updatesProcessed + 1
         prevLastUpdateId := sequencer.lastUpdateId
         lastUpdateId := update.lastUpdateId }, .ok (some update))

end BinanceSpotOrderBookL2Sequencer

def spot : L2Stream where
  Sequencer := BinanceSpotOrderBookL2Sequencer
  Update := BinanceSpotOrderBookL2Update
  new := BinanceSpotOrderBookL2Sequencer.new
  validateSequence := BinanceSpotOrderBookL2Sequencer.validateSequence
  event := BinanceSpotOrderBookL2Update.event

/-! ## USD futures -/

structure BinanceFuturesOrderBookL2Update where
  timeExchange : DateTime
  timeEngine : DateTime
  firstUpdateId : UInt64
  lastUpdateId : UInt64
  prevLastUpdateId : UInt64
  bids : List BinanceLevel
  asks : List BinanceLevel
deriving DecidableEq, Repr

def BinanceFuturesOrderBookL2Update.event (update : BinanceFuturesOrderBookL2Update)
    (timeReceived : DateTime) : OrderBookEvent :=
  .update (.new update.lastUpdateId
    ⟨some update.timeEngine, some update.timeExchange, timeReceived⟩
    (update.bids.map BinanceLevel.level) (update.asks.map BinanceLevel.level))

structure BinanceFuturesUsdOrderBookL2Sequencer where
  updatesProcessed : UInt64
  lastUpdateId : UInt64
deriving DecidableEq, Repr

namespace BinanceFuturesUsdOrderBookL2Sequencer

variable (sequencer : BinanceFuturesUsdOrderBookL2Sequencer)
  (update : BinanceFuturesOrderBookL2Update)

def new (lastUpdateId : UInt64) : BinanceFuturesUsdOrderBookL2Sequencer where
  updatesProcessed := 0
  lastUpdateId := lastUpdateId

def isFirstUpdate : Bool := sequencer.updatesProcessed == 0

def validateFirstUpdate : Except DataError Unit :=
  if update.firstUpdateId ≤ sequencer.lastUpdateId ∧ update.lastUpdateId ≥ sequencer.lastUpdateId
  then .ok ()
  else .error (.invalidSequence sequencer.lastUpdateId update.firstUpdateId)

def validateNextUpdate : Except DataError Unit :=
  if update.prevLastUpdateId = sequencer.lastUpdateId then .ok ()
  else .error (.invalidSequence sequencer.lastUpdateId update.firstUpdateId)

def validateSequence :
    BinanceFuturesUsdOrderBookL2Sequencer ×
      Except DataError (Option BinanceFuturesOrderBookL2Update) :=
  if update.lastUpdateId < sequencer.lastUpdateId then (sequencer, .ok none)
  else
    let validated :=
      if sequencer.isFirstUpdate then sequencer.validateFirstUpdate update
      else sequencer.validateNextUpdate update
    match validated with
    | .error error => (sequencer, .error error)
    | .ok () =>
      ({ updatesProcessed := sequencer.updatesProcessed + 1
         lastUpdateId := update.lastUpdateId }, .ok (some update))

end BinanceFuturesUsdOrderBookL2Sequencer

def futuresUsd : L2Stream where
  Sequencer := BinanceFuturesUsdOrderBookL2Sequencer
  Update := BinanceFuturesOrderBookL2Update
  new := BinanceFuturesUsdOrderBookL2Sequencer.new
  validateSequence := BinanceFuturesUsdOrderBookL2Sequencer.validateSequence
  event := BinanceFuturesOrderBookL2Update.event

/-! ## One instrument's stream and its local book -/

namespace L2Stream

variable (stream : L2Stream)

/-- `transform`, for the instrument the message is about. -/
def transform (sequencer : stream.Sequencer) (input : stream.Update) (timeReceived : DateTime) :
    stream.Sequencer × List (Except DataError OrderBookEvent) :=
  match stream.validateSequence sequencer input with
  | (sequencer, .ok (some validUpdate)) =>
    (sequencer, [.ok (stream.event validUpdate timeReceived)])
  | (sequencer, .ok none) => (sequencer, [])
  | (sequencer, .error error) => (sequencer, [.error error])

/-- A transformer's sequencer, and the book its events are applied to. -/
structure LocalBook where
  sequencer : stream.Sequencer
  book : OrderBook

variable {stream}

/-- `init` from the snapshot, which the book begins as. -/
def LocalBook.init (snapshot : BinanceOrderBookL2Snapshot) (timeReceived : DateTime) :
    stream.LocalBook :=
  let book := snapshot.event timeReceived
  { sequencer := stream.new book.sequence, book := book }

/-- The book's manager logs an error and applies an event. -/
def LocalBook.apply (book : OrderBook) : Except DataError OrderBookEvent → OrderBook
  | .ok event => book.update event
  | .error _ => book

/-- One message handed to the transformer at `delivery.1`. -/
def LocalBook.receive (state : stream.LocalBook) (delivery : DateTime × stream.Update) :
    stream.LocalBook :=
  let (sequencer, events) := stream.transform state.sequencer delivery.2 delivery.1
  { sequencer := sequencer, book := events.foldl LocalBook.apply state.book }

/-- The message is accepted. -/
def LocalBook.accepts (state : stream.LocalBook) (update : stream.Update) : Prop :=
  ∃ validUpdate, (stream.validateSequence state.sequencer update).2 = .ok (some validUpdate)

end L2Stream

end Rustrade.Binance
