import Rustrade.ExecutionManager.UnknownOutcome

/-!
# The execution manager's loop

`ExecutionManager::run` as a step function. A step is what the loop does once one of its five
sources is ready, or what happens outside it: an account event becomes ready, or the account
stream ends. Which source is taken, what the client answers, when, and under which key, is in the
`Input`, so a run of inputs is any order the select could have taken.

The numbers given to the requests as they are taken, the `Origin` of each event sent and what
became ready on the account stream are kept to speak of the run; no step depends on them. The
response channel is open throughout.
-/

set_option autoImplicit false

namespace Rustrade

open Mock (VenueOrder InstrumentNameExchange)

/-- Converts between the engine's keys and the venue's names. -/
structure AccountEventIndexer where
  findExchangeId : ExchangeIndex → Option ExchangeId
  findOwnInstrumentNameExchange : InstrumentIndex → Option InstrumentNameExchange
  /-- What becomes of a venue's error, whose names may be of no index. -/
  apiError : ApiError → ApiError

namespace AccountEventIndexer

variable (indexer : AccountEventIndexer)

def orderRequest {Kind : Type} (order : OrderEvent ExchangeIndex InstrumentIndex Kind) :
    Option (OrderEvent ExchangeId InstrumentNameExchange Kind) :=
  match indexer.findExchangeId order.key.exchange,
      indexer.findOwnInstrumentNameExchange order.key.instrument with
  | some exchange, some instrument =>
    some ⟨⟨exchange, instrument, order.key.strategy, order.key.cid⟩, order.state⟩
  | _, _ => none

def orderError : OrderError → OrderError
  | .rejected error => .rejected (indexer.apiError error)
  | error => error

def orderState : OrderState → OrderState
  | .inactive (.openFailed failed) => .inactive (.openFailed (indexer.orderError failed))
  | state => state

@[simp] theorem orderState_isOutcomeUnknown (state : OrderState) :
    (indexer.orderState state).isOutcomeUnknown = state.isOutcomeUnknown := by
  cases state with
  | active state => rfl
  | inactive state =>
    cases state with
    | openFailed error => cases error <;> rfl
    | cancelled _ | fullyFilled _ | expired _ => rfl

end AccountEventIndexer

inductive ExecutionRequest where
  | shutdown
  | drain
  | cancel (request : OrderRequestCancel ExchangeIndex InstrumentIndex)
  | open (request : OrderRequestOpen ExchangeIndex InstrumentIndex)

/-- A lookup to start: the key the venue knows the order by, its request, and when that was sent. -/
structure Lookup where
  key : OrderKey ExchangeId InstrumentNameExchange
  request : OrderRequestOpen ExchangeIndex InstrumentIndex
  sent : ℕ

structure ExecutionManager where
  unknownOutcome : UnknownOutcomeLookup
  indexer : AccountEventIndexer

/-- What a request's future comes to: the client's response, or its timeout. -/
abbrev Answer (Response : Type) := Except Unit Response

namespace ExecutionManager

variable {AssetKey : Type} (self : ExecutionManager)

/-- The response's own key is compared with the request's for the log alone. -/
def processCancelResponse (request : OrderRequestCancel ExchangeIndex InstrumentIndex)
    (response : OrderResponseCancel ExchangeId InstrumentNameExchange) :
    AccountStreamEvent AssetKey :=
  .item
    { exchange := request.key.exchange
      kind := .orderCancelled
        ⟨request.key, response.state.mapError self.indexer.orderError⟩ }

def processCancelTimeout (order : OrderRequestCancel ExchangeIndex InstrumentIndex) :
    AccountStreamEvent AssetKey :=
  .item
    { exchange := order.key.exchange
      kind := .orderCancelled ⟨order.key, .error (.connectivity .timeout)⟩ }

def processOpenResponse (request : OrderRequestOpen ExchangeIndex InstrumentIndex)
    (response : VenueOrder OrderState) : AccountStreamEvent AssetKey :=
  .item
    { exchange := request.key.exchange
      kind := .orderSnapshot
        { key := request.key
          side := response.side
          price := response.price
          quantity := response.quantity
          kind := response.kind
          timeInForce := response.timeInForce
          state := self.indexer.orderState response.state } }

def processOpenTimeout (order : OrderRequestOpen ExchangeIndex InstrumentIndex) :
    AccountStreamEvent AssetKey :=
  .item
    { exchange := order.key.exchange
      kind := .orderSnapshot
        { key := order.key
          side := order.state.side
          price := order.state.price
          quantity := order.state.quantity
          kind := order.state.kind
          timeInForce := order.state.timeInForce
          state := .inactive (.openFailed (.connectivity .timeout)) } }

def lookupKey (request : OrderRequestOpen ExchangeIndex InstrumentIndex) :
    Option (OrderKey ExchangeId InstrumentNameExchange) :=
  (self.indexer.orderRequest request).map OrderEvent.key

/-- The event that answers an open, and the lookup to start when it leaves the outcome unknown. -/
def processOpenAnswer (request : OrderRequestOpen ExchangeIndex InstrumentIndex) (sent : ℕ)
    (response : Answer (VenueOrder OrderState)) : AccountStreamEvent AssetKey × Option Lookup :=
  let (event, unknown) : AccountStreamEvent AssetKey × Bool :=
    match response with
    | .ok response => (self.processOpenResponse request response, response.state.isOutcomeUnknown)
    | .error () => (processOpenTimeout request, true)
  let lookup :=
    if unknown then
      (self.lookupKey request).bind fun key =>
        if self.unknownOutcome.attempts = 0 then none else some ⟨key, request, sent⟩
    else none
  (event, lookup)

/-- What a lookup found, as a snapshot of the order; nothing if the lookups ran out. -/
def processLookupOutcome (request : OrderRequestOpen ExchangeIndex InstrumentIndex) :
    LookupOutcome → Option (AccountStreamEvent AssetKey)
  | .live order =>
    some <| .item
      { exchange := request.key.exchange
        kind := .orderSnapshot
          { key := request.key
            side := order.side
            price := order.price
            quantity := order.quantity
            kind := order.kind
            timeInForce := order.timeInForce
            state := .active (.open order.state) } }
  | .ended order =>
    some <| .item
      { exchange := request.key.exchange
        kind := .orderSnapshot
          { key := request.key
            side := order.side
            price := order.price
            quantity := order.quantity
            kind := order.kind
            timeInForce := order.timeInForce
            state := self.indexer.orderState (.inactive order.state) } }
  | .neverPlaced =>
    some <| .item
      { exchange := request.key.exchange
        kind := .orderSnapshot
          { key := request.key
            side := request.state.side
            price := request.state.price
            quantity := request.state.quantity
            kind := request.state.kind
            timeInForce := request.state.timeInForce
            state := .inactive (.openFailed (.notPlaced .unknownToVenue)) } }
  | .exhausted => none

end ExecutionManager

/-! ## The loop -/

/-- What an event sent was sent for. -/
inductive Origin where
  | account
  | answer (ticket : ℕ)
  | lookup (ticket : ℕ)
  deriving DecidableEq, Repr

/-- Where the loop stands: running, taking the last ready account events, over, stopped by a
shutdown, or ended by a request whose key is not configured. -/
inductive Phase where
  | running
  | tail
  | ended
  | abandoned
  | panicked (request : SentRequest)

/-- A future in flight, for the request taken as number `ticket`. -/
structure InFlight (Request : Type) where
  ticket : ℕ
  request : Request

structure ManagerState (AssetKey : Type) where
  phase : Phase
  draining : Bool
  accountStreamDone : Bool
  inFlightCancels : List (InFlight (OrderRequestCancel ExchangeIndex InstrumentIndex))
  inFlightOpens : List (InFlight (OrderRequestOpen ExchangeIndex InstrumentIndex × ℕ))
  inFlightLookups : List (InFlight Lookup)
  /-- The account events that are ready and not yet taken, and whether the stream has ended. -/
  ready : List (AccountStreamEvent AssetKey)
  closed : Bool
  /-- Every event sent, the oldest first. -/
  responseTx : List (Origin × AccountStreamEvent AssetKey)
  /-- Every open and cancel taken, and every account event that became ready. -/
  taken : List SentRequest
  arrived : List (AccountStreamEvent AssetKey)

namespace ManagerState

variable {AssetKey : Type}

def init : ManagerState AssetKey where
  phase := .running
  draining := false
  accountStreamDone := false
  inFlightCancels := []
  inFlightOpens := []
  inFlightLookups := []
  ready := []
  closed := false
  responseTx := []
  taken := []
  arrived := []

variable (s : ManagerState AssetKey)

/-- The loop's condition to end: draining, with nothing in flight. -/
def finished : Bool :=
  s.draining && s.inFlightCancels.isEmpty && s.inFlightOpens.isEmpty && s.inFlightLookups.isEmpty

/-- The loop is in its select. -/
def selecting : Bool :=
  match s.phase with
  | .running => !s.finished
  | _ => false

def send (origin : Origin) (event : AccountStreamEvent AssetKey) : ManagerState AssetKey :=
  { s with responseTx := s.responseTx ++ [(origin, event)] }

/-- The account stream's next event, sent on; `none` while it has none ready. -/
def forwardAccount : Option (ManagerState AssetKey) :=
  match s.ready with
  | event :: ready => some ({ s with ready := ready }.send .account event)
  | [] => none

end ManagerState

/-- What a step of the loop, or of what is around it, finds. -/
inductive Input (AssetKey : Type) where
  | accountReady (event : AccountStreamEvent AssetKey)
  | accountClosed
  | pollAccount
  /-- The request stream's next request, `none` at its end, taken at `now`. -/
  | pollRequest (request : Option ExecutionRequest) (now : ℕ)
  | pollCancel (index : ℕ) (response : Answer (OrderResponseCancel ExchangeId InstrumentNameExchange))
  | pollOpen (index : ℕ) (response : Answer (VenueOrder OrderState))
  | pollLookup (index : ℕ) (answers : ℕ → LookupAnswer)
  /-- The check at the top of the loop, once it holds. -/
  | finish
  /-- One event of the tail, or its end. -/
  | drainReady

namespace ExecutionManager

variable {AssetKey : Type} (self : ExecutionManager)

/-- One request of the engine's taken from its stream. -/
def takeRequest (s : ManagerState AssetKey) (now : ℕ) :
    Option ExecutionRequest → ManagerState AssetKey
  | some .shutdown => { s with phase := .abandoned }
  | some .drain | none => { s with draining := true }
  | some (.cancel request) =>
    match self.indexer.orderRequest request with
    | none => { s with phase := .panicked (.cancel request) }
    | some _ =>
      { s with
        inFlightCancels := s.inFlightCancels ++ [⟨s.taken.length, request⟩]
        taken := s.taken ++ [.cancel request] }
  | some (.open request) =>
    match self.indexer.orderRequest request with
    | none => { s with phase := .panicked (.open request) }
    | some _ =>
      { s with
        inFlightOpens := s.inFlightOpens ++ [⟨s.taken.length, request, now⟩]
        taken := s.taken ++ [.open request] }

/-- The answer of a cancel in flight, sent. -/
def answerCancel (s : ManagerState AssetKey)
    (future : InFlight (OrderRequestCancel ExchangeIndex InstrumentIndex))
    (response : Answer (OrderResponseCancel ExchangeId InstrumentNameExchange)) :
    ManagerState AssetKey :=
  s.send (.answer future.ticket) <|
    match response with
    | .ok response => self.processCancelResponse future.request response
    | .error () => processCancelTimeout future.request

/-- The answer of an open in flight, sent, and the lookup it starts. -/
def answerOpen (s : ManagerState AssetKey)
    (future : InFlight (OrderRequestOpen ExchangeIndex InstrumentIndex × ℕ))
    (response : Answer (VenueOrder OrderState)) : ManagerState AssetKey :=
  let (event, lookup) := self.processOpenAnswer future.request.1 future.request.2 response
  let s := s.send (.answer future.ticket) event
  { s with inFlightLookups := s.inFlightLookups ++ (lookup.map (⟨future.ticket, ·⟩)).toList }

/-- What a lookup came to, sent if it found anything. -/
def settleLookup (s : ManagerState AssetKey) (future : InFlight Lookup)
    (answers : ℕ → LookupAnswer) : ManagerState AssetKey :=
  match self.processLookupOutcome future.request.request
      (self.unknownOutcome.lookUpUnknownOutcome answers) with
  | some event => s.send (.lookup future.ticket) event
  | none => s

/-- The state after a step, `none` where the input cannot happen. -/
def step (s : ManagerState AssetKey) : Input AssetKey → Option (ManagerState AssetKey)
  | .accountReady event =>
    match s.phase, s.closed with
    | .running, false | .tail, false =>
      some { s with ready := s.ready ++ [event], arrived := s.arrived ++ [event] }
    | _, _ => none
  | .accountClosed => some { s with closed := true }
  | .pollAccount =>
    if s.selecting && !s.accountStreamDone then
      match s.forwardAccount with
      | some s => some s
      | none => if s.closed then some { s with accountStreamDone := true } else none
    else none
  | .pollRequest request now =>
    if s.selecting && !s.draining then some (self.takeRequest s now request) else none
  | .pollCancel index response =>
    if s.selecting then
      s.inFlightCancels[index]?.map fun future =>
        self.answerCancel { s with inFlightCancels := s.inFlightCancels.eraseIdx index }
          future response
    else none
  | .pollOpen index response =>
    if s.selecting then
      s.inFlightOpens[index]?.map fun future =>
        self.answerOpen { s with inFlightOpens := s.inFlightOpens.eraseIdx index } future response
    else none
  | .pollLookup index answers =>
    if s.selecting then
      s.inFlightLookups[index]?.map fun future =>
        self.settleLookup { s with inFlightLookups := s.inFlightLookups.eraseIdx index }
          future answers
    else none
  | .finish =>
    match s.phase with
    | .running =>
      if s.finished then some { s with phase := if s.accountStreamDone then .ended else .tail }
      else none
    | _ => none
  | .drainReady =>
    match s.phase with
    | .tail =>
      match s.forwardAccount with
      | some s => some s
      | none => some { s with phase := .ended }
    | _ => none

/-- The states a run from the start can be in. -/
inductive Reachable : ManagerState AssetKey → Prop where
  | init : Reachable .init
  | step {s s' : ManagerState AssetKey} (input : Input AssetKey) :
      Reachable s → self.step s input = some s' → Reachable s'

end ExecutionManager

end Rustrade
