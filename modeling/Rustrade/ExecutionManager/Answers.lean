import Rustrade.ExecutionManager.Run

/-!
# Every request is answered once

What a run owes: each request taken is in flight or answered, never both and never twice, and what
was sent for it stands under its own key whatever the client's response names (`Owed`). A lookup
is only ever started by an answer that leaves the outcome unknown, so the snapshot it sends comes
after that answer. The account stream is forwarded as it became ready (`Forwarding`), and the loop
ends only once nothing is in flight and nothing ready is left.
-/

set_option autoImplicit false

namespace Rustrade

open Mock (VenueOrder InstrumentNameExchange)

variable {AssetKey : Type}

def Origin.answer? : Origin → Option ℕ
  | .answer ticket => some ticket
  | _ => none

def Origin.lookup? : Origin → Option ℕ
  | .lookup ticket => some ticket
  | _ => none

/-- The numbers of the requests some futures are for. -/
def tickets {Request : Type} (futures : List (InFlight Request)) : List ℕ :=
  futures.map InFlight.ticket

/-- The event answers the request, under the request's own key. -/
def AccountStreamEvent.Answers : SentRequest → AccountStreamEvent AssetKey → Prop
  | .open request, .item ⟨exchange, .orderSnapshot order⟩ =>
    exchange = request.key.exchange ∧ order.key = request.key
  | .cancel request, .item ⟨exchange, .orderCancelled response⟩ =>
    exchange = request.key.exchange ∧ response.key = request.key
  | _, _ => False

/-- The event says an open failed in a way that leaves its outcome unknown. -/
def AccountStreamEvent.LeavesUnknown : AccountStreamEvent AssetKey → Prop
  | .item ⟨_, .orderSnapshot order⟩ => order.state.isOutcomeUnknown = true
  | _ => False

/-- What an event sent may be, after what was sent `before` it. -/
inductive SentFor (taken : List SentRequest) (before : List (Origin × AccountStreamEvent AssetKey)) :
    Origin × AccountStreamEvent AssetKey → Prop where
  | account (event : AccountStreamEvent AssetKey) : SentFor taken before (.account, event)
  | answer {ticket : ℕ} {request : SentRequest} {event : AccountStreamEvent AssetKey}
      (htaken : taken[ticket]? = some request) (hanswers : event.Answers request) :
      SentFor taken before (.answer ticket, event)
  | lookup {ticket : ℕ} {request : OrderRequestOpen ExchangeIndex InstrumentIndex}
      {event answer : AccountStreamEvent AssetKey}
      (htaken : taken[ticket]? = some (.open request)) (hsettles : event.Answers (.open request))
      (hanswer : (.answer ticket, answer) ∈ before) (hunknown : answer.LeavesUnknown) :
      SentFor taken before (.lookup ticket, event)

theorem getElem?_append_of_eq_some {α : Type} {xs : List α} {index : ℕ} {x : α}
    (h : xs[index]? = some x) (more : List α) : (xs ++ more)[index]? = some x := by
  rw [List.getElem?_append_left (List.getElem?_eq_some_iff.mp h).1]
  exact h

theorem SentFor.mono {taken : List SentRequest} {before : List (Origin × AccountStreamEvent AssetKey)}
    {entry : Origin × AccountStreamEvent AssetKey} (h : SentFor taken before entry)
    (more : List SentRequest) : SentFor (taken ++ more) before entry := by
  cases h with
  | account event => exact .account event
  | answer htaken hanswers => exact .answer (getElem?_append_of_eq_some htaken more) hanswers
  | lookup htaken hsettles hanswer hunknown =>
    exact .lookup (getElem?_append_of_eq_some htaken more) hsettles hanswer hunknown

namespace ManagerState

variable {s : ManagerState AssetKey}

/-- The requests answered so far, and the opens settled by a lookup. -/
def answered (s : ManagerState AssetKey) : List ℕ := s.responseTx.filterMap (·.1.answer?)

def settled (s : ManagerState AssetKey) : List ℕ := s.responseTx.filterMap (·.1.lookup?)

/-- The account events sent on. -/
def forwarded (s : ManagerState AssetKey) : List (AccountStreamEvent AssetKey) :=
  s.responseTx.filterMap fun entry => if entry.1 = .account then some entry.2 else none

/-- What the loop owes for the requests it took. -/
structure Owed (s : ManagerState AssetKey) : Prop where
  once : ∀ ticket, (tickets s.inFlightCancels).count ticket + (tickets s.inFlightOpens).count ticket
    + s.answered.count ticket = if ticket < s.taken.length then 1 else 0
  settles : ∀ ticket, (tickets s.inFlightLookups).count ticket + s.settled.count ticket ≤
    s.answered.count ticket
  cancels : ∀ future ∈ s.inFlightCancels, s.taken[future.ticket]? = some (.cancel future.request)
  opens : ∀ future ∈ s.inFlightOpens, s.taken[future.ticket]? = some (.open future.request.1)
  lookups : ∀ future ∈ s.inFlightLookups,
    s.taken[future.ticket]? = some (.open future.request.request) ∧
    ∃ answer, (.answer future.ticket, answer) ∈ s.responseTx ∧ answer.LeavesUnknown
  sent : ∀ before entry after, s.responseTx = before ++ entry :: after →
    SentFor s.taken before entry

/-- The account stream, forwarded in its order. -/
structure Forwarding (s : ManagerState AssetKey) : Prop where
  arrived : s.forwarded ++ s.ready = s.arrived
  done : s.accountStreamDone = true → s.closed = true ∧ s.ready = []

end ManagerState

/-! ## Futures taken out -/

theorem count_eraseIdx {Request : Type} {futures : List (InFlight Request)} {index : ℕ}
    {future : InFlight Request} (h : futures[index]? = some future) (ticket : ℕ) :
    (tickets futures).count ticket =
      (tickets (futures.eraseIdx index)).count ticket + if future.ticket = ticket then 1 else 0 := by
  obtain ⟨hindex, rfl⟩ := List.getElem?_eq_some_iff.mp h
  have hperm := (List.getElem_cons_eraseIdx_perm hindex).map InFlight.ticket
  have hcount := hperm.count_eq ticket
  rw [List.map_cons, List.count_cons] at hcount
  rw [tickets, ← hcount, tickets]
  simp only [beq_iff_eq]

theorem mem_of_eraseIdx {Request : Type} {futures : List (InFlight Request)} {index : ℕ}
    {future : InFlight Request} (h : future ∈ futures.eraseIdx index) : future ∈ futures :=
  List.mem_of_mem_eraseIdx h

/-! ## What the answers say -/

namespace ExecutionManager

variable (self : ExecutionManager)

theorem processCancelResponse_answers (request : OrderRequestCancel ExchangeIndex InstrumentIndex)
    (response : OrderResponseCancel ExchangeId InstrumentNameExchange) :
    (self.processCancelResponse request response : AccountStreamEvent AssetKey).Answers
      (.cancel request) := ⟨rfl, rfl⟩

theorem processCancelTimeout_answers (request : OrderRequestCancel ExchangeIndex InstrumentIndex) :
    (processCancelTimeout request : AccountStreamEvent AssetKey).Answers (.cancel request) :=
  ⟨rfl, rfl⟩

theorem processOpenAnswer_answers (request : OrderRequestOpen ExchangeIndex InstrumentIndex)
    (sent : ℕ) (response : Answer (VenueOrder OrderState)) :
    (self.processOpenAnswer request sent response : AccountStreamEvent AssetKey × _).1.Answers
      (.open request) := by
  cases response <;> exact ⟨rfl, rfl⟩

/-- A lookup is started for the request itself, and only by an answer that leaves it unknown. -/
theorem processOpenAnswer_lookup {request : OrderRequestOpen ExchangeIndex InstrumentIndex}
    {sent : ℕ} {response : Answer (VenueOrder OrderState)} {lookup : Lookup}
    (h : (self.processOpenAnswer request sent response : AccountStreamEvent AssetKey × _).2 =
      some lookup) :
    lookup.request = request ∧
      (self.processOpenAnswer request sent response : AccountStreamEvent AssetKey × _).1.LeavesUnknown := by
  unfold processOpenAnswer at h ⊢
  have hstarted : ∀ unknown : Bool,
      (if unknown = true then (self.lookupKey request).bind fun key =>
        if self.unknownOutcome.attempts = 0 then none else some ⟨key, request, sent⟩
      else none) = some lookup → unknown = true ∧ lookup.request = request := by
    intro unknown hlookup
    split at hlookup
    · rename_i hunknown
      obtain ⟨key, -, hkey⟩ := Option.bind_eq_some_iff.mp hlookup
      split at hkey
      · cases hkey
      · cases hkey
        exact ⟨hunknown, rfl⟩
    · cases hlookup
  cases response with
  | ok response =>
    obtain ⟨hunknown, hrequest⟩ := hstarted _ h
    refine ⟨hrequest, ?_⟩
    show (self.indexer.orderState response.state).isOutcomeUnknown = true
    rw [AccountEventIndexer.orderState_isOutcomeUnknown]
    exact hunknown
  | error elapsed => exact ⟨(hstarted true h).2, rfl⟩

theorem processLookupOutcome_answers {request : OrderRequestOpen ExchangeIndex InstrumentIndex}
    {outcome : LookupOutcome} {event : AccountStreamEvent AssetKey}
    (h : self.processLookupOutcome request outcome = some event) : event.Answers (.open request) := by
  cases outcome <;> cases h <;> exact ⟨rfl, rfl⟩

end ExecutionManager

/-! ## What one step keeps of what is owed -/

namespace ManagerState

variable {s s' : ManagerState AssetKey}

/-- One more event sent, and what may stand before it. -/
theorem sentFor_append {taken : List SentRequest}
    {sent : List (Origin × AccountStreamEvent AssetKey)}
    {last : Origin × AccountStreamEvent AssetKey}
    (h : ∀ before entry after, sent = before ++ entry :: after → SentFor taken before entry)
    (hlast : SentFor taken sent last) :
    ∀ before entry after, sent ++ [last] = before ++ entry :: after →
      SentFor taken before entry := by
  intro before entry after heq
  rcases List.eq_nil_or_concat after with rfl | ⟨init, final, rfl⟩
  · obtain ⟨rfl, hentry⟩ := List.append_inj' heq rfl
    cases hentry
    exact hlast
  · rw [List.concat_eq_append, ← List.cons_append, ← List.append_assoc] at heq
    exact h before entry init (List.append_inj' heq rfl).1

theorem Owed.send_account (h : s.Owed) (event : AccountStreamEvent AssetKey) :
    (s.send .account event).Owed := by
  have hanswered : (s.send .account event).answered = s.answered := by
    simp [answered, send, Origin.answer?]
  have hsettled : (s.send .account event).settled = s.settled := by
    simp [settled, send, Origin.lookup?]
  refine ⟨?_, ?_, h.cancels, h.opens, ?_, sentFor_append h.sent (.account event)⟩
  · intro ticket
    rw [hanswered]
    exact h.once ticket
  · intro ticket
    rw [hanswered, hsettled]
    exact h.settles ticket
  · intro future hfuture
    obtain ⟨htaken, answer, hanswer, hunknown⟩ := h.lookups future hfuture
    exact ⟨htaken, answer, List.mem_append_left _ hanswer, hunknown⟩

/-- A request in flight is answered: its future is gone, and a lookup may have been started. -/
theorem Owed.answer (h : s.Owed) {ticket : ℕ} {event : AccountStreamEvent AssetKey}
    {request : SentRequest} (started : List (InFlight Lookup))
    (hfutures : ∀ t, (tickets s.inFlightCancels).count t + (tickets s.inFlightOpens).count t =
      (tickets s'.inFlightCancels).count t + (tickets s'.inFlightOpens).count t +
        if ticket = t then 1 else 0)
    (hcancels : ∀ future ∈ s'.inFlightCancels, future ∈ s.inFlightCancels)
    (hopens : ∀ future ∈ s'.inFlightOpens, future ∈ s.inFlightOpens)
    (hlookups : s'.inFlightLookups = s.inFlightLookups ++ started) (hone : started.length ≤ 1)
    (hstarted : ∀ future ∈ started, future.ticket = ticket ∧
      request = .open future.request.request ∧ event.LeavesUnknown)
    (hsent : s'.responseTx = s.responseTx ++ [(.answer ticket, event)])
    (htakens : s'.taken = s.taken) (htaken : s.taken[ticket]? = some request)
    (hanswers : event.Answers request) : s'.Owed := by
  have hanswered : ∀ t, s'.answered.count t = s.answered.count t + if ticket = t then 1 else 0 := by
    intro t
    simp [answered, hsent, Origin.answer?, List.count_append, List.count_cons]
  have hsettled : s'.settled = s.settled := by
    simp [settled, hsent, Origin.lookup?]
  have hcount : ∀ t, (tickets started).count t ≤ if ticket = t then 1 else 0 := by
    intro t
    split
    · exact List.count_le_length.trans (by simpa [tickets] using hone)
    · rename_i hne
      rw [Nat.le_zero, List.count_eq_zero]
      intro hmem
      obtain ⟨future, hfuture, rfl⟩ := List.mem_map.mp hmem
      exact hne (hstarted future hfuture).1.symm
  refine ⟨?_, ?_, ?_, ?_, ?_, ?_⟩
  · intro t
    have honce := h.once t
    rw [hfutures t] at honce
    rw [hanswered, htakens]
    omega
  · intro t
    have hsettles := h.settles t
    have hnew := hcount t
    rw [hanswered, hsettled, hlookups, tickets, List.map_append, List.count_append]
    change (tickets s.inFlightLookups).count t + (tickets started).count t + _ ≤ _
    omega
  · intro future hfuture
    rw [htakens]
    exact h.cancels future (hcancels future hfuture)
  · intro future hfuture
    rw [htakens]
    exact h.opens future (hopens future hfuture)
  · intro future hfuture
    rw [htakens, hsent]
    rw [hlookups, List.mem_append] at hfuture
    rcases hfuture with hfuture | hfuture
    · obtain ⟨hopen, answer, hanswer, hunknown⟩ := h.lookups future hfuture
      exact ⟨hopen, answer, List.mem_append_left _ hanswer, hunknown⟩
    · obtain ⟨rfl, rfl, hunknown⟩ := hstarted future hfuture
      exact ⟨htaken, event, List.mem_append_right _ (List.mem_singleton_self _), hunknown⟩
  · rw [hsent, htakens]
    exact sentFor_append h.sent (.answer htaken hanswers)

variable (self : ExecutionManager)

theorem Owed.takeRequest (h : s.Owed) (now : ℕ) (request : Option ExecutionRequest) :
    (self.takeRequest s now request).Owed := by
  have hpush : ∀ (request : SentRequest) t, (if t < (s.taken ++ [request]).length then 1 else 0) =
      (if t < s.taken.length then 1 else 0) + if s.taken.length = t then 1 else 0 := by
    intro request t
    rw [List.length_append, List.length_singleton]
    split <;> split <;> split <;> omega
  -- What was in flight keeps its request: the new one is taken after all of them.
  have hcancels : ∀ (request : SentRequest), ∀ future ∈ s.inFlightCancels,
      (s.taken ++ [request])[future.ticket]? = some (.cancel future.request) := by
    intro request future hfuture
    exact getElem?_append_of_eq_some (h.cancels future hfuture) _
  have hopens : ∀ (request : SentRequest), ∀ future ∈ s.inFlightOpens,
      (s.taken ++ [request])[future.ticket]? = some (.open future.request.1) := by
    intro request future hfuture
    exact getElem?_append_of_eq_some (h.opens future hfuture) _
  have hlookups : ∀ (request : SentRequest), ∀ future ∈ s.inFlightLookups,
      (s.taken ++ [request])[future.ticket]? = some (.open future.request.request) ∧
      ∃ answer, (.answer future.ticket, answer) ∈ s.responseTx ∧ answer.LeavesUnknown := by
    intro request future hfuture
    obtain ⟨hopen, hanswer⟩ := h.lookups future hfuture
    exact ⟨getElem?_append_of_eq_some hopen _, hanswer⟩
  have hsent : ∀ (request : SentRequest) before entry after,
      s.responseTx = before ++ entry :: after → SentFor (s.taken ++ [request]) before entry := by
    intro request before entry after heq
    exact (h.sent before entry after heq).mono _
  cases request with
  | none => exact ⟨h.once, h.settles, h.cancels, h.opens, h.lookups, h.sent⟩
  | some request =>
    cases request with
    | shutdown | drain => exact ⟨h.once, h.settles, h.cancels, h.opens, h.lookups, h.sent⟩
    | cancel request =>
      unfold ExecutionManager.takeRequest
      dsimp only
      split
      · exact ⟨h.once, h.settles, h.cancels, h.opens, h.lookups, h.sent⟩
      · refine ⟨?_, h.settles, ?_, hopens _, hlookups _, hsent _⟩
        · intro t
          have honce := h.once t
          show (tickets (s.inFlightCancels ++ [_])).count t + _ + s.answered.count t = _
          rw [hpush, tickets, List.map_append, List.count_append]
          simp only [List.map_cons, List.map_nil, List.count_singleton, beq_iff_eq]
          change (tickets s.inFlightCancels).count t + _ + _ + _ = _
          omega
        · intro future hfuture
          rcases List.mem_append.mp hfuture with hfuture | hfuture
          · exact hcancels _ future hfuture
          · rw [List.mem_singleton] at hfuture
            subst hfuture
            exact List.getElem?_concat_length
    | «open» request =>
      unfold ExecutionManager.takeRequest
      dsimp only
      split
      · exact ⟨h.once, h.settles, h.cancels, h.opens, h.lookups, h.sent⟩
      · refine ⟨?_, h.settles, hcancels _, ?_, hlookups _, hsent _⟩
        · intro t
          have honce := h.once t
          show _ + (tickets (s.inFlightOpens ++ [_])).count t + s.answered.count t = _
          rw [hpush, tickets, tickets, List.map_append, List.count_append]
          simp only [List.map_cons, List.map_nil, List.count_singleton, beq_iff_eq]
          change (tickets s.inFlightCancels).count t + ((tickets s.inFlightOpens).count t + _) + _ = _
          omega
        · intro future hfuture
          rcases List.mem_append.mp hfuture with hfuture | hfuture
          · exact hopens _ future hfuture
          · rw [List.mem_singleton] at hfuture
            subst hfuture
            exact List.getElem?_concat_length

theorem Owed.answerCancel (h : s.Owed) {index : ℕ}
    {future : InFlight (OrderRequestCancel ExchangeIndex InstrumentIndex)}
    (hfuture : s.inFlightCancels[index]? = some future)
    (response : Answer (OrderResponseCancel ExchangeId InstrumentNameExchange)) :
    (self.answerCancel { s with inFlightCancels := s.inFlightCancels.eraseIdx index } future
      response).Owed := by
  obtain ⟨event, hanswers, hsent⟩ : ∃ event : AccountStreamEvent AssetKey,
      event.Answers (.cancel future.request) ∧
        self.answerCancel { s with inFlightCancels := s.inFlightCancels.eraseIdx index } future
          response =
            { s with inFlightCancels := s.inFlightCancels.eraseIdx index }.send
              (.answer future.ticket) event := by
    cases response with
    | ok response => exact ⟨_, self.processCancelResponse_answers future.request response, rfl⟩
    | error elapsed =>
      exact ⟨_, ExecutionManager.processCancelTimeout_answers future.request, rfl⟩
  rw [hsent]
  refine h.answer [] ?_ ?_ (fun _ hmem => hmem) (List.append_nil _).symm
    (Nat.zero_le _) (fun _ hmem => absurd hmem List.not_mem_nil) rfl rfl
    (h.cancels future (List.mem_of_getElem? hfuture)) hanswers
  · intro t
    rw [count_eraseIdx hfuture t]
    exact Nat.add_right_comm _ _ _
  · intro other hother
    exact mem_of_eraseIdx hother

theorem length_toList_le {α : Type} (found : Option α) : found.toList.length ≤ 1 := by
  cases found <;> simp

theorem Owed.answerOpen (h : s.Owed) {index : ℕ}
    {future : InFlight (OrderRequestOpen ExchangeIndex InstrumentIndex × ℕ)}
    (hfuture : s.inFlightOpens[index]? = some future) (response : Answer (VenueOrder OrderState)) :
    (self.answerOpen { s with inFlightOpens := s.inFlightOpens.eraseIdx index } future
      response).Owed := by
  refine h.answer _ ?_ (fun _ hmem => hmem) ?_ rfl (length_toList_le _) ?_ rfl rfl
    (h.opens future (List.mem_of_getElem? hfuture))
    (self.processOpenAnswer_answers future.request.1 future.request.2 response)
  · intro t
    rw [count_eraseIdx hfuture t]
    exact (Nat.add_assoc _ _ _).symm
  · intro other hother
    exact mem_of_eraseIdx hother
  · intro other hother
    rw [Option.mem_toList, Option.map_eq_some_iff] at hother
    obtain ⟨lookup, hlookup, rfl⟩ := hother
    obtain ⟨hrequest, hunknown⟩ := self.processOpenAnswer_lookup hlookup
    exact ⟨rfl, by rw [hrequest], hunknown⟩

theorem Owed.settleLookup (h : s.Owed) {index : ℕ} {future : InFlight Lookup}
    (hfuture : s.inFlightLookups[index]? = some future) (answers : ℕ → LookupAnswer) :
    (self.settleLookup { s with inFlightLookups := s.inFlightLookups.eraseIdx index } future
      answers).Owed := by
  have hcount := fun t => count_eraseIdx hfuture t
  have hlookups : ∀ other ∈ s.inFlightLookups.eraseIdx index,
      s.taken[other.ticket]? = some (.open other.request.request) ∧
      ∃ answer, (.answer other.ticket, answer) ∈ s.responseTx ∧ answer.LeavesUnknown := by
    intro other hother
    exact h.lookups other (mem_of_eraseIdx hother)
  unfold ExecutionManager.settleLookup
  split
  · rename_i event hevent
    obtain ⟨htaken, answer, hanswer, hunknown⟩ :=
      h.lookups future (List.mem_of_getElem? hfuture)
    have hanswered : (s.responseTx ++ [(Origin.lookup future.ticket, event)]).filterMap
        (·.1.answer?) = s.answered := by
      simp [answered, Origin.answer?]
    have hsettled : ∀ t, ((s.responseTx ++ [(Origin.lookup future.ticket, event)]).filterMap
        (·.1.lookup?)).count t = s.settled.count t + if future.ticket = t then 1 else 0 := by
      intro t
      simp [settled, Origin.lookup?, List.count_append, List.count_cons]
    refine ⟨?_, ?_, h.cancels, h.opens, ?_, sentFor_append h.sent ?_⟩
    · intro t
      have honce := h.once t
      rw [← hanswered] at honce
      exact honce
    · intro t
      have hsettles := h.settles t
      rw [hcount t, ← hanswered] at hsettles
      show (tickets (s.inFlightLookups.eraseIdx index)).count t +
        ((s.responseTx ++ [(Origin.lookup future.ticket, event)]).filterMap _).count t ≤ _
      rw [hsettled t]
      exact (by omega : _ + (_ + _) = _ + _ + _).trans_le hsettles
    · intro other hother
      obtain ⟨hopen, answer, hanswer, hunknown⟩ := hlookups other hother
      exact ⟨hopen, answer, List.mem_append_left _ hanswer, hunknown⟩
    · exact .lookup htaken (self.processLookupOutcome_answers hevent) hanswer hunknown
  · refine ⟨h.once, ?_, h.cancels, h.opens, hlookups, h.sent⟩
    intro t
    have hsettles := h.settles t
    rw [hcount t] at hsettles
    exact (Nat.le_add_right _ _).trans ((Nat.add_right_comm _ _ _).trans_le hsettles)

/-! ## The account stream -/

/-- An event sent for a request is none of the account stream's. -/
theorem forwarded_send {origin : Origin} (hne : origin ≠ .account)
    (event : AccountStreamEvent AssetKey) : (s.send origin event).forwarded = s.forwarded := by
  simp [forwarded, send, hne]

theorem Forwarding.send (h : s.Forwarding) {origin : Origin} (hne : origin ≠ .account)
    (event : AccountStreamEvent AssetKey) : (s.send origin event).Forwarding := by
  refine ⟨?_, h.done⟩
  rw [forwarded_send hne]
  exact h.arrived

theorem forwardAccount_some (hnext : s.forwardAccount = some s') :
    ∃ event ready, s.ready = event :: ready ∧
      s' = ManagerState.send { s with ready := ready } .account event := by
  unfold forwardAccount at hnext
  split at hnext
  · rename_i event ready hready
    exact ⟨event, ready, hready, (Option.some.inj hnext).symm⟩
  · cases hnext

theorem forwardAccount_none (hnext : s.forwardAccount = none) : s.ready = [] := by
  unfold forwardAccount at hnext
  split at hnext
  · cases hnext
  · assumption

theorem Forwarding.forwardAccount (h : s.Forwarding) (hnext : s.forwardAccount = some s')
    (hopen : s.accountStreamDone = false) : s'.Forwarding := by
  obtain ⟨event, ready, hready, rfl⟩ := forwardAccount_some hnext
  constructor
  · have harrived := h.arrived
    rw [hready] at harrived
    simpa [forwarded, ManagerState.send] using harrived
  · intro hdone
    have hdone : s.accountStreamDone = true := hdone
    rw [hopen] at hdone
    cases hdone

theorem Forwarding.answerOpen (h : s.Forwarding)
    (future : InFlight (OrderRequestOpen ExchangeIndex InstrumentIndex × ℕ))
    (response : Answer (VenueOrder OrderState)) : (self.answerOpen s future response).Forwarding :=
  have hsent := h.send (Origin.noConfusion : Origin.answer future.ticket ≠ .account)
    (self.processOpenAnswer future.request.1 future.request.2 response).1
  ⟨hsent.arrived, hsent.done⟩

theorem Forwarding.settleLookup (h : s.Forwarding) (future : InFlight Lookup)
    (answers : ℕ → LookupAnswer) : (self.settleLookup s future answers).Forwarding := by
  unfold ExecutionManager.settleLookup
  split
  · exact h.send Origin.noConfusion _
  · exact h

end ManagerState

/-! ## Runs -/

namespace ExecutionManager

open ManagerState

/-- The key of a request is configured. -/
def configured (self : ExecutionManager) : SentRequest → Bool
  | .open request => (self.indexer.orderRequest request).isSome
  | .cancel request => (self.indexer.orderRequest request).isSome

/-- The books of the loop, in every phase it can be in. -/
structure Accounted (manager : ExecutionManager) (s : ManagerState AssetKey) : Prop where
  owed : s.Owed
  forwarding : s.Forwarding
  loop_over : s.phase = .tail ∨ s.phase = .ended → s.finished = true
  tail : s.phase = .tail → s.accountStreamDone = false
  ended : s.phase = .ended → s.ready = []
  panicked : ∀ request, s.phase = .panicked request → manager.configured request = false

variable (self : ExecutionManager) {s s' : ManagerState AssetKey}

theorem accounted_init : self.Accounted (.init : ManagerState AssetKey) := by
  refine ⟨⟨?_, ?_, ?_, ?_, ?_, ?_⟩, ⟨rfl, ?_⟩, ?_, ?_, ?_, ?_⟩
  · intro ticket
    rfl
  · intro ticket
    exact le_rfl
  · intro future hfuture
    cases hfuture
  · intro future hfuture
    cases hfuture
  · intro future hfuture
    cases hfuture
  · intro before entry after heq
    exact absurd heq.symm (List.append_ne_nil_of_right_ne_nil _ (List.cons_ne_nil _ _))
  · intro hdone
    cases hdone
  · rintro (hphase | hphase) <;> cases hphase
  · intro hphase
    cases hphase
  · intro hphase
    cases hphase
  · intro request hphase
    cases hphase

variable {self}

theorem running_of_selecting (h : s.selecting = true) : s.phase = .running := by
  unfold selecting at h
  split at h
  · assumption
  · cases h

/-- In the select the phase is settled by it: only what is owed and forwarded is left to show. -/
theorem Accounted.of_running (howed : s'.Owed) (hforwarding : s'.Forwarding)
    (hphase : s'.phase = .running) : self.Accounted s' := by
  refine ⟨howed, hforwarding, ?_, ?_, ?_, ?_⟩
  · rintro (h | h) <;> rw [hphase] at h <;> cases h
  · intro h
    rw [hphase] at h
    cases h
  · intro h
    rw [hphase] at h
    cases h
  · intro request h
    rw [hphase] at h
    cases h

theorem Accounted.takeRequest (h : self.Accounted s) (hrunning : s.phase = .running) (now : ℕ)
    (request : Option ExecutionRequest) : self.Accounted (self.takeRequest s now request) := by
  have howed := h.owed.takeRequest self now request
  have hpanicked : ∀ request : SentRequest, self.configured request = false →
      Owed { s with phase := .panicked request } →
      self.Accounted { s with phase := .panicked request } := by
    intro request hunconfigured howed
    refine ⟨howed, ⟨h.forwarding.arrived, h.forwarding.done⟩, ?_, ?_, ?_, ?_⟩
    · rintro (hphase | hphase) <;> cases hphase
    · intro hphase
      cases hphase
    · intro hphase
      cases hphase
    · intro other hphase
      cases hphase
      exact hunconfigured
  cases request with
  | none => exact .of_running howed ⟨h.forwarding.arrived, h.forwarding.done⟩ hrunning
  | some request =>
    cases request with
    | drain => exact .of_running howed ⟨h.forwarding.arrived, h.forwarding.done⟩ hrunning
    | shutdown =>
      refine ⟨howed, ⟨h.forwarding.arrived, h.forwarding.done⟩, ?_, ?_, ?_, ?_⟩
      · rintro (hphase | hphase) <;> cases hphase
      · intro hphase
        cases hphase
      · intro hphase
        cases hphase
      · intro request hphase
        cases hphase
    | cancel request =>
      unfold ExecutionManager.takeRequest at howed ⊢
      dsimp only at howed ⊢
      cases hkey : self.indexer.orderRequest request with
      | none =>
        rw [hkey] at howed
        apply hpanicked _ _ howed
        show (self.indexer.orderRequest request).isSome = false
        rw [hkey]
        rfl
      | some indexed =>
        rw [hkey] at howed
        exact .of_running howed ⟨h.forwarding.arrived, h.forwarding.done⟩ hrunning
    | «open» request =>
      unfold ExecutionManager.takeRequest at howed ⊢
      dsimp only at howed ⊢
      cases hkey : self.indexer.orderRequest request with
      | none =>
        rw [hkey] at howed
        apply hpanicked _ _ howed
        show (self.indexer.orderRequest request).isSome = false
        rw [hkey]
        rfl
      | some indexed =>
        rw [hkey] at howed
        exact .of_running howed ⟨h.forwarding.arrived, h.forwarding.done⟩ hrunning

theorem settleLookup_phase {future : InFlight Lookup} {answers : ℕ → LookupAnswer} :
    (self.settleLookup s future answers).phase = s.phase := by
  unfold settleLookup
  split <;> rfl

theorem Accounted.step (h : self.Accounted s) {input : Input AssetKey}
    (hstep : self.step s input = some s') : self.Accounted s' := by
  cases input with
  | accountReady event =>
    have hready : ∀ hopen : s.closed = false, s.phase = .running ∨ s.phase = .tail →
        self.Accounted
          { s with ready := s.ready ++ [event], arrived := s.arrived ++ [event] } := by
      intro hopen hphase
      have howed := h.owed
      refine ⟨⟨howed.once, howed.settles, howed.cancels, howed.opens, howed.lookups, howed.sent⟩,
        ⟨?_, ?_⟩, h.loop_over, h.tail, ?_, h.panicked⟩
      · show s.forwarded ++ (s.ready ++ [event]) = s.arrived ++ [event]
        rw [← List.append_assoc, h.forwarding.arrived]
      · intro hdone
        have hclosed := (h.forwarding.done hdone).1
        rw [hopen] at hclosed
        cases hclosed
      · intro hended
        have hended : s.phase = .ended := hended
        rw [hended] at hphase
        rcases hphase with hphase | hphase <;> cases hphase
    simp only [ExecutionManager.step] at hstep
    split at hstep
    · rename_i hphase hopen
      cases hstep
      exact hready hopen (.inl hphase)
    · rename_i hphase hopen
      cases hstep
      exact hready hopen (.inr hphase)
    · cases hstep
  | accountClosed =>
    cases hstep
    have howed := h.owed
    refine ⟨⟨howed.once, howed.settles, howed.cancels, howed.opens, howed.lookups, howed.sent⟩,
      ⟨h.forwarding.arrived, ?_⟩, h.loop_over, h.tail, h.ended, h.panicked⟩
    intro hdone
    exact ⟨rfl, (h.forwarding.done hdone).2⟩
  | pollAccount =>
    simp only [ExecutionManager.step] at hstep
    split at hstep
    · rename_i hselecting
      rw [Bool.and_eq_true, Bool.not_eq_true'] at hselecting
      have hrunning := running_of_selecting hselecting.1
      split at hstep
      · rename_i hnext
        cases hstep
        have hforwarding := h.forwarding.forwardAccount hnext hselecting.2
        obtain ⟨event, ready, hready, rfl⟩ := forwardAccount_some hnext
        have howed := h.owed.send_account event
        exact .of_running
          ⟨howed.once, howed.settles, howed.cancels, howed.opens, howed.lookups, howed.sent⟩
          hforwarding hrunning
      · rename_i hnext
        split at hstep
        · rename_i hclosed
          cases hstep
          have howed := h.owed
          have hempty := forwardAccount_none hnext
          exact .of_running
            ⟨howed.once, howed.settles, howed.cancels, howed.opens, howed.lookups, howed.sent⟩
            ⟨h.forwarding.arrived, fun _ => ⟨hclosed, hempty⟩⟩ hrunning
        · cases hstep
    · cases hstep
  | pollRequest request now =>
    simp only [ExecutionManager.step] at hstep
    split at hstep
    · rename_i hselecting
      rw [Bool.and_eq_true] at hselecting
      cases hstep
      exact h.takeRequest (running_of_selecting hselecting.1) now request
    · cases hstep
  | pollCancel index response =>
    simp only [ExecutionManager.step] at hstep
    split at hstep
    · rename_i hselecting
      have hrunning := running_of_selecting hselecting
      obtain ⟨future, hfuture, rfl⟩ := Option.map_eq_some_iff.mp hstep
      have hforwarding : ({ s with inFlightCancels := s.inFlightCancels.eraseIdx index }).Forwarding :=
        ⟨h.forwarding.arrived, h.forwarding.done⟩
      exact .of_running (h.owed.answerCancel self hfuture response)
        (hforwarding.send Origin.noConfusion _) hrunning
    · cases hstep
  | pollOpen index response =>
    simp only [ExecutionManager.step] at hstep
    split at hstep
    · rename_i hselecting
      have hrunning := running_of_selecting hselecting
      obtain ⟨future, hfuture, rfl⟩ := Option.map_eq_some_iff.mp hstep
      have hforwarding : ({ s with inFlightOpens := s.inFlightOpens.eraseIdx index }).Forwarding :=
        ⟨h.forwarding.arrived, h.forwarding.done⟩
      exact .of_running (h.owed.answerOpen self hfuture response)
        (hforwarding.answerOpen self future response) hrunning
    · cases hstep
  | pollLookup index answers =>
    simp only [ExecutionManager.step] at hstep
    split at hstep
    · rename_i hselecting
      have hrunning := running_of_selecting hselecting
      obtain ⟨future, hfuture, rfl⟩ := Option.map_eq_some_iff.mp hstep
      have hforwarding : ({ s with inFlightLookups := s.inFlightLookups.eraseIdx index }).Forwarding :=
        ⟨h.forwarding.arrived, h.forwarding.done⟩
      refine .of_running (h.owed.settleLookup self hfuture answers)
        (hforwarding.settleLookup self future answers) ?_
      rw [settleLookup_phase]
      exact hrunning
    · cases hstep
  | finish =>
    simp only [ExecutionManager.step] at hstep
    split at hstep
    · split at hstep
      · rename_i hfinished
        cases hstep
        have howed := h.owed
        refine ⟨⟨howed.once, howed.settles, howed.cancels, howed.opens, howed.lookups,
          howed.sent⟩, ⟨h.forwarding.arrived, h.forwarding.done⟩, fun _ => hfinished, ?_, ?_, ?_⟩
        · intro hphase
          by_contra hdone
          rw [Bool.not_eq_false] at hdone
          have hphase : (if s.accountStreamDone = true then Phase.ended else Phase.tail) = .tail :=
            hphase
          rw [if_pos hdone] at hphase
          cases hphase
        · intro hphase
          by_cases hdone : s.accountStreamDone = true
          · exact (h.forwarding.done hdone).2
          · have hphase : (if s.accountStreamDone = true then Phase.ended else Phase.tail) =
              .ended := hphase
            rw [if_neg hdone] at hphase
            cases hphase
        · intro request hphase
          have hphase : (if s.accountStreamDone = true then Phase.ended else Phase.tail) =
            .panicked request := hphase
          split at hphase <;> cases hphase
      · cases hstep
    · cases hstep
  | drainReady =>
    simp only [ExecutionManager.step] at hstep
    split at hstep
    · rename_i hphase
      split at hstep
      · rename_i hnext
        cases hstep
        have hforwarding := h.forwarding.forwardAccount hnext (h.tail hphase)
        obtain ⟨event, ready, hready, rfl⟩ := forwardAccount_some hnext
        have howed := h.owed.send_account event
        refine ⟨⟨howed.once, howed.settles, howed.cancels, howed.opens, howed.lookups,
          howed.sent⟩, hforwarding, h.loop_over, h.tail, ?_, h.panicked⟩
        intro hended
        have hended : s.phase = .ended := hended
        rw [hphase] at hended
        cases hended
      · rename_i hnext
        cases hstep
        have howed := h.owed
        have hempty := forwardAccount_none hnext
        refine ⟨⟨howed.once, howed.settles, howed.cancels, howed.opens, howed.lookups,
          howed.sent⟩, ⟨h.forwarding.arrived, h.forwarding.done⟩, fun _ => h.loop_over (.inl hphase),
          ?_, fun _ => hempty, ?_⟩
        · intro hended
          cases hended
        · intro request hended
          cases hended
    · cases hstep

theorem Reachable.accounted (h : self.Reachable s) : self.Accounted s := by
  induction h with
  | init => exact self.accounted_init
  | step input _ hstep ih => exact ih.step hstep

end ExecutionManager

/-! ## What was sent for one request -/

namespace ManagerState

variable {s : ManagerState AssetKey}

/-- The events sent as request `ticket`'s answer. -/
def answersTo (s : ManagerState AssetKey) (ticket : ℕ) : List (AccountStreamEvent AssetKey) :=
  s.responseTx.filterMap fun entry => if entry.1 = .answer ticket then some entry.2 else none

/-- The events sent for what the lookups of request `ticket` found. -/
def settlementsOf (s : ManagerState AssetKey) (ticket : ℕ) : List (AccountStreamEvent AssetKey) :=
  s.responseTx.filterMap fun entry => if entry.1 = .lookup ticket then some entry.2 else none

/-- The futures in flight for request `ticket`. -/
def inFlightFor (s : ManagerState AssetKey) (ticket : ℕ) : ℕ :=
  (tickets s.inFlightCancels).count ticket + (tickets s.inFlightOpens).count ticket

theorem length_answersTo {ticket : ℕ} : (s.answersTo ticket).length = s.answered.count ticket := by
  unfold answersTo answered
  induction s.responseTx with
  | nil => rfl
  | cons entry sent ih =>
    obtain ⟨origin, event⟩ := entry
    cases origin with
    | account => simpa [Origin.answer?] using ih
    | lookup other => simpa [Origin.answer?] using ih
    | answer other =>
      by_cases hticket : other = ticket
      · simp [Origin.answer?, hticket, ih]
      · simp [Origin.answer?, hticket, ih]

theorem length_settlementsOf {ticket : ℕ} :
    (s.settlementsOf ticket).length = s.settled.count ticket := by
  unfold settlementsOf settled
  induction s.responseTx with
  | nil => rfl
  | cons entry sent ih =>
    obtain ⟨origin, event⟩ := entry
    cases origin with
    | account => simpa [Origin.lookup?] using ih
    | answer other => simpa [Origin.lookup?] using ih
    | lookup other =>
      by_cases hticket : other = ticket
      · simp [Origin.lookup?, hticket, ih]
      · simp [Origin.lookup?, hticket, ih]

theorem Owed.sentFor (h : s.Owed) {entry : Origin × AccountStreamEvent AssetKey}
    (hentry : entry ∈ s.responseTx) : ∃ before, SentFor s.taken before entry := by
  obtain ⟨before, after, heq⟩ := List.append_of_mem hentry
  exact ⟨before, h.sent before entry after heq⟩

theorem mem_answersTo {ticket : ℕ} {event : AccountStreamEvent AssetKey} :
    event ∈ s.answersTo ticket ↔ (.answer ticket, event) ∈ s.responseTx := by
  unfold answersTo
  rw [List.mem_filterMap]
  constructor
  · rintro ⟨⟨origin, found⟩, hfound, hevent⟩
    dsimp only at hevent
    split at hevent
    · rename_i horigin
      cases hevent
      rwa [horigin] at hfound
    · cases hevent
  · intro hevent
    exact ⟨_, hevent, if_pos rfl⟩

end ManagerState

namespace ExecutionManager

open ManagerState

variable {self : ExecutionManager} {s : ManagerState AssetKey}

theorem step_pollCancel (self : ExecutionManager) {index : ℕ}
    {future : InFlight (OrderRequestCancel ExchangeIndex InstrumentIndex)}
    (hselecting : s.selecting = true) (hindex : s.inFlightCancels[index]? = some future)
    (response : Answer (OrderResponseCancel ExchangeId InstrumentNameExchange)) :
    self.step s (.pollCancel index response) =
      some (self.answerCancel { s with inFlightCancels := s.inFlightCancels.eraseIdx index }
        future response) := by
  simp only [ExecutionManager.step, hselecting, if_true, hindex, Option.map_some]

theorem step_pollOpen (self : ExecutionManager) {index : ℕ}
    {future : InFlight (OrderRequestOpen ExchangeIndex InstrumentIndex × ℕ)}
    (hselecting : s.selecting = true) (hindex : s.inFlightOpens[index]? = some future)
    (response : Answer (VenueOrder OrderState)) :
    self.step s (.pollOpen index response) =
      some (self.answerOpen { s with inFlightOpens := s.inFlightOpens.eraseIdx index }
        future response) := by
  simp only [ExecutionManager.step, hselecting, if_true, hindex, Option.map_some]

/-- A request in flight can be answered at any step of the select: at worst it times out. -/
theorem can_answer (h : self.Reachable s) {ticket : ℕ} (hphase : s.phase = .running)
    (hflight : 0 < s.inFlightFor ticket) :
    ∃ input s', self.step s input = some s' ∧ (s'.answersTo ticket).length = 1 := by
  have hselecting : ∀ hbusy : s.inFlightCancels ≠ [] ∨ s.inFlightOpens ≠ [],
      s.selecting = true := by
    intro hbusy
    have hfinished : s.finished = false := by
      unfold finished
      rcases hbusy with hbusy | hbusy
      · simp [hbusy]
      · simp [hbusy]
    simp [selecting, hphase, hfinished]
  have honce : ∀ {s' : ManagerState AssetKey} {input : Input AssetKey},
      self.step s input = some s' → 0 < (s'.answersTo ticket).length →
      (s'.answersTo ticket).length = 1 := by
    intro s' input hstep hpos
    have hcount := ((Reachable.step input h hstep).accounted.owed.once ticket)
    rw [length_answersTo] at hpos ⊢
    split at hcount <;> omega
  have hmem : 0 < (tickets s.inFlightCancels).count ticket ∨
      0 < (tickets s.inFlightOpens).count ticket := by
    unfold inFlightFor at hflight
    omega
  rcases hmem with hmem | hmem
  · obtain ⟨future, hfuture, rfl⟩ := List.mem_map.mp (List.count_pos_iff.mp hmem)
    obtain ⟨index, hindex⟩ := List.getElem?_of_mem hfuture
    have hstep := step_pollCancel self
      (hselecting (.inl (List.ne_nil_of_mem hfuture))) hindex (.error ())
    have hlast := List.mem_append_right s.responseTx (List.mem_singleton_self
      (Origin.answer future.ticket,
        (processCancelTimeout future.request : AccountStreamEvent AssetKey)))
    exact ⟨_, _, hstep, honce hstep (List.length_pos_of_mem (mem_answersTo.2 hlast))⟩
  · obtain ⟨future, hfuture, rfl⟩ := List.mem_map.mp (List.count_pos_iff.mp hmem)
    obtain ⟨index, hindex⟩ := List.getElem?_of_mem hfuture
    have hstep := step_pollOpen self
      (hselecting (.inr (List.ne_nil_of_mem hfuture))) hindex (.error ())
    have hlast := List.mem_append_right s.responseTx (List.mem_singleton_self
      (Origin.answer future.ticket, (self.processOpenAnswer future.request.1 future.request.2
        (.error ()) : AccountStreamEvent AssetKey × _).1))
    exact ⟨_, _, hstep, honce hstep (List.length_pos_of_mem (mem_answersTo.2 hlast))⟩

/-- The run of a list of inputs is one a state can be reached by. -/
theorem reachable_of_run {inputs : List (Input AssetKey)} {s s' : ManagerState AssetKey}
    (h : self.Reachable s) (hrun : inputs.foldlM self.step s = some s') : self.Reachable s' := by
  induction inputs generalizing s with
  | nil =>
    cases hrun
    exact h
  | cons input inputs ih =>
    rw [List.foldlM_cons] at hrun
    obtain ⟨next, hnext, hrun⟩ := Option.bind_eq_some_iff.mp hrun
    exact ih (.step input h hnext) hrun

/-- Two requests, the first an open that times out and is never found, and one account event that
is ready when the manager drains. -/
def timedOutOpen : OrderRequestOpen ExchangeIndex InstrumentIndex :=
  ⟨⟨0, 0, ⟨"strategy"⟩, ⟨"cid"⟩⟩, ⟨.buy, none, 1, .market, .immediateOrCancel, none, .no⟩⟩

def lookingOnce : ExecutionManager :=
  ⟨⟨1, 1, 0⟩, ⟨fun _ => some ⟨"exchange"⟩, fun _ => some ⟨"name"⟩, id⟩⟩

def drainedRun : List (Input ℕ) :=
  [.pollRequest (some (.open timedOutOpen)) 0,
    .pollRequest (some (.cancel ⟨timedOutOpen.key, ⟨none⟩⟩)) 1,
    .pollOpen 0 (.error ()), .pollRequest (some .drain) 2, .accountReady (.reconnecting ⟨"exchange"⟩),
    .pollCancel 0 (.error ()), .pollLookup 0 fun _ => ⟨0, some .unknown⟩,
    .finish, .drainReady, .drainReady]

def drained : ManagerState ℕ := (drainedRun.foldlM lookingOnce.step .init).getD .init

end ExecutionManager

end Rustrade
