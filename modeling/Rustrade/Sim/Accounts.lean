import Rustrade.Sim.Queue

/-!
# What a simulation has accounted for

What the venues returned is what the engine was shown and what the queue still owes it, venue by
venue and in order; what was drained is what was acted on and what the queue still holds. Each
thing the driver does keeps the two accounts (`Accounts`).
-/

set_option autoImplicit false

namespace Rustrade.Sim

open Mock

variable {MarketKind Other : Type}

namespace Happening

/-- What a venue returned: the account events, and the response to a request after them. -/
def returned (exchange : ExchangeIndex) : Happening MarketKind Other → List Deliverable
  | .gave venue _ _ events response =>
    if venue = exchange then events.map .account ++ response.toList else []
  | _ => []

/-- What the engine was shown of a venue's. -/
def delivered (exchange : ExchangeIndex) : Happening MarketKind Other → List Deliverable
  | .showed (.venue venue deliverable) => if venue = exchange then [deliverable] else []
  | _ => []

/-- A request drained, with its number. -/
def requested : Happening MarketKind Other → List (ExchangeIndex × ℕ × Action)
  | .drained exchange request action => [(exchange, request, action)]
  | _ => []

/-- The request an input is. -/
def asked : SimulatedVenue.Input → Option Action
  | .openOrder request => some (.open request)
  | .cancelOrder request => some (.cancel request)
  | _ => none

/-- A request acted on. -/
def served : Happening MarketKind Other → List (ExchangeIndex × ℕ × Action)
  | .gave exchange (some request) input _ _ =>
    (asked input).toList.map fun action => (exchange, request, action)
  | _ => []

/-- An input given for a request is one, and is answered by a response of its own. No other has
a response. -/
def Answered : Happening MarketKind Other → Prop
  | .gave _ none _ _ response => response = none
  | .gave _ (some request) input _ response => (asked input).isSome ∧
    ∃ answer, response = some answer ∧ answer.answers? = some request
  | _ => True

/-- Neither a request nor anything a venue is owed or owes. -/
def isAside : Happening MarketKind Other → Bool
  | .popped _ | .drew _ | .refused _ | .abandoned => true
  | .showed (.venue _ _) => false
  | .showed _ => true
  | .drained _ _ _ | .gave _ _ _ _ _ => false

/-- The source event the engine was shown. -/
def sourced : Happening MarketKind Other → List (SourceEvent MarketKind Other)
  | .showed (.source event) => [event]
  | _ => []

/-- The run was ended before its time. -/
def cutsShort : Happening MarketKind Other → Bool
  | .refused _ | .abandoned => true
  | _ => false

end Happening

/-- The accounts after a history, with an entry the driver has in hand. -/
structure Accounts (history : List (Happening MarketKind Other)) (schedule : Schedule)
    (taken : Option ScheduledEvent) : Prop where
  sorted : schedule.Sorted
  returned : ∀ exchange, history.flatMap (Happening.returned exchange) =
    history.flatMap (Happening.delivered exchange) ++
      ((taken.bind (ScheduledEvent.owes? exchange)).toList ++ schedule.owed exchange)
  requested : (history.flatMap Happening.requested).Perm
    (history.flatMap Happening.served ++
      ((taken.bind ScheduledEvent.request?).toList ++ schedule.waiting))
  numbered : (history.flatMap Happening.requested).Pairwise fun a b => a.2.1 < b.2.1
  fresh : ∀ request ∈ history.flatMap Happening.requested, request.2.1 < schedule.seq
  answered : ∀ happening ∈ history, happening.Answered

namespace Accounts

variable {history : List (Happening MarketKind Other)} {schedule schedule' : Schedule}
  {taken : Option ScheduledEvent} {entry : ScheduledEvent} {exchange : ExchangeIndex}

theorem nil (h : schedule.Sorted) (howed : ∀ exchange, schedule.owed exchange = [])
    (hwaiting : schedule.waiting = []) :
    Accounts ([] : List (Happening MarketKind Other)) schedule none where
  sorted := h
  returned exchange := by
    rw [howed]
    rfl
  requested := by
    rw [hwaiting]
    exact List.Perm.refl []
  numbered := List.Pairwise.nil
  fresh _ h := absurd h List.not_mem_nil
  answered _ h := absurd h List.not_mem_nil

theorem answered_append (h : ∀ happening ∈ history, happening.Answered)
    (happening : Happening MarketKind Other) (hlast : happening.Answered) :
    ∀ other ∈ history ++ [happening], other.Answered := by
  intro other hother
  rcases List.mem_append.1 hother with hother | hother
  · exact h other hother
  · rw [List.mem_singleton.1 hother]
    exact hlast

theorem flatMap_same {α : Type} {f : Happening MarketKind Other → List α}
    {happening : Happening MarketKind Other} (h : f happening = []) :
    (history ++ [happening]).flatMap f = history.flatMap f := by
  rw [List.flatMap_append, List.flatMap_singleton, h, List.append_nil]

/-- What is no part of the accounts leaves them. -/
theorem aside (h : Accounts history schedule taken) {happening : Happening MarketKind Other}
    (haside : happening.isAside = true) : Accounts (history ++ [happening]) schedule taken := by
  have hnil : (∀ exchange, happening.returned exchange = []) ∧
      (∀ exchange, happening.delivered exchange = []) ∧ happening.requested = [] ∧
      happening.served = [] ∧ happening.Answered := by
    cases happening with
    | popped entry => exact ⟨fun _ => rfl, fun _ => rfl, rfl, rfl, trivial⟩
    | drew event => exact ⟨fun _ => rfl, fun _ => rfl, rfl, rfl, trivial⟩
    | refused entry => exact ⟨fun _ => rfl, fun _ => rfl, rfl, rfl, trivial⟩
    | abandoned => exact ⟨fun _ => rfl, fun _ => rfl, rfl, rfl, trivial⟩
    | drained exchange request action => cases haside
    | gave exchange request input events response => cases haside
    | showed event =>
      cases event with
      | venue exchange deliverable => cases haside
      | seeding exchange snapshot => exact ⟨fun _ => rfl, fun _ => rfl, rfl, rfl, trivial⟩
      | source event => exact ⟨fun _ => rfl, fun _ => rfl, rfl, rfl, trivial⟩
      | shutdownAfterDrain => exact ⟨fun _ => rfl, fun _ => rfl, rfl, rfl, trivial⟩
  obtain ⟨hreturned, hdelivered, hrequested, hserved, hanswered⟩ := hnil
  refine ⟨h.sorted, ?_, ?_, ?_, ?_, answered_append h.answered _ hanswered⟩
  · intro exchange
    rw [flatMap_same (hreturned exchange), flatMap_same (hdelivered exchange)]
    exact h.returned exchange
  · rw [flatMap_same hrequested, flatMap_same hserved]
    exact h.requested
  · rw [flatMap_same hrequested]
    exact h.numbered
  · rw [flatMap_same hrequested]
    exact h.fresh

/-- A wake-up queued. -/
theorem wake (h : Accounts history schedule taken) (deadline : DateTime) :
    Accounts history (schedule.push deadline CLASS_ACTION exchange (.act .wake)) taken where
  sorted := h.sorted.push fun _ hpayload => (by cases hpayload)
  returned other := by
    rw [Schedule.owed_push_act h.sorted]
    exact h.returned other
  requested := by
    rw [Schedule.waiting_push_wake h.sorted]
    exact h.requested
  numbered := h.numbered
  fresh request hrequest := (h.fresh request hrequest).trans (Nat.lt_succ_self _)
  answered := h.answered

theorem arm (h : Accounts history schedule taken) (wakeups : Wakeups) (venue : SimulatedVenue) :
    Accounts history (wakeups.arm schedule exchange venue).2 taken := by
  rcases wakeups.arm_cases schedule exchange venue with hsame | ⟨deadline, hpush⟩
  · rw [hsame]
    exact h
  · rw [hpush]
    exact h.wake deadline

/-- A request drained. -/
theorem drained (h : Accounts history schedule taken) {action : Action} (hwake : action ≠ .wake)
    (arrives : DateTime) :
    Accounts (history ++ [.drained exchange schedule.seq action])
      (schedule.push arrives CLASS_ACTION exchange (.act action)) taken := by
  have hrequested : List.flatMap Happening.requested
      (history ++ [.drained exchange schedule.seq action]) =
        history.flatMap Happening.requested ++ [(exchange, schedule.seq, action)] :=
    List.flatMap_append
  refine ⟨h.sorted.push (fun _ hpayload => (by cases hpayload)), ?_, ?_, ?_, ?_,
    answered_append h.answered _ trivial⟩
  · intro other
    rw [Schedule.owed_push_act h.sorted]
    show List.flatMap _ _ = List.flatMap _ _ ++ _
    rw [flatMap_same rfl, flatMap_same rfl]
    exact h.returned other
  · have hserved : List.flatMap Happening.served
        (history ++ [.drained exchange schedule.seq action]) = history.flatMap Happening.served :=
      flatMap_same rfl
    rw [hrequested, hserved, ← List.append_assoc]
    calc history.flatMap Happening.requested ++ [(exchange, schedule.seq, action)]
      _ |>.Perm ((exchange, schedule.seq, action) :: history.flatMap Happening.requested) :=
        List.perm_append_singleton _ _
      _ |>.Perm ((exchange, schedule.seq, action) ::
          (history.flatMap Happening.served ++ (taken.bind ScheduledEvent.request?).toList ++
            schedule.waiting)) := by
        rw [List.append_assoc]
        exact h.requested.cons _
      _ |>.Perm (history.flatMap Happening.served ++ (taken.bind ScheduledEvent.request?).toList ++
          (exchange, schedule.seq, action) :: schedule.waiting) := List.perm_middle.symm
      _ |>.Perm _ := (Schedule.waiting_push_request h.sorted hwake).symm.append_left _
  · rw [hrequested, List.pairwise_append]
    refine ⟨h.numbered, List.pairwise_singleton _ _, ?_⟩
    intro a ha b hb
    rw [List.mem_singleton.1 hb]
    exact h.fresh a ha
  · rw [hrequested]
    intro request hrequest
    rcases List.mem_append.1 hrequest with hrequest | hrequest
    · exact (h.fresh request hrequest).trans (Nat.lt_succ_self _)
    · rw [List.mem_singleton.1 hrequest]
      exact Nat.lt_succ_self _

/-- The queue's earliest entry taken in hand. -/
theorem popped (h : Accounts history schedule none) {rest : List ScheduledEvent}
    (hpending : schedule.pending = entry :: rest) :
    Accounts (history ++ [.popped entry]) { schedule with pending := rest } (some entry) := by
  refine aside ?_ rfl
  have hsorted := h.sorted.pairwise
  rw [hpending] at hsorted
  have hmem : ∀ later ∈ rest, later ∈ schedule.pending := by
    intro later hlater
    rw [hpending]
    exact List.mem_cons_of_mem _ hlater
  have hsplit : ∀ {α : Type} (part : ScheduledEvent → Option α),
      schedule.pending.filterMap part = (part entry).toList ++ rest.filterMap part := by
    intro α part
    rw [hpending]
    cases hpart : part entry with
    | none => exact List.filterMap_cons_none hpart
    | some a => exact List.filterMap_cons_some hpart
  refine ⟨⟨hsorted.tail, fun later hlater => h.sorted.fresh later (hmem later hlater),
    fun later hlater => h.sorted.account later (hmem later hlater)⟩, ?_, ?_, h.numbered, h.fresh,
    h.answered⟩
  · intro exchange
    rw [h.returned exchange]
    exact congrArg _ (hsplit (ScheduledEvent.owes? exchange))
  · refine h.requested.trans ?_
    exact List.Perm.of_eq (congrArg _ (hsplit ScheduledEvent.request?))

/-- The entry in hand shown to the engine. -/
theorem showed (h : Accounts history schedule (some entry)) {deliverable : Deliverable}
    (hpayload : entry.payload = .deliver deliverable) :
    Accounts (history ++ [.showed (.venue entry.exchange deliverable)]) schedule none := by
  have hrequest : entry.request? = none := by
    unfold ScheduledEvent.request?
    rw [hpayload]
  refine ⟨h.sorted, ?_, ?_, ?_, ?_, answered_append h.answered _ trivial⟩
  · intro exchange
    have howes : (ScheduledEvent.owes? exchange entry).toList =
        Happening.delivered exchange
          (.showed (.venue entry.exchange deliverable) : Happening MarketKind Other) := by
      unfold ScheduledEvent.owes? Happening.delivered
      rw [hpayload]
      dsimp only
      split <;> rfl
    rw [flatMap_same rfl, List.flatMap_append, List.flatMap_singleton, ← howes, List.append_assoc]
    exact h.returned exchange
  · rw [flatMap_same rfl, flatMap_same rfl]
    have hrequested := h.requested
    rw [Option.bind_some, hrequest] at hrequested
    exact hrequested
  · rw [flatMap_same rfl]
    exact h.numbered
  · rw [flatMap_same rfl]
    exact h.fresh

/-- A wake-up in hand is over. -/
theorem woken (h : Accounts history schedule (some entry)) (hpayload : entry.payload = .act .wake) :
    Accounts history schedule none := by
  have hrequest : entry.request? = none := by
    unfold ScheduledEvent.request?
    rw [hpayload]
  have howes : ∀ exchange, entry.owes? exchange = none := by
    intro exchange
    unfold ScheduledEvent.owes?
    rw [hpayload]
  refine ⟨h.sorted, ?_, ?_, h.numbered, h.fresh, h.answered⟩
  · intro exchange
    have hreturned := h.returned exchange
    rw [Option.bind_some, howes] at hreturned
    exact hreturned
  · have hrequested := h.requested
    rw [Option.bind_some, hrequest] at hrequested
    exact hrequested

/-- An input given, and what it returned queued. -/
theorem gave (h : Accounts history schedule taken) {request : Option ℕ}
    {input : SimulatedVenue.Input} {events : List Mock.AccountEvent} {response : Option Deliverable}
    (howes : schedule.Owes exchange (events.map .account ++ response.toList) schedule')
    {taken' : Option ScheduledEvent}
    (hsame : ∀ exchange, taken.bind (ScheduledEvent.owes? exchange) = none ∧
      taken'.bind (ScheduledEvent.owes? exchange) = none)
    (hserved : (taken.bind ScheduledEvent.request?).toList =
      Happening.served (.gave exchange request input events response :
        Happening MarketKind Other) ++ (taken'.bind ScheduledEvent.request?).toList)
    (hanswered : Happening.Answered (.gave exchange request input events response :
      Happening MarketKind Other)) :
    Accounts (history ++ [.gave exchange request input events response]) schedule' taken' := by
  refine ⟨howes.sorted, ?_, ?_, ?_, ?_, answered_append h.answered _ hanswered⟩
  · intro other
    have hreturned := h.returned other
    rw [(hsame other).1] at hreturned
    rw [flatMap_same (f := Happening.delivered other) rfl, List.flatMap_append,
      List.flatMap_singleton, (hsame other).2, hreturned, List.append_assoc]
    refine congrArg _ ?_
    show schedule.owed other ++ Happening.returned other _ = schedule'.owed other
    unfold Happening.returned
    dsimp only
    split
    · rename_i heq
      rw [← heq, howes.owed]
    · rename_i hne
      rw [howes.others other (Ne.symm hne), List.append_nil]
  · have hrequested := h.requested
    rw [hserved, List.append_assoc, ← List.append_assoc] at hrequested
    rw [flatMap_same (f := Happening.requested) rfl, List.flatMap_append,
      List.flatMap_singleton, howes.waiting]
    exact hrequested
  · rw [flatMap_same rfl]
    exact h.numbered
  · rw [flatMap_same rfl]
    exact fun request hrequest => (h.fresh request hrequest).trans_le howes.seq

/-- A venue moved, and what it returned queued. -/
theorem moved (h : Accounts history schedule taken) {input : SimulatedVenue.Input}
    {events : List Mock.AccountEvent} (howes : schedule.Owes exchange (events.map .account) schedule')
    (hact : ∀ exchange, taken.bind (ScheduledEvent.owes? exchange) = none) :
    Accounts (history ++ [.gave exchange none input events none]) schedule' taken := by
  have hall : schedule.Owes exchange
      (events.map .account ++ (none : Option Deliverable).toList) schedule' := by
    rw [Option.toList_none, List.append_nil]
    exact howes
  exact h.gave hall (fun exchange => ⟨hact exchange, hact exchange⟩) rfl rfl

/-- What a venue returned answers each request it was given once. -/
theorem answers_eq (h : Accounts history schedule taken) (exchange : ExchangeIndex) :
    (history.flatMap (Happening.returned exchange)).filterMap Deliverable.answers? =
      ((history.flatMap Happening.served).filter fun request => request.1 = exchange).map
        fun request => request.2.1 := by
  rw [List.filterMap_flatMap, List.filter_flatMap, List.map_flatMap]
  refine List.flatMap_congr fun happening hmem => ?_
  have hanswered := h.answered happening hmem
  have hevents : ∀ events : List Mock.AccountEvent,
      (events.map Deliverable.account).filterMap Deliverable.answers? = [] := by
    intro events
    rw [List.filterMap_eq_nil_iff]
    intro deliverable hdeliverable
    obtain ⟨event, -, rfl⟩ := List.mem_map.1 hdeliverable
    rfl
  cases happening with
  | gave venue request input events response =>
    cases request with
    | none =>
      cases hanswered
      unfold Happening.returned Happening.served
      dsimp only
      split
      · rw [Option.toList_none, List.append_nil, hevents]
        rfl
      · rfl
    | some request =>
      obtain ⟨hasked, answer, rfl, hanswers⟩ := hanswered
      obtain ⟨action, haction⟩ := Option.isSome_iff_exists.1 hasked
      unfold Happening.returned Happening.served
      dsimp only
      rw [haction]
      split
      · rename_i heq
        rw [List.filterMap_append, hevents, List.nil_append, Option.toList_some,
          List.filterMap_cons_some hanswers]
        simp [heq]
      · rename_i hne
        simp [hne]
  | popped entry => rfl
  | drew event => rfl
  | showed event => rfl
  | drained venue request action => rfl
  | refused entry => rfl
  | abandoned => rfl

end Accounts

end Rustrade.Sim
