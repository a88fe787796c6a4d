import Mathlib.Tactic.Linarith
import Rustrade.Engine.InFlight

/-!
# Every overdue request is flagged, once

A watch that read every order at every check would flag a request at the first check at or after its
deadline. The watch flags the same: a request it leaves unscanned falls due no earlier than its next
scan, and one that it scanned and did not flag then fell due no later than its last.
-/

set_option autoImplicit false

namespace Rustrade

namespace InFlightWatch

variable {watch : InFlightWatch} {now : EngineInstant} {timeNow : DateTime}

theorem earlier_le (instant : Option EngineInstant) (other : EngineInstant) :
    earlier instant other ≤ other := by
  cases instant with
  | none => exact le_rfl
  | some instant => exact min_le_right _ _

theorem earlier_le_of_mem {instant : Option EngineInstant} {first : EngineInstant}
    (h : instant = some first) (other : EngineInstant) : earlier instant other ≤ first := by
  rw [h]
  exact min_le_left _ _

/-- What a scan flags an order with, if it does. -/
def flags (watch : InFlightWatch) (now : EngineInstant) (timeNow : DateTime) (order : TrackedOrder) :
    Option InFlightOverdue :=
  match order.state.awaits, watch.deadlines.get order.key.exchange with
  | some (request, timeSent), some deadline =>
    let sent := watch.sentAt now timeNow timeSent
    if sent + deadline ≤ now ∧ (watch.lastScan.all fun last => last < sent + deadline) = true then
      some ⟨order.key, request, timeSent, deadline, (now - sent).toNat⟩
    else none
  | _, _ => none

/-- What a scan knows once it has read the orders: of each with a deadline the instant its request
was sent at, and of each not yet due that the next scan is no later. -/
structure Scanned (watch : InFlightWatch) (now : EngineInstant) (timeNow : DateTime)
    (orders : List TrackedOrder) (scan : Scan) : Prop where
  held : ∀ timeSent sent, scan.held[timeSent]? = some sent →
    sent = watch.sentAt now timeNow timeSent ∧
      ∃ order ∈ orders, ∃ request, order.state.awaits = some (request, timeSent)
  holds : ∀ order ∈ orders, ∀ request timeSent deadline,
    order.state.awaits = some (request, timeSent) →
    watch.deadlines.get order.key.exchange = some deadline →
      scan.held[timeSent]? = some (watch.sentAt now timeNow timeSent) ∧
      (now < watch.sentAt now timeNow timeSent + deadline → ∃ next, scan.nextScan = some next ∧
        next ≤ watch.sentAt now timeNow timeSent + deadline)

theorem Scanned.order {orders : List TrackedOrder} {scan : Scan}
    (h : Scanned watch now timeNow orders scan) (order : TrackedOrder) :
    Scanned watch now timeNow (orders ++ [order]) (watch.scanOrder now timeNow scan order) ∧
      (watch.scanOrder now timeNow scan order).overdue =
        scan.overdue ++ (watch.flags now timeNow order).toList := by
  have hmore : ∀ {timeSent}, (∃ order ∈ orders, ∃ request,
      order.state.awaits = some (request, timeSent)) → ∃ other ∈ orders ++ [order], ∃ request,
        other.state.awaits = some (request, timeSent) := by
    rintro timeSent ⟨other, hother, hawaits⟩
    exact ⟨other, List.mem_append_left _ hother, hawaits⟩
  unfold scanOrder flags
  cases hawaits : order.state.awaits with
  | none =>
    refine ⟨⟨fun timeSent sent hheld => ⟨(h.held _ _ hheld).1, hmore (h.held _ _ hheld).2⟩, ?_⟩,
      (List.append_nil _).symm⟩
    intro other hother request timeSent deadline hother' hdeadline
    rcases List.mem_append.1 hother with hother | hother
    · exact h.holds other hother request timeSent deadline hother' hdeadline
    · rw [List.mem_singleton.1 hother, hawaits] at hother'
      cases hother'
  | some awaited =>
    obtain ⟨request, timeSent⟩ := awaited
    cases hdeadline : watch.deadlines.get order.key.exchange with
    | none =>
      refine ⟨⟨fun timeSent sent hheld => ⟨(h.held _ _ hheld).1, hmore (h.held _ _ hheld).2⟩, ?_⟩,
        (List.append_nil _).symm⟩
      intro other hother request timeSent deadline hother' hdeadline'
      rcases List.mem_append.1 hother with hother | hother
      · exact h.holds other hother request timeSent deadline hother' hdeadline'
      · rw [List.mem_singleton.1 hother, hdeadline] at hdeadline'
        cases hdeadline'
    | some deadline =>
      dsimp only
      have hsent : (scan.held[timeSent]?).getD (watch.sentAt now timeNow timeSent) =
          watch.sentAt now timeNow timeSent := by
        cases hheld : scan.held[timeSent]? with
        | none => rfl
        | some sent => exact (h.held timeSent sent hheld).1
      rw [hsent]
      set sent := watch.sentAt now timeNow timeSent with hsentDef
      -- Whatever becomes of the order, its send is held, and the next scan is brought no later.
      have hdone : ∀ scan' : Scan, scan'.held = scan.held.insert timeSent sent →
          (∀ next, scan.nextScan = some next → ∃ next', scan'.nextScan = some next' ∧
            next' ≤ next) →
          (now < sent + deadline → ∃ next, scan'.nextScan = some next ∧ next ≤ sent + deadline) →
          Scanned watch now timeNow (orders ++ [order]) scan' := by
        intro scan' hheld hnext hdue
        refine ⟨?_, ?_⟩
        · intro other instant hother
          rw [hheld, BTreeMap.get?_insert] at hother
          split at hother
          · rename_i heq
            cases hother
            rw [← heq]
            exact ⟨hsentDef, order, by simp, request, hawaits⟩
          · exact ⟨(h.held _ _ hother).1, hmore (h.held _ _ hother).2⟩
        · intro other hother request' timeSent' deadline' hawaits' hdeadline'
          rcases List.mem_append.1 hother with hother | hother
          · obtain ⟨hlogged, hlater⟩ :=
              h.holds other hother request' timeSent' deadline' hawaits' hdeadline'
            refine ⟨?_, ?_⟩
            · rw [hheld, BTreeMap.get?_insert]
              split
              · rename_i heq
                rw [hsentDef, heq]
              · exact hlogged
            · intro hnotDue
              obtain ⟨next, hsome, hle⟩ := hlater hnotDue
              obtain ⟨next', hsome', hle'⟩ := hnext next hsome
              exact ⟨next', hsome', hle'.trans hle⟩
          · rw [List.mem_singleton.1 hother] at hawaits' hdeadline'
            rw [hawaits] at hawaits'
            rw [hdeadline] at hdeadline'
            cases hawaits'
            cases hdeadline'
            refine ⟨?_, hdue⟩
            rw [hheld, BTreeMap.get?_insert, if_pos rfl]
      split
      · rename_i hnotDue
        rw [if_neg (fun hdue => absurd hdue.1 (not_le.2 hnotDue))]
        refine ⟨hdone _ rfl ?_ ?_, (List.append_nil _).symm⟩
        · intro next hnext
          exact ⟨_, rfl, earlier_le_of_mem hnext _⟩
        · exact fun _ => ⟨_, rfl, earlier_le _ _⟩
      · rename_i hdue
        have hkept : ∀ next, scan.nextScan = some next → ∃ next', scan.nextScan = some next' ∧
            next' ≤ next := fun next hnext => ⟨next, hnext, le_rfl⟩
        split
        · rename_i hnew
          rw [if_pos ⟨not_lt.1 hdue, hnew⟩]
          exact ⟨hdone _ rfl hkept (fun hlt => absurd hlt hdue), rfl⟩
        · rename_i hold
          rw [if_neg (fun h => hold h.2)]
          exact ⟨hdone _ rfl hkept (fun hlt => absurd hlt hdue), (List.append_nil _).symm⟩

theorem Scanned.orders {orders : List TrackedOrder} {scan : Scan}
    (h : Scanned watch now timeNow orders scan) (more : List TrackedOrder) :
    Scanned watch now timeNow (orders ++ more) (more.foldl (watch.scanOrder now timeNow) scan) ∧
      (more.foldl (watch.scanOrder now timeNow) scan).overdue =
        scan.overdue ++ more.filterMap (watch.flags now timeNow) := by
  induction more generalizing orders scan with
  | nil => exact ⟨by rwa [List.append_nil], (List.append_nil _).symm⟩
  | cons order more ih =>
    obtain ⟨hscanned, hoverdue⟩ := h.order order
    obtain ⟨hdone, hall⟩ := ih hscanned
    rw [List.append_assoc] at hdone
    refine ⟨hdone, ?_⟩
    rw [List.foldl_cons, hall, hoverdue, List.append_assoc, List.filterMap_cons]
    cases watch.flags now timeNow order <;> rfl

/-- Every order of the instruments. -/
def allOrders (instruments : List InstrumentOrders) : List TrackedOrder :=
  instruments.flatMap fun instrument => instrument.tracked.values

theorem Scanned.instruments {orders : List TrackedOrder} {scan : Scan}
    (h : Scanned watch now timeNow orders scan) (instruments : List InstrumentOrders) :
    Scanned watch now timeNow (orders ++ allOrders instruments)
        (instruments.foldl (watch.scanInstrument now timeNow) scan) ∧
      (instruments.foldl (watch.scanInstrument now timeNow) scan).overdue.Perm
        (scan.overdue ++ (allOrders instruments).filterMap (watch.flags now timeNow)) := by
  induction instruments generalizing orders scan with
  | nil => exact ⟨by rwa [allOrders, List.flatMap_nil, List.append_nil], by simp [allOrders]⟩
  | cons instrument instruments ih =>
    have hafresh : Scanned watch now timeNow orders { scan with overdue := [] } := ⟨h.held, h.holds⟩
    obtain ⟨hscanned, hoverdue⟩ := hafresh.orders instrument.tracked.values
    have hinstrument : Scanned watch now timeNow (orders ++ instrument.tracked.values)
        (watch.scanInstrument now timeNow scan instrument) := ⟨hscanned.held, hscanned.holds⟩
    obtain ⟨hdone, hall⟩ := ih hinstrument
    rw [List.append_assoc] at hdone
    refine ⟨hdone, hall.trans ?_⟩
    unfold allOrders
    rw [List.flatMap_cons, List.filterMap_append, ← List.append_assoc]
    refine List.Perm.append_right _ ?_
    show (scan.overdue ++ (instrument.tracked.values.foldl (watch.scanOrder now timeNow)
      { scan with overdue := [] }).overdue.mergeSort sortsBefore).Perm _
    refine List.Perm.append_left _ ((List.mergeSort_perm _ _).trans ?_)
    rw [hoverdue, List.nil_append]

end InFlightWatch

open InFlightWatch

/-! ## A run as it happened -/

/-- The requests in flight. -/
def requests (instruments : List InstrumentOrders) :
    List (OrderKey ExchangeIndex InstrumentIndex × InFlightRequest × DateTime) :=
  (allOrders instruments).filterMap fun order =>
    order.state.awaits.map fun awaited => (order.key, awaited)

namespace WatchedEvent

/-- The stamp of a send, and the instant it was made at, if anything was sent. -/
def sent? : WatchedEvent → Option (DateTime × EngineInstant)
  | .sendOpens requests timeSent instant =>
    if requests.isEmpty then none else some (timeSent, instant)
  | .sendCancels requests timeSent instant =>
    if requests.isEmpty then none else some (timeSent, instant)
  | .update _ | .check _ _ => none

def checked? : WatchedEvent → Option EngineInstant
  | .check now _ => some now
  | _ => none

/-- The instant it read of the clock. -/
def instant? (event : WatchedEvent) : Option EngineInstant :=
  (event.sent?.map Prod.snd).or event.checked?

end WatchedEvent

def sendsIn (events : List WatchedEvent) : List (DateTime × EngineInstant) :=
  events.filterMap WatchedEvent.sent?

def checksIn (events : List WatchedEvent) : List EngineInstant :=
  events.filterMap WatchedEvent.checked?

/-- The instant of the send with that stamp. -/
def sentIn (events : List WatchedEvent) (timeSent : DateTime) : Option EngineInstant :=
  ((sendsIn events).find? fun sent => sent.1 = timeSent).map Prod.snd

/-- A run of sends, each with a stamp of its own, and of checks, the instants of both read from a
clock that never goes back, whose other updates put nothing in flight. -/
structure Clocked (start : Watched) (events : List WatchedEvent) : Prop where
  instants : (events.filterMap WatchedEvent.instant?).Pairwise fun a b => a ≤ b
  stamps : ((sendsIn events).map Prod.fst).Nodup
  updates : ∀ before_ instruments after_, events = before_ ++ .update instruments :: after_ →
    ∀ request ∈ requests instruments, request ∈ requests (start.run before_).instruments

/-- What a check at `now`, after the events, flags an order with: if its request was sent its
exchange's deadline or more ago, and no earlier check was that long after it. -/
def firstOverdue (deadlines : InFlightDeadlines) (events : List WatchedEvent) (now : EngineInstant)
    (order : TrackedOrder) : Option InFlightOverdue := do
  let (request, timeSent) ← order.state.awaits
  let deadline ← deadlines.get order.key.exchange
  let sent ← sentIn events timeSent
  if sent + deadline ≤ now ∧ ∀ earlier ∈ checksIn events, earlier < sent + deadline then
    some ⟨order.key, request, timeSent, deadline, (now - sent).toNat⟩
  else none

section

variable {deadlines : InFlightDeadlines} {start state : Watched} {events : List WatchedEvent}
  {event : WatchedEvent}

theorem Clocked.before (h : Clocked start (events ++ [event])) : Clocked start events := by
  refine ⟨?_, ?_, ?_⟩
  · have hinstants := h.instants
    rw [List.filterMap_append] at hinstants
    exact (List.pairwise_append.1 hinstants).1
  · have hstamps := h.stamps
    unfold sendsIn at hstamps
    rw [List.filterMap_append, List.map_append] at hstamps
    exact (List.nodup_append.1 hstamps).1
  · intro before_ instruments after_ hsplit
    refine h.updates before_ instruments (after_ ++ [event]) ?_
    rw [hsplit, List.append_assoc]
    rfl

/-- Every instant that was read was read before the latest one. -/
theorem Clocked.latest (h : Clocked start (events ++ [event])) {instant : EngineInstant}
    (hinstant : event.instant? = some instant) :
    ∀ earlier ∈ events.filterMap WatchedEvent.instant?, earlier ≤ instant := by
  intro earlier hearlier
  have hinstants := h.instants
  rw [List.filterMap_append] at hinstants
  exact (List.pairwise_append.1 hinstants).2.2 earlier hearlier instant
    (List.mem_filterMap.2 ⟨event, List.mem_singleton_self _, hinstant⟩)

theorem mem_instants_of_checksIn {now : EngineInstant} (h : now ∈ checksIn events) :
    now ∈ events.filterMap WatchedEvent.instant? := by
  obtain ⟨event, hevent, hchecked⟩ := List.mem_filterMap.1 h
  refine List.mem_filterMap.2 ⟨event, hevent, ?_⟩
  cases event with
  | check now timeNow => exact hchecked
  | sendOpens requests timeSent instant => cases hchecked
  | sendCancels requests timeSent instant => cases hchecked
  | update instruments => cases hchecked

theorem run_snoc (start : Watched) (events : List WatchedEvent) (event : WatchedEvent) :
    start.run (events ++ [event]) = (start.run events).step event := by
  unfold Watched.run
  rw [List.foldl_append]
  rfl

theorem sentIn_snoc_of_some {timeSent : DateTime} {sent : EngineInstant}
    (h : sentIn events timeSent = some sent) : sentIn (events ++ [event]) timeSent = some sent := by
  unfold sentIn sendsIn at h ⊢
  obtain ⟨found, hfound, hsent⟩ := Option.map_eq_some_iff.1 h
  rw [List.filterMap_append, List.find?_append, hfound]
  exact congrArg some hsent

theorem mem_stamps_of_sentIn {timeSent : DateTime} {sent : EngineInstant}
    (h : sentIn events timeSent = some sent) : timeSent ∈ (sendsIn events).map Prod.fst := by
  obtain ⟨found, hfound, -⟩ := Option.map_eq_some_iff.1 h
  have hstamp := List.find?_some hfound
  rw [decide_eq_true_eq] at hstamp
  exact List.mem_map.2 ⟨found, List.mem_of_find?_eq_some hfound, hstamp⟩

/-! ## The invariant -/

/-- A request fell due by the last scan, or is not due before the next. -/
def Placed (watch : InFlightWatch) (due : EngineInstant) : Prop :=
  (∃ last, watch.lastScan = some last ∧ due ≤ last) ∨
    ∃ next, watch.nextScan = some next ∧ next ≤ due

/-- The instant of every request in flight is known, and logged if it has a deadline; none is due
between the last scan and the next, and none was by a check that came after the last scan. -/
structure Watching (deadlines : InFlightDeadlines) (events : List WatchedEvent) (state : Watched) :
    Prop where
  watches : state.watch.deadlines = deadlines
  sent : ∀ request ∈ requests state.instruments, ∃ sent,
    sentIn events request.2.2 = some sent ∧
      ∀ deadline, deadlines.get request.1.exchange = some deadline →
        state.watch.sends[request.2.2]? = some sent ∧ Placed state.watch (sent + deadline) ∧
          ∀ now ∈ checksIn events, sent + deadline ≤ now →
            ∃ last, state.watch.lastScan = some last ∧ sent + deadline ≤ last
  logged : ∀ timeSent sent, state.watch.sends[timeSent]? = some sent →
    timeSent ∈ (sendsIn events).map Prod.fst
  last : ∀ last, state.watch.lastScan = some last → last ∈ checksIn events

/-- Requests sent together are in flight with their stamp, and nothing else is that was not. -/
theorem Watching.sends (h : Watching deadlines events state)
    (hclocked : Clocked start (events ++ [event])) {timeSent : DateTime} {instant : EngineInstant}
    (hsent : event.sent? = some (timeSent, instant)) {instruments : List InstrumentOrders}
    (hrequests : ∀ request ∈ requests instruments,
      request ∈ requests state.instruments ∨ request.2.2 = timeSent) :
    Watching deadlines (events ++ [event]) ⟨instruments, state.watch.onSent timeSent instant⟩ := by
  have hsends : sendsIn (events ++ [event]) = sendsIn events ++ [(timeSent, instant)] := by
    unfold sendsIn
    rw [List.filterMap_append, List.filterMap_cons, hsent]
    rfl
  have hinstant : event.instant? = some instant := by
    unfold WatchedEvent.instant?
    rw [hsent]
    rfl
  have hchecks : checksIn (events ++ [event]) = checksIn events := by
    have hnone : event.checked? = none := by
      cases event with
      | check now timeNow => cases hsent
      | sendOpens requests timeSent instant => rfl
      | sendCancels requests timeSent instant => rfl
      | update instruments => rfl
    unfold checksIn
    rw [List.filterMap_append, List.filterMap_cons, hnone, List.filterMap_nil, List.append_nil]
  -- The stamp is a new one.
  have hfresh : timeSent ∉ (sendsIn events).map Prod.fst := by
    have hstamps := hclocked.stamps
    rw [hsends, List.map_append] at hstamps
    intro hmem
    exact (List.nodup_append.1 hstamps).2.2 timeSent hmem timeSent (List.mem_singleton_self _) rfl
  have hunlogged : state.watch.sends[timeSent]? = none := by
    cases hlogged : state.watch.sends[timeSent]? with
    | none => rfl
    | some sent => exact absurd (h.logged timeSent sent hlogged) hfresh
  have hnew : sentIn (events ++ [event]) timeSent = some instant := by
    unfold sentIn
    rw [hsends, List.find?_append, List.find?_eq_none.2]
    · simp
    · intro found hfound heq
      exact hfresh (List.mem_map.2 ⟨found, hfound, of_decide_eq_true heq⟩)
  cases hshortest : state.watch.deadlines.shortest with
  | none =>
    have hsame : state.watch.onSent timeSent instant = state.watch := by
      unfold onSent
      rw [hshortest]
    have hnone : ∀ exchange deadline, deadlines.get exchange ≠ some deadline := by
      intro exchange deadline hdeadline
      rw [← h.watches] at hdeadline
      obtain ⟨shortest, hsome, -⟩ := InFlightDeadlines.shortest_le hdeadline
      rw [hshortest] at hsome
      cases hsome
    rw [hsame]
    refine ⟨h.watches, ?_, ?_, ?_⟩
    · intro request hrequest
      rcases hrequests request hrequest with hold | hstamped
      · obtain ⟨sent, hsentIn, -⟩ := h.sent request hold
        exact ⟨sent, sentIn_snoc_of_some hsentIn,
          fun deadline hdeadline => absurd hdeadline (hnone _ _)⟩
      · refine ⟨instant, hstamped ▸ hnew, fun deadline hdeadline => absurd hdeadline (hnone _ _)⟩
    · intro other sent hlogged
      rw [hsends, List.map_append]
      exact List.mem_append_left _ (h.logged other sent hlogged)
    · intro last hlast
      rw [hchecks]
      exact h.last last hlast
  | some shortest =>
    have hwatch : state.watch.onSent timeSent instant =
        { state.watch with
          sends := state.watch.sends.insert timeSent instant
          nextScan := some (earlier state.watch.nextScan (instant + shortest)) } := by
      unfold onSent
      rw [hshortest]
      dsimp only
      rw [hunlogged]
      rfl
    rw [hwatch]
    refine ⟨h.watches, ?_, ?_, ?_⟩
    · intro request hrequest
      rcases hrequests request hrequest with hold | hstamped
      · obtain ⟨sent, hsentIn, hplaced⟩ := h.sent request hold
        refine ⟨sent, sentIn_snoc_of_some hsentIn, ?_⟩
        intro deadline hdeadline
        obtain ⟨hlogged, hwhere, hchecked⟩ := hplaced deadline hdeadline
        refine ⟨?_, ?_, ?_⟩
        · have hne : timeSent ≠ request.2.2 := by
            intro heq
            exact hfresh (heq ▸ mem_stamps_of_sentIn hsentIn)
          show (state.watch.sends.insert timeSent instant)[request.2.2]? = _
          rw [BTreeMap.get?_insert_of_ne hne]
          exact hlogged
        · rcases hwhere with hlast | ⟨next, hnext, hle⟩
          · exact .inl hlast
          · exact .inr ⟨_, rfl, (earlier_le_of_mem hnext _).trans hle⟩
        · rw [hchecks]
          exact hchecked
      · refine ⟨instant, hstamped ▸ hnew, ?_⟩
        intro deadline hdeadline
        have hdeadline' : state.watch.deadlines.get request.1.exchange = some deadline := by
          rw [h.watches]
          exact hdeadline
        obtain ⟨least, hleast, hle⟩ := InFlightDeadlines.shortest_le hdeadline'
        have hpos := state.watch.deadlines.nonzero deadline (InFlightDeadlines.mem_of_get hdeadline')
        rw [hshortest] at hleast
        cases hleast
        refine ⟨?_, .inr ⟨_, rfl, (earlier_le _ _).trans ?_⟩, ?_⟩
        · rw [hstamped]
          show (state.watch.sends.insert timeSent instant)[timeSent]? = _
          rw [BTreeMap.get?_insert, if_pos rfl]
        · have hcast : (shortest : EngineInstant) ≤ deadline := by exact_mod_cast hle
          linarith
        · intro now hnow hdue
          rw [hchecks] at hnow
          have hbefore := hclocked.latest hinstant now (mem_instants_of_checksIn hnow)
          have hcast : (0 : EngineInstant) < deadline := by exact_mod_cast hpos
          linarith
    · intro other sent hlogged
      rw [hsends, List.map_append]
      by_cases heq : timeSent = other
      · rw [← heq]
        exact List.mem_append_right _ (List.mem_singleton_self _)
      · have hbefore : state.watch.sends[other]? = some sent := by
          rw [← BTreeMap.get?_insert_of_ne heq]
          exact hlogged
        exact List.mem_append_left _ (h.logged other sent hbefore)
    · intro last hlast
      rw [hchecks]
      exact h.last last hlast

/-! ## Checks -/

/-- The instant a scan takes a request in flight to be sent at is the one it was. -/
theorem Watching.sentAt (h : Watching deadlines events state) (now : EngineInstant)
    (timeNow : DateTime) {order : TrackedOrder} (horder : order ∈ allOrders state.instruments)
    {awaited : InFlightRequest × DateTime} (hawaits : order.state.awaits = some awaited)
    {deadline : Duration} (hdeadline : deadlines.get order.key.exchange = some deadline) :
    ∃ sent, sentIn events awaited.2 = some sent ∧
      state.watch.sentAt now timeNow awaited.2 = sent ∧ Placed state.watch (sent + deadline) ∧
        ∀ now ∈ checksIn events, sent + deadline ≤ now →
          ∃ last, state.watch.lastScan = some last ∧ sent + deadline ≤ last := by
  have hrequest : (order.key, awaited) ∈ requests state.instruments :=
    List.mem_filterMap.2 ⟨order, horder, by rw [hawaits]; rfl⟩
  obtain ⟨sent, hsentIn, hplaced⟩ := h.sent _ hrequest
  obtain ⟨hlogged, hwhere, hchecked⟩ := hplaced deadline hdeadline
  refine ⟨sent, hsentIn, ?_, hwhere, hchecked⟩
  unfold InFlightWatch.sentAt
  rw [hlogged]
  rfl

/-- What a scan flags is what falls due by it and by no check before. -/
theorem Watching.flags (h : Watching deadlines events state) {now : EngineInstant}
    (timeNow : DateTime) {order : TrackedOrder} (horder : order ∈ allOrders state.instruments) :
    state.watch.flags now timeNow order = firstOverdue deadlines events now order := by
  unfold InFlightWatch.flags firstOverdue
  rw [h.watches]
  cases hawaits : order.state.awaits with
  | none => rfl
  | some awaited =>
    cases hdeadline : deadlines.get order.key.exchange with
    | none => rfl
    | some deadline =>
      obtain ⟨sent, hsentIn, hsentAt, hplaced, hchecked⟩ :=
        h.sentAt now timeNow horder hawaits hdeadline
      obtain ⟨request, timeSent⟩ := awaited
      have hsame : (state.watch.lastScan.all fun last => last < sent + deadline) = true ↔
          ∀ earlier ∈ checksIn events, earlier < sent + deadline := by
        constructor
        · intro hlast earlier hearlier
          by_contra hlate
          obtain ⟨last, hsome, hle⟩ := hchecked earlier hearlier (not_lt.1 hlate)
          rw [hsome, Option.all_some, decide_eq_true_eq] at hlast
          exact absurd hle (not_le.2 hlast)
        · intro hall
          cases hlast : state.watch.lastScan with
          | none => rfl
          | some last =>
            rw [Option.all_some, decide_eq_true_eq]
            exact hall last (h.last last hlast)
      dsimp only
      rw [hsentAt]
      show _ = (sentIn events timeSent).bind fun sent => _
      rw [hsentIn, Option.bind_some]
      exact if_congr (and_congr_right fun _ => hsame) rfl rfl

/-- Between scans nothing newly falls due. -/
theorem Watching.idle (h : Watching deadlines events state) {now : EngineInstant}
    (hidle : ∀ next, state.watch.nextScan = some next → now < next) {order : TrackedOrder}
    (horder : order ∈ allOrders state.instruments) :
    firstOverdue deadlines events now order = none := by
  unfold firstOverdue
  cases hawaits : order.state.awaits with
  | none => rfl
  | some awaited =>
    cases hdeadline : deadlines.get order.key.exchange with
    | none => rfl
    | some deadline =>
      obtain ⟨sent, hsentIn, -, hplaced, -⟩ :=
        h.sentAt now 0 horder hawaits hdeadline
      obtain ⟨request, timeSent⟩ := awaited
      show ((sentIn events timeSent).bind fun sent => _) = none
      rw [hsentIn, Option.bind_some, if_neg]
      rintro ⟨hdue, hfirst⟩
      rcases hplaced with ⟨last, hlast, hle⟩ | ⟨next, hnext, hle⟩
      · exact absurd (hfirst last (h.last last hlast)) (not_lt.2 hle)
      · exact absurd (hle.trans hdue) (not_le.2 (hidle next hnext))

/-- A check returns what falls due by it and by no check before, and the watch goes on. -/
theorem Watching.check (h : Watching deadlines events state) {now : EngineInstant}
    {timeNow : DateTime} (hclocked : Clocked start (events ++ [.check now timeNow])) :
    (state.watch.check now timeNow state.instruments).1.Perm
        ((allOrders state.instruments).filterMap (firstOverdue deadlines events now)) ∧
      Watching deadlines (events ++ [.check now timeNow]) (state.step (.check now timeNow)) := by
  have hchecks : checksIn (events ++ [.check now timeNow]) = checksIn events ++ [now] := by
    unfold checksIn
    rw [List.filterMap_append]
    rfl
  have hsends : sendsIn (events ++ [.check now timeNow]) = sendsIn events := by
    unfold sendsIn
    rw [List.filterMap_append]
    exact List.append_nil _
  have hlatest : ∀ earlier ∈ checksIn events, earlier ≤ now :=
    fun earlier hearlier => hclocked.latest rfl earlier (mem_instants_of_checksIn hearlier)
  have hstep : state.step (.check now timeNow) =
      { state with watch := (state.watch.check now timeNow state.instruments).2 } := rfl
  -- A check that does not scan returns nothing, and nothing was due.
  have hskip : (∀ next, state.watch.nextScan = some next → now < next) →
      state.watch.check now timeNow state.instruments = ([], state.watch) →
        (state.watch.check now timeNow state.instruments).1.Perm
          ((allOrders state.instruments).filterMap (firstOverdue deadlines events now)) ∧
        Watching deadlines (events ++ [.check now timeNow]) (state.step (.check now timeNow)) := by
    intro hidle hcheck
    rw [hstep, hcheck]
    refine ⟨?_, h.watches, ?_, ?_, ?_⟩
    · rw [List.filterMap_eq_nil_iff.2 fun order horder => h.idle hidle horder]
    · intro request hrequest
      obtain ⟨sent, hsentIn, hplaced⟩ := h.sent request hrequest
      refine ⟨sent, sentIn_snoc_of_some hsentIn, ?_⟩
      intro deadline hdeadline
      obtain ⟨hlogged, hwhere, hchecked⟩ := hplaced deadline hdeadline
      refine ⟨hlogged, hwhere, ?_⟩
      intro earlier hearlier hdue
      rw [hchecks] at hearlier
      rcases List.mem_append.1 hearlier with hearlier | hearlier
      · exact hchecked earlier hearlier hdue
      · rw [List.mem_singleton.1 hearlier] at hdue
        rcases hwhere with hlast | ⟨next, hnext, hle⟩
        · exact hlast
        · exact absurd (hle.trans hdue) (not_le.2 (hidle next hnext))
    · rw [hsends]
      exact h.logged
    · intro last hlast
      rw [hchecks]
      exact List.mem_append_left _ (h.last last hlast)
  cases hnext : state.watch.nextScan with
  | none =>
    refine hskip (fun next hsome => ?_) ?_
    · rw [hnext] at hsome
      cases hsome
    · unfold InFlightWatch.check
      rw [hnext]
  | some next =>
    by_cases hearly : now < next
    · refine hskip (fun next' hsome => ?_) ?_
      · rw [hnext] at hsome
        cases hsome
        exact hearly
      · unfold InFlightWatch.check
        rw [hnext]
        dsimp only
        rw [if_pos hearly]
    · have hnothing : Scanned state.watch now timeNow [] ⟨∅, none, []⟩ := by
        refine ⟨?_, fun order horder => absurd horder List.not_mem_nil⟩
        intro timeSent sent hheld
        rw [BTreeMap.get?_empty] at hheld
        cases hheld
      obtain ⟨hscanned, hoverdue⟩ := hnothing.instruments state.instruments
      rw [List.nil_append] at hscanned hoverdue
      set scan := state.instruments.foldl (state.watch.scanInstrument now timeNow) ⟨∅, none, []⟩
        with hscan
      have hlast : (state.watch.lastScan.map fun last => max last now).getD now = now := by
        cases hsome : state.watch.lastScan with
        | none => rfl
        | some last => exact max_eq_right (hlatest last (h.last last hsome))
      have hcheck : state.watch.check now timeNow state.instruments = (scan.overdue,
          { state.watch with
            lastScan := some now
            nextScan := scan.nextScan
            sends := scan.held }) := by
        unfold InFlightWatch.check
        rw [hnext]
        dsimp only
        rw [if_neg hearly, hlast]
      rw [hstep, hcheck]
      refine ⟨?_, h.watches, ?_, ?_, ?_⟩
      · rw [← List.filterMap_congr fun order horder => h.flags timeNow horder]
        exact hoverdue
      · intro request hrequest
        obtain ⟨order, horder, hawaited⟩ := List.mem_filterMap.1 hrequest
        obtain ⟨awaited, hawaits, rfl⟩ := Option.map_eq_some_iff.1 hawaited
        obtain ⟨sent, hsentIn, -⟩ := h.sent _ hrequest
        refine ⟨sent, sentIn_snoc_of_some hsentIn, ?_⟩
        intro deadline hdeadline
        obtain ⟨sent', hsentIn', hsentAt, -, -⟩ :=
          h.sentAt now timeNow horder hawaits hdeadline
        rw [hsentIn] at hsentIn'
        cases hsentIn'
        obtain ⟨hheld, hlater⟩ := hscanned.holds order horder awaited.1 awaited.2 deadline hawaits
          (h.watches ▸ hdeadline)
        rw [hsentAt] at hheld hlater
        refine ⟨hheld, ?_, ?_⟩
        · by_cases hdue : sent + deadline ≤ now
          · exact .inl ⟨now, rfl, hdue⟩
          · exact .inr (hlater (not_le.1 hdue))
        · intro earlier hearlier hdue
          refine ⟨now, rfl, ?_⟩
          rw [hchecks] at hearlier
          rcases List.mem_append.1 hearlier with hearlier | hearlier
          · exact hdue.trans (hlatest earlier hearlier)
          · rw [List.mem_singleton.1 hearlier] at hdue
            exact hdue
      · intro timeSent sent hheld
        rw [hsends]
        obtain ⟨-, order, horder, request, hawaits⟩ := hscanned.held timeSent sent hheld
        have hrequest : (order.key, request, timeSent) ∈ requests state.instruments :=
          List.mem_filterMap.2 ⟨order, horder, by rw [hawaits]; rfl⟩
        obtain ⟨sent, hsentIn, -⟩ := h.sent _ hrequest
        exact mem_stamps_of_sentIn hsentIn
      · rintro _ ⟨⟩
        rw [hchecks]
        exact List.mem_append_right _ (List.mem_singleton_self _)

/-! ## What a send puts in flight -/

theorem mem_requests {instruments : List InstrumentOrders}
    {request : OrderKey ExchangeIndex InstrumentIndex × InFlightRequest × DateTime} :
    request ∈ requests instruments ↔ ∃ orders ∈ instruments, ∃ cid order,
      orders.get? cid = some order ∧
        order.state.awaits.map (fun awaited => (order.key, awaited)) = some request := by
  unfold requests allOrders
  rw [List.mem_filterMap]
  constructor
  · rintro ⟨order, horder, hawaits⟩
    obtain ⟨orders, horders, hvalue⟩ := List.mem_flatMap.1 horder
    obtain ⟨cid, hget⟩ := IndexMap.mem_values_iff.1 hvalue
    exact ⟨orders, horders, cid, order, hget, hawaits⟩
  · rintro ⟨orders, horders, cid, order, hget, hawaits⟩
    exact ⟨order, List.mem_flatMap.2 ⟨orders, horders, IndexMap.mem_values_iff.2 ⟨cid, hget⟩⟩,
      hawaits⟩

/-- What changes one instrument's orders puts in flight what it puts in flight there. -/
theorem requests_modify {record : InstrumentOrders → InstrumentOrders} {timeSent : DateTime}
    (hrecord : ∀ orders cid order, (record orders).get? cid = some order →
      orders.get? cid = some order ∨ ∀ awaited, order.state.awaits = some awaited →
        awaited.2 = timeSent)
    {instruments : List InstrumentOrders} {index : InstrumentIndex} :
    ∀ request ∈ requests (instruments.modify index record),
      request ∈ requests instruments ∨ request.2.2 = timeSent := by
  intro request hrequest
  obtain ⟨orders, horders, cid, order, hget, hawaits⟩ := mem_requests.1 hrequest
  obtain ⟨place, hplace⟩ := List.mem_iff_getElem?.1 horders
  rw [List.getElem?_modify] at hplace
  obtain ⟨before_, hbefore, hsame⟩ := Option.map_eq_some_iff.1 hplace
  have hmem : before_ ∈ instruments := List.mem_of_getElem? hbefore
  split at hsame
  · subst hsame
    rcases hrecord before_ cid order hget with hold | hstamped
    · exact .inl (mem_requests.2 ⟨before_, hmem, cid, order, hold, hawaits⟩)
    · obtain ⟨awaited, hsome, rfl⟩ := Option.map_eq_some_iff.1 hawaits
      exact .inr (hstamped awaited hsome)
  · subst hsame
    exact .inl (mem_requests.2 ⟨_, hmem, cid, order, hget, hawaits⟩)

theorem recordInFlightOpen_get {request : OrderRequestOpen ExchangeIndex InstrumentIndex}
    {timeSent : DateTime} (orders : InstrumentOrders) (cid : ClientOrderId) (order : TrackedOrder)
    (h : (orders.recordInFlightOpen request timeSent).get? cid = some order) :
    orders.get? cid = some order ∨
      ∀ awaited, order.state.awaits = some awaited → awaited.2 = timeSent := by
  unfold Orders.recordInFlightOpen at h
  split at h
  · exact .inl h
  · have hget : (orders.tracked.insert request.key.cid
        (Order.openInFlight request timeSent)).get? cid = some order := h
    rw [IndexMap.get?_insert] at hget
    split at hget
    · cases hget
      refine .inr ?_
      rintro _ ⟨⟩
      rfl
    · exact .inl hget

theorem recordInFlightCancel_get {request : OrderRequestCancel ExchangeIndex InstrumentIndex}
    {timeSent : DateTime} (orders : InstrumentOrders) (cid : ClientOrderId) (order : TrackedOrder)
    (h : (orders.recordInFlightCancel request timeSent).get? cid = some order) :
    orders.get? cid = some order ∨
      ∀ awaited, order.state.awaits = some awaited → awaited.2 = timeSent := by
  unfold Orders.recordInFlightCancel at h
  split at h
  · exact .inl h
  · rename_i tracked _
    split at h
    · -- A cancel is in flight: it keeps its stamp.
      exact .inl h
    · rename_i state _
      have hget : (orders.tracked.insert request.key.cid
          { tracked with state := .cancelInFlight ⟨tracked.state.openMeta, timeSent⟩ }).get? cid =
            some order := h
      rw [IndexMap.get?_insert] at hget
      split at hget
      · cases hget
        refine .inr ?_
        rintro _ ⟨⟩
        rfl
      · exact .inl hget

/-- Requests recorded one after another are each in flight with their stamp. -/
theorem requests_foldl {Request : Type} {index : Request → InstrumentIndex}
    {record : Request → InstrumentOrders → InstrumentOrders} {timeSent : DateTime}
    (hrecord : ∀ sent orders cid order, (record sent orders).get? cid = some order →
      orders.get? cid = some order ∨ ∀ awaited, order.state.awaits = some awaited →
        awaited.2 = timeSent)
    (sent : List Request) (instruments : List InstrumentOrders) :
    ∀ request ∈ requests (sent.foldl
        (fun instruments sent => instruments.modify (index sent) (record sent)) instruments),
      request ∈ requests instruments ∨ request.2.2 = timeSent := by
  induction sent generalizing instruments with
  | nil => exact fun request hrequest => .inl hrequest
  | cons first sent ih =>
    intro request hrequest
    rcases ih _ request hrequest with hbefore | hstamped
    · exact requests_modify (hrecord first) request hbefore
    · exact .inr hstamped

/-! ## Whole runs -/

/-- An event that reads no clock and checks nothing leaves the watch what it knew. -/
theorem Watching.quiet (h : Watching deadlines events state) (hsent : event.sent? = none)
    (hchecked : event.checked? = none) {instruments : List InstrumentOrders}
    (hrequests : ∀ request ∈ requests instruments, request ∈ requests state.instruments) :
    Watching deadlines (events ++ [event]) ⟨instruments, state.watch⟩ := by
  have hsends : sendsIn (events ++ [event]) = sendsIn events := by
    unfold sendsIn
    rw [List.filterMap_append, List.filterMap_cons, hsent, List.filterMap_nil, List.append_nil]
  have hchecks : checksIn (events ++ [event]) = checksIn events := by
    unfold checksIn
    rw [List.filterMap_append, List.filterMap_cons, hchecked, List.filterMap_nil, List.append_nil]
  refine ⟨h.watches, ?_, ?_, ?_⟩
  · intro request hrequest
    obtain ⟨sent, hsentIn, hplaced⟩ := h.sent request (hrequests request hrequest)
    refine ⟨sent, sentIn_snoc_of_some hsentIn, ?_⟩
    rw [hchecks]
    exact hplaced
  · rw [hsends]
    exact h.logged
  · rw [hchecks]
    exact h.last

theorem run_watching {instruments : List InstrumentOrders} (hnone : requests instruments = [])
    (hclocked : Clocked ⟨instruments, .new deadlines⟩ events) :
    Watching deadlines events (Watched.run ⟨instruments, .new deadlines⟩ events) := by
  induction events using List.reverseRecOn with
  | nil =>
    refine ⟨rfl, ?_, ?_, ?_⟩
    · intro request hrequest
      rw [show requests (Watched.run ⟨instruments, .new deadlines⟩ []).instruments = [] from hnone]
        at hrequest
      cases hrequest
    · intro timeSent sent hlogged
      rw [show (Watched.run ⟨instruments, .new deadlines⟩ []).watch.sends = ∅ from rfl,
        BTreeMap.get?_empty] at hlogged
      cases hlogged
    · rintro _ ⟨⟩
  | append_singleton events event ih =>
    have hwatching := ih hclocked.before
    rw [run_snoc]
    cases event with
    | sendOpens sent timeSent instant =>
      show Watching _ _ (Watched.sendOpenRequests _ sent timeSent instant)
      unfold Watched.sendOpenRequests
      split
      · rename_i hempty
        exact hwatching.quiet (by simp [WatchedEvent.sent?, hempty]) rfl fun _ hrequest => hrequest
      · rename_i hsent
        exact hwatching.sends hclocked (by simp [WatchedEvent.sent?, hsent])
          (requests_foldl (fun request => recordInFlightOpen_get) sent _)
    | sendCancels sent timeSent instant =>
      show Watching _ _ (Watched.sendCancelRequests _ sent timeSent instant)
      unfold Watched.sendCancelRequests
      split
      · rename_i hempty
        exact hwatching.quiet (by simp [WatchedEvent.sent?, hempty]) rfl fun _ hrequest => hrequest
      · rename_i hsent
        exact hwatching.sends hclocked (by simp [WatchedEvent.sent?, hsent])
          (requests_foldl (fun request => recordInFlightCancel_get) sent _)
    | update after_ =>
      exact hwatching.quiet rfl rfl (hclocked.updates events after_ [] rfl)
    | check now timeNow => exact (hwatching.check hclocked).2

theorem Clocked.through {after_ : List WatchedEvent} (h : Clocked start (events ++ after_)) :
    Clocked start events := by
  induction after_ using List.reverseRecOn with
  | nil => rwa [List.append_nil] at h
  | append_singleton after_ event ih =>
    rw [← List.append_assoc] at h
    exact ih h.before

/-- Whatever the order of sends, updates and checks, a check returns one record of each request in
flight whose deadline it is the first to come at or after, and of no other. -/
theorem check_returns_first_overdue {instruments : List InstrumentOrders}
    (hnone : requests instruments = []) {before_ after_ : List WatchedEvent} {now : EngineInstant}
    {timeNow : DateTime}
    (hclocked : Clocked ⟨instruments, .new deadlines⟩ (before_ ++ .check now timeNow :: after_)) :
    let state := Watched.run ⟨instruments, .new deadlines⟩ before_
    (state.watch.check now timeNow state.instruments).1.Perm
      ((allOrders state.instruments).filterMap (firstOverdue deadlines before_ now)) := by
  intro state
  have hsplit : Clocked ⟨instruments, .new deadlines⟩
      ((before_ ++ [.check now timeNow]) ++ after_) := by
    rw [List.append_assoc]
    exact hclocked
  have hchecked := hsplit.through
  exact ((run_watching hnone hchecked.before).check hchecked).1

end

/-! An open sent at 5, unanswered at 7 and at 15, with a deadline of 10. -/

def tenth : InFlightDeadlines := ⟨[some 10], by simp⟩

def unanswered : OrderRequestOpen ExchangeIndex InstrumentIndex :=
  ⟨⟨0, 0, ⟨"strategy"⟩, ⟨"order"⟩⟩,
    { side := .buy, price := some 1, quantity := 1, kind := .limit
      timeInForce := .goodUntilCancelled false, positionId := none, reduceOnly := .no }⟩

/-- The check at 7 leaves it, and the one at 15 flags it. -/
theorem check_returns_first_overdue_open :
    let state := Watched.run ⟨[.empty], .new tenth⟩ [.sendOpens [unanswered] 0 5, .check 7 2]
    (state.watch.check 15 10 state.instruments).1.Perm [⟨unanswered.key, .open, 0, 10, 10⟩] := by
  have hclocked : Clocked ⟨[.empty], .new tenth⟩
      ([.sendOpens [unanswered] 0 5, .check 7 2] ++ [.check 15 10]) := by
    refine ⟨by decide, by decide, ?_⟩
    intro before_ instruments after_ hsplit
    have hmem : WatchedEvent.update instruments ∈
        ([.sendOpens [unanswered] 0 5, .check 7 2] ++ [.check 15 10] : List WatchedEvent) := by
      rw [hsplit]
      exact List.mem_append_right _ List.mem_cons_self
    simp at hmem
  exact check_returns_first_overdue rfl hclocked

end Rustrade
