import Rustrade.Sim.Onward
import Rustrade.Sim.Stepper

/-!
# The venues' own deadlines

While the source goes on, a venue with a deadline has a wake-up queued no later than it (`Armed`).
Nothing is popped or drawn past a deadline then, so none is missed. A wake-up overtaken by an
earlier one stays in the queue, and does nothing when it is popped.
-/

set_option autoImplicit false

namespace Rustrade.Sim

open Mock

def ScheduledEvent.isWake (entry : ScheduledEvent) : Bool := entry.payload = .act .wake

/-- The wake-ups in the queue. -/
def Schedule.wakes (schedule : Schedule) : List ScheduledEvent :=
  schedule.pending.filter ScheduledEvent.isWake

namespace Schedule

variable {self : Schedule} {time : DateTime} {class_ : ℕ} {exchange : ExchangeIndex}
  {payload : Payload}

theorem mem_wakes {entry : ScheduledEvent} :
    entry ∈ self.wakes ↔ entry ∈ self.pending ∧ entry.payload = .act .wake := by
  simp [wakes, ScheduledEvent.isWake]

/-- Queuing anything else leaves the wake-ups as they are. -/
theorem wakes_push (h : payload ≠ .act .wake) :
    (self.push time class_ exchange payload).wakes = self.wakes := by
  obtain ⟨before_, after_, hpending, hplace, -⟩ :=
    place_split ⟨time, class_, self.seq, exchange, payload⟩ self.pending
  have hpush : (self.push time class_ exchange payload).pending =
      before_ ++ ⟨time, class_, self.seq, exchange, payload⟩ :: after_ := hplace
  unfold wakes
  rw [hpush, hpending, List.filter_append, List.filter_append, List.filter_cons_of_neg]
  simpa [ScheduledEvent.isWake] using h

theorem wakes_push_wake : ((self.push time class_ exchange (.act .wake)).wakes).Perm
    (⟨time, class_, self.seq, exchange, .act .wake⟩ :: self.wakes) := by
  obtain ⟨before_, after_, hpending, hplace, -⟩ :=
    place_split ⟨time, class_, self.seq, exchange, .act .wake⟩ self.pending
  have hpush : (self.push time class_ exchange (.act .wake)).pending =
      before_ ++ ⟨time, class_, self.seq, exchange, .act .wake⟩ :: after_ := hplace
  unfold wakes
  rw [hpush, hpending, List.filter_append, List.filter_append,
    List.filter_cons_of_pos (by simp [ScheduledEvent.isWake])]
  exact List.perm_middle

theorem wakes_scheduleEvents (events : List Mock.AccountEvent) (schedule : Schedule) :
    (scheduleEvents exchange time events schedule).wakes = schedule.wakes := by
  induction events generalizing schedule with
  | nil => rfl
  | cons event events ih =>
    rw [scheduleEvents, ih, wakes_push (by simp)]

theorem sorted_scheduleEvents (events : List Mock.AccountEvent) {schedule : Schedule}
    (h : schedule.Sorted) : (scheduleEvents exchange time events schedule).Sorted := by
  induction events generalizing schedule with
  | nil => exact h
  | cons event events ih => exact ih (h.push fun _ _ => rfl)

end Schedule

variable {MarketKind Other : Type} [VenueMarketUpdate MarketKind]

namespace SimCore

variable {self core after_ : SimCore MarketKind Other} {touched : List ExchangeIndex}
  {exchange : ExchangeIndex} {time : DateTime}

def nextDeadline (core : SimCore MarketKind Other) (exchange : ExchangeIndex) : Option DateTime :=
  (core.venues exchange).venue.nextDeadline

/-- The instant a deadline is woken for: not before the session's start. -/
def wokenAt (core : SimCore MarketKind Other) (deadline : DateTime) : DateTime :=
  max deadline core.wakeups.floor

/-- A wake-up in the queue that is the venue's earliest. -/
def Live (core : SimCore MarketKind Other) (entry : ScheduledEvent) : Prop :=
  core.wakeups.queued entry.exchange = some entry.time

/-- The wake-ups are as they were, and so is any venue but some. -/
structure Keeps (before_ : SimCore MarketKind Other) (touched : List ExchangeIndex)
    (after_ : SimCore MarketKind Other) : Prop where
  history : ∃ more, after_.history = before_.history ++ more
  wakeups : after_.wakeups = before_.wakeups
  wakes : after_.schedule.wakes = before_.schedule.wakes
  sorted : after_.schedule.Sorted
  exchanges : after_.exchanges = before_.exchanges
  venues : ∀ exchange, exchange ∉ touched →
    after_.nextDeadline exchange = before_.nextDeadline exchange

namespace Keeps

theorem refl (h : self.schedule.Sorted) : self.Keeps [] self :=
  ⟨⟨[], (List.append_nil _).symm⟩, rfl, rfl, h, rfl, fun _ _ => rfl⟩

theorem record (h : self.Keeps touched core) (happening : Happening MarketKind Other) :
    self.Keeps touched (core.record happening) := by
  obtain ⟨more, hmore⟩ := h.history
  refine ⟨⟨more ++ [happening], ?_⟩, h.wakeups, h.wakes, h.sorted, h.exchanges, h.venues⟩
  unfold SimCore.record
  rw [hmore, List.append_assoc]

theorem push (h : self.Keeps touched core) (exchange : ExchangeIndex) (time : DateTime)
    (deliverable : Deliverable) :
    self.Keeps touched { core with
      schedule := core.schedule.push time CLASS_ACCOUNT exchange (.deliver deliverable) } where
  history := h.history
  wakeups := h.wakeups
  wakes := (Schedule.wakes_push (by simp)).trans h.wakes
  sorted := h.sorted.push fun _ _ => rfl
  exchanges := h.exchanges
  venues := h.venues

theorem scheduleEvents (h : self.Keeps touched core) (exchange : ExchangeIndex) (time : DateTime)
    (events : List Mock.AccountEvent) :
    self.Keeps touched { core with
      schedule := core.schedule.scheduleEvents exchange time events } where
  history := h.history
  wakeups := h.wakeups
  wakes := (Schedule.wakes_scheduleEvents events _).trans h.wakes
  sorted := Schedule.sorted_scheduleEvents events h.sorted
  exchanges := h.exchanges
  venues := h.venues

theorem request (h : self.Keeps touched core) {action : Action} (hwake : action ≠ .wake)
    (arrives : DateTime) : self.Keeps touched (core.queueRequest exchange arrives action) where
  history := (h.record _).history
  wakeups := h.wakeups
  wakes := (Schedule.wakes_push (fun heq => hwake (Payload.act.inj heq))).trans h.wakes
  sorted := h.sorted.push fun _ hpayload => (by cases hpayload)
  exchanges := h.exchanges
  venues := h.venues

theorem setVenue (h : self.Keeps touched core) (exchange : ExchangeIndex) (slot : SimVenue) :
    self.Keeps (exchange :: touched) (core.setVenue exchange slot) where
  history := h.history
  wakeups := h.wakeups
  wakes := h.wakes
  sorted := h.sorted
  exchanges := h.exchanges
  venues other hother := by
    have hne : other ≠ exchange := fun heq => hother (heq ▸ List.mem_cons_self)
    rw [← h.venues other fun hin => hother (List.mem_cons_of_mem _ hin)]
    unfold nextDeadline
    rw [setVenue_of_ne hne]

/-- A venue's requests are taken, and its deadline stays. -/
theorem setRequests (h : self.Keeps touched core) {slot : SimVenue}
    (hsame : slot.venue = (core.venues exchange).venue) :
    self.Keeps touched (core.setVenue exchange slot) where
  history := h.history
  wakeups := h.wakeups
  wakes := h.wakes
  sorted := h.sorted
  exchanges := h.exchanges
  venues other hother := by
    rw [← h.venues other hother]
    unfold nextDeadline
    by_cases heq : other = exchange
    · subst heq
      rw [setVenue_self, hsame]
    · rw [setVenue_of_ne heq]

end Keeps

/-! ## What is armed -/

/-- Every venue but some that has a deadline has a wake-up queued no later. -/
structure Armed (core : SimCore MarketKind Other) (but : List ExchangeIndex) : Prop where
  going : core.wakeups.stopped = false
  sorted : core.schedule.Sorted
  listed : ∀ entry ∈ core.schedule.wakes,
    entry.exchange ∈ core.exchanges ∧ entry.class_ = CLASS_ACTION
  floor : ∀ exchange queued, core.wakeups.queued exchange = some queued →
    core.wakeups.floor ≤ queued
  live : ∀ exchange queued, core.wakeups.queued exchange = some queued →
    ∃ entry ∈ core.schedule.wakes, entry.exchange = exchange ∧ entry.time = queued
  armed : ∀ exchange ∈ core.exchanges, exchange ∉ but → ∀ deadline,
    core.nextDeadline exchange = some deadline →
      ∃ queued, core.wakeups.queued exchange = some queued ∧ queued ≤ core.wokenAt deadline

theorem Armed.keeps {but : List ExchangeIndex} (h : self.Armed but)
    (hkeeps : self.Keeps touched core) : core.Armed (touched ++ but) where
  going := by
    rw [hkeeps.wakeups]
    exact h.going
  sorted := hkeeps.sorted
  listed := by
    rw [hkeeps.wakes, hkeeps.exchanges]
    exact h.listed
  floor := by
    rw [hkeeps.wakeups]
    exact h.floor
  live := by
    rw [hkeeps.wakeups, hkeeps.wakes]
    exact h.live
  armed exchange hexchange hbut deadline hdeadline := by
    rw [hkeeps.exchanges] at hexchange
    rw [hkeeps.venues exchange fun hin => hbut (List.mem_append_left _ hin)] at hdeadline
    unfold wokenAt
    rw [hkeeps.wakeups]
    exact h.armed exchange hexchange (fun hin => hbut (List.mem_append_right _ hin)) deadline
      hdeadline

/-- Reading a venue's deadline again queues a wake-up at it, unless one is queued no later. -/
theorem arm_cases (hgoing : core.wakeups.stopped = false) (exchange : ExchangeIndex) :
    (core.arm exchange = core ∧ ∀ deadline, core.nextDeadline exchange = some deadline →
      ∃ queued, core.wakeups.queued exchange = some queued ∧ queued ≤ core.wokenAt deadline) ∨
    ∃ deadline, core.nextDeadline exchange = some deadline ∧
      (∀ queued, core.wakeups.queued exchange = some queued → core.wokenAt deadline < queued) ∧
      core.arm exchange = { core with
        wakeups := { core.wakeups with
          queued := Function.update core.wakeups.queued exchange (some (core.wokenAt deadline)) }
        schedule := core.schedule.push (core.wokenAt deadline) CLASS_ACTION exchange
          (.act .wake) } := by
  unfold arm Wakeups.arm
  rw [if_neg (by simp [hgoing])]
  cases hdeadline : (core.venues exchange).venue.nextDeadline with
  | none =>
    left
    refine ⟨rfl, fun deadline h => ?_⟩
    unfold nextDeadline at h
    rw [hdeadline] at h
    exact absurd h (by simp)
  | some deadline =>
    by_cases hqueued : (core.wakeups.queued exchange).any fun queued =>
        queued ≤ max deadline core.wakeups.floor
    · left
      dsimp only
      rw [if_pos hqueued]
      refine ⟨rfl, fun other h => ?_⟩
      unfold nextDeadline at h
      rw [hdeadline] at h
      obtain rfl := Option.some.inj h
      obtain ⟨queued, hsome, hle⟩ := Option.any_eq_true _ _ |>.mp hqueued
      exact ⟨queued, hsome, of_decide_eq_true hle⟩
    · right
      dsimp only
      rw [if_neg hqueued]
      refine ⟨deadline, hdeadline, fun queued hsome => ?_, rfl⟩
      rw [hsome, Option.any_some, decide_eq_true_eq] at hqueued
      exact not_le.mp hqueued

theorem Armed.arm {but : List ExchangeIndex} (h : core.Armed (exchange :: but))
    (hlisted : exchange ∈ core.exchanges) : (core.arm exchange).Armed but := by
  obtain ⟨hsame, hqueued⟩ | ⟨deadline, hdeadline, hlater, harm⟩ :=
    arm_cases h.going exchange
  · rw [hsame]
    refine ⟨h.going, h.sorted, h.listed, h.floor, h.live, ?_⟩
    intro other hother hbut deadline hdeadline
    by_cases heq : other = exchange
    · subst heq
      exact hqueued deadline hdeadline
    · refine h.armed other hother (fun hin => ?_) deadline hdeadline
      obtain hfirst | hin := List.mem_cons.mp hin
      · exact heq hfirst
      · exact hbut hin
  · rw [harm]
    have hmem : ∀ entry, entry ∈ (core.schedule.push (core.wokenAt deadline) CLASS_ACTION exchange
        (.act .wake)).wakes ↔ entry = ⟨core.wokenAt deadline, CLASS_ACTION, core.schedule.seq,
          exchange, .act .wake⟩ ∨ entry ∈ core.schedule.wakes := by
      intro entry
      rw [Schedule.wakes_push_wake.mem_iff, List.mem_cons]
    refine ⟨h.going, h.sorted.push (fun _ hpayload => (by cases hpayload)), ?_, ?_, ?_, ?_⟩
    · intro entry hentry
      obtain rfl | hold := (hmem entry).mp hentry
      · exact ⟨hlisted, rfl⟩
      · exact h.listed entry hold
    · intro other queued hother
      dsimp only at hother
      by_cases heq : other = exchange
      · subst heq
        rw [Function.update_self] at hother
        rw [← Option.some.inj hother]
        exact le_max_right _ _
      · rw [Function.update_of_ne heq] at hother
        exact h.floor other queued hother
    · intro other queued hother
      dsimp only at hother
      by_cases heq : other = exchange
      · subst heq
        rw [Function.update_self] at hother
        exact ⟨_, (hmem _).mpr (.inl rfl), rfl, Option.some.inj hother⟩
      · rw [Function.update_of_ne heq] at hother
        obtain ⟨entry, hentry, hexchange, htime⟩ := h.live other queued hother
        exact ⟨entry, (hmem entry).mpr (.inr hentry), hexchange, htime⟩
    · intro other hother hbut otherDeadline hotherDeadline
      by_cases heq : other = exchange
      · subst heq
        have hsame : otherDeadline = deadline := by
          have hagain : core.nextDeadline other = some otherDeadline := hotherDeadline
          rw [hdeadline] at hagain
          exact (Option.some.inj hagain).symm
        rw [hsame]
        exact ⟨_, Function.update_self _ _ _, le_refl _⟩
      · obtain ⟨queued, hqueued, hle⟩ := h.armed other hother (fun hin => by
          obtain hfirst | hin := List.mem_cons.mp hin
          · exact heq hfirst
          · exact hbut hin) otherDeadline hotherDeadline
        exact ⟨queued, (Function.update_of_ne heq _ _).trans hqueued, hle⟩

/-! ## What the driver does -/

theorem Keeps.trans {mid : SimCore MarketKind Other} {more : List ExchangeIndex}
    (h : self.Keeps touched mid) (hnext : mid.Keeps more after_) :
    self.Keeps (more ++ touched) after_ := by
  obtain ⟨first, hfirst⟩ := h.history
  obtain ⟨next, hnextHistory⟩ := hnext.history
  refine ⟨⟨first ++ next, ?_⟩, hnext.wakeups.trans h.wakeups, hnext.wakes.trans h.wakes,
    hnext.sorted, hnext.exchanges.trans h.exchanges, ?_⟩
  · rw [hnextHistory, hfirst, List.append_assoc]
  · intro exchange hexchange
    rw [hnext.venues exchange fun hin => hexchange (List.mem_append_left _ hin)]
    exact h.venues exchange fun hin => hexchange (List.mem_append_right _ hin)

theorem arm_nextDeadline (other : ExchangeIndex) :
    (core.arm exchange).nextDeadline other = core.nextDeadline other := rfl

theorem arm_floor : (core.arm exchange).wakeups.floor = core.wakeups.floor := by
  unfold arm Wakeups.arm
  dsimp only
  split
  · rfl
  · split
    · rfl
    · split <;> rfl

theorem popped_sorted {entry : ScheduledEvent} {rest : List ScheduledEvent}
    (h : self.schedule.Sorted) (hpending : self.schedule.pending = entry :: rest) :
    (self.popped entry rest).schedule.Sorted := by
  have hpairwise := h.pairwise
  rw [hpending] at hpairwise
  have hmem : ∀ later ∈ rest, later ∈ self.schedule.pending := by
    intro later hlater
    rw [hpending]
    exact List.mem_cons_of_mem _ hlater
  exact ⟨hpairwise.tail, fun later hlater => h.fresh later (hmem later hlater),
    fun later hlater => h.account later (hmem later hlater)⟩

theorem arm_sorted (h : core.schedule.Sorted) : (core.arm exchange).schedule.Sorted := by
  unfold arm Wakeups.arm
  dsimp only
  split
  · exact h
  · split
    · exact h
    · split
      · exact h
      · exact h.push fun _ hpayload => (by cases hpayload)

variable [DateTimeRange] [Build] [RandomStream] [DecimalScale] {slot : SimVenue} {request : ℕ}
  {action : Action} {entry : ScheduledEvent} {rest : List ScheduledEvent}

/-- The venue's clock is moved to an instant, it is given what it is given, and its deadline is
read again. -/
structure Served (start : SimCore MarketKind Other) (exchange : ExchangeIndex) (time : DateTime)
    (after_ : SimCore MarketKind Other) : Prop where
  armed : ∃ core, start.Keeps [exchange] core ∧ (core.arm exchange).Keeps [] after_
  gave : ∃ events, .gave exchange none (.advanceTime time) events none ∈ after_.history

omit [DateTimeRange] [Build] [RandomStream] [DecimalScale] in
theorem Served.sorted (h : self.Served exchange time core) : core.schedule.Sorted := by
  obtain ⟨_, _, hkeeps⟩ := h.armed
  exact hkeeps.sorted

omit [DateTimeRange] [Build] [RandomStream] [DecimalScale] in
theorem Served.keeps (h : self.Served exchange time core) (hkeeps : core.Keeps [] after_) :
    self.Served exchange time after_ := by
  obtain ⟨⟨armed, hbefore, harm⟩, events, hgave⟩ := h
  obtain ⟨more, hmore⟩ := hkeeps.history
  refine ⟨⟨armed, hbefore, harm.trans hkeeps⟩, events, ?_⟩
  rw [hmore]
  exact List.mem_append_left _ hgave

omit [DateTimeRange] in
theorem advance_keeps (h : self.Keeps touched core) {delivers : DateTime} :
    (core.advance exchange slot time delivers).Gives fun r => self.Keeps touched r.1 ∧
      ∃ events, .gave exchange none (.advanceTime time) events none ∈ r.1.history := by
  unfold advance
  apply orPanic_gives.bind
  rintro ⟨venue, events⟩ _
  exact ⟨(h.record _).scheduleEvents _ _ events, events,
    List.mem_append_right _ (List.mem_singleton_self _)⟩

omit [DateTimeRange] [Build] [RandomStream] [DecimalScale] in
theorem answer_served (h : self.Keeps [] core) {input : SimulatedVenue.Input}
    {venue : SimulatedVenue} {events : List Mock.AccountEvent} {response : Deliverable}
    {delivers : DateTime} (hgave : ∃ events,
      .gave exchange none (.advanceTime time) events none ∈ core.history) :
    self.Served exchange time
      (core.answer exchange slot delivers request input venue events response) := by
  obtain ⟨advanced, hgave⟩ := hgave
  have hkeeps := (((h.record (.gave exchange (some request) input events
    (some response))).scheduleEvents exchange delivers events).push exchange delivers
      response).setVenue exchange { slot with venue }
  exact ⟨⟨_, hkeeps, Keeps.refl (arm_sorted hkeeps.sorted)⟩, advanced,
    List.mem_append_left _ hgave⟩

theorem serve_served (h : self.schedule.Sorted) :
    (self.serve exchange slot time request action).Gives
      fun r => self.Served exchange time r.1 := by
  unfold serve
  apply checkedOffset_gives.bind
  intro delivers _
  apply (advance_keeps (Keeps.refl h)).bind
  rintro ⟨core, venue⟩ ⟨hkeeps, hgave⟩
  match action with
  | .open request =>
    apply orPanic_gives.bind
    rintro ⟨venue, events, response⟩ _
    exact answer_served hkeeps hgave
  | .cancel request =>
    apply orPanic_gives.bind
    rintro ⟨venue, events, response⟩ _
    exact answer_served hkeeps hgave
  | .wake =>
    obtain ⟨events, hgave⟩ := hgave
    have hset := hkeeps.setVenue exchange { slot with venue }
    exact ⟨⟨_, hset, Keeps.refl (arm_sorted hset.sorted)⟩, events, hgave⟩

/-- A wake-up is taken from those its venue is woken by. -/
def freed (core : SimCore MarketKind Other) (exchange : ExchangeIndex) : SimCore MarketKind Other :=
  { core with wakeups :=
      { core.wakeups with queued := Function.update core.wakeups.queued exchange none } }

/-- What popping the queue's earliest entry does. -/
inductive Pops (self : SimCore MarketKind Other) (entry : ScheduledEvent)
    (rest : List ScheduledEvent) (after_ : SimCore MarketKind Other) : Prop where
  /-- The engine is owed it. -/
  | delivered (hpayload : ∀ action, entry.payload ≠ .act action)
      (hkeeps : (self.popped entry rest).Keeps [] after_)
  /-- A wake-up overtaken by an earlier one. -/
  | overtaken (hpayload : entry.payload = .act .wake) (hlive : ¬ self.Live entry)
      (hafter : after_ = self.popped entry rest)
  | woken (hpayload : entry.payload = .act .wake) (hlive : self.Live entry)
      (hserved : ((self.popped entry rest).freed entry.exchange).Served entry.exchange entry.time
        after_) (hlisted : entry.exchange ∈ self.exchanges)
  | requested (hpayload : entry.payload ≠ .act .wake)
      (hserved : (self.popped entry rest).Served entry.exchange entry.time after_)
      (hlisted : entry.exchange ∈ self.exchanges)

theorem act_cases (h : self.schedule.Sorted) :
    (self.act exchange time request action).Gives fun r =>
      (action = .wake ∧ self.wakeups.queued exchange ≠ some time ∧ r.1 = self ∧ r.2 = false) ∨
      (exchange ∈ self.exchanges ∧
        ((action = .wake ∧ self.wakeups.queued exchange = some time ∧
          (self.freed exchange).Served exchange time r.1) ∨
        (action ≠ .wake ∧ self.Served exchange time r.1))) := by
  unfold act slot?
  split
  · exact id
  · rename_i slot hslot
    split at hslot
    · rename_i hlisted
      cases hslot
      split
      · rename_i hwake
        unfold Wakeups.take
        by_cases hlive : self.wakeups.queued exchange = some time
        · rw [if_pos hlive]
          have hsorted : (self.freed exchange).schedule.Sorted := h
          exact (serve_served hsorted).mono fun r hr => .inr ⟨hlisted, .inl ⟨hwake, hlive, hr⟩⟩
        · rw [if_neg hlive]
          exact .inl ⟨hwake, hlive, rfl, rfl⟩
      · rename_i hwake
        exact (serve_served h).mono fun r hr => .inr ⟨hlisted, .inr ⟨hwake, hr⟩⟩
    · cases hslot

theorem pop_pops (h : self.schedule.Sorted) (hpending : self.schedule.pending = entry :: rest) :
    self.pop.Gives fun r => self.Pops entry rest r.1 := by
  have hsorted := popped_sorted h hpending
  unfold pop
  rw [hpending]
  dsimp only
  cases hpayload : entry.payload with
  | deliver deliverable =>
    have hother : ∀ action, entry.payload ≠ .act action := fun action heq => by
      rw [hpayload] at heq
      cases heq
    dsimp only
    split
    · exact id
    · split
      · exact .delivered hother ⟨⟨[], (List.append_nil _).symm⟩, rfl, rfl, hsorted, rfl,
          fun _ _ => rfl⟩
      · exact id
  | act action =>
    apply (act_cases hsorted).bind
    rintro ⟨core, woken⟩ hcases
    obtain ⟨hwake, hlive, hsame, hwoken⟩ | ⟨hlisted, ⟨hwake, hlive, hserved⟩ | ⟨hwake, hserved⟩⟩ :=
      hcases
    · dsimp only at hsame hwoken
      subst hwake hsame hwoken
      exact .overtaken hpayload hlive rfl
    · subst hwake
      have hkept : core.Keeps [] { core with sinceSource := 0 } :=
        ⟨⟨[], (List.append_nil _).symm⟩, rfl, rfl, hserved.sorted, rfl, fun _ _ => rfl⟩
      dsimp only
      split
      · exact .woken hpayload hlive (hserved.keeps hkept) hlisted
      · exact .woken hpayload hlive hserved hlisted
    · have hother : entry.payload ≠ .act .wake := fun heq => by
        rw [hpayload] at heq
        exact hwake (Payload.act.inj heq)
      have hkept : core.Keeps [] { core with sinceSource := 0 } :=
        ⟨⟨[], (List.append_nil _).symm⟩, rfl, rfl, hserved.sorted, rfl, fun _ _ => rfl⟩
      dsimp only
      split
      · exact .requested hother (hserved.keeps hkept) hlisted
      · exact .requested hother hserved hlisted

/-! ## Every step keeps the venues armed -/

section

omit [DateTimeRange] [Build] [RandomStream] [DecimalScale]

theorem Armed.mono {but more : List ExchangeIndex} (h : core.Armed but)
    (hmore : ∀ exchange ∈ but, exchange ∈ more) : core.Armed more where
  going := h.going
  sorted := h.sorted
  listed := h.listed
  floor := h.floor
  live := h.live
  armed exchange hexchange hbut := h.armed exchange hexchange fun hin => hbut (hmore exchange hin)

theorem Armed.served (h : self.Armed [exchange]) (hlisted : exchange ∈ self.exchanges)
    (hserved : self.Served exchange time after_) : after_.Armed [] := by
  obtain ⟨⟨core, hkeeps, harm⟩, -⟩ := hserved
  have hcore : core.Armed [exchange] := (h.keeps hkeeps).mono fun other hother => by
    simpa using hother
  have hstill : exchange ∈ core.exchanges := by
    rw [hkeeps.exchanges]
    exact hlisted
  exact (hcore.arm hstill).keeps harm

theorem wakes_of_wake (hpending : self.schedule.pending = entry :: rest)
    (hpayload : entry.payload = .act .wake) :
    self.schedule.wakes = entry :: (self.popped entry rest).schedule.wakes := by
  unfold Schedule.wakes
  rw [hpending, List.filter_cons_of_pos (by simpa [ScheduledEvent.isWake] using hpayload)]
  rfl

theorem wakes_of_other (hpending : self.schedule.pending = entry :: rest)
    (hpayload : entry.payload ≠ .act .wake) :
    (self.popped entry rest).schedule.wakes = self.schedule.wakes := by
  unfold Schedule.wakes
  rw [hpending, List.filter_cons_of_neg (by simpa [ScheduledEvent.isWake] using hpayload)]
  rfl

theorem popped_keeps (h : self.schedule.Sorted) (hpending : self.schedule.pending = entry :: rest)
    (hpayload : entry.payload ≠ .act .wake) : self.Keeps [] (self.popped entry rest) :=
  ⟨⟨_, rfl⟩, rfl, wakes_of_other hpending hpayload, popped_sorted h hpending, rfl, fun _ _ => rfl⟩

/-- A wake-up that is not its venue's earliest may go. -/
theorem Armed.overtaken (h : self.Armed []) (hpending : self.schedule.pending = entry :: rest)
    (hpayload : entry.payload = .act .wake) (hlive : ¬ self.Live entry) :
    (self.popped entry rest).Armed [] := by
  have hwakes := wakes_of_wake hpending hpayload
  refine ⟨h.going, popped_sorted h.sorted hpending, ?_, h.floor, ?_, h.armed⟩
  · intro other hother
    exact h.listed other (hwakes ▸ List.mem_cons_of_mem _ hother)
  · intro exchange queued hqueued
    obtain ⟨other, hother, hexchange, htime⟩ := h.live exchange queued hqueued
    rw [hwakes] at hother
    obtain rfl | hother := List.mem_cons.mp hother
    · exact absurd (show self.Live other by rw [Live, hexchange, htime]; exact hqueued) hlive
    · exact ⟨other, hother, hexchange, htime⟩

/-- Once its earliest goes, its venue has none until its deadline is read again. -/
theorem Armed.freed (h : self.Armed []) (hpending : self.schedule.pending = entry :: rest)
    (hpayload : entry.payload = .act .wake) :
    ((self.popped entry rest).freed entry.exchange).Armed [entry.exchange] := by
  have hwakes := wakes_of_wake hpending hpayload
  have hqueued : ∀ exchange queued,
      ((self.popped entry rest).freed entry.exchange).wakeups.queued exchange = some queued →
        exchange ≠ entry.exchange ∧ self.wakeups.queued exchange = some queued := by
    intro exchange queued hqueued
    unfold SimCore.freed at hqueued
    dsimp only at hqueued
    by_cases heq : exchange = entry.exchange
    · rw [heq, Function.update_self] at hqueued
      cases hqueued
    · rw [Function.update_of_ne heq] at hqueued
      exact ⟨heq, hqueued⟩
  refine ⟨h.going, popped_sorted h.sorted hpending, ?_, ?_, ?_, ?_⟩
  · intro other hother
    exact h.listed other (hwakes ▸ List.mem_cons_of_mem _ hother)
  · exact fun exchange queued hsome => h.floor exchange queued (hqueued exchange queued hsome).2
  · intro exchange queued hsome
    obtain ⟨hne, hsome⟩ := hqueued exchange queued hsome
    obtain ⟨other, hother, hexchange, htime⟩ := h.live exchange queued hsome
    rw [hwakes] at hother
    obtain rfl | hother := List.mem_cons.mp hother
    · exact absurd hexchange.symm hne
    · exact ⟨other, hother, hexchange, htime⟩
  · intro exchange hexchange hne deadline hdeadline
    rw [List.mem_singleton] at hne
    obtain ⟨queued, hsome, hle⟩ := h.armed exchange hexchange List.not_mem_nil deadline hdeadline
    exact ⟨queued, (Function.update_of_ne hne _ _).trans hsome, hle⟩

theorem Armed.pops (h : self.Armed []) (hpending : self.schedule.pending = entry :: rest)
    (hpops : self.Pops entry rest after_) : after_.Armed [] := by
  have hweaken {core : SimCore MarketKind Other} {exchange : ExchangeIndex} (hcore : core.Armed []) :
      core.Armed [exchange] := hcore.mono fun _ hin => absurd hin List.not_mem_nil
  cases hpops with
  | delivered hpayload hkeeps =>
    exact (h.keeps (popped_keeps h.sorted hpending (hpayload .wake))).keeps hkeeps
  | overtaken hpayload hlive hafter =>
    rw [hafter]
    exact h.overtaken hpending hpayload hlive
  | woken hpayload hlive hserved hlisted =>
    exact (h.freed hpending hpayload).served hlisted hserved
  | requested hpayload hserved hlisted =>
    exact (hweaken (h.keeps (popped_keeps h.sorted hpending hpayload))).served hlisted hserved

end

theorem routeVenue_armed {event : MarketEvent InstrumentIndex MarketKind}
    {observation : MarketObservation} {ahead : Bool} (h : core.Armed [])
    (hlisted : exchange ∈ core.exchanges) :
    (core.routeVenue event observation ahead exchange).Gives fun r =>
      r.1.Armed [] ∧ r.1.exchanges = core.exchanges ∧
        r.1.wakeups.floor = core.wakeups.floor := by
  unfold routeVenue
  dsimp only
  split
  · exact ⟨h, rfl, rfl⟩
  · apply orPanic_gives.bind
    rename_i name _
    rintro ⟨venue, fills⟩ _
    have hkeeps := ((Keeps.refl h.sorted).record (.gave exchange none
      (.applyMarket name observation event.timeExchange) fills none)).setVenue
        exchange { core.venues exchange with venue }
    have harmed := (h.keeps hkeeps).arm hlisted
    dsimp only
    split
    · exact ⟨harmed, rfl, arm_floor⟩
    · apply checkedOffset_gives.bind
      intro delivers _
      have hfills := (Keeps.refl harmed.sorted).scheduleEvents exchange delivers fills
      exact ⟨harmed.keeps hfills, rfl, arm_floor⟩

/-- A source event leaves every venue armed. -/
theorem routeSource_armed {event : SourceEvent MarketKind Other} (h : self.Armed []) :
    (self.routeSource time event).Gives fun r =>
      r.1.Armed [] ∧ r.1.exchanges = self.exchanges ∧
        r.1.wakeups.floor = self.wakeups.floor := by
  have hmarket : (SimCore.routeMarket { self with sinceSource := 0 } event).Gives fun r =>
      r.1.Armed [] ∧ r.1.exchanges = self.exchanges ∧
        r.1.wakeups.floor = self.wakeups.floor := by
    unfold routeMarket
    split
    · refine (Except.Ensures.foldlM_rest (fun (r : SimCore MarketKind Other × Bool) remaining =>
        (r.1.Armed [] ∧ r.1.exchanges = self.exchanges ∧
          r.1.wakeups.floor = self.wakeups.floor) ∧
            ∀ exchange ∈ remaining, exchange ∈ self.exchanges) ?_ ?_).mono fun r hr => hr.1
      · intro ⟨core, ahead⟩ exchange remaining ⟨⟨harmed, hexchanges, hfloor⟩, hlisted⟩
        have hin : exchange ∈ core.exchanges := by
          rw [hexchanges]
          exact hlisted exchange List.mem_cons_self
        refine (routeVenue_armed harmed hin).mono fun r ⟨hr, hsame, hstart⟩ => ⟨⟨hr, ?_, ?_⟩, ?_⟩
        · exact hsame.trans hexchanges
        · exact hstart.trans hfloor
        · exact fun other hother => hlisted other (List.mem_cons_of_mem _ hother)
      · exact ⟨⟨⟨h.going, h.sorted, h.listed, h.floor, h.live, h.armed⟩, rfl, rfl⟩,
          fun _ hexchange => hexchange⟩
    · exact ⟨⟨h.going, h.sorted, h.listed, h.floor, h.live, h.armed⟩, rfl, rfl⟩
  unfold routeSource
  apply hmarket.bind
  rintro ⟨core, ahead⟩ ⟨harmed, hexchanges, hfloor⟩
  dsimp only
  split
  · exact ⟨⟨harmed.going, harmed.sorted, harmed.listed, harmed.floor, harmed.live, harmed.armed⟩,
      hexchanges, hfloor⟩
  · exact ⟨harmed, hexchanges, hfloor⟩

omit [Build] [RandomStream] [DecimalScale] in
theorem drainVenue_keeps {requests : List ExecutionRequest} {drain : RequestDrain}
    (h : self.Keeps [] core) : (drainVenue exchange slot core drain requests).Gives fun r =>
      self.Keeps [] r.1 := by
  induction requests generalizing core drain with
  | nil => exact h
  | cons request requests ih =>
    apply checkedOffset_gives.bind
    intro arrives _
    match request with
    | .drain => exact ih h
    | .shutdown => exact ih h
    | .open request =>
      dsimp only
      split
      · exact id
      · exact ih (h.request (by simp) arrives)
    | .cancel request =>
      dsimp only
      split
      · exact id
      · exact ih (h.request (by simp) arrives)

omit [Build] [RandomStream] [DecimalScale] in
theorem drainRequests_keeps (h : self.schedule.Sorted) :
    self.drainRequests.Gives fun r => self.Keeps [] r.1 := by
  refine Except.Ensures.foldlM (fun r : SimCore MarketKind Other × RequestDrain =>
    self.Keeps [] r.1) ?_ ?_ _
  · intro ⟨core, drain⟩ exchange hkeeps
    exact drainVenue_keeps (hkeeps.setRequests rfl)
  · exact Keeps.refl h

section

omit [DateTimeRange] [Build] [RandomStream] [DecimalScale]

/-- The venues armed one by one. -/
theorem Armed.each {venues : ExchangeIndex → SimVenue}
    {step : Wakeups × Schedule → ExchangeIndex → Wakeups × Schedule}
    (hstep : ∀ armed exchange,
      step armed exchange = armed.1.arm armed.2 exchange (venues exchange).venue)
    {remaining : List ExchangeIndex} (h : core.Armed remaining) (hvenues : core.venues = venues)
    (hlisted : ∀ exchange ∈ remaining, exchange ∈ core.exchanges) :
    SimCore.Armed { core with
      wakeups := (remaining.foldl step (core.wakeups, core.schedule)).1
      schedule := (remaining.foldl step (core.wakeups, core.schedule)).2 } [] := by
  induction remaining generalizing core with
  | nil => exact h
  | cons exchange remaining ih =>
    have harm := h.arm (hlisted exchange List.mem_cons_self)
    have hnext := ih harm hvenues fun other hother => hlisted other (List.mem_cons_of_mem _ hother)
    have hsame : ((core.arm exchange).wakeups, (core.arm exchange).schedule) =
        step (core.wakeups, core.schedule) exchange := by
      rw [hstep, ← hvenues]
      rfl
    rw [hsame] at hnext
    exact hnext

/-- Every venue with a deadline is armed at the start. -/
theorem new_armed (exchanges : List ExchangeIndex) (nodup : exchanges.Nodup)
    (venues : ExchangeIndex → SimVenue) (clock : DateTime) (feedbackLimit : ℕ) :
    (new exchanges nodup venues clock feedbackLimit : SimCore MarketKind Other).Armed [] := by
  have hstart : SimCore.Armed
      { (new exchanges nodup venues clock feedbackLimit : SimCore MarketKind Other) with
        schedule := .empty
        wakeups := .new clock } exchanges :=
    ⟨rfl, Schedule.sorted_empty, fun _ h => absurd h List.not_mem_nil, fun _ _ h => (by cases h),
      fun _ _ h => (by cases h), fun exchange hin hout => absurd hin hout⟩
  exact Armed.each (fun _ _ => rfl) hstart rfl fun _ h => h

/-- Nothing at the head of the queue is past a deadline. -/
theorem Armed.head_le (h : self.Armed []) (hpending : self.schedule.pending = entry :: rest)
    (hlisted : exchange ∈ self.exchanges) {deadline : DateTime}
    (hdeadline : self.nextDeadline exchange = some deadline) :
    entry.time ≤ self.wokenAt deadline := by
  obtain ⟨queued, hqueued, hle⟩ := h.armed exchange hlisted List.not_mem_nil deadline hdeadline
  obtain ⟨wake, hwake, -, htime⟩ := h.live exchange queued hqueued
  rw [← htime] at hle
  exact (due_of_head h.sorted hpending wake (Schedule.mem_wakes.mp hwake).1).trans hle

/-- A source event the queue does not lead is before every deadline. -/
theorem Armed.before_deadline (h : self.Armed []) {class_ : ℕ}
    (hleads : self.leads (time, class_) = false) (hlisted : exchange ∈ self.exchanges)
    {deadline : DateTime} (hdeadline : self.nextDeadline exchange = some deadline) :
    time < self.wokenAt deadline := by
  obtain ⟨queued, hqueued, hle⟩ := h.armed exchange hlisted List.not_mem_nil deadline hdeadline
  obtain ⟨wake, hwake, -, htime⟩ := h.live exchange queued hqueued
  have hclass := (h.listed wake hwake).2
  have hin := (Schedule.mem_wakes.mp hwake).1
  have hpairwise := h.sorted.pairwise
  unfold leads at hleads
  cases hpending : self.schedule.pending with
  | nil =>
    rw [hpending] at hin
    exact absurd hin List.not_mem_nil
  | cons entry rest =>
    rw [hpending] at hin hpairwise hleads
    simp only [List.head?_cons, Option.any_some, Sim.dueBy, ScheduledEvent.ordering, Bool.or_eq_false_iff,
      Bool.and_eq_false_iff] at hleads
    obtain ⟨hafter, hsame⟩ := hleads
    have hlast : wake = entry ∨ entry.time < wake.time ∨
        (entry.time = wake.time ∧ entry.class_ ≤ wake.class_) := by
      obtain rfl | hlater := List.mem_cons.mp hin
      · exact .inl rfl
      · obtain hlt | ⟨heq, hlt | ⟨hclasses, -⟩⟩ :=
          ScheduledEvent.before_iff.mp (List.rel_of_pairwise_cons hpairwise hlater)
        · exact .inr (.inl hlt)
        · exact .inr (.inr ⟨heq, hlt.le⟩)
        · exact .inr (.inr ⟨heq, hclasses.le⟩)
    -- A wake-up's class is the first of its instant.
    have hfirst : CLASS_ACTION = 0 := rfl
    obtain rfl | hlt | ⟨heq, hclasses⟩ := hlast
    · grind
    · grind
    · grind

end

end SimCore

end Rustrade.Sim
