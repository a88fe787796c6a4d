import Mathlib.Data.Prod.Lex
import Mathlib.Order.OrderIsoNat
import Rustrade.Sim.Deadlines
import Rustrade.Sim.Lossless

/-!
# No deadline is missed

Runs of a simulation's core, before its source is exhausted. Every venue stays armed, so a source
event is drawn only before every deadline that stands, and a deadline that stands is acted on at its
own instant. Between two source events a venue is woken finitely often.
-/

set_option autoImplicit false

namespace Rustrade.Sim

open Mock

variable {MarketKind Other : Type} [VenueMarketUpdate MarketKind]

/-! ## Steps -/

/-- What one step did. -/
inductive Move where
  | drained
  | popped (entry : ScheduledEvent)
  | routed (time : DateTime)
  | aside

/-- The steps of the drivers, and what they do between them: the engine is shown an event, a
snapshot is taken off the seeding, the clock is moved on, and what happened is noted. -/
inductive SimCore.Steps [DateTimeRange] [Build] [RandomStream] [DecimalScale]
    (core : SimCore MarketKind Other) : Move → SimCore MarketKind Other → Prop where
  | drain {after_ : SimCore MarketKind Other} {drain : RequestDrain}
      (hdrain : core.drainRequests = .ok (after_, drain)) : Steps core .drained after_
  | pop {after_ : SimCore MarketKind Other} {step : Step MarketKind Other} {entry : ScheduledEvent}
      (hhead : core.schedule.pending.head? = some entry) (hpop : core.pop = .ok (after_, step)) :
      Steps core (.popped entry) after_
  | route {after_ : SimCore MarketKind Other} {time : DateTime} {event : SourceEvent MarketKind Other}
      {shown : Option (SourceEvent MarketKind Other)}
      (hleads : core.leads (time, sourceClass event) = false)
      (hroute : core.routeSource time event = .ok (after_, shown)) : Steps core (.routed time) after_
  | resume {after_ : SimCore MarketKind Other} {event : SourceEvent MarketKind Other}
      (hdeferred : core.takeDeferred = some (after_, event)) : Steps core .aside after_
  | show (engine : Engine MarketKind Other) (event : Shown MarketKind Other) :
      Steps core .aside (core.showTo engine event)
  | seed (seeding : List (ExchangeIndex × AccountSnapshot)) : Steps core .aside { core with seeding }
  | clock (clock : DateTime) (sinceSource : ℕ) : Steps core .aside { core with clock, sinceSource }
  | record (happening : Happening MarketKind Other) : Steps core .aside (core.record happening)

namespace SimCore

variable {self core after_ : SimCore MarketKind Other} {exchange : ExchangeIndex}
  {entry : ScheduledEvent} {rest : List ScheduledEvent} {move : Move} {time : DateTime}

theorem new_floor (exchanges : List ExchangeIndex) (nodup : exchanges.Nodup)
    (venues : ExchangeIndex → SimVenue) (clock : DateTime) (feedbackLimit : ℕ) :
    (new exchanges nodup venues clock feedbackLimit : SimCore MarketKind Other).wakeups.floor =
      clock := by
  have hfold : ∀ (remaining : List ExchangeIndex) (armed : Wakeups × Schedule),
      (remaining.foldl (fun armed exchange =>
        armed.1.arm armed.2 exchange (venues exchange).venue) armed).1.floor = armed.1.floor := by
    intro remaining
    induction remaining with
    | nil => exact fun _ => rfl
    | cons exchange remaining ih =>
      intro armed
      rw [List.foldl_cons, ih]
      unfold Wakeups.arm
      split
      · rfl
      · split
        · rfl
        · dsimp only
          split <;> rfl
  exact hfold exchanges (Wakeups.new clock, Schedule.empty)

theorem Served.same {start : SimCore MarketKind Other} (h : start.Served exchange time after_) :
    after_.exchanges = start.exchanges ∧ after_.wakeups.floor = start.wakeups.floor ∧
      ∀ other, other ≠ exchange → after_.nextDeadline other = start.nextDeadline other := by
  obtain ⟨⟨core, hkeeps, harm⟩, -⟩ := h
  refine ⟨harm.exchanges.trans hkeeps.exchanges, ?_, fun other hne => ?_⟩
  · rw [harm.wakeups, arm_floor, hkeeps.wakeups]
  · rw [harm.venues other List.not_mem_nil]
    exact hkeeps.venues other fun hin => hne (List.mem_singleton.mp hin)

/-- Popping an entry leaves every venue's deadline but its own, which it serves at its instant. -/
theorem Pops.same (h : self.Pops entry rest after_) :
    after_.exchanges = self.exchanges ∧ after_.wakeups.floor = self.wakeups.floor ∧
      ∀ exchange, after_.nextDeadline exchange ≠ self.nextDeadline exchange →
        entry.exchange = exchange ∧ ∃ events,
          .gave exchange none (.advanceTime entry.time) events none ∈ after_.history := by
  have hserved {start : SimCore MarketKind Other}
      (hserved : start.Served entry.exchange entry.time after_)
      (hstart : ∀ other, start.nextDeadline other = self.nextDeadline other) (exchange : ExchangeIndex)
      (hne : after_.nextDeadline exchange ≠ self.nextDeadline exchange) :
      entry.exchange = exchange ∧ ∃ events,
        .gave exchange none (.advanceTime entry.time) events none ∈ after_.history := by
    by_cases heq : exchange = entry.exchange
    · subst heq
      exact ⟨rfl, hserved.gave⟩
    · exact absurd ((hserved.same.2.2 exchange heq).trans (hstart exchange)) hne
  cases h with
  | delivered hpayload hkeeps =>
    refine ⟨hkeeps.exchanges, congrArg Wakeups.floor hkeeps.wakeups, fun exchange hne => ?_⟩
    exact absurd (hkeeps.venues exchange List.not_mem_nil) hne
  | overtaken hpayload hlive hafter =>
    subst hafter
    exact ⟨rfl, rfl, fun exchange hne => absurd rfl hne⟩
  | woken hpayload hlive hstart hlisted =>
    exact ⟨hstart.same.1, hstart.same.2.1, hserved hstart fun _ => rfl⟩
  | requested hpayload hstart hlisted =>
    exact ⟨hstart.same.1, hstart.same.2.1, hserved hstart fun _ => rfl⟩

theorem Armed.aside (h : self.Armed []) (hexchanges : core.exchanges = self.exchanges)
    (hschedule : core.schedule = self.schedule) (hwakeups : core.wakeups = self.wakeups)
    (hvenues : ∀ exchange, core.nextDeadline exchange = self.nextDeadline exchange) :
    core.Armed [] := by
  refine ⟨?_, ?_, ?_, ?_, ?_, ?_⟩
  · rw [hwakeups]
    exact h.going
  · rw [hschedule]
    exact h.sorted
  · rw [hschedule, hexchanges]
    exact h.listed
  · rw [hwakeups]
    exact h.floor
  · rw [hwakeups, hschedule]
    exact h.live
  · unfold wokenAt
    rw [hwakeups, hexchanges]
    intro exchange hexchange hbut deadline hdeadline
    rw [hvenues] at hdeadline
    exact h.armed exchange hexchange hbut deadline hdeadline

/-- What is taken off the deferral is the event, and nothing else is touched. -/
theorem takeDeferred_same {event : SourceEvent MarketKind Other}
    (h : self.takeDeferred = some (after_, event)) : after_ = { self with deferred := none } := by
  unfold takeDeferred at h
  split at h
  · cases h
  · split at h
    · cases h
    · cases h
      rfl

theorem Armed.resumed (h : self.Armed []) {event : SourceEvent MarketKind Other}
    (hdeferred : self.takeDeferred = some (after_, event)) : after_.Armed [] := by
  rw [takeDeferred_same hdeferred]
  exact h.aside rfl rfl rfl fun _ => rfl

variable [DateTimeRange] [Build] [RandomStream] [DecimalScale]

theorem Steps.armed (h : self.Steps move after_) (harmed : self.Armed []) :
    after_.Armed [] ∧ after_.exchanges = self.exchanges ∧
      after_.wakeups.floor = self.wakeups.floor := by
  cases h with
  | drain hdrain =>
    have hkeeps := (drainRequests_keeps harmed.sorted).result hdrain
    exact ⟨harmed.keeps hkeeps, hkeeps.exchanges, congrArg Wakeups.floor hkeeps.wakeups⟩
  | pop hhead hpop =>
    obtain ⟨rest, hpending⟩ := List.head?_eq_some_iff.mp hhead
    have hpops := (pop_pops harmed.sorted hpending).result hpop
    exact ⟨harmed.pops hpending hpops, hpops.same.1, hpops.same.2.1⟩
  | route hleads hroute => exact (routeSource_armed harmed).result hroute
  | resume hdeferred =>
    have hsame := takeDeferred_same hdeferred
    refine ⟨harmed.resumed hdeferred, ?_, ?_⟩
    · rw [hsame]
    · rw [hsame]
  | «show» engine event => exact ⟨harmed.aside rfl rfl rfl fun _ => rfl, rfl, rfl⟩
  | seed seeding => exact ⟨harmed.aside rfl rfl rfl fun _ => rfl, rfl, rfl⟩
  | clock clock sinceSource => exact ⟨harmed.aside rfl rfl rfl fun _ => rfl, rfl, rfl⟩
  | record happening => exact ⟨harmed.aside rfl rfl rfl fun _ => rfl, rfl, rfl⟩

/-- A venue's deadline moves only where it is served, or hears of the market. -/
theorem Steps.moves (h : self.Steps move after_) (harmed : self.Armed [])
    (hne : after_.nextDeadline exchange ≠ self.nextDeadline exchange) :
    (∃ entry, move = .popped entry ∧ entry.exchange = exchange ∧ ∃ events,
      .gave exchange none (.advanceTime entry.time) events none ∈ after_.history) ∨
    ∃ time, move = .routed time := by
  cases h with
  | drain hdrain =>
    have hkeeps := (drainRequests_keeps harmed.sorted).result hdrain
    exact absurd (hkeeps.venues exchange List.not_mem_nil) hne
  | pop hhead hpop =>
    obtain ⟨rest, hpending⟩ := List.head?_eq_some_iff.mp hhead
    have hpops := (pop_pops harmed.sorted hpending).result hpop
    exact .inl ⟨_, rfl, hpops.same.2.2 exchange hne⟩
  | route hleads hroute => exact .inr ⟨_, rfl⟩
  | resume hdeferred =>
    rw [takeDeferred_same hdeferred] at hne
    exact absurd rfl hne
  | «show» engine event => exact absurd rfl hne
  | seed seeding => exact absurd rfl hne
  | clock clock sinceSource => exact absurd rfl hne
  | record happening => exact absurd rfl hne

/-- What a step takes is not past a deadline, and a source event is before it. -/
theorem Steps.by_deadline (h : self.Steps move after_) (harmed : self.Armed [])
    (hlisted : exchange ∈ self.exchanges) {deadline : DateTime}
    (hdeadline : self.nextDeadline exchange = some deadline) :
    (∀ entry, move = .popped entry → entry.time ≤ self.wokenAt deadline) ∧
      ∀ time, move = .routed time → time < self.wokenAt deadline := by
  cases h with
  | pop hhead hpop =>
    obtain ⟨rest, hpending⟩ := List.head?_eq_some_iff.mp hhead
    refine ⟨fun entry heq => ?_, fun _ heq => (by cases heq)⟩
    cases heq
    exact harmed.head_le hpending hlisted hdeadline
  | route hleads hroute =>
    refine ⟨fun _ heq => (by cases heq), fun time heq => ?_⟩
    cases heq
    exact harmed.before_deadline hleads hlisted hdeadline
  | _ => exact ⟨fun _ heq => (by cases heq), fun _ heq => (by cases heq)⟩

/-! ## How often a venue is woken -/

section

omit [DateTimeRange] [Build] [RandomStream] [DecimalScale]

instance : Decidable (core.Live entry) :=
  inferInstanceAs (Decidable (core.wakeups.queued entry.exchange = some entry.time))

/-- The instant the move wakes the venue at. -/
def wakes? (core : SimCore MarketKind Other) (exchange : ExchangeIndex) : Move → Option DateTime
  | .popped entry =>
    if entry.payload = .act .wake ∧ entry.exchange = exchange ∧ core.Live entry then some entry.time
    else none
  | _ => none

/-- How far a venue is from an instant: first what is left of the time it may be woken in, then what
is left of the time its earliest wake-up may be brought forward by. -/
def rank (core : SimCore MarketKind Other) (last bound : DateTime) (exchange : ExchangeIndex) :
    ℕ ×ₗ WithTop ℕ :=
  toLex ((last + 1 - bound).toNat, (core.wakeups.queued exchange).elim ⊤ fun queued =>
    ((queued - core.wakeups.floor).toNat : WithTop ℕ))

variable {last bound later : DateTime}

theorem rank_congr (hfloor : after_.wakeups.floor = self.wakeups.floor)
    (hqueued : after_.wakeups.queued exchange = self.wakeups.queued exchange) :
    after_.rank last bound exchange = self.rank last bound exchange := by
  unfold rank
  rw [hfloor, hqueued]

/-- Woken later, a venue is nearer. -/
theorem rank_lt_of_bound (hbound : bound < later) (hlast : bound ≤ last) :
    after_.rank last later exchange < self.rank last bound exchange := by
  refine Prod.Lex.toLex_lt_toLex.mpr (.inl ?_)
  dsimp only
  have hleft : (0 : ℤ) < last + 1 - bound := by linarith
  refine (Int.toNat_lt_toNat hleft).mpr ?_
  linarith

/-- Brought forward, its wake-up is nearer. -/
theorem rank_lt_of_queued (hfloor : after_.wakeups.floor = self.wakeups.floor) {instant : DateTime}
    (hinstant : self.wakeups.floor ≤ instant)
    (hafter : after_.wakeups.queued exchange = some instant)
    (hbefore : ∀ queued, self.wakeups.queued exchange = some queued → instant < queued) :
    after_.rank last bound exchange < self.rank last bound exchange := by
  refine Prod.Lex.toLex_lt_toLex.mpr (.inr ⟨rfl, ?_⟩)
  rw [hafter, hfloor]
  cases hqueued : self.wakeups.queued exchange with
  | none => exact WithTop.coe_lt_top _
  | some queued =>
    have hlt := hbefore queued hqueued
    have hleft : (0 : ℤ) < queued - self.wakeups.floor := by linarith
    refine WithTop.coe_lt_coe.mpr ((Int.toNat_lt_toNat hleft).mpr ?_)
    linarith

/-- Reading a deadline again leaves its venue's wake-up, or brings it forward to the deadline. -/
theorem Served.queued {start : SimCore MarketKind Other} (hgoing : start.wakeups.stopped = false)
    (h : start.Served exchange time after_) :
    (∀ other, other ≠ exchange → after_.wakeups.queued other = start.wakeups.queued other) ∧
    ((after_.wakeups.queued exchange = start.wakeups.queued exchange ∧
        after_.schedule.wakes = start.schedule.wakes) ∨
      ∃ deadline, after_.nextDeadline exchange = some deadline ∧
        after_.wakeups.queued exchange = some (start.wokenAt deadline) ∧
        ∀ queued, start.wakeups.queued exchange = some queued → start.wokenAt deadline < queued) := by
  obtain ⟨⟨core, hkeeps, harm⟩, -⟩ := h
  have hcore : core.wakeups.stopped = false := by
    rw [hkeeps.wakeups]
    exact hgoing
  rw [harm.wakeups, harm.wakes, ← hkeeps.wakeups, ← hkeeps.wakes,
    harm.venues exchange List.not_mem_nil, arm_nextDeadline]
  have hwoken : start.wokenAt = core.wokenAt := by
    unfold wokenAt
    rw [hkeeps.wakeups]
  rw [hwoken]
  obtain ⟨hsame, -⟩ | ⟨deadline, hdeadline, hearlier, hpush⟩ :=
    arm_cases hcore exchange
  · rw [hsame]
    exact ⟨fun _ _ => rfl, .inl ⟨rfl, rfl⟩⟩
  · rw [hpush]
    exact ⟨fun other hne => Function.update_of_ne hne _ _,
      .inr ⟨deadline, hdeadline, Function.update_self _ _ _, hearlier⟩⟩

theorem wakes?_popped : core.wakes? exchange (.popped entry) =
    if entry.payload = .act .wake ∧ entry.exchange = exchange ∧ core.Live entry then some entry.time
    else none := rfl

theorem wakes?_eq_some {queued : DateTime} : core.wakes? exchange move = some queued ↔
    ∃ entry, move = .popped entry ∧ entry.payload = .act .wake ∧ entry.exchange = exchange ∧
      core.wakeups.queued exchange = some queued ∧ entry.time = queued := by
  cases move with
  | popped entry =>
    rw [wakes?_popped]
    constructor
    · intro h
      obtain ⟨⟨hpayload, hexchange, hlive⟩, htime⟩ := Option.ite_none_right_eq_some.mp h
      have hsame := Option.some.inj htime
      exact ⟨entry, rfl, hpayload, hexchange, hexchange ▸ hsame ▸ hlive, hsame⟩
    · rintro ⟨_, ⟨⟩, hpayload, rfl, hqueued, rfl⟩
      exact if_pos ⟨hpayload, rfl, hqueued⟩
  | drained => simp [wakes?]
  | routed time => simp [wakes?]
  | aside => simp [wakes?]

/-- What becomes of the wake-ups: every venue comes nearer, or is as it was; and where all are as
they were, no wake-up is new, and one that was popped is gone. -/
structure Nears (before_ : SimCore MarketKind Other) (move : Move) (last : DateTime)
    (bound : ExchangeIndex → DateTime) (after_ : SimCore MarketKind Other) : Prop where
  rank : ∀ exchange,
    after_.rank last (((before_.wakes? exchange move).map (· + 1)).getD (bound exchange)) exchange ≤
      before_.rank last (bound exchange) exchange
  wakes : (∀ exchange ∈ before_.exchanges,
      after_.rank last (((before_.wakes? exchange move).map (· + 1)).getD (bound exchange)) exchange =
        before_.rank last (bound exchange) exchange) →
    after_.schedule.wakes.length ≤ before_.schedule.wakes.length ∧
      ∀ entry, move = .popped entry → entry.payload = .act .wake →
        after_.schedule.wakes.length < before_.schedule.wakes.length

variable {bounds : ExchangeIndex → DateTime}

/-- Nothing is woken, and the wake-ups are as they were. -/
theorem Nears.of_same (hqueued : after_.wakeups = self.wakeups)
    (hwakes : after_.schedule.wakes = self.schedule.wakes)
    (hnone : ∀ exchange, self.wakes? exchange move = none)
    (hmove : ∀ entry, move = .popped entry → entry.payload ≠ .act .wake) :
    self.Nears move last bounds after_ where
  rank exchange := by
    rw [hnone, Option.map_none, Option.getD_none]
    exact (rank_congr (by rw [hqueued]) (by rw [hqueued])).le
  wakes _ := by
    rw [hwakes]
    exact ⟨le_rfl, fun entry heq hpayload => absurd hpayload (hmove entry heq)⟩

theorem wakes?_of_other (hpayload : entry.payload ≠ .act .wake) :
    self.wakes? exchange (.popped entry) = none := by
  rw [wakes?_popped, if_neg fun h => hpayload h.1]

/-- What is popped is due by `last`, and no venue is woken before its bound. -/
theorem Pops.nears (h : self.Pops entry rest after_) (harmed : self.Armed [])
    (hpending : self.schedule.pending = entry :: rest) (hlast : entry.time ≤ last)
    (hbounds : ∀ exchange queued, self.wakeups.queued exchange = some queued →
      bounds exchange ≤ queued) :
    self.Nears (.popped entry) last bounds after_ := by
  cases h with
  | delivered hpayload hkeeps =>
    refine Nears.of_same hkeeps.wakeups (hkeeps.wakes.trans (wakes_of_other hpending (hpayload _)))
      (fun _ => wakes?_of_other (hpayload _)) fun _ heq => ?_
    cases heq
    exact hpayload _
  | overtaken hpayload hlive hafter =>
    subst hafter
    have hnone : ∀ exchange, self.wakes? exchange (.popped entry) = none := by
      intro exchange
      rw [wakes?_popped, if_neg fun h => hlive h.2.2]
    refine ⟨fun exchange => ?_, fun _ => ?_⟩
    · rw [hnone, Option.map_none, Option.getD_none]
      exact le_of_eq (rank_congr rfl rfl)
    · rw [wakes_of_wake hpending hpayload]
      exact ⟨Nat.le_succ _, fun _ _ _ => Nat.lt_succ_self _⟩
  | woken hpayload hlive hserved hlisted =>
    have hwoken : self.wakes? entry.exchange (.popped entry) = some entry.time :=
      wakes?_eq_some.mpr ⟨entry, rfl, hpayload, rfl, hlive, rfl⟩
    have hbound := hbounds entry.exchange entry.time hlive
    have hnearer : after_.rank last (entry.time + 1) entry.exchange <
        self.rank last (bounds entry.exchange) entry.exchange :=
      rank_lt_of_bound (by linarith) (hbound.trans hlast)
    refine ⟨fun exchange => ?_, fun hsame => ?_⟩
    · by_cases heq : exchange = entry.exchange
      · subst heq
        rw [hwoken]
        exact hnearer.le
      · have hnone : self.wakes? exchange (.popped entry) = none := by
          rw [wakes?_popped, if_neg fun h => heq h.2.1.symm]
        rw [hnone, Option.map_none, Option.getD_none]
        have hgoing : ((self.popped entry rest).freed entry.exchange).wakeups.stopped = false :=
          harmed.going
        have hqueued := (hserved.queued hgoing).1 exchange heq
        have hfreed : ((self.popped entry rest).freed entry.exchange).wakeups.queued exchange =
            self.wakeups.queued exchange := Function.update_of_ne heq _ _
        have hfloor : after_.wakeups.floor = self.wakeups.floor := hserved.same.2.1
        exact (rank_congr hfloor (hqueued.trans hfreed)).le
    · have hequal := hsame entry.exchange hlisted
      rw [hwoken] at hequal
      exact absurd hequal hnearer.ne
  | requested hpayload hserved hlisted =>
    have hnone : ∀ exchange, self.wakes? exchange (.popped entry) = none :=
      fun _ => wakes?_of_other hpayload
    have hgoing : (self.popped entry rest).wakeups.stopped = false := harmed.going
    obtain ⟨hothers, hown⟩ := hserved.queued hgoing
    have hfloor : after_.wakeups.floor = self.wakeups.floor := hserved.same.2.1
    have hrank : ∀ exchange, exchange ≠ entry.exchange →
        after_.rank last (bounds exchange) exchange = self.rank last (bounds exchange) exchange :=
      fun exchange hne => rank_congr hfloor (hothers exchange hne)
    obtain ⟨hqueued, hwakes⟩ | ⟨deadline, -, hqueued, hearlier⟩ := hown
    · refine ⟨fun exchange => ?_, fun _ => ?_⟩
      · rw [hnone, Option.map_none, Option.getD_none]
        by_cases heq : exchange = entry.exchange
        · subst heq
          exact (rank_congr hfloor hqueued).le
        · exact (hrank exchange heq).le
      · have hsame := hwakes.trans (wakes_of_other hpending hpayload)
        rw [hsame]
        exact ⟨le_rfl, fun _ heq hwake => by cases heq; exact absurd hwake hpayload⟩
    · have hnearer : after_.rank last (bounds entry.exchange) entry.exchange <
          self.rank last (bounds entry.exchange) entry.exchange :=
        rank_lt_of_queued hfloor (le_max_right _ _) hqueued hearlier
      refine ⟨fun exchange => ?_, fun hsame => ?_⟩
      · rw [hnone, Option.map_none, Option.getD_none]
        by_cases heq : exchange = entry.exchange
        · subst heq
          exact hnearer.le
        · exact (hrank exchange heq).le
      · have hequal := hsame entry.exchange hlisted
        rw [hnone, Option.map_none, Option.getD_none] at hequal
        exact absurd hequal hnearer.ne

/-- Where a venue's wake-up comes from: it was queued, and was not popped, or is at the venue's
deadline. -/
theorem Pops.queued (h : self.Pops entry rest after_) (hgoing : self.wakeups.stopped = false)
    {queued : DateTime} (hqueued : after_.wakeups.queued exchange = some queued) :
    (self.wakeups.queued exchange = some queued ∧ self.wakes? exchange (.popped entry) = none) ∨
      ∃ deadline, after_.nextDeadline exchange = some deadline ∧ deadline ≤ queued ∧
        self.wakeups.floor ≤ queued := by
  cases h with
  | delivered hpayload hkeeps =>
    rw [hkeeps.wakeups] at hqueued
    exact .inl ⟨hqueued, wakes?_of_other (hpayload _)⟩
  | overtaken hpayload hlive hafter =>
    subst hafter
    exact .inl ⟨hqueued, by rw [wakes?_popped, if_neg fun h => hlive h.2.2]⟩
  | woken hpayload hlive hserved hlisted =>
    have hfreed : ((self.popped entry rest).freed entry.exchange).wakeups.stopped = false := hgoing
    obtain ⟨hothers, hown⟩ := hserved.queued hfreed
    by_cases heq : exchange = entry.exchange
    · subst heq
      have hnone : ((self.popped entry rest).freed entry.exchange).wakeups.queued entry.exchange =
          none := Function.update_self _ _ _
      obtain ⟨hsame, -⟩ | ⟨deadline, hdeadline, hnew, -⟩ := hown
      · rw [hsame, hnone] at hqueued
        cases hqueued
      · have hinstant := Option.some.inj (hnew.symm.trans hqueued)
        rw [← hinstant]
        exact .inr ⟨deadline, hdeadline, le_max_left _ _, le_max_right _ _⟩
    · have hother := hothers exchange heq
      have hfreed : ((self.popped entry rest).freed entry.exchange).wakeups.queued exchange =
          self.wakeups.queued exchange := Function.update_of_ne heq _ _
      rw [hother, hfreed] at hqueued
      exact .inl ⟨hqueued, by rw [wakes?_popped, if_neg fun h => heq h.2.1.symm]⟩
  | requested hpayload hserved hlisted =>
    have hpopped : (self.popped entry rest).wakeups.stopped = false := hgoing
    obtain ⟨hothers, hown⟩ := hserved.queued hpopped
    by_cases heq : exchange = entry.exchange
    · subst heq
      obtain ⟨hsame, -⟩ | ⟨deadline, hdeadline, hnew, -⟩ := hown
      · exact .inl ⟨hsame.symm.trans hqueued, wakes?_of_other hpayload⟩
      · have hinstant := Option.some.inj (hnew.symm.trans hqueued)
        rw [← hinstant]
        exact .inr ⟨deadline, hdeadline, le_max_left _ _, le_max_right _ _⟩
    · exact .inl ⟨(hothers exchange heq).symm.trans hqueued, wakes?_of_other hpayload⟩

end

theorem Steps.nears {last : DateTime} (h : self.Steps move after_) (harmed : self.Armed [])
    (hquiet : ∀ time, move ≠ .routed time) (hlast : ∀ entry, move = .popped entry → entry.time ≤ last)
    {bounds : ExchangeIndex → DateTime}
    (hbounds : ∀ exchange queued, self.wakeups.queued exchange = some queued →
      bounds exchange ≤ queued) : self.Nears move last bounds after_ := by
  cases h with
  | drain hdrain =>
    have hkeeps := (drainRequests_keeps harmed.sorted).result hdrain
    exact .of_same hkeeps.wakeups hkeeps.wakes (fun _ => rfl) fun _ heq => (by cases heq)
  | pop hhead hpop =>
    obtain ⟨rest, hpending⟩ := List.head?_eq_some_iff.mp hhead
    have hpops := (pop_pops harmed.sorted hpending).result hpop
    exact hpops.nears harmed hpending (hlast _ rfl) hbounds
  | route hleads hroute => exact absurd rfl (hquiet _)
  | resume hdeferred =>
    rw [takeDeferred_same hdeferred]
    exact .of_same rfl rfl (fun _ => rfl) fun _ heq => (by cases heq)
  | «show» engine event => exact .of_same rfl rfl (fun _ => rfl) fun _ heq => (by cases heq)
  | seed seeding => exact .of_same rfl rfl (fun _ => rfl) fun _ heq => (by cases heq)
  | clock clock sinceSource => exact .of_same rfl rfl (fun _ => rfl) fun _ heq => (by cases heq)
  | record happening => exact .of_same rfl rfl (fun _ => rfl) fun _ heq => (by cases heq)

theorem Steps.queued (h : self.Steps move after_) (harmed : self.Armed [])
    (hquiet : ∀ time, move ≠ .routed time) {queued : DateTime}
    (hqueued : after_.wakeups.queued exchange = some queued) :
    (self.wakeups.queued exchange = some queued ∧ self.wakes? exchange move = none) ∨
      ∃ deadline, after_.nextDeadline exchange = some deadline ∧ deadline ≤ queued ∧
        self.wakeups.floor ≤ queued := by
  cases h with
  | drain hdrain =>
    have hkeeps := (drainRequests_keeps harmed.sorted).result hdrain
    rw [hkeeps.wakeups] at hqueued
    exact .inl ⟨hqueued, rfl⟩
  | pop hhead hpop =>
    obtain ⟨rest, hpending⟩ := List.head?_eq_some_iff.mp hhead
    exact ((pop_pops harmed.sorted hpending).result hpop).queued harmed.going hqueued
  | route hleads hroute => exact absurd rfl (hquiet _)
  | resume hdeferred =>
    rw [takeDeferred_same hdeferred] at hqueued
    exact .inl ⟨hqueued, rfl⟩
  | «show» engine event => exact .inl ⟨hqueued, rfl⟩
  | seed seeding => exact .inl ⟨hqueued, rfl⟩
  | clock clock sinceSource => exact .inl ⟨hqueued, rfl⟩
  | record happening => exact .inl ⟨hqueued, rfl⟩

end SimCore

/-! ## Runs -/

section

variable [DateTimeRange] [Build] [RandomStream] [DecimalScale]
  {cores : ℕ → SimCore MarketKind Other} {moves : ℕ → Move} {exchange : ExchangeIndex}
  {last : DateTime}

theorem armed_of_run {count : ℕ}
    (hrun : ∀ i < count, (cores i).Steps (moves i) (cores (i + 1)))
    (hstart : (cores 0).Armed []) {i : ℕ} (hi : i ≤ count) :
    (cores i).Armed [] ∧ (cores i).exchanges = (cores 0).exchanges ∧
      (cores i).wakeups.floor = (cores 0).wakeups.floor := by
  induction i with
  | zero => exact ⟨hstart, rfl, rfl⟩
  | succ i ih =>
    obtain ⟨harmed, hexchanges, hfloor⟩ := ih (by omega)
    obtain ⟨hnext, hsame, hstill⟩ := (hrun i (by omega)).armed harmed
    exact ⟨hnext, hsame.trans hexchanges, hstill.trans hfloor⟩

omit [DateTimeRange] [Build] [RandomStream] [DecimalScale] in
/-- A deadline that no longer stands was left at some step. -/
theorem exists_left {deadline : DateTime} {i k : ℕ} (hik : i ≤ k)
    (hbefore : (cores i).nextDeadline exchange = some deadline)
    (hafter : (cores k).nextDeadline exchange ≠ some deadline) :
    ∃ j, i ≤ j ∧ j < k ∧ (cores j).nextDeadline exchange = some deadline ∧
      (cores (j + 1)).nextDeadline exchange ≠ some deadline := by
  induction k, hik using Nat.le_induction with
  | base => exact absurd hbefore hafter
  | succ k hik ih =>
    by_cases hstands : (cores k).nextDeadline exchange = some deadline
    · exact ⟨k, hik, Nat.lt_succ_self k, hstands, hafter⟩
    · obtain ⟨j, hij, hjk, hleft⟩ := ih hstands
      exact ⟨j, hij, Nat.lt_succ_of_lt hjk, hleft⟩

/-- No venue is woken before this: past the latest instant it was woken at. -/
def boundAt (cores : ℕ → SimCore MarketKind Other) (moves : ℕ → Move) (exchange : ExchangeIndex) :
    ℕ → DateTime
  | 0 => (cores 0).wakeups.floor
  | i + 1 => (((cores i).wakes? exchange (moves i)).map (· + 1)).getD (boundAt cores moves exchange i)

/-- Every wake-up that moves a venue's clock leaves the venue's deadlines later. -/
def LeavesLater (cores : ℕ → SimCore MarketKind Other) (moves : ℕ → Move) : Prop :=
  ∀ i entry, moves i = .popped entry → entry.payload = .act .wake → (cores i).Live entry →
    ∀ j, i < j → ∀ deadline, (cores j).nextDeadline entry.exchange = some deadline →
      entry.time < deadline

omit [DateTimeRange] [Build] [RandomStream] [DecimalScale] in
theorem boundAt_le {i : ℕ} {instant : DateTime}
    (hfloor : (cores 0).wakeups.floor ≤ instant)
    (hdeadline : ∀ k < i, ∀ queued, (cores k).wakes? exchange (moves k) = some queued →
      queued < instant) : boundAt cores moves exchange i ≤ instant := by
  induction i with
  | zero => exact hfloor
  | succ i ih =>
    unfold boundAt
    cases hwoken : (cores i).wakes? exchange (moves i) with
    | none =>
      rw [Option.map_none, Option.getD_none]
      exact ih fun k hk => hdeadline k (Nat.lt_succ_of_lt hk)
    | some queued =>
      rw [Option.map_some, Option.getD_some]
      exact Int.add_one_le_iff.mpr (hdeadline i (Nat.lt_succ_self i) queued hwoken)

theorem boundAt_le_queued (hrun : ∀ i, (cores i).Steps (moves i) (cores (i + 1)))
    (hstart : (cores 0).Armed []) (hquiet : ∀ i time, moves i ≠ .routed time)
    (hlater : LeavesLater cores moves) (i : ℕ) (queued : DateTime)
    (hqueued : (cores i).wakeups.queued exchange = some queued) :
    boundAt cores moves exchange i ≤ queued := by
  have harmed (i : ℕ) := armed_of_run (fun k (_ : k < i) => hrun k) hstart le_rfl
  induction i with
  | zero => exact hstart.floor exchange queued hqueued
  | succ i ih =>
    obtain ⟨hold, hnone⟩ | ⟨deadline, hdeadline, hle, hfloor⟩ :=
      (hrun i).queued (harmed i).1 (hquiet i) hqueued
    · unfold boundAt
      rw [hnone, Option.map_none, Option.getD_none]
      exact ih hold
    · refine boundAt_le ((harmed i).2.2 ▸ hfloor) fun k hk woken hwoken => ?_
      obtain ⟨entry, hmove, hpayload, rfl, hlive, rfl⟩ := SimCore.wakes?_eq_some.mp hwoken
      exact (hlater k entry hmove hpayload hlive (i + 1) hk deadline hdeadline).trans_le hle

/-- Where no venue's deadline comes back to an instant it was woken at, no later than some instant
only so many wake-ups are popped. -/
theorem wakes_finite (hrun : ∀ i, (cores i).Steps (moves i) (cores (i + 1)))
    (hstart : (cores 0).Armed []) (hquiet : ∀ i time, moves i ≠ .routed time)
    (hlast : ∀ i entry, moves i = .popped entry → entry.time ≤ last)
    (hlater : LeavesLater cores moves) :
    {i | ∃ entry, moves i = .popped entry ∧ entry.payload = .act .wake}.Finite := by
  have harmed (i : ℕ) := armed_of_run (fun k (_ : k < i) => hrun k) hstart le_rfl
  have hnears (i : ℕ) : (cores i).Nears (moves i) last
      (fun exchange => boundAt cores moves exchange i) (cores (i + 1)) :=
    (hrun i).nears (harmed i).1 (hquiet i) (hlast i)
      fun exchange => boundAt_le_queued hrun hstart hquiet hlater i
  let ranks (exchange : ExchangeIndex) (i : ℕ) : ℕ ×ₗ WithTop ℕ :=
    (cores i).rank last (boundAt cores moves exchange i) exchange
  have hranks (exchange : ExchangeIndex) : ∃ settled, ∀ i ≥ settled,
      ranks exchange settled = ranks exchange i :=
    WellFoundedLT.antitone_chain_condition (antitone_nat_of_succ_le fun i => (hnears i).rank exchange)
  -- From some step on, every venue is as near as it comes.
  obtain ⟨settled, hsettled⟩ : ∃ settled, ∀ exchange ∈ (cores 0).exchanges, ∀ i ≥ settled,
      ranks exchange (i + 1) = ranks exchange i := by
    choose steady hsteady using hranks
    refine ⟨((cores 0).exchanges.map steady).sum, fun exchange hexchange i hi => ?_⟩
    have hle : steady exchange ≤ i :=
      (List.le_sum_of_mem (List.mem_map_of_mem hexchange)).trans hi
    rw [← hsteady exchange i hle, ← hsteady exchange (i + 1) (Nat.le_succ_of_le hle)]
  have hwakes (i : ℕ) := (hnears (settled + i)).wakes fun exchange hexchange =>
    hsettled exchange ((harmed _).2.1 ▸ hexchange) (settled + i) (Nat.le_add_right _ _)
  obtain ⟨emptied, hemptied⟩ := WellFoundedLT.antitone_chain_condition
    (antitone_nat_of_succ_le (f := fun i => (cores (settled + i)).schedule.wakes.length)
      fun i => (hwakes i).1)
  refine (Set.finite_lt_nat (settled + emptied)).subset ?_
  rintro i ⟨entry, hmove, hpayload⟩
  by_contra hi
  obtain ⟨more, rfl⟩ := Nat.exists_eq_add_of_le (not_lt.mp hi)
  rw [Nat.add_assoc] at hmove
  have hlt := (hwakes (emptied + more)).2 entry hmove hpayload
  have hfirst := hemptied (emptied + more) (Nat.le_add_right _ _)
  have hnext := hemptied (emptied + more + 1) (by omega)
  rw [Nat.add_assoc] at hlt
  omega

/-! ## The deadlines -/

/-- Every venue with a deadline has a wake-up in the queue that is its earliest, and due no later
than the deadline, or than the session's start where that is later. -/
def SimCore.Wakeful (core : SimCore MarketKind Other) : Prop :=
  ∀ exchange ∈ core.exchanges, ∀ deadline, core.nextDeadline exchange = some deadline →
    ∃ entry ∈ core.schedule.pending, entry.payload = .act .wake ∧ entry.exchange = exchange ∧
      core.Live entry ∧ entry.time ≤ core.wokenAt deadline

omit [DateTimeRange] [Build] [RandomStream] [DecimalScale] in
theorem SimCore.Armed.wakeful {core : SimCore MarketKind Other} (h : core.Armed []) :
    core.Wakeful := by
  intro exchange hexchange deadline hdeadline
  obtain ⟨queued, hqueued, hle⟩ := h.armed exchange hexchange List.not_mem_nil deadline hdeadline
  obtain ⟨entry, hentry, rfl, rfl⟩ := h.live exchange queued hqueued
  obtain ⟨hpending, hpayload⟩ := Schedule.mem_wakes.mp hentry
  exact ⟨entry, hpending, hpayload, rfl, hqueued, hle⟩

/-- A step a deadline is acted on at, at its own instant: its venue's clock is moved there. -/
def ActsAt (move : Move) (after_ : SimCore MarketKind Other) (exchange : ExchangeIndex)
    (instant : DateTime) : Prop :=
  ∃ entry events, move = .popped entry ∧ entry.exchange = exchange ∧ entry.time = instant ∧
    .gave exchange none (.advanceTime instant) events none ∈ after_.history

/-- A step that gives a venue something before an instant. -/
def MovesBefore (move : Move) (exchange : ExchangeIndex) (instant : DateTime) : Prop :=
  (∃ entry, move = .popped entry ∧ entry.exchange = exchange ∧ entry.time < instant) ∨
    ∃ time, move = .routed time ∧ time < instant

end

/-- Until the source is exhausted: every venue with a deadline has its earliest wake-up queued no
later than it; no step takes anything past a deadline that stands, and no source event at it; a
deadline that stands when a source event at or after it comes was acted on at its own instant before
then, unless its venue had another by then, from something earlier; a wake-up that is not its
venue's earliest does nothing; and between two source events only so many wake-ups are popped, if
each that moves a venue's clock leaves it later deadlines. -/
theorem deadlines_met [DateTimeRange] [Build] [RandomStream] [DecimalScale]
    (exchanges : List ExchangeIndex) (nodup : exchanges.Nodup) (venues : ExchangeIndex → SimVenue)
    (clock : DateTime) (feedbackLimit : ℕ) (cores : ℕ → SimCore MarketKind Other)
    (moves : ℕ → Move) (hstart : cores 0 = .new exchanges nodup venues clock feedbackLimit) :
    (∀ count, (∀ i < count, (cores i).Steps (moves i) (cores (i + 1))) →
      (∀ i ≤ count, (cores i).Wakeful ∧ (cores i).exchanges = exchanges ∧
        (cores i).wakeups.floor = clock) ∧
      (∀ i < count, ∀ exchange ∈ exchanges, ∀ deadline,
        (cores i).nextDeadline exchange = some deadline →
          (∀ entry, moves i = .popped entry → entry.time ≤ max deadline clock) ∧
          ∀ time, moves i = .routed time → time < max deadline clock) ∧
      (∀ i k, i ≤ k → k < count → ∀ exchange ∈ exchanges, ∀ deadline,
        (cores i).nextDeadline exchange = some deadline → ∀ time, moves k = .routed time →
          max deadline clock ≤ time → ∃ j, i ≤ j ∧ j < k ∧
            (cores j).nextDeadline exchange = some deadline ∧
            (cores (j + 1)).nextDeadline exchange ≠ some deadline ∧
            (ActsAt (moves j) (cores (j + 1)) exchange (max deadline clock) ∨
              MovesBefore (moves j) exchange (max deadline clock))) ∧
      ∀ i < count, ∀ entry, moves i = .popped entry → entry.payload = .act .wake →
        ¬ (cores i).Live entry → ∃ rest, (cores i).schedule.pending = entry :: rest ∧
          cores (i + 1) = (cores i).popped entry rest) ∧
    ((∀ i, (cores i).Steps (moves i) (cores (i + 1))) → ∀ start last,
      (∀ i ≥ start, ∀ time, moves i ≠ .routed time) →
      (∀ i ≥ start, ∀ entry, moves i = .popped entry → entry.time ≤ last) →
      LeavesLater (fun i => cores (start + i)) (fun i => moves (start + i)) →
      {i | start ≤ i ∧ ∃ entry, moves i = .popped entry ∧ entry.payload = .act .wake}.Finite) := by
  have hnew : (cores 0).Armed [] := by
    rw [hstart]
    exact SimCore.new_armed exchanges nodup venues clock feedbackLimit
  have hfloor : (cores 0).wakeups.floor = clock := by
    rw [hstart]
    exact SimCore.new_floor exchanges nodup venues clock feedbackLimit
  have hlisted : (cores 0).exchanges = exchanges := by
    rw [hstart]
    rfl
  refine ⟨fun count hrun => ?_, fun hrun start last hquiet hlast hlater => ?_⟩
  · have harmed {i : ℕ} (hi : i ≤ count) : (cores i).Armed [] ∧ (cores i).exchanges = exchanges ∧
        (cores i).wakeups.floor = clock := by
      rw [← hlisted, ← hfloor]
      exact armed_of_run hrun hnew hi
    have hby {i : ℕ} (hi : i < count) {exchange : ExchangeIndex} (hexchange : exchange ∈ exchanges)
        {deadline : DateTime} (hdeadline : (cores i).nextDeadline exchange = some deadline) :
        (∀ entry, moves i = .popped entry → entry.time ≤ max deadline clock) ∧
          ∀ time, moves i = .routed time → time < max deadline clock := by
      obtain ⟨hcore, hsame, hstill⟩ := harmed hi.le
      rw [← hstill]
      exact (hrun i hi).by_deadline hcore (hsame ▸ hexchange) hdeadline
    refine ⟨fun i hi => ⟨(harmed hi).1.wakeful, (harmed hi).2⟩,
      fun i hi exchange hexchange deadline => hby hi hexchange, ?_, ?_⟩
    · intro i k hik hk exchange hexchange deadline hdeadline time hmove hreached
      have hgone : (cores k).nextDeadline exchange ≠ some deadline := fun hstands =>
        absurd ((hby hk hexchange hstands).2 time hmove) (not_lt.mpr hreached)
      obtain ⟨j, hij, hjk, hstands, hleft⟩ := exists_left hik hdeadline hgone
      have hj := hjk.trans hk
      refine ⟨j, hij, hjk, hstands, hleft, ?_⟩
      have hne : (cores (j + 1)).nextDeadline exchange ≠ (cores j).nextDeadline exchange := by
        rw [hstands]
        exact hleft
      obtain ⟨entry, hpop, hexchange', events, hgave⟩ | ⟨earlier, hroute⟩ :=
        (hrun j hj).moves (harmed hj.le).1 hne
      · obtain heq | hlt := ((hby hj hexchange hstands).1 entry hpop).eq_or_lt
        · exact .inl ⟨entry, events, hpop, hexchange', heq, heq ▸ hgave⟩
        · exact .inr (.inl ⟨entry, hpop, hexchange', hlt⟩)
      · exact .inr (.inr ⟨earlier, hroute, (hby hj hexchange hstands).2 earlier hroute⟩)
    · intro i hi entry hmove hpayload hlive
      have hstep := hrun i hi
      rw [hmove] at hstep
      cases hstep with
      | pop hhead hpop =>
        obtain ⟨rest, hpending⟩ := List.head?_eq_some_iff.mp hhead
        refine ⟨rest, hpending, ?_⟩
        cases (SimCore.pop_pops (harmed hi.le).1.sorted hpending).result hpop with
        | delivered hother => exact absurd hpayload (hother _)
        | overtaken _ _ hafter => exact hafter
        | woken _ hwoken => exact absurd hwoken hlive
        | requested hother => exact absurd hpayload hother
  · have hbegun := (armed_of_run (fun k (_ : k < start) => hrun k) hnew le_rfl).1
    let onward (i : ℕ) : SimCore MarketKind Other := cores (start + i)
    let taken (i : ℕ) : Move := moves (start + i)
    have hsteps (i : ℕ) : (onward i).Steps (taken i) (onward (i + 1)) := hrun (start + i)
    have hfinite := wakes_finite hsteps hbegun
      (fun i => hquiet (start + i) (Nat.le_add_right _ _))
      (fun i => hlast (start + i) (Nat.le_add_right _ _)) hlater
    refine (hfinite.image (start + ·)).subset ?_
    rintro i ⟨hi, hwake⟩
    obtain ⟨more, rfl⟩ := Nat.exists_eq_add_of_le hi
    exact ⟨more, hwake, rfl⟩

/-- The core of a bidder's run. -/
def bidding : SimCore Unit Unit :=
  .new [0] oneVenue_nodup (fun _ => laggingVenue) 0 100

/-- A venue is sent a bid that expires, acts on it, and has a wake-up queued for its expiry. -/
theorem deadlines_met_bid :
    let _range : DateTimeRange := ⟨fun _ => true⟩
    let _build : Build := ⟨false⟩
    let _random : RandomStream := ⟨fun _ _ => 0, fun _ _ => by decide⟩
    let _scale : DecimalScale := ⟨fun _ => 0⟩
    ∃ core : SimCore Unit Unit, core.nextDeadline 0 = some 8 ∧ core.Wakeful := by
  intro _range _build _random _scale
  let engine : Engine Unit Unit := fun _ _ _ => [bid "first" (.goodTillDate 8)]
  have hrun : (bidding.showTo engine .shutdownAfterDrain).drainRequests.toOption.bind (fun drained =>
      drained.1.schedule.pending.head?.bind fun _ =>
        drained.1.pop.toOption.bind fun popped => popped.1.nextDeadline 0) = some 8 := by
    decide +kernel
  obtain ⟨⟨sent, drain⟩, hdrain, hrun⟩ := Option.bind_eq_some_iff.1 hrun
  obtain ⟨entry, hhead, hrun⟩ := Option.bind_eq_some_iff.1 hrun
  obtain ⟨⟨served, step⟩, hpop, hdeadline⟩ := Option.bind_eq_some_iff.1 hrun
  have hok {α : Type} {outcome : Except SimFault α} {a : α} (h : outcome.toOption = some a) :
      outcome = .ok a := by
    cases outcome with
    | error fault => cases h
    | ok b =>
      cases h
      rfl
  have hdrain := hok hdrain
  have hpop := hok hpop
  let cores : ℕ → SimCore Unit Unit := fun i =>
    [bidding, bidding.showTo engine .shutdownAfterDrain, sent].getD i served
  let moves : ℕ → Move := fun i => [.aside, .drained].getD i (.popped entry)
  have hsteps : ∀ i < 3, (cores i).Steps (moves i) (cores (i + 1)) := by
    intro i hi
    obtain rfl | rfl | rfl : i = 0 ∨ i = 1 ∨ i = 2 := by omega
    · exact .show engine .shutdownAfterDrain
    · exact .drain hdrain
    · exact .pop hhead hpop
  have hmet := (deadlines_met [0] (List.nodup_singleton 0) (fun _ => laggingVenue) 0 100 cores
    moves rfl).1 3 hsteps
  exact ⟨served, hdeadline, (hmet.1 3 le_rfl).1⟩

end Rustrade.Sim
