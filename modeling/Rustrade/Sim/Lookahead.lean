import Rustrade.Sim.Runner

/-!
# A run looks no further ahead than its source's next event

Two sources with the same events up to an instant, and each with one after it, are told apart only
by weighing the queue against an event that is due later: whatever is due by the instant comes
first. So the two runs are one run until either takes something due later.
-/

set_option autoImplicit false

namespace Rustrade.Sim

open Mock

variable {MarketKind Other : Type}

/-- Something due later than the instant was taken from the queue or the source. -/
def Late (instant : DateTime) (history : List (Happening MarketKind Other)) : Prop :=
  ∃ happening ∈ history, ∃ time ∈ happening.instant?, instant < time

theorem Late.mono {instant : DateTime} {history history' : List (Happening MarketKind Other)}
    (hgrown : history <+: history') (h : Late instant history) : Late instant history' := by
  obtain ⟨happening, hmem, htime⟩ := h
  exact ⟨happening, hgrown.subset hmem, htime⟩

theorem checkedOffset_gives [DateTimeRange] {time : DateTime} {offset : ℤ} :
    (checkedOffset time offset).Gives fun due => due = time + offset := by
  unfold checkedOffset
  split
  · rfl
  · exact id

theorem orPanic_gives {α : Type} {x : Except Fault α} :
    (orPanic x).Gives fun a => x = .ok a := by
  cases x with
  | ok a => rfl
  | error fault => exact id

variable [VenueMarketUpdate MarketKind]

namespace SimCore

/-! ## The history only grows -/

/-- More was between the driver and the venues, and no source event is held back or let go. -/
def Quiet (core core' : SimCore MarketKind Other) : Prop :=
  (∃ more, core'.history = core.history ++ more ∧
    ∀ happening ∈ more, Happening.isVenues happening = true) ∧
  core'.deferred = core.deferred ∧ core'.exchanges = core.exchanges ∧ core'.clock = core.clock ∧
  core'.seeding = core.seeding

variable {self core : SimCore MarketKind Other}

theorem Quiet.refl (core : SimCore MarketKind Other) : Quiet core core :=
  ⟨⟨[], (List.append_nil _).symm, fun _ h => absurd h List.not_mem_nil⟩, rfl, rfl, rfl, rfl⟩

theorem Quiet.record (h : Quiet core self) {happening : Happening MarketKind Other}
    (hvenues : happening.isVenues = true) : Quiet core (self.record happening) := by
  obtain ⟨⟨more, hhistory, hquiet⟩, hsame⟩ := h
  refine ⟨⟨more ++ [happening], ?_, ?_⟩, hsame⟩
  · show self.history ++ [happening] = core.history ++ (more ++ [happening])
    rw [hhistory, List.append_assoc]
  · intro other hother
    rcases List.mem_append.1 hother with hother | hother
    · exact hquiet other hother
    · rw [List.mem_singleton.1 hother]
      exact hvenues

theorem Quiet.grown (h : Quiet core self) : core.history <+: self.history := by
  obtain ⟨⟨more, hhistory, -⟩, -⟩ := h
  rw [hhistory]
  exact List.prefix_append _ _

variable [DateTimeRange]

theorem drainVenue_quiet {exchange : ExchangeIndex} {slot : SimVenue}
    {requests : List ExecutionRequest} {drain : RequestDrain} (h : Quiet core self) :
    (drainVenue exchange slot self drain requests).Gives fun r => Quiet core r.1 := by
  induction requests generalizing self drain with
  | nil => exact h
  | cons request requests ih =>
    apply checkedOffset_gives.bind
    intro arrives _
    match request with
    | .drain => exact ih h
    | .shutdown => exact ih h
    | .open request =>
      dsimp only
      split
      · exact id
      · exact ih (h.record rfl)
    | .cancel request =>
      dsimp only
      split
      · exact id
      · exact ih (h.record rfl)

theorem drainRequests_quiet :
    self.drainRequests.Gives fun r => Quiet self r.1 := by
  refine Except.Ensures.foldlM (fun r : SimCore MarketKind Other × RequestDrain =>
    Quiet self r.1) ?_ (Quiet.refl _) _
  rintro ⟨core, drain⟩ exchange h
  exact drainVenue_quiet h

variable [Build] [RandomStream] [DecimalScale]

omit [DateTimeRange] in
theorem advance_quiet {exchange : ExchangeIndex} {slot : SimVenue} {time delivers : DateTime} :
    (self.advance exchange slot time delivers).Gives fun r => Quiet self r.1 := by
  unfold advance
  apply orPanic_gives.bind
  rintro ⟨venue, events⟩ _
  exact (Quiet.refl _).record rfl

theorem serve_quiet {exchange : ExchangeIndex} {slot : SimVenue} {time : DateTime} {request : ℕ}
    {action : Action} :
    (self.serve exchange slot time request action).Gives
      fun r => Quiet self r.1 := by
  unfold serve
  apply checkedOffset_gives.bind
  intro delivers _
  apply advance_quiet.bind
  rintro ⟨core, venue⟩ h
  match action with
  | .open request =>
    apply orPanic_gives.bind
    rintro ⟨venue, events, response⟩ _
    exact h.record rfl
  | .cancel request =>
    apply orPanic_gives.bind
    rintro ⟨venue, events, response⟩ _
    exact h.record rfl
  | .wake => exact h

theorem act_quiet {exchange : ExchangeIndex} {time : DateTime} {request : ℕ} {action : Action} :
    (self.act exchange time request action).Gives fun r => Quiet self r.1 := by
  unfold act
  split
  · exact id
  · split
    · dsimp only
      split
      · exact serve_quiet
      · exact Quiet.refl _
    · exact serve_quiet

theorem routeVenue_quiet {event : MarketEvent InstrumentIndex MarketKind}
    {observation : MarketObservation} {ahead : Bool} {exchange : ExchangeIndex}
    (h : Quiet core self) :
    (routeVenue event observation self ahead exchange).Gives
      fun r => Quiet core r.1 := by
  unfold routeVenue
  dsimp only
  split
  · exact h
  · apply orPanic_gives.bind
    rintro ⟨venue, fills⟩ _
    dsimp only
    split
    · exact h.record rfl
    · apply checkedOffset_gives.bind
      intro delivers _
      exact h.record rfl

theorem routeMarket_quiet {event : SourceEvent MarketKind Other} :
    (self.routeMarket event).Gives fun r => Quiet self r.1 := by
  unfold routeMarket
  split
  · refine Except.Ensures.foldlM (fun r : SimCore MarketKind Other × Bool =>
      Quiet self r.1) ?_ (Quiet.refl _) _
    rintro ⟨core, ahead⟩ exchange h
    exact routeVenue_quiet h
  · exact Quiet.refl _

/-- A source event routed is to be shown, or is held back. -/
theorem routeSource_quiet {time : DateTime} {event : SourceEvent MarketKind Other} :
    (self.routeSource time event).Gives fun r => ∃ core, Quiet self core ∧
      (r = (core, some event) ∨
        r = ({ core with deferred := some ((time, sourceClass event), event) }, none)) := by
  unfold routeSource
  apply routeMarket_quiet.bind
  rintro ⟨core, ahead⟩ h
  dsimp only
  split
  · exact ⟨core, h, .inr rfl⟩
  · exact ⟨core, h, .inl rfl⟩

omit [RandomStream] [DecimalScale] in
theorem expireHeld_quiet :
    self.expireHeld.Gives fun r => Quiet self r.1 := by
  refine Except.Ensures.foldlM (fun r : SimCore MarketKind Other × Bool =>
    Quiet self r.1) ?_ (Quiet.refl _) _
  rintro ⟨core, scheduled⟩ exchange h
  unfold expireVenue
  apply orPanic_gives.bind
  rintro ⟨venue, events⟩ _
  dsimp only
  split
  · exact h.record rfl
  · apply checkedOffset_gives.bind
    intro delivers _
    exact h.record rfl

/-- Popping takes the queue's earliest entry. -/
theorem pop_history :
    self.pop.Gives fun r => self.history <+: r.1.history ∧
      ∀ entry ∈ self.schedule.pending.head?, .popped entry ∈ r.1.history := by
  unfold pop
  split
  · rename_i hempty
    refine ⟨List.prefix_rfl, ?_⟩
    rw [hempty]
    intro entry hentry
    cases hentry
  · rename_i entry rest hpending
    -- Whatever comes of it, the entry is the first thing recorded.
    have hrecorded : ∀ {history : List (Happening MarketKind Other)},
        self.history ++ [.popped entry] <+: history → self.history <+: history ∧
          ∀ entry ∈ self.schedule.pending.head?, .popped entry ∈ history := by
      intro history hgrown
      refine ⟨(List.prefix_append _ _).trans hgrown, ?_⟩
      rw [hpending]
      rintro _ ⟨⟩
      exact hgrown.subset (List.mem_append_right _ (List.mem_singleton_self _))
    dsimp only
    split
    · apply act_quiet.bind
      rintro ⟨core, woken⟩ h
      dsimp only
      split <;> exact hrecorded h.grown
    · split
      · exact id
      · split
        · exact hrecorded List.prefix_rfl
        · exact id

end SimCore

namespace SimRunner

variable {self : SimRunner MarketKind Other} {engine : Engine MarketKind Other}
  {source source' : Source (SourceEvent MarketKind Other)} {instant : DateTime}
  [DateTimeRange] [Build] [RandomStream] [DecimalScale]

theorem queueLeads_history :
    (self.queueLeads engine).Gives fun r => r.drawn = self.drawn ∧
      r.sourceDone = self.sourceDone ∧ self.core.history <+: r.core.history ∧
      ∀ entry ∈ self.core.schedule.pending.head?,
        ∃ happening ∈ r.core.history, happening.instant? = some entry.time := by
  unfold queueLeads
  split
  · rename_i next hrefused
    refine ⟨rfl, rfl, List.prefix_append _ _, ?_⟩
    intro entry hentry
    have hnext : self.core.schedule.pending.head? = some next := by
      unfold SimCore.checkFeedback at hrefused
      split at hrefused
      · cases hrefused
      · exact (Option.filter_eq_some_iff.1 hrefused).1
    rw [hnext] at hentry
    cases hentry
    exact ⟨.refused next, List.mem_append_right _ (List.mem_singleton_self _), rfl⟩
  · apply SimCore.pop_history.bind
    rintro ⟨core, step⟩ ⟨hbefore, hpopped⟩
    have hdone : ∀ {history : List (Happening MarketKind Other)}, core.history <+: history →
        self.core.history <+: history ∧ ∀ entry ∈ self.core.schedule.pending.head?,
          ∃ happening ∈ history, happening.instant? = some entry.time := by
      intro history hgrown
      refine ⟨hbefore.trans hgrown, ?_⟩
      intro entry hentry
      exact ⟨.popped entry, hgrown.subset (hpopped entry hentry), rfl⟩
    match step with
    | .emitted event => exact ⟨rfl, rfl, hdone (List.prefix_append _ _)⟩
    | .acted => exact ⟨rfl, rfl, hdone List.prefix_rfl⟩
    | .woken => exact ⟨rfl, rfl, hdone List.prefix_rfl⟩
    | .empty =>
      apply SimCore.expireHeld_quiet.bind
      rintro ⟨core, scheduled⟩ hquiet
      dsimp only
      split <;> exact ⟨rfl, rfl, hdone hquiet.grown⟩

theorem draw_history {timed : Timed (SourceEvent MarketKind Other)} :
    (self.draw engine timed).Gives fun r => r.drawn = self.drawn + 1 ∧
      r.sourceDone = self.sourceDone ∧
      self.core.history ++ [.drew timed] <+: r.core.history := by
  unfold draw
  apply SimCore.routeSource_quiet.bind
  rintro _ ⟨core, hquiet, rfl | rfl⟩
  · exact ⟨rfl, rfl, hquiet.grown.trans (List.prefix_append _ _)⟩
  · exact ⟨rfl, rfl, hquiet.grown⟩

theorem turn_history (self : SimRunner MarketKind Other) (engine : Engine MarketKind Other)
    (source : Source (SourceEvent MarketKind Other)) :
    (self.turn engine source).Gives fun r => self.core.history <+: r.core.history := by
  unfold turn
  split
  · rename_i core event hdeferred
    have hsame : core.history = self.core.history := by
      unfold SimCore.takeDeferred at hdeferred
      split at hdeferred
      · cases hdeferred
      · split at hdeferred
        · cases hdeferred
        · cases hdeferred
          rfl
    show self.core.history <+: core.history ++ [_]
    rw [hsame]
    exact List.prefix_append _ _
  · split
    · exact queueLeads_history.mono fun r h => h.2.2.1
    · split
      · split
        · exact queueLeads_history.mono fun r h => h.2.2.1
        · exact List.prefix_append _ _
      · split
        · exact List.prefix_rfl
        · split
          · exact queueLeads_history.mono fun r h => h.2.2.1
          · exact draw_history.mono fun r h => (List.prefix_append _ _).trans h.2.2

/-! ## What was drawn -/

/-- What was drawn of the source, and that it ended if the runner found it so. -/
structure Aligned (source : Source (SourceEvent MarketKind Other))
    (runner : SimRunner MarketKind Other) : Prop where
  drew : ∀ index < runner.drawn, ∃ event, source.next index = some event ∧
    .drew event ∈ runner.core.history
  done : runner.sourceDone = true → source.next runner.drawn = none

omit [DateTimeRange] [Build] [RandomStream] [DecimalScale] in
theorem Aligned.of_grown (h : Aligned source self) {r : SimRunner MarketKind Other}
    (hdrawn : r.drawn = self.drawn) (hdone : r.sourceDone = self.sourceDone)
    (hgrown : self.core.history <+: r.core.history) : Aligned source r := by
  refine ⟨?_, ?_⟩
  · intro index hindex
    obtain ⟨event, hevent, hdrew⟩ := h.drew index (hdrawn ▸ hindex)
    exact ⟨event, hevent, hgrown.subset hdrew⟩
  · intro hsourceDone
    rw [hdrawn]
    exact h.done (hdone ▸ hsourceDone)

theorem Aligned.turn (h : Aligned source self) :
    (self.turn engine source).Gives (Aligned source) := by
  have hgrown := turn_history self engine source
  unfold SimRunner.turn at hgrown ⊢
  split
  · rename_i core event hdeferred
    rw [hdeferred] at hgrown
    exact h.of_grown rfl rfl hgrown
  · split
    · exact queueLeads_history.mono fun r hr => h.of_grown hr.1 hr.2.1 hr.2.2.1
    · split
      · split
        · exact queueLeads_history.mono fun r hr => h.of_grown hr.1 hr.2.1 hr.2.2.1
        · exact h.of_grown rfl rfl (List.prefix_append _ _)
      · rename_i hnotDone
        split
        · rename_i hends
          exact ⟨h.drew, fun _ => hends⟩
        · rename_i timed hnext
          split
          · exact queueLeads_history.mono fun r hr => h.of_grown hr.1 hr.2.1 hr.2.2.1
          · refine draw_history.mono fun r ⟨hdrawn, hdone, hgrown⟩ => ⟨?_, ?_⟩
            · intro index hindex
              rw [hdrawn] at hindex
              rcases Nat.lt_succ_iff_lt_or_eq.1 hindex with hlt | rfl
              · obtain ⟨event, hevent, hdrew⟩ := h.drew index hlt
                exact ⟨event, hevent, hgrown.subset (List.mem_append_left _ hdrew)⟩
              · exact ⟨timed, hnext,
                  hgrown.subset (List.mem_append_right _ (List.mem_singleton_self _))⟩
            · intro hsourceDone
              rw [hdone] at hsourceDone
              exact absurd hsourceDone hnotDone

theorem step_history : (self.step engine source).Gives fun r =>
    self.core.history <+: r.core.history ∧ (Aligned source self → Aligned source r) := by
  unfold step
  split
  · exact ⟨List.prefix_rfl, fun h => h⟩
  · split
    · exact ⟨List.prefix_append _ _, fun h => h.of_grown rfl rfl (List.prefix_append _ _)⟩
    · apply SimCore.drainRequests_quiet.bind
      rintro ⟨core, drain⟩ hquiet
      have haligned : Aligned source self → Aligned source { self with core } :=
        fun h => h.of_grown rfl rfl hquiet.grown
      match drain with
      | .abandon =>
        exact ⟨hquiet.grown.trans (List.prefix_append _ _),
          fun h => (haligned h).of_grown rfl rfl (List.prefix_append _ _)⟩
      | .continue =>
        exact (turn_history { self with core } engine source).eq.mono fun r ⟨hgrown, hr⟩ =>
          ⟨hquiet.grown.trans hgrown, fun h => (haligned h).turn.result hr⟩

end SimRunner

/-! ## Two sources -/

/-- The sources have the same events through the instant, and each has one after it. -/
structure AgreeThrough {Event : Type} (instant : DateTime) (source source' : Source Event) :
    Prop where
  same : ∀ index event, event.time ≤ instant →
    (source.next index = some event ↔ source'.next index = some event)
  later : ∃ index event, source.next index = some event ∧ instant < event.time
  later' : ∃ index event, source'.next index = some event ∧ instant < event.time

theorem AgreeThrough.symm {Event : Type} {instant : DateTime} {source source' : Source Event}
    (h : AgreeThrough instant source source') : AgreeThrough instant source' source :=
  ⟨fun index event htime => (h.same index event htime).symm, h.later', h.later⟩

theorem Source.some_of_le {Event : Type} {source : Source Event} {index later : ℕ}
    {event : Timed Event} (h : source.next later = some event) (hle : index ≤ later) :
    ∃ event, source.next index = some event := by
  induction hle using Nat.decreasingInduction with
  | self => exact ⟨event, h⟩
  | of_succ index _ ih =>
    obtain ⟨next, hnext⟩ := ih
    by_contra hnone
    push Not at hnone
    have hended := source.ends index (Option.eq_none_iff_forall_ne_some.2 hnone)
    rw [hnext] at hended
    cases hended

/-- Both sources reach the events after the instant at the same place. -/
theorem AgreeThrough.split {Event : Type} {instant : DateTime} {source source' : Source Event}
    (h : AgreeThrough instant source source') : ∃ place,
      (∀ index < place, source'.next index = source.next index ∧
        ∃ event, source.next index = some event ∧ event.time ≤ instant) ∧
      (∃ event, source.next place = some event ∧ instant < event.time) ∧
      ∃ event, source'.next place = some event ∧ instant < event.time := by
  classical
  refine ⟨Nat.find h.later, ?_, Nat.find_spec h.later, ?_⟩
  · intro index hindex
    obtain ⟨event, hevent, -⟩ := Nat.find_spec h.later
    obtain ⟨event, hevent⟩ := Source.some_of_le hevent hindex.le
    have htime : event.time ≤ instant := by
      by_contra hlate
      exact Nat.find_min h.later hindex ⟨event, hevent, not_le.1 hlate⟩
    refine ⟨?_, event, hevent, htime⟩
    rw [hevent]
    exact (h.same index event htime).1 hevent
  · obtain ⟨first, hfirst, hlate⟩ := Nat.find_spec h.later
    obtain ⟨place, late, hplace, hlate'⟩ := h.later'
    have hle : Nat.find h.later ≤ place := by
      by_contra hlt
      -- Before the first event after the instant the sources are the same.
      obtain ⟨event, hevent⟩ := Source.some_of_le hfirst (not_le.1 hlt).le
      have htime : event.time ≤ instant := by
        by_contra hafter
        exact Nat.find_min h.later (not_le.1 hlt) ⟨event, hevent, not_le.1 hafter⟩
      have hsame := (h.same place event htime).1 hevent
      rw [hplace] at hsame
      cases hsame
      exact absurd htime (not_le.2 hlate')
    obtain ⟨event, hevent⟩ := Source.some_of_le hplace hle
    refine ⟨event, hevent, ?_⟩
    by_contra hearly
    have hsame := (h.same _ event (not_lt.1 hearly)).2 hevent
    rw [hfirst] at hsame
    cases hsame
    exact hearly hlate

theorem dueBy_of_lt {a b : Ordering} (h : a.1 < b.1) : dueBy a b = true := by
  unfold dueBy
  rw [Bool.or_eq_true, decide_eq_true_eq]
  exact .inl h

namespace SimRunner

variable {self r : SimRunner MarketKind Other} {engine : Engine MarketKind Other}
  {source source' : Source (SourceEvent MarketKind Other)} {instant : DateTime}
  [DateTimeRange] [Build] [RandomStream] [DecimalScale]

/-- A turn that takes nothing due later is the same turn over the other source. -/
theorem turn_agree (h : AgreeThrough instant source source') (haligned : Aligned source self)
    (hr : self.turn engine source = .ok r) (hearly : ¬ Late instant r.core.history) :
    self.turn engine source' = .ok r := by
  obtain ⟨place, hbefore, ⟨first, hfirst, hfirstLate⟩, ⟨first', hfirst', hfirstLate'⟩⟩ := h.split
  have hgrown := (turn_history self engine source).result hr
  have hdrawn : self.drawn ≤ place := by
    by_contra hover
    obtain ⟨event, hevent, hdrew⟩ := haligned.drew place (not_le.1 hover)
    rw [hfirst] at hevent
    cases hevent
    exact hearly ⟨_, hgrown.subset hdrew, _, rfl, hfirstLate⟩
  unfold turn at hr ⊢
  split
  · rename_i core event hdeferred
    rw [hdeferred] at hr
    exact hr
  · rename_i hdeferred
    rw [hdeferred] at hr
    dsimp only at hr
    split
    · rename_i hheld
      rw [if_pos hheld] at hr
      exact hr
    · rename_i hheld
      rw [if_neg hheld] at hr
      split
      · rename_i hdone
        rw [if_pos hdone] at hr
        exact hr
      · rename_i hdone
        rw [if_neg hdone] at hr
        rcases Nat.lt_or_eq_of_le hdrawn with hlt | heq
        · rw [(hbefore self.drawn hlt).1]
          exact hr
        · rw [heq, hfirst] at hr
          rw [heq, hfirst']
          dsimp only at hr ⊢
          -- Both wait for whatever the queue has due by the instant.
          cases hhead : self.core.schedule.pending.head? with
          | none =>
            have hleads : self.core.leads (first.time, sourceClass first.value) = false := by
              unfold SimCore.leads
              rw [hhead]
              rfl
            rw [hleads, if_neg Bool.false_ne_true] at hr
            have hdrew := (draw_history.result hr).2.2
            exact absurd ⟨_, hdrew.subset (List.mem_append_right _ (List.mem_singleton_self _)), _,
              rfl, hfirstLate⟩ hearly
          | some entry =>
            by_cases hentry : entry.time ≤ instant
            · have hleads : ∀ event : Timed (SourceEvent MarketKind Other), instant < event.time →
                  self.core.leads (event.time, sourceClass event.value) = true := by
                intro event hevent
                unfold SimCore.leads
                rw [hhead]
                exact dueBy_of_lt (hentry.trans_lt hevent)
              rw [hleads first hfirstLate] at hr
              rw [hleads first' hfirstLate']
              exact hr
            · split at hr
              · obtain ⟨happening, hmem, htime⟩ :=
                  (queueLeads_history.result hr).2.2.2 entry hhead
                exact absurd ⟨happening, hmem, entry.time, htime, not_le.1 hentry⟩ hearly
              · have hdrew := (draw_history.result hr).2.2
                exact absurd ⟨_, hdrew.subset
                  (List.mem_append_right _ (List.mem_singleton_self _)), _, rfl, hfirstLate⟩ hearly

theorem step_agree (h : AgreeThrough instant source source') (haligned : Aligned source self)
    (hr : self.step engine source = .ok r) (hearly : ¬ Late instant r.core.history) :
    self.step engine source' = .ok r := by
  unfold step at hr ⊢
  split
  · rename_i hterminated
    rw [if_pos hterminated] at hr
    exact hr
  · rename_i hrunning
    rw [if_neg hrunning] at hr
    split
    · rename_i exchange snapshot seeding hseeding
      rw [hseeding] at hr
      exact hr
    · rename_i hseeded
      rw [hseeded] at hr
      obtain ⟨⟨core, drain⟩, hdrain, hr⟩ := Except.bind_eq_ok.1 hr
      refine Except.bind_eq_ok.2 ⟨(core, drain), hdrain, ?_⟩
      match drain with
      | .abandon => exact hr
      | .continue =>
        have hquiet := SimCore.drainRequests_quiet.result hdrain
        exact turn_agree h (haligned.of_grown rfl rfl hquiet.grown) hr hearly

theorem steps_aligned (core : SimCore MarketKind Other) {count : ℕ}
    (hr : (new core).steps engine source count = .ok r) : Aligned source r := by
  induction count generalizing r with
  | zero =>
    cases hr
    exact ⟨fun _ hindex => absurd hindex (Nat.not_lt_zero _), fun hended => (by cases hended)⟩
  | succ count ih =>
    obtain ⟨mid, hmid, hstep⟩ := Except.bind_eq_ok.1 hr
    exact (step_history.result hstep).2 (ih hmid)

theorem steps_agree (h : AgreeThrough instant source source') (core : SimCore MarketKind Other)
    {count : ℕ} (hr : (new core).steps engine source count = .ok r)
    (hearly : ¬ Late instant r.core.history) :
    (new core).steps engine source' count = .ok r := by
  induction count generalizing r with
  | zero => exact hr
  | succ count ih =>
    obtain ⟨mid, hmid, hstep⟩ := Except.bind_eq_ok.1 hr
    have hearlier : ¬ Late instant mid.core.history :=
      fun hlate => hearly (hlate.mono (step_history.result hstep).1)
    exact Except.bind_eq_ok.2 ⟨mid, ih hmid hearlier,
      step_agree h (steps_aligned core hmid) hstep hearly⟩

/-- While a run has taken nothing due after the instant, the run over the other source is in the
same state: the engine was shown the same events, and each venue given the same inputs and left in
the same state. -/
theorem runs_agree_through (h : AgreeThrough instant source source')
    (core : SimCore MarketKind Other) (count : ℕ) (hearly : ¬ Late instant r.core.history) :
    (new core).steps engine source count = .ok r ↔
      (new core).steps engine source' count = .ok r :=
  ⟨fun hr => steps_agree h core hr hearly, fun hr => steps_agree h.symm core hr hearly⟩

end SimRunner

/-! A tick at 0, and then one at 7 or one at 9. -/

/-- A venue that lists nothing. -/
def idleVenue : SimVenue where
  venue := .assemble
    { mockedExchange := ⟨"idle"⟩
      initialState := ⟨⟨"idle"⟩, [], []⟩
      feeModel := .zero
      fillModel := .lastPrice
      spotFeeAsset := .quote
      slippage := .none
      marketOrderTiming := .onArrival
      staleMarket := .off
      spotMargin := none
      feeAsset := none } ∅ .marketDriven ⟨∅, .default, ∅, ∅, ∅, [], false, 0⟩ ∅ 0 ∅
  indexer := ⟨⟨fun _ => none, fun _ => none, fun error => error⟩, fun _ => true⟩
  requestRx := []
  toVenue := 0
  fromVenue := 0

def tick (time : DateTime) : Timed (SourceEvent Unit Unit) := ⟨.auxiliary (some time) (), time⟩

def ticks (time : DateTime) (h : 0 ≤ time) : Source (SourceEvent Unit Unit) :=
  .ofList [tick 0, tick time] (by simpa [tick] using h)

theorem ticks_agree : AgreeThrough 5 (ticks 7 (by decide)) (ticks 9 (by decide)) := by
  have hsame : ∀ time (h : 0 ≤ time), 5 < time → ∀ index event, event.time ≤ 5 →
      ((ticks time h).next index = some event ↔ index = 0 ∧ tick 0 = event) := by
    intro time h hlate index event htime
    match index with
    | 0 => simp [ticks, Source.ofList]
    | 1 =>
      simp only [ticks, Source.ofList, List.getElem?_cons_succ, List.getElem?_cons_zero,
        Option.some.injEq, one_ne_zero, false_and, iff_false]
      rintro rfl
      exact absurd htime (not_le.2 hlate)
    | index + 2 => simp [ticks, Source.ofList]
  refine ⟨fun index event htime => ?_, ⟨1, tick 7, rfl, by decide⟩, ⟨1, tick 9, rfl, by decide⟩⟩
  rw [hsame 7 _ (by decide) index event htime, hsame 9 _ (by decide) index event htime]

instance : VenueMarketUpdate Unit where
  State := Unit
  default := ()
  apply _ _ := ()
  snapshot _ := .default
  depth _ := .unknown
  bar _ _ := none
  fresh _ _ := true

/-- The tick both have is shown, and then both wait for a later one. -/
theorem runs_agree_through_tick :
    let _range : DateTimeRange := ⟨fun _ => true⟩
    let _build : Build := ⟨false⟩
    let _random : RandomStream := ⟨fun _ _ => 0, fun _ _ => by decide⟩
    let _scale : DecimalScale := ⟨fun _ => 0⟩
    let core : SimCore Unit Unit := .new [0] (List.nodup_singleton 0) (fun _ => idleVenue) 0 10
    let engine : Engine Unit Unit := fun _ _ _ => [.drain]
    ∃ r, (SimRunner.new core).steps engine (ticks 7 (by decide)) 2 = .ok r ∧
      (SimRunner.new core).steps engine (ticks 9 (by decide)) 2 = .ok r ∧
      r.core.history.length = 3 := by
  intro _range _build _random _scale core engine
  have hrun : ∃ r, (SimRunner.new core).steps engine (ticks 7 (by decide)) 2 = .ok r ∧
      r.core.history = [.showed (.seeding 0 idleVenue.venue.accountSnapshot), .drew (tick 0),
        .showed (.source (tick 0).value)] := ⟨_, rfl, rfl⟩
  obtain ⟨r, hr, hhistory⟩ := hrun
  have hearly : ¬ Late 5 r.core.history := by
    rw [hhistory]
    rintro ⟨happening, hmem, time, htime, hlate⟩
    simp only [List.mem_cons, List.not_mem_nil, or_false] at hmem
    rcases hmem with rfl | rfl | rfl
    · cases htime
    · cases htime
      exact absurd hlate (by decide)
    · cases htime
  refine ⟨r, hr, (SimRunner.runs_agree_through ticks_agree core 2 hearly).1 hr, ?_⟩
  rw [hhistory]
  rfl

end Rustrade.Sim
