import Rustrade.Sim.Runner

/-!
# What the queue owes

The queue is sorted by its entries' keys, no two of which are the same, and what it owes the engine
on behalf of one venue is in the order the venue gave it, as long as each answer is due no earlier
than those the queue holds already (`InOrder`).
-/

set_option autoImplicit false

namespace Rustrade.Sim

open Mock

namespace ScheduledEvent

variable {a b c : ScheduledEvent}

theorem before_iff : a.before b = true ↔ a.time < b.time ∨ (a.time = b.time ∧
    (a.class_ < b.class_ ∨ (a.class_ = b.class_ ∧ a.seq < b.seq))) := by
  unfold before
  simp only [Bool.or_eq_true, Bool.and_eq_true, decide_eq_true_eq]

theorem before_trans (hab : a.before b = true) (hbc : b.before c = true) : a.before c = true := by
  rw [before_iff] at *
  grind

/-- Of two entries with different numbers, one is before the other. -/
theorem before_of_not_before (h : a.before b ≠ true) (hseq : a.seq ≠ b.seq) :
    b.before a = true := by
  rw [ne_eq, before_iff] at h
  rw [before_iff]
  grind

end ScheduledEvent

/-- What an entry owes the engine on behalf of a venue. -/
def ScheduledEvent.owes? (exchange : ExchangeIndex) (entry : ScheduledEvent) : Option Deliverable :=
  match entry.payload with
  | .deliver deliverable => if entry.exchange = exchange then some deliverable else none
  | .act _ => none

/-- The request an entry is, with the place it was given. -/
def ScheduledEvent.request? (entry : ScheduledEvent) : Option (ExchangeIndex × ℕ × Action) :=
  match entry.payload with
  | .act .wake => none
  | .act action => some (entry.exchange, entry.seq, action)
  | .deliver _ => none

namespace Schedule

/-- What the queue owes the engine on behalf of a venue, in order. -/
def owed (self : Schedule) (exchange : ExchangeIndex) : List Deliverable :=
  self.pending.filterMap (ScheduledEvent.owes? exchange)

/-- The requests yet to be acted on. -/
def waiting (self : Schedule) : List (ExchangeIndex × ℕ × Action) :=
  self.pending.filterMap ScheduledEvent.request?

structure Sorted (schedule : Schedule) : Prop where
  pairwise : schedule.pending.Pairwise fun a b => a.before b = true
  fresh : ∀ entry ∈ schedule.pending, entry.seq < schedule.seq
  account : ∀ entry ∈ schedule.pending, ∀ deliverable, entry.payload = .deliver deliverable →
    entry.class_ = CLASS_ACCOUNT

/-- Nothing is owed on behalf of the venue later than `due`. -/
def InOrder (self : Schedule) (exchange : ExchangeIndex) (due : DateTime) : Prop :=
  ∀ entry ∈ self.pending, (entry.owes? exchange).isSome → entry.time ≤ due

variable {self : Schedule} {entry : ScheduledEvent} {exchange other : ExchangeIndex}
  {time due : DateTime} {class_ : ℕ} {payload : Payload}

theorem sorted_empty : empty.Sorted :=
  ⟨List.Pairwise.nil, fun _ h => absurd h List.not_mem_nil, fun _ h => absurd h List.not_mem_nil⟩

/-- Where an entry is placed. -/
theorem place_split (entry : ScheduledEvent) (pending : List ScheduledEvent) : ∃ before_ after_,
    pending = before_ ++ after_ ∧ place entry pending = before_ ++ entry :: after_ ∧
    (∀ other ∈ before_, entry.before other ≠ true) ∧
    ∀ other ∈ after_.head?, entry.before other = true := by
  induction pending with
  | nil => exact ⟨[], [], rfl, rfl, fun _ h => absurd h List.not_mem_nil, fun _ h => (by cases h)⟩
  | cons next rest ih =>
    unfold place
    split
    · rename_i hbefore
      refine ⟨[], next :: rest, rfl, rfl, fun _ h => absurd h List.not_mem_nil, ?_⟩
      rintro _ ⟨⟩
      exact hbefore
    · rename_i hbefore
      obtain ⟨before_, after_, hpending, hplace, hafter, hhead⟩ := ih
      refine ⟨next :: before_, after_, ?_, ?_, ?_, hhead⟩
      · rw [hpending, List.cons_append]
      · rw [hplace, List.cons_append]
      · intro other hother
        rcases List.mem_cons.1 hother with rfl | hother
        · exact hbefore
        · exact hafter other hother

theorem mem_push : entry ∈ (self.push time class_ exchange payload).pending ↔
    entry = ⟨time, class_, self.seq, exchange, payload⟩ ∨ entry ∈ self.pending := by
  obtain ⟨before_, after_, hpending, hplace, -⟩ :=
    place_split ⟨time, class_, self.seq, exchange, payload⟩ self.pending
  show entry ∈ place _ _ ↔ _
  rw [hplace, hpending, List.mem_append, List.mem_append, List.mem_cons]
  tauto

/-- Where an entry is placed in a sorted queue. -/
theorem Sorted.push_split (h : self.Sorted) (time : DateTime) (class_ : ℕ)
    (exchange : ExchangeIndex) (payload : Payload) : ∃ before_ after_,
    self.pending = before_ ++ after_ ∧
    (self.push time class_ exchange payload).pending =
      before_ ++ ⟨time, class_, self.seq, exchange, payload⟩ :: after_ ∧
    (∀ other ∈ before_, other.before ⟨time, class_, self.seq, exchange, payload⟩ = true) ∧
    ∀ other ∈ after_,
      ScheduledEvent.before ⟨time, class_, self.seq, exchange, payload⟩ other = true := by
  obtain ⟨before_, after_, hpending, hplace, hbefore, hhead⟩ :=
    place_split ⟨time, class_, self.seq, exchange, payload⟩ self.pending
  refine ⟨before_, after_, hpending, hplace, ?_, ?_⟩
  · intro other hother
    have hmem : other ∈ self.pending := by
      rw [hpending]
      exact List.mem_append_left _ hother
    exact ScheduledEvent.before_of_not_before (hbefore other hother) (h.fresh other hmem).ne'
  · intro other hother
    have hpairwise := h.pairwise
    rw [hpending] at hpairwise
    match after_ with
    | [] => cases hother
    | first :: rest =>
      have hfirst := hhead first rfl
      rcases List.mem_cons.1 hother with rfl | hother
      · exact hfirst
      · have hrest := (List.pairwise_append.1 hpairwise).2.1
        exact ScheduledEvent.before_trans hfirst (List.rel_of_pairwise_cons hrest hother)

theorem Sorted.push (h : self.Sorted)
    (hclass : ∀ deliverable, payload = .deliver deliverable → class_ = CLASS_ACCOUNT) :
    (self.push time class_ exchange payload).Sorted := by
  obtain ⟨before_, after_, hpending, hpush, hbefore, hafter⟩ :=
    h.push_split time class_ exchange payload
  refine ⟨?_, ?_, ?_⟩
  · have hpairwise := h.pairwise
    rw [hpending, List.pairwise_append] at hpairwise
    obtain ⟨hfirst, hlast, hacross⟩ := hpairwise
    rw [hpush, List.pairwise_append]
    refine ⟨hfirst, List.pairwise_cons.2 ⟨hafter, hlast⟩, ?_⟩
    intro a ha b hb
    rcases List.mem_cons.1 hb with rfl | hb
    · exact hbefore a ha
    · exact hacross a ha b hb
  · intro entry hentry
    rcases mem_push.1 hentry with rfl | hold
    · exact Nat.lt_succ_self _
    · exact Nat.lt_succ_of_lt (h.fresh entry hold)
  · intro entry hentry deliverable hpayload
    rcases mem_push.1 hentry with rfl | hold
    · exact hclass deliverable hpayload
    · exact h.account entry hold deliverable hpayload

theorem owed_push_act (h : self.Sorted) (action : Action) :
    (self.push time class_ other (.act action)).owed exchange = self.owed exchange := by
  obtain ⟨before_, after_, hpending, hpush, -, -⟩ := h.push_split time class_ other (.act action)
  unfold owed
  rw [hpush, hpending, List.filterMap_append, List.filterMap_append]
  rfl

theorem owed_push_ne (h : self.Sorted) {deliverable : Deliverable} (hne : other ≠ exchange) :
    (self.push time class_ other (.deliver deliverable)).owed exchange = self.owed exchange := by
  obtain ⟨before_, after_, hpending, hpush, -, -⟩ :=
    h.push_split time class_ other (.deliver deliverable)
  have hnone : ScheduledEvent.owes? exchange
      ⟨time, class_, self.seq, other, .deliver deliverable⟩ = none := if_neg hne
  unfold owed
  rw [hpush, hpending, List.filterMap_append, List.filterMap_append, List.filterMap_cons_none hnone]

/-- What is due no earlier than the rest goes to the end of what is owed. -/
theorem owed_push (h : self.Sorted) {deliverable : Deliverable} (horder : self.InOrder exchange time) :
    (self.push time CLASS_ACCOUNT exchange (.deliver deliverable)).owed exchange =
      self.owed exchange ++ [deliverable] := by
  obtain ⟨before_, after_, hpending, hpush, -, hafter⟩ :=
    h.push_split time CLASS_ACCOUNT exchange (.deliver deliverable)
  have hsome : ScheduledEvent.owes? exchange
      ⟨time, CLASS_ACCOUNT, self.seq, exchange, .deliver deliverable⟩ = some deliverable :=
    if_pos rfl
  have hnone : after_.filterMap (ScheduledEvent.owes? exchange) = [] := by
    rw [List.filterMap_eq_nil_iff]
    intro later hlater
    by_contra howes
    obtain ⟨owes, howes⟩ := Option.ne_none_iff_exists'.1 howes
    have hmem : later ∈ self.pending := by
      rw [hpending]
      exact List.mem_append_right _ hlater
    have hdue := horder later hmem (by rw [howes]; rfl)
    have hclass : later.class_ = CLASS_ACCOUNT := by
      unfold ScheduledEvent.owes? at howes
      split at howes
      · rename_i payload hpayload
        exact h.account later hmem _ hpayload
      · cases howes
    have hfresh := h.fresh later hmem
    have hbefore := ScheduledEvent.before_iff.1 (hafter later hlater)
    rw [hclass] at hbefore
    rcases hbefore with hlate | ⟨-, hlate | ⟨-, hlate⟩⟩
    · exact absurd hdue (not_le.2 hlate)
    · exact absurd hlate (lt_irrefl _)
    · exact absurd hfresh (not_lt.2 hlate.le)
  unfold owed
  rw [hpush, hpending, List.filterMap_append, List.filterMap_append, List.filterMap_cons_some hsome,
    hnone, List.append_nil]

theorem inOrder_push (h : self.Sorted) (horder : self.InOrder exchange due)
    (hpushed : ∀ deliverable, payload = .deliver deliverable → other = exchange → time ≤ due) :
    (self.push time class_ other payload).InOrder exchange due := by
  obtain ⟨before_, after_, hpending, hpush, -, -⟩ := h.push_split time class_ other payload
  intro entry hentry howes
  rw [hpush] at hentry
  rcases List.mem_append.1 hentry with hentry | hentry
  · exact horder entry (by rw [hpending]; exact List.mem_append_left _ hentry) howes
  · rcases List.mem_cons.1 hentry with rfl | hentry
    · match payload with
      | .act action => cases howes
      | .deliver deliverable =>
        refine hpushed deliverable rfl ?_
        by_contra hne
        have hnone : ScheduledEvent.owes? exchange
            ⟨time, class_, self.seq, other, .deliver deliverable⟩ = none := if_neg hne
        rw [hnone] at howes
        cases howes
    · exact horder entry (by rw [hpending]; exact List.mem_append_right _ hentry) howes

theorem waiting_push_deliver (h : self.Sorted) {deliverable : Deliverable} :
    (self.push time class_ other (.deliver deliverable)).waiting = self.waiting := by
  obtain ⟨before_, after_, hpending, hpush, -, -⟩ :=
    h.push_split time class_ other (.deliver deliverable)
  unfold waiting
  rw [hpush, hpending, List.filterMap_append, List.filterMap_append]
  rfl

theorem waiting_push_wake (h : self.Sorted) :
    (self.push time class_ other (.act .wake)).waiting = self.waiting := by
  obtain ⟨before_, after_, hpending, hpush, -, -⟩ := h.push_split time class_ other (.act .wake)
  unfold waiting
  rw [hpush, hpending, List.filterMap_append, List.filterMap_append]
  rfl

theorem waiting_push_request (h : self.Sorted) {action : Action} (hwake : action ≠ .wake) :
    (self.push time class_ other (.act action)).waiting.Perm
      ((other, self.seq, action) :: self.waiting) := by
  obtain ⟨before_, after_, hpending, hpush, -, -⟩ := h.push_split time class_ other (.act action)
  have hsome : ScheduledEvent.request? ⟨time, class_, self.seq, other, .act action⟩ =
      some (other, self.seq, action) := by
    cases action with
    | wake => exact absurd rfl hwake
    | «open» request => rfl
    | cancel request => rfl
  unfold waiting
  rw [hpush, hpending, List.filterMap_append, List.filterMap_append, List.filterMap_cons_some hsome]
  exact List.perm_middle

/-! ## What a venue comes to owe -/

/-- The queue once a venue owes more than it did. -/
structure Owes (before_ : Schedule) (exchange : ExchangeIndex) (more : List Deliverable)
    (after_ : Schedule) : Prop where
  sorted : after_.Sorted
  owed : after_.owed exchange = before_.owed exchange ++ more
  others : ∀ other, other ≠ exchange → after_.owed other = before_.owed other
  waiting : after_.waiting = before_.waiting
  inOrder : ∀ other due, other ≠ exchange → before_.InOrder other due → after_.InOrder other due
  seq : before_.seq ≤ after_.seq

variable {before_ : Schedule} {more : List Deliverable}

theorem Owes.nil (exchange : ExchangeIndex) (h : self.Sorted) : Owes self exchange [] self :=
  ⟨h, (List.append_nil _).symm, fun _ _ => rfl, rfl, fun _ _ _ h => h, le_rfl⟩

/-- And then one thing more, due no earlier than the rest. -/
theorem Owes.push (h : Owes before_ exchange more self) (horder : self.InOrder exchange due)
    (deliverable : Deliverable) : Owes before_ exchange (more ++ [deliverable])
      (self.push due CLASS_ACCOUNT exchange (.deliver deliverable)) where
  sorted := h.sorted.push fun _ _ => rfl
  owed := by
    rw [owed_push h.sorted horder, h.owed, List.append_assoc]
  others other hne := by
    rw [owed_push_ne h.sorted hne.symm]
    exact h.others other hne
  waiting := by
    rw [waiting_push_deliver h.sorted]
    exact h.waiting
  inOrder other _ hne hbefore :=
    inOrder_push h.sorted (h.inOrder other _ hne hbefore) fun _ _ heq => absurd heq.symm hne
  seq := h.seq.trans (Nat.le_succ _)

/-- And then a wake-up. -/
theorem Owes.wake (h : Owes before_ exchange more self) (deadline : DateTime) :
    Owes before_ exchange more (self.push deadline CLASS_ACTION exchange (.act .wake)) where
  sorted := h.sorted.push fun _ hpayload => (by cases hpayload)
  owed := by
    rw [owed_push_act h.sorted]
    exact h.owed
  others other hne := by
    rw [owed_push_act h.sorted]
    exact h.others other hne
  waiting := by
    rw [waiting_push_wake h.sorted]
    exact h.waiting
  inOrder other _ hne hbefore :=
    inOrder_push h.sorted (h.inOrder other _ hne hbefore) fun _ hpayload => (by cases hpayload)
  seq := h.seq.trans (Nat.le_succ _)

/-- What is due at one instant stays in order. -/
theorem inOrder_push_same (h : self.Sorted) (horder : self.InOrder exchange due) :
    (self.push due class_ exchange payload).InOrder exchange due :=
  inOrder_push h horder fun _ _ _ => le_rfl

theorem Owes.scheduleEvents (h : Owes before_ exchange more self)
    (horder : self.InOrder exchange due) (events : List Mock.AccountEvent) :
    Owes before_ exchange (more ++ events.map .account)
      (scheduleEvents exchange due events self) ∧
      (scheduleEvents exchange due events self).InOrder exchange due := by
  induction events generalizing self more with
  | nil =>
    rw [List.map_nil, List.append_nil]
    exact ⟨h, horder⟩
  | cons event events ih =>
    have hrest := ih (h.push horder (.account event)) (inOrder_push_same h.sorted horder)
    rw [List.append_assoc] at hrest
    exact hrest

theorem scheduleOutcome_owes (h : self.Sorted) (horder : self.InOrder exchange due)
    (events : List Mock.AccountEvent) (response : Deliverable) :
    Owes self exchange (events.map .account ++ [response])
      (self.scheduleOutcome exchange due events response) := by
  obtain ⟨howes, hlater⟩ := (Owes.nil exchange h).scheduleEvents horder events
  exact howes.push hlater response

end Schedule

/-- Arming a venue queues nothing, or a wake-up. -/
theorem Wakeups.arm_cases (self : Wakeups) (schedule : Schedule) (exchange : ExchangeIndex)
    (venue : SimulatedVenue) : (self.arm schedule exchange venue).2 = schedule ∨
      ∃ deadline, (self.arm schedule exchange venue).2 =
        schedule.push deadline CLASS_ACTION exchange (.act .wake) := by
  unfold arm
  split
  · exact .inl rfl
  · split
    · exact .inl rfl
    · dsimp only
      split
      · exact .inl rfl
      · exact .inr ⟨_, rfl⟩

theorem Schedule.Owes.arm {before_ schedule : Schedule} {exchange : ExchangeIndex}
    {more : List Deliverable} (h : before_.Owes exchange more schedule) (wakeups : Wakeups)
    (venue : SimulatedVenue) :
    before_.Owes exchange more (wakeups.arm schedule exchange venue).2 := by
  rcases wakeups.arm_cases schedule exchange venue with hsame | ⟨deadline, hpush⟩
  · rw [hsame]
    exact h
  · rw [hpush]
    exact h.wake deadline

theorem Schedule.InOrder.arm {schedule : Schedule} {exchange other : ExchangeIndex} {due : DateTime}
    (h : schedule.InOrder exchange due) (hsorted : schedule.Sorted) (wakeups : Wakeups)
    (venue : SimulatedVenue) : (wakeups.arm schedule other venue).2.InOrder exchange due := by
  rcases wakeups.arm_cases schedule other venue with hsame | ⟨deadline, hpush⟩
  · rw [hsame]
    exact h
  · rw [hpush]
    exact inOrder_push hsorted h fun _ hpayload => (by cases hpayload)

end Rustrade.Sim
