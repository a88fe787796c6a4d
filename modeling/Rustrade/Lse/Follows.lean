import Rustrade.Lse.Extent

/-!
# A stream across connections

`Follows` is what holds of one stream however the connection is lost and opened again: it has
emitted the ticks of one extent of the tape, the frames it has yet to read are consecutive ticks
its transformer is ready for, and what is held for it is the replay of a window that opens no later
than its watermark and was planned after everything the stream emitted or has yet to read was
published. It reads only what the stream itself sees of the connection (`StreamView`), and each
thing that may happen to the stream keeps it.
-/

set_option autoImplicit false

namespace Rustrade.Lse

variable {Key : Type} {tape : ℕ → DateTime} {resumes : Key → Bool}

/-- The next tick a registration with that window is sent. -/
def Subscription.upcoming (subscription : Subscription) (start : Option DateTime) : ℕ :=
  if start.isSome then subscription.next else max subscription.next subscription.live

/-- What one stream sees of the connection. -/
structure StreamView where
  published : ℕ
  socket : Option (Option Subscription)
  registration : Option Registration
  attachment : Option LseAttachment
  mark : Option LseWatermark
  emitted : List ℕ

def Connection.view (self : Connection Key) (key : Key) : StreamView where
  published := self.published
  socket := self.socket
  registration := self.registrations key
  attachment := self.attachments key
  mark := self.marks key
  emitted := self.emitted key

/-- An attached stream: where its frames stop, and what its transformer makes of them. -/
structure Attached (tape : ℕ → DateTime) (resumes : Bool) (view : StreamView) (due : Extent)
    (attachment : LseAttachment) (position stop : ℕ) : Prop where
  feeds : Feeds attachment.frames position stop
  sent : stop ≤ view.published
  ready : Ready tape attachment.transformer position due
  resume : attachment.transformer.resume.isSome = resumes
  open_ : attachment.ended = false → ∃ start subscription,
    view.registration = some ⟨start, .live⟩ ∧ view.socket = some (some subscription) ∧
    stop = subscription.upcoming start

/-- What is held for a stream that has yet to re-attach. -/
structure Held (tape : ℕ → DateTime) (resumes : Bool) (view : StreamView) (due : Extent)
    (start : Option DateTime) (frames : List LseFrame) (subscription : Subscription)
    (position : ℕ) : Prop where
  socket : view.socket = some (some subscription)
  feeds : Feeds frames position (subscription.upcoming start)
  window : ∀ instant, start = some instant →
    position = Connection.replayFrom tape instant subscription.live ∧ resumes = true ∧
    ∃ mark, view.mark = some mark ∧ instant ≤ mark.timeExchange
  before : ∀ first next, due = some (first, next) → next ≤ subscription.live
  old : ∀ attachment, view.attachment = some attachment → attachment.ended = true ∧
    ∀ frame ∈ attachment.frames, frame.position < subscription.live

structure Follows (tape : ℕ → DateTime) (resumes : Bool) (view : StreamView) (due : Extent) :
    Prop where
  emitted : view.emitted = due.ticks
  proper : ∀ first next, due = some (first, next) → first < next ∧ next ≤ view.published
  marked : Marked tape resumes view.mark due
  subscribed : ∀ subscription, view.socket = some (some subscription) →
    subscription.next ≤ view.published ∧ subscription.live ≤ view.published
  attached : ∀ attachment, view.attachment = some attachment →
    ∃ position stop, Attached tape resumes view due attachment position stop
  live : ∀ start, view.registration = some ⟨start, .live⟩ →
    ∃ attachment, view.attachment = some attachment ∧ attachment.ended = false
  held : ∀ start frames, view.registration = some ⟨start, .held frames⟩ →
    ∃ subscription position,
      Held tape resumes view due start frames subscription position
  lost : ∀ start, view.registration = some ⟨start, .lost⟩ → view.socket = none

namespace Follows

variable {view : StreamView} {due : Extent} {resumes : Bool}

theorem frame_lt {attachment : LseAttachment} {position stop : ℕ}
    (h : Attached tape resumes view due attachment position stop) :
    ∀ frame ∈ attachment.frames, frame.position < view.published := by
  intro frame hframe
  have hmem : frame.position ∈ List.range' position attachment.frames.length := by
    rw [← h.feeds.1]
    exact List.mem_map_of_mem hframe
  rw [List.mem_range'_1] at hmem
  have hstop := h.feeds.2
  have hsent := h.sent
  omega

/-- A stream whose frames are all sent: nothing is routed to it. -/
theorem ended_of_unrouted (h : Follows tape resumes view due)
    (hrouted : ∀ start, view.registration ≠ some ⟨start, .live⟩) {attachment : LseAttachment}
    (hattachment : view.attachment = some attachment) : attachment.ended = true := by
  obtain ⟨_, _, hattached⟩ := h.attached attachment hattachment
  by_contra hopen
  rw [Bool.not_eq_true] at hopen
  obtain ⟨start, _, hregistration, -⟩ := hattached.open_ hopen
  exact hrouted start hregistration

/-- A stream that holds the symbol: a socket does. -/
theorem socket_of_routed (h : Follows tape resumes view due) {registration : Registration}
    (hregistration : view.registration = some registration) (hrouted : registration.sink ≠ .lost) :
    ∃ subscription, view.socket = some (some subscription) := by
  match registration with
  | ⟨start, .live⟩ =>
    obtain ⟨attachment, hattachment, hopen⟩ := h.live start hregistration
    obtain ⟨_, _, hattached⟩ := h.attached attachment hattachment
    obtain ⟨_, subscription, -, hsocket, -⟩ := hattached.open_ hopen
    exact ⟨subscription, hsocket⟩
  | ⟨start, .held frames⟩ =>
    obtain ⟨subscription, _, hheld⟩ := h.held start frames hregistration
    exact ⟨subscription, hheld.socket⟩
  | ⟨start, .lost⟩ => exact absurd rfl hrouted

/-- The market trades. -/
theorem publish (h : Follows tape resumes view due) :
    Follows tape resumes { view with published := view.published + 1 } due where
  emitted := h.emitted
  proper first next hdue := ⟨(h.proper first next hdue).1, Nat.le_succ_of_le (h.proper first next hdue).2⟩
  marked := h.marked
  subscribed subscription hsocket :=
    ⟨Nat.le_succ_of_le (h.subscribed subscription hsocket).1,
      Nat.le_succ_of_le (h.subscribed subscription hsocket).2⟩
  attached attachment hattachment := by
    obtain ⟨position, stop, hattached⟩ := h.attached attachment hattachment
    exact ⟨position, stop, hattached.feeds, Nat.le_succ_of_le hattached.sent, hattached.ready,
      hattached.resume, hattached.open_⟩
  live := h.live
  held start frames hregistration := by
    obtain ⟨subscription, position, hheld⟩ := h.held start frames hregistration
    exact ⟨subscription, position, hheld.socket, hheld.feeds, hheld.window, hheld.before, hheld.old⟩
  lost := h.lost

/-- A stream that holds the symbol no longer: what the socket sends is nothing to it. -/
theorem gone (h : Follows tape resumes view due) (socket : Option (Option Subscription))
    (hsocket : ∀ subscription, socket = some (some subscription) →
      subscription.next ≤ view.published ∧ subscription.live ≤ view.published)
    (hrouted : ∀ start, view.registration ≠ some ⟨start, .live⟩) :
    Follows tape resumes { view with registration := none, socket := socket } due where
  emitted := h.emitted
  proper := h.proper
  marked := h.marked
  subscribed := hsocket
  attached attachment hattachment := by
    obtain ⟨position, stop, hattached⟩ := h.attached attachment hattachment
    have hended := h.ended_of_unrouted hrouted hattachment
    refine ⟨position, stop, hattached.feeds, hattached.sent, hattached.ready, hattached.resume, ?_⟩
    rw [hended]
    intro hopen
    cases hopen
  live _ hregistration := nomatch hregistration
  held _ _ hregistration := nomatch hregistration
  lost _ hregistration := nomatch hregistration

/-- The socket is lost. -/
theorem lose (h : Follows tape resumes view due) :
    Follows tape resumes
      { view with
        socket := none
        registration := view.registration.map fun registration => { registration with sink := .lost }
        attachment := view.attachment.map fun attachment => { attachment with ended := true } }
      due where
  emitted := h.emitted
  proper := h.proper
  marked := h.marked
  subscribed _ hsocket := nomatch hsocket
  attached attachment hattachment := by
    obtain ⟨old, hold, rfl⟩ := Option.map_eq_some_iff.1 hattachment
    obtain ⟨position, stop, hattached⟩ := h.attached old hold
    refine ⟨position, stop, hattached.feeds, hattached.sent, hattached.ready, hattached.resume, ?_⟩
    intro hopen
    cases hopen
  live start hregistration := by
    obtain ⟨old, -, hsink⟩ := Option.map_eq_some_iff.1 hregistration
    cases hsink
  held start frames hregistration := by
    obtain ⟨old, -, hsink⟩ := Option.map_eq_some_iff.1 hregistration
    cases hsink
  lost _ _ := rfl

/-- A registration held on a socket just opened: everything the stream emitted or has yet to read
was sent before. -/
theorem hold (h : Follows tape resumes view due) {old : Option DateTime}
    (hlost : view.registration = some ⟨old, .lost⟩) {subscription : Subscription}
    {start : Option DateTime} (hlive : subscription.live = view.published)
    (hnext : subscription.next ≤ view.published)
    (hwindow : ∀ instant, start = some instant →
      subscription.next = Connection.replayFrom tape instant view.published ∧ resumes = true ∧
      ∃ mark, view.mark = some mark ∧ instant ≤ mark.timeExchange) :
    Follows tape resumes
      { view with
        socket := some (some subscription)
        registration := some ⟨start, .held []⟩ } due where
  emitted := h.emitted
  proper := h.proper
  marked := h.marked
  subscribed found hsocket := by
    cases hsocket
    exact ⟨hnext, hlive.le⟩
  attached attachment hattachment := by
    obtain ⟨position, stop, hattached⟩ := h.attached attachment hattachment
    have hended : attachment.ended = true :=
      h.ended_of_unrouted (fun _ hregistration => by rw [hlost] at hregistration; cases hregistration)
        hattachment
    refine ⟨position, stop, hattached.feeds, hattached.sent, hattached.ready, hattached.resume, ?_⟩
    rw [hended]
    intro hopen
    cases hopen
  live _ hregistration := nomatch hregistration
  held found frames hregistration := by
    cases hregistration
    refine ⟨subscription, subscription.upcoming start, rfl, feeds_nil, ?_, ?_, ?_⟩
    · intro instant hinstant
      obtain ⟨hreplay, hresumes, hmark⟩ := hwindow instant hinstant
      subst hinstant
      refine ⟨?_, hresumes, hmark⟩
      rw [hlive]
      exact hreplay
    · intro first next hdue
      rw [hlive]
      exact (h.proper first next hdue).2
    · intro attachment hattachment
      obtain ⟨position, stop, hattached⟩ := h.attached attachment hattachment
      refine ⟨h.ended_of_unrouted (fun _ hregistration => ?_) hattachment, ?_⟩
      · rw [hlost] at hregistration
        cases hregistration
      · rw [hlive]
        exact frame_lt hattached
  lost _ hregistration := nomatch hregistration

/-- A stream attaches: to its registration, with the frames held for it. -/
theorem attach (h : Follows tape resumes view due) (subscription : Subscription)
    {start : Option DateTime} {frames : List LseFrame} {position : ℕ}
    {transformer : LseTransformer} (hnext : subscription.next ≤ view.published)
    (hlive : subscription.live ≤ view.published)
    (hfeeds : Feeds frames position (subscription.upcoming start))
    (hready : Ready tape transformer position due)
    (hresume : transformer.resume.isSome = resumes) :
    Follows tape resumes
      { view with
        socket := some (some subscription)
        registration := some ⟨start, .live⟩
        attachment := some ⟨frames, false, transformer⟩ } due where
  emitted := h.emitted
  proper := h.proper
  marked := h.marked
  subscribed found hsocket := by
    cases hsocket
    exact ⟨hnext, hlive⟩
  attached attachment hattachment := by
    cases hattachment
    have hsent : subscription.upcoming start ≤ view.published := by
      unfold Subscription.upcoming
      split
      · exact hnext
      · exact max_le hnext hlive
    exact ⟨position, _, hfeeds, hsent, hready, hresume,
      fun _ => ⟨start, subscription, rfl, rfl, rfl⟩⟩
  live _ _ := ⟨_, rfl, rfl⟩
  held _ _ hregistration := nomatch hregistration
  lost _ hregistration := nomatch hregistration

end Follows

/-! ## The tracker of a stream that attaches -/

theorem tracker_resume {state : LseResumeState Key} {key : Key} {resumes : Bool}
    {start : Option DateTime} :
    (LseTransformer.tracker state key resumes start).resume.isSome = resumes := by
  cases resumes <;> rfl

/-- The tracker skips what the replay repeats: the window opens no later than the watermark, and
the watermark's instant was emitted from its first tick on. -/
theorem tracker_ready (live : ℕ) (hmono : Monotone tape) {state : LseResumeState Key} {key : Key}
    {resumes : Bool} {start : Option DateTime} {due : Extent} {position : ℕ}
    (hmarked : Marked tape resumes (state key) due)
    (hproper : ∀ first next, due = some (first, next) → first < next)
    (hwindow : ∀ instant, start = some instant →
      position = Connection.replayFrom tape instant live ∧ resumes = true ∧
      ∃ mark, state key = some mark ∧ instant ≤ mark.timeExchange)
    (hbefore : ∀ first next, due = some (first, next) → next ≤ live)
    (hresumed : due ≠ none → start.isSome)
    (hjoined : ∀ first next, due = some (first, next) →
      ∀ mark, state key = some mark → ∀ i < first, tape i ≠ mark.timeExchange) :
    Ready tape (.tracker state key resumes start) position due := by
  match due with
  | none =>
    have hnone : state key = none := hmarked
    show (LseTransformer.tracker state key resumes start).resume.join = none
    unfold LseTransformer.tracker
    rw [hnone]
    cases resumes with
    | false => rfl
    | true =>
      cases start <;> rfl
  | some (first, next) =>
    obtain ⟨instant, rfl⟩ := Option.isSome_iff_exists.1 (hresumed (by simp))
    obtain ⟨rfl, hresumes, mark, hmark, hle⟩ := hwindow instant rfl
    subst hresumes
    obtain ⟨found, hfound, hmarks⟩ := hmarked
    rw [hmark] at hfound
    cases hfound
    show Skips tape (LseTransformer.tracker state key true (some instant)).resume.join _ next
    have htracker : (LseTransformer.tracker state key true (some instant)).resume.join =
        some (.new mark instant) := by
      unfold LseTransformer.tracker
      rw [hmark]
      rfl
    rw [htracker]
    exact hmarks.skips hmono (hproper first next rfl) (hbefore first next rfl) hle
      (hjoined first next rfl mark hmark)

/-! ## A frame is routed, a frame is read -/

theorem upcoming_of_accepts {subscription : Subscription} {registration : Registration}
    (h : Connection.accepts registration
      ⟨subscription.next, subscription.next < subscription.live⟩ = true) :
    subscription.upcoming registration.start = subscription.next ∧
      Subscription.upcoming { subscription with next := subscription.next + 1 }
        registration.start = subscription.next + 1 := by
  unfold Subscription.upcoming
  cases hstart : registration.start.isSome with
  | true => exact ⟨rfl, rfl⟩
  | false =>
    unfold Connection.accepts at h
    rw [hstart, Bool.or_false, Bool.not_eq_true', decide_eq_false_iff_not] at h
    show max subscription.next subscription.live = subscription.next ∧
      max (subscription.next + 1) subscription.live = subscription.next + 1
    omega

theorem upcoming_of_not_accepts {subscription : Subscription} {registration : Registration}
    (h : Connection.accepts registration
      ⟨subscription.next, subscription.next < subscription.live⟩ ≠ true) :
    Subscription.upcoming { subscription with next := subscription.next + 1 }
      registration.start = subscription.upcoming registration.start := by
  have hrefused := Bool.eq_false_of_not_eq_true h
  unfold Connection.accepts at hrefused
  rw [Bool.or_eq_false_iff, Bool.not_eq_false', decide_eq_true_eq] at hrefused
  unfold Subscription.upcoming
  rw [hrefused.2]
  have hreplay : subscription.next < subscription.live := hrefused.1
  show max (subscription.next + 1) subscription.live = max subscription.next subscription.live
  omega

/-- The frames a registration's stream has once a frame is sent, where they fed it so far. -/
theorem Feeds.sent {frames : List LseFrame} {position : ℕ} {subscription : Subscription}
    (registration : Registration)
    (h : Feeds frames position (subscription.upcoming registration.start)) :
    Feeds
      (if Connection.accepts registration
          ⟨subscription.next, subscription.next < subscription.live⟩ then
        frames ++ [⟨subscription.next, subscription.next < subscription.live⟩] else frames)
      position
      (Subscription.upcoming { subscription with next := subscription.next + 1 }
        registration.start) := by
  split
  · rename_i haccepts
    obtain ⟨hnow, hthen⟩ := upcoming_of_accepts haccepts
    rw [hnow] at h
    rw [hthen]
    exact h.append _
  · rename_i hrefused
    rw [upcoming_of_not_accepts hrefused]
    exact h

namespace Follows

variable {view : StreamView} {due : Extent} {resumes : Bool}

/-- The next frame of the symbol, sent to a stream that holds it. -/
theorem sent (h : Follows tape resumes view due) {subscription : Subscription}
    {start : Option DateTime} {attachment : LseAttachment}
    (hsocket : view.socket = some (some subscription))
    (hnext : subscription.next < view.published)
    (hregistration : view.registration = some ⟨start, .live⟩)
    (hattachment : view.attachment = some attachment) :
    Follows tape resumes
      { view with
        socket := some (some { subscription with next := subscription.next + 1 })
        attachment := some { attachment with
          frames :=
            if Connection.accepts ⟨start, .live⟩
                ⟨subscription.next, subscription.next < subscription.live⟩ then
              attachment.frames ++ [⟨subscription.next, subscription.next < subscription.live⟩]
            else attachment.frames } } due := by
  obtain ⟨found, hfound, hopen⟩ := h.live start hregistration
  obtain rfl : attachment = found := by
    rw [hattachment] at hfound
    exact Option.some.inj hfound
  obtain ⟨position, stop, hattached⟩ := h.attached attachment hattachment
  obtain ⟨start', subscription', hregistration', hsocket', rfl⟩ := hattached.open_ hopen
  rw [hregistration] at hregistration'
  cases hregistration'
  rw [hsocket] at hsocket'
  cases hsocket'
  have hlive := (h.subscribed subscription hsocket).2
  have hfeeds := hattached.feeds.sent ⟨start, .live⟩
  obtain ⟨frames, ended, transformer⟩ := attachment
  obtain rfl : ended = false := hopen
  have hview := h.attach { subscription with next := subscription.next + 1 }
    hnext hlive hfeeds hattached.ready hattached.resume
  rw [← hregistration] at hview
  exact hview

/-- The next frame of the symbol, kept for a stream that has yet to re-attach. -/
theorem kept (h : Follows tape resumes view due) {subscription : Subscription}
    {start : Option DateTime} {frames : List LseFrame}
    (hsocket : view.socket = some (some subscription))
    (hnext : subscription.next < view.published)
    (hregistration : view.registration = some ⟨start, .held frames⟩) :
    Follows tape resumes
      { view with
        socket := some (some { subscription with next := subscription.next + 1 })
        registration := some ⟨start, .held
          (if Connection.accepts ⟨start, .held frames⟩
              ⟨subscription.next, subscription.next < subscription.live⟩ then
            frames ++ [⟨subscription.next, subscription.next < subscription.live⟩]
          else frames)⟩ } due where
  emitted := h.emitted
  proper := h.proper
  marked := h.marked
  subscribed found hfound := by
    cases hfound
    exact ⟨hnext, (h.subscribed subscription hsocket).2⟩
  attached attachment hattachment := by
    obtain ⟨position, stop, hattached⟩ := h.attached attachment hattachment
    have hended : attachment.ended = true :=
      h.ended_of_unrouted (fun _ hlive => by rw [hregistration] at hlive; cases hlive) hattachment
    refine ⟨position, stop, hattached.feeds, hattached.sent, hattached.ready, hattached.resume, ?_⟩
    rw [hended]
    intro hopen
    cases hopen
  live _ hlive := nomatch hlive
  held found kept hfound := by
    obtain ⟨subscription', position, hheld⟩ := h.held start frames hregistration
    have hsame := hheld.socket
    rw [hsocket] at hsame
    cases hsame
    cases hfound
    exact ⟨_, position, rfl, hheld.feeds.sent ⟨start, .held frames⟩, hheld.window, hheld.before,
      hheld.old⟩
  lost _ hlost := nomatch hlost

/-- The stream reads a frame: what it had emitted already is dropped, what continues it is not. -/
theorem read (hmono : Monotone tape) (h : Follows tape resumes view due) {frame : LseFrame}
    {frames : List LseFrame} {ended : Bool} {transformer : LseTransformer} {Key : Type}
    [DecidableEq Key] {state : LseResumeState Key} {key : Key}
    (hattachment : view.attachment = some ⟨frame :: frames, ended, transformer⟩)
    (hmark : view.mark = state key) :
    ∃ due', Follows tape resumes
      { view with
        attachment := some ⟨frames, ended,
          (transformer.transform state key (tape frame.position)).1⟩
        mark := (transformer.transform state key (tape frame.position)).2.1 key
        emitted :=
          if (transformer.transform state key (tape frame.position)).2.2 then
            view.emitted ++ [frame.position]
          else view.emitted } due' := by
  obtain ⟨position, stop, hattached⟩ := h.attached _ hattachment
  obtain ⟨hposition, hstop, hrest⟩ := hattached.feeds.cons
  subst hposition
  have hmarked := h.marked
  rw [hmark] at hmarked
  obtain ⟨due', hemission⟩ := transform_emission hmono hattached.ready hattached.resume hmarked
    fun first next hdue => (h.proper first next hdue).1
  have hsent := hattached.sent
  refine ⟨due', ?_, ?_, hemission.marked, h.subscribed, ?_, ?_, ?_, h.lost⟩
  · show (if _ then _ else _) = due'.ticks
    rw [hemission.ticks, h.emitted]
  · intro first next hdue
    obtain ⟨hlt, hnew | hold⟩ := hemission.proper first next hdue
    · refine ⟨hlt, ?_⟩
      show next ≤ view.published
      omega
    · exact h.proper first next hold
  · rintro attachment ⟨⟩
    exact ⟨_, stop, hrest, hsent, hemission.ready, hemission.resume, hattached.open_⟩
  · intro start hregistration
    obtain ⟨attachment, hsame, hopen⟩ := h.live start hregistration
    rw [hattachment] at hsame
    cases hsame
    exact ⟨_, rfl, hopen⟩
  · intro start held hregistration
    obtain ⟨subscription, from_, hheld⟩ := h.held start held hregistration
    obtain ⟨hended, hold⟩ := hheld.old _ hattachment
    refine ⟨subscription, from_, hheld.socket, hheld.feeds, ?_, ?_, ?_⟩
    · intro instant hinstant
      obtain ⟨hreplay, hresumes, mark, hfound, hle⟩ := hheld.window instant hinstant
      rw [hmark] at hfound
      obtain ⟨mark', hmark', hlater⟩ := hemission.later mark hfound
      exact ⟨hreplay, hresumes, mark', hmark', hle.trans hlater⟩
    · intro first next hdue
      obtain ⟨-, hnew | hbefore⟩ := hemission.proper first next hdue
      · have hframe := hold frame (List.mem_cons_self ..)
        omega
      · exact hheld.before first next hbefore
    · rintro attachment ⟨⟩
      exact ⟨hended, fun later hlater => hold later (List.mem_cons_of_mem _ hlater)⟩

/-- The stream is dropped by its owner while it holds no live registration. -/
theorem dropped (h : Follows tape resumes view due)
    (hrouted : ∀ start, view.registration ≠ some ⟨start, .live⟩) :
    Follows tape resumes { view with attachment := none } due where
  emitted := h.emitted
  proper := h.proper
  marked := h.marked
  subscribed := h.subscribed
  attached _ hattachment := nomatch hattachment
  live start hregistration := absurd hregistration (hrouted start)
  held start frames hregistration := by
    obtain ⟨subscription, position, hheld⟩ := h.held start frames hregistration
    exact ⟨subscription, position, hheld.socket, hheld.feeds, hheld.window, hheld.before,
      fun _ hattachment => nomatch hattachment⟩
  lost := h.lost

/-- The stream is dropped by its owner, and its registration with it. -/
theorem left (h : Follows tape resumes view due) (socket : Option (Option Subscription))
    (hsocket : ∀ subscription, socket = some (some subscription) →
      subscription.next ≤ view.published ∧ subscription.live ≤ view.published) :
    Follows tape resumes
      { view with registration := none, socket := socket, attachment := none } due where
  emitted := h.emitted
  proper := h.proper
  marked := h.marked
  subscribed := hsocket
  attached _ hattachment := nomatch hattachment
  live _ hregistration := nomatch hregistration
  held _ _ hregistration := nomatch hregistration
  lost _ hregistration := nomatch hregistration

end Follows

end Rustrade.Lse
