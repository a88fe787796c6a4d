import Rustrade.Lib.Transition
import Rustrade.Lse.Follows

/-!
# A resumed stream is a run of the tape

Whatever happens to the shared connection, each stream keeps following the tape: one lemma for each
event, and one for a run.

The skip counts the events emitted at the watermark's instant, so it is exact only where the stream
emitted that instant from its first tick on. A stream that joined in the middle of an instant and
re-attaches before it has left it is replayed ticks it never counted.
-/

set_option autoImplicit false

namespace Rustrade.Lse

variable {Key : Type} {tape : ℕ → DateTime} {resumes : Key → Bool}

namespace Connection

variable {self : Connection Key} {key : Key} {due : Extent}

/-! ## Subscribing -/

/-- Every registration is a stream's. -/
def Known (self : Connection Key) : Prop :=
  ∀ key registration, self.registrations key = some registration → key ∈ self.streams

theorem mem_holders {registration : Registration} (hknown : self.Known)
    (hregistration : self.registrations key = some registration)
    (hrouted : registration.isRouted = true) : key ∈ self.holders := by
  unfold holders
  rw [List.mem_filter]
  refine ⟨hknown key registration hregistration, ?_⟩
  rw [hregistration]
  exact hrouted

/-- The window on a subscribe: a stream with a watermark gets one, no later than its own. -/
theorem planStarts_registrations {sink : Sink} (hknown : self.Known)
    (hregistration : self.registrations key = some ⟨none, sink⟩) (hsink : sink ≠ .lost) :
    ∃ start, (self.planStarts resumes).1.registrations key = some ⟨start, sink⟩ ∧
      ∀ instant, start = some instant → (self.planStarts resumes).2 = some instant ∧
        resumes key = true ∧ ∃ mark, self.marks key = some mark ∧ instant ≤ mark.timeExchange := by
  have hrouted : Registration.isRouted ⟨none, sink⟩ = true := by
    unfold Registration.isRouted
    rw [decide_eq_true_eq]
    exact hsink
  unfold planStarts
  split
  · exact ⟨none, hregistration, fun _ h => nomatch h⟩
  · rename_i start hmin
    obtain ⟨-, hleast⟩ := List.min?_eq_some_iff.1 hmin
    cases hwatermark : self.watermark resumes key with
    | none =>
      refine ⟨none, ?_, fun _ h => nomatch h⟩
      dsimp only
      rw [hregistration, Option.map_some, hwatermark, Option.isSome_none, Bool.and_false,
        if_neg Bool.false_ne_true]
    | some instant =>
      refine ⟨some start, ?_, ?_⟩
      · dsimp only
        rw [hregistration, Option.map_some, hwatermark, Option.isSome_some, hrouted, Bool.and_self,
          if_pos rfl]
      · rintro _ ⟨⟩
        have hmem : instant ∈ self.holders.filterMap (self.watermark resumes) :=
          List.mem_filterMap.2 ⟨key, mem_holders hknown hregistration hrouted, hwatermark⟩
        unfold watermark at hwatermark
        split at hwatermark
        · rename_i hresumes
          obtain ⟨mark, hmark, rfl⟩ := Option.map_eq_some_iff.1 hwatermark
          exact ⟨rfl, hresumes, mark, hmark, hleast _ hmem⟩
        · cases hwatermark

theorem planStarts_registrations_none (hregistration : self.registrations key = none) :
    (self.planStarts resumes).1.registrations key = none := by
  unfold planStarts
  split
  · exact hregistration
  · dsimp only
    rw [hregistration, Option.map_none]

/-- What planning a window leaves alone. -/
theorem planStarts_frame (self : Connection Key) (resumes : Key → Bool) :
    (self.planStarts resumes).1.published = self.published ∧
    (self.planStarts resumes).1.attachments = self.attachments ∧
    (self.planStarts resumes).1.streams = self.streams ∧
    (self.planStarts resumes).1.marks = self.marks ∧
    (self.planStarts resumes).1.emitted = self.emitted := by
  unfold planStarts
  split <;> exact ⟨rfl, rfl, rfl, rfl, rfl⟩

theorem subscribe_socket (self : Connection Key) (tape : ℕ → DateTime) (resumes : Key → Bool) :
    ∃ subscription,
    (self.subscribe tape resumes).socket = some (some subscription) ∧
    subscription.live = self.published ∧ subscription.next ≤ self.published ∧
    ∀ instant, (self.planStarts resumes).2 = some instant →
      subscription.next = replayFrom tape instant self.published := by
  have hpublished := (self.planStarts_frame resumes).1
  refine ⟨_, rfl, hpublished, ?_, ?_⟩
  · show ((self.planStarts resumes).2.map fun start =>
      replayFrom tape start (self.planStarts resumes).1.published).getD
        (self.planStarts resumes).1.published ≤ self.published
    rw [hpublished]
    cases (self.planStarts resumes).2 with
    | none => exact le_rfl
    | some instant => exact replayFrom_le
  · intro instant hstart
    show ((self.planStarts resumes).2.map fun start =>
      replayFrom tape start (self.planStarts resumes).1.published).getD
        (self.planStarts resumes).1.published = _
    rw [hstart, hpublished]
    rfl

theorem subscribe_view (tape : ℕ → DateTime) (resumes : Key → Bool) {sink : Sink} (hknown : self.Known)
    (hregistration : self.registrations key = some ⟨none, sink⟩) (hsink : sink ≠ .lost) :
    ∃ subscription start,
      (self.subscribe tape resumes).view key = { self.view key with
        socket := some (some subscription)
        registration := some ⟨start, sink⟩ } ∧
      subscription.live = self.published ∧ subscription.next ≤ self.published ∧
      ∀ instant, start = some instant →
        subscription.next = replayFrom tape instant self.published ∧ resumes key = true ∧
        ∃ mark, self.marks key = some mark ∧ instant ≤ mark.timeExchange := by
  obtain ⟨subscription, hsocket, hlive, hnext, hreplay⟩ :=
    self.subscribe_socket tape resumes
  obtain ⟨start, hstart, hwindow⟩ :=
    planStarts_registrations hknown hregistration hsink
  obtain ⟨hpublished, hattachments, -, hmarks, hemitted⟩ :=
    self.planStarts_frame resumes
  refine ⟨subscription, start, ?_, hlive, hnext, ?_⟩
  · show StreamView.mk _ (self.subscribe tape resumes).socket _ _ _ _ = StreamView.mk _ _ _ _ _ _
    rw [hsocket]
    show StreamView.mk (self.planStarts resumes).1.published _
      ((self.planStarts resumes).1.registrations key)
      ((self.planStarts resumes).1.attachments key) ((self.planStarts resumes).1.marks key)
      ((self.planStarts resumes).1.emitted key) = _
    rw [hpublished, hstart, hattachments, hmarks, hemitted]
    rfl
  · intro instant hinstant
    obtain ⟨hplanned, hresumes, hmark⟩ := hwindow instant hinstant
    exact ⟨hreplay instant hplanned, hresumes, hmark⟩

/-- A stream that does not hold the symbol sees the socket only. -/
theorem subscribe_view_none (tape : ℕ → DateTime) (resumes : Key → Bool)
    (hregistration : self.registrations key = none) :
    ∃ subscription,
      (self.subscribe tape resumes).view key = { self.view key with
        socket := some (some subscription)
        registration := none } ∧
      subscription.live = self.published ∧ subscription.next ≤ self.published := by
  obtain ⟨subscription, hsocket, hlive, hnext, -⟩ :=
    self.subscribe_socket tape resumes
  obtain ⟨hpublished, hattachments, -, hmarks, hemitted⟩ :=
    self.planStarts_frame resumes
  refine ⟨subscription, ?_, hlive, hnext⟩
  show StreamView.mk _ (self.subscribe tape resumes).socket _ _ _ _ = StreamView.mk _ _ _ _ _ _
  rw [hsocket]
  show StreamView.mk (self.planStarts resumes).1.published _
    ((self.planStarts resumes).1.registrations key)
    ((self.planStarts resumes).1.attachments key) ((self.planStarts resumes).1.marks key)
    ((self.planStarts resumes).1.emitted key) = _
  rw [hpublished, planStarts_registrations_none hregistration, hattachments, hmarks, hemitted]
  rfl

/-! ## Each event -/

section

variable [DecidableEq Key]

/-- The socket is the stream's own, or one that holds nothing of the symbol any longer. -/
theorem subscribed_released {published : ℕ} {socket : Option (Option Subscription)} (released : Bool)
    (h : ∀ subscription, socket = some (some subscription) →
      subscription.next ≤ published ∧ subscription.live ≤ published) :
    ∀ subscription, (if released then socket.map fun _ => none else socket) =
        some (some subscription) →
      subscription.next ≤ published ∧ subscription.live ≤ published := by
  intro subscription hsocket
  cases released with
  | false => exact h subscription hsocket
  | true =>
    obtain ⟨_, -, hnone⟩ := Option.map_eq_some_iff.1 hsocket
    cases hnone

theorem remove_eq : self.remove key =
    { self with
      registrations := Function.update self.registrations key none
      socket :=
        if ({ self with registrations := Function.update self.registrations key none } :
          Connection Key).holders.isEmpty then self.socket.map fun _ => none else self.socket } := by
  unfold remove
  dsimp only
  split <;> rfl

theorem follows_remove_ne (h : Follows tape (resumes key) (self.view key) due)
    (hknown : self.Known) {other : Key} (hne : key ≠ other) :
    Follows tape (resumes key) ((self.remove other).view key) due := by
  have hother : Function.update self.registrations other none key = self.registrations key :=
    Function.update_of_ne hne _ _
  rw [remove_eq]
  match hregistration : self.registrations key with
  | none =>
    have hview := h.gone _ (subscribed_released
      ({ self with registrations := Function.update self.registrations other none } :
        Connection Key).holders.isEmpty h.subscribed)
      (fun start hlive => by
        have hnone : (self.view key).registration = none := hregistration
        rw [hnone] at hlive
        cases hlive)
    show Follows tape (resumes key) ⟨_, _, Function.update self.registrations other none key, _, _,
      _⟩ due
    rw [hother, hregistration]
    exact hview
  | some registration =>
    -- A stream that holds the symbol keeps it on the socket.
    have hsame : (if ({ self with registrations := Function.update self.registrations other none } :
        Connection Key).holders.isEmpty then self.socket.map fun _ => none else self.socket) =
        self.socket := by
      split
      · rename_i hempty
        cases hsink : registration.isRouted with
        | true =>
          have hmem : key ∈ ({ self with
              registrations := Function.update self.registrations other none } :
              Connection Key).holders := by
            unfold holders
            rw [List.mem_filter]
            refine ⟨hknown key registration hregistration, ?_⟩
            show (Function.update self.registrations other none key).any Registration.isRouted = true
            rw [hother, hregistration]
            exact hsink
          rw [List.isEmpty_iff.1 hempty] at hmem
          cases hmem
        | false =>
          unfold Registration.isRouted at hsink
          rw [decide_eq_false_iff_not, not_not] at hsink
          have hlost := h.lost registration.start (by
            show self.registrations key = _
            rw [hregistration, ← hsink])
          have hsocket : self.socket = none := hlost
          rw [hsocket]
          rfl
      · rfl
    show Follows tape (resumes key) ⟨_, _, Function.update self.registrations other none key, _, _,
      _⟩ due
    rw [hsame, hother]
    exact h

theorem follows_remove (h : Follows tape (resumes key) (self.view key) due)
    (hrouted : ∀ start, self.registrations key ≠ some ⟨start, .live⟩) :
    Follows tape (resumes key) ((self.remove key).view key) due := by
  rw [remove_eq]
  show Follows tape (resumes key) ⟨_, _, Function.update self.registrations key none key, _, _, _⟩
    due
  rw [Function.update_self]
  exact h.gone _ (subscribed_released _ h.subscribed) hrouted

theorem follows_expire (h : Follows tape (resumes key) (self.view key) due) (hknown : self.Known)
    (other : Key) : Follows tape (resumes key) ((self.expire other).view key) due := by
  have hremove : (∀ start, self.registrations other ≠ some ⟨start, .live⟩) →
      Follows tape (resumes key) ((self.remove other).view key) due := by
    intro hrouted
    by_cases hkey : key = other
    · subst hkey
      exact follows_remove h hrouted
    · exact follows_remove_ne h hknown hkey
  unfold expire
  split
  · rename_i hregistration
    exact hremove fun start hlive => by
      rw [hregistration] at hlive
      cases hlive
  · rename_i hregistration
    exact hremove fun start hlive => by
      rw [hregistration] at hlive
      cases hlive
  · exact h

theorem follows_detach (h : Follows tape (resumes key) (self.view key) due) (hknown : self.Known)
    (other : Key) : Follows tape (resumes key) ((self.detach other).view key) due := by
  by_cases hkey : key = other
  · subst hkey
    unfold detach
    dsimp only
    split
    · rw [remove_eq]
      show Follows tape (resumes key) ⟨_, _, Function.update self.registrations key none key,
        Function.update self.attachments key none key, _, _⟩ due
      rw [Function.update_self, Function.update_self]
      exact h.left _ (subscribed_released _ h.subscribed)
    · rename_i hrouted
      show Follows tape (resumes key) ⟨_, _, _, Function.update self.attachments key none key, _, _⟩
        due
      rw [Function.update_self]
      exact h.dropped fun start hlive => hrouted start hlive
  · have hdropped : Follows tape (resumes key)
        (({ self with attachments := Function.update self.attachments other none } :
          Connection Key).view key) due := by
      show Follows tape (resumes key)
        ⟨_, _, _, Function.update self.attachments other none key, _, _⟩ due
      rw [Function.update_of_ne hkey]
      exact h
    unfold detach
    dsimp only
    split
    · exact follows_remove_ne hdropped hknown hkey
    · exact hdropped

end

theorem follows_lose (h : Follows tape (resumes key) (self.view key) due) :
    Follows tape (resumes key) (self.lose.view key) due := h.lose

/-! A frame sent goes to the stream, is kept for it, or is nothing to it. -/

section

variable {frame : LseFrame}

theorem route_view_none (hregistration : self.registrations key = none) :
    (self.route frame).view key = { self.view key with registration := none } := by
  unfold view route
  simp only [hregistration, Option.map_none]

theorem route_view_live {start : Option DateTime} {attachment : LseAttachment}
    (hregistration : self.registrations key = some ⟨start, .live⟩)
    (hattachment : self.attachments key = some attachment) :
    (self.route frame).view key = { self.view key with
      attachment := some { attachment with
        frames :=
          if accepts ⟨start, .live⟩ frame then attachment.frames ++ [frame]
          else attachment.frames } } := by
  unfold view route
  simp only [hregistration, hattachment, Option.map_some]
  cases accepts ⟨start, .live⟩ frame with
  | true => rfl
  | false => rfl

theorem route_view_held {start : Option DateTime} {frames : List LseFrame}
    (hregistration : self.registrations key = some ⟨start, .held frames⟩) :
    (self.route frame).view key = { self.view key with
      registration := some ⟨start, .held
        (if accepts ⟨start, .held frames⟩ frame then frames ++ [frame] else frames)⟩ } := by
  unfold view route
  simp only [hregistration, Option.map_some]
  cases accepts ⟨start, .held frames⟩ frame with
  | true => rfl
  | false => rfl

end

theorem follows_deliver (h : Follows tape (resumes key) (self.view key) due) :
    Follows tape (resumes key) (self.deliver.view key) due := by
  unfold deliver
  split
  · rename_i subscription hsocket
    split
    · rename_i hnext
      have hsent : ∀ view, (self.route
          ⟨subscription.next, subscription.next < subscription.live⟩).view key = view →
          Follows tape (resumes key) { view with
            socket := some (some { subscription with next := subscription.next + 1 }) } due →
          Follows tape (resumes key) (Connection.view { self.route
            ⟨subscription.next, subscription.next < subscription.live⟩ with
            socket := some (some { subscription with next := subscription.next + 1 }) } key) due := by
        rintro view rfl hview
        exact hview
      match hregistration : self.registrations key with
      | none =>
        refine hsent _ (route_view_none hregistration) (h.gone _ ?_ ?_)
        · intro found hfound
          cases hfound
          exact ⟨hnext, (h.subscribed subscription hsocket).2⟩
        · intro start hlive
          have hnone : (self.view key).registration = none := hregistration
          rw [hnone] at hlive
          cases hlive
      | some ⟨start, .live⟩ =>
        obtain ⟨attachment, hattachment, -⟩ := h.live start hregistration
        exact hsent _ (route_view_live hregistration hattachment)
          (h.sent hsocket hnext hregistration hattachment)
      | some ⟨start, .held frames⟩ =>
        exact hsent _ (route_view_held hregistration) (h.kept hsocket hnext hregistration)
      | some ⟨start, .lost⟩ =>
        have hlost : self.socket = none := h.lost start hregistration
        rw [hlost] at hsocket
        cases hsocket
    · exact h
  · exact h

/-! A stream reads a frame. -/

section

variable [DecidableEq Key]

theorem transform_marks_ne {transformer : LseTransformer} {state : LseResumeState Key}
    {key other : Key} {time : DateTime} (hne : key ≠ other) :
    (transformer.transform state other time).2.1 key = state key := by
  have hrecord : state.record other time key = state key := Function.update_of_ne hne _ _
  unfold LseTransformer.transform
  split
  · rfl
  · exact hrecord
  · dsimp only
    split
    · rfl
    · exact hrecord

theorem follows_consume (hmono : Monotone tape)
    (h : Follows tape (resumes key) (self.view key) due) (other : Key) :
    ∃ due', Follows tape (resumes key) ((self.consume tape other).view key) due' := by
  unfold consume
  split
  · rename_i frame frames ended transformer hattachment
    dsimp only
    by_cases hkey : key = other
    · subst hkey
      obtain ⟨due', hread⟩ := h.read hmono hattachment (rfl : _ = self.marks key)
      refine ⟨due', ?_⟩
      have hemitted : (if (transformer.transform self.marks key (tape frame.position)).2.2 then
          Function.update self.emitted key (self.emitted key ++ [frame.position])
        else self.emitted) key =
          if (transformer.transform self.marks key (tape frame.position)).2.2 then
            self.emitted key ++ [frame.position] else self.emitted key := by
        split
        · exact Function.update_self ..
        · rfl
      unfold view
      dsimp only
      rw [Function.update_self, hemitted]
      exact hread
    · refine ⟨due, ?_⟩
      have hemitted : (if (transformer.transform self.marks other (tape frame.position)).2.2 then
          Function.update self.emitted other (self.emitted other ++ [frame.position])
        else self.emitted) key = self.emitted key := by
        split
        · exact Function.update_of_ne hkey ..
        · rfl
      unfold view
      dsimp only
      rw [Function.update_of_ne hkey, hemitted, transform_marks_ne hkey]
      exact h
  · exact ⟨due, h⟩

/-! A stream attaches. -/

theorem handOver_view {frames : List LseFrame} :
    (self.handOver resumes key frames).view key = { self.view key with
      attachment := some ⟨frames, false, .tracker self.marks key (resumes key)
        ((self.registrations key).bind Registration.start)⟩ } := by
  unfold handOver view
  dsimp only
  rw [Function.update_self]

theorem handOver_view_ne {other : Key} (hne : key ≠ other) {frames : List LseFrame} :
    (self.handOver resumes other frames).view key = self.view key := by
  unfold handOver view
  dsimp only
  rw [Function.update_of_ne hne]

theorem insertLive_view : (self.insertLive key).view key = { self.view key with
    registration := some ⟨none, .live⟩ } := by
  unfold insertLive view
  dsimp only
  rw [Function.update_self]

theorem insertLive_view_ne {other : Key} (hne : key ≠ other) :
    (self.insertLive other).view key = self.view key := by
  unfold insertLive view
  dsimp only
  rw [Function.update_of_ne hne]

theorem known_insertLive (h : self.Known) (key : Key) : (self.insertLive key).Known := by
  intro other registration hregistration
  show other ∈ if key ∈ self.streams then self.streams else key :: self.streams
  by_cases hkey : other = key
  · subst hkey
    split
    · assumption
    · exact List.mem_cons_self ..
  · have hsame : (self.insertLive key).registrations other = self.registrations other :=
      Function.update_of_ne hkey _ _
    rw [hsame] at hregistration
    split
    · exact h other registration hregistration
    · exact List.mem_cons_of_mem _ (h other registration hregistration)

/-- What the re-attaching stream relies on: a window if it has emitted, and that the watermark's
instant was emitted from its first tick on. -/
structure Resumable (tape : ℕ → DateTime) (start : Option DateTime) (view : StreamView) : Prop where
  window : view.emitted ≠ [] → start.isSome
  whole : ∀ first ∈ view.emitted.head?, ∀ mark ∈ view.mark, ∀ i < first,
    tape i ≠ mark.timeExchange

theorem Resumable.of_extent {tape : ℕ → DateTime} {start : Option DateTime} {view : StreamView}
    {resumes : Bool} (h : Resumable tape start view) (hfollows : Follows tape resumes view due) :
    (due ≠ none → start.isSome) ∧ ∀ first next, due = some (first, next) →
      ∀ mark, view.mark = some mark → ∀ i < first, tape i ≠ mark.timeExchange := by
  have hhead : ∀ first next, due = some (first, next) → view.emitted.head? = some first := by
    rintro first next rfl
    have hlt := (hfollows.proper first next rfl).1
    rw [hfollows.emitted]
    show (List.range' first (next - first)).head? = some first
    rw [List.head?_range', if_neg (by omega)]
  constructor
  · intro hdue
    obtain ⟨⟨first, next⟩, rfl⟩ := Option.ne_none_iff_exists'.1 hdue
    apply h.window
    intro hempty
    have hfirst := hhead first next rfl
    rw [hempty] at hfirst
    cases hfirst
  · intro first next hdue mark hmark
    exact h.whole first (hhead first next hdue) mark hmark

/-- A stream that joins, or re-attaches to a window opened for it, on a socket subscribed now. -/
theorem follows_join (hmono : Monotone tape) {view : StreamView}
    {socket : Option (Option Subscription)}
    (h : Follows tape (resumes key) view due) (hknown : self.Known)
    (hview : self.view key = { view with socket := socket, registration := some ⟨none, .live⟩ })
    (hresumable : Resumable tape
      (((self.subscribe tape resumes).registrations key).bind Registration.start) view) :
    Follows tape (resumes key)
      (((self.subscribe tape resumes).handOver resumes key []).view key) due := by
  have hregistration : self.registrations key = some ⟨none, .live⟩ :=
    congrArg StreamView.registration hview
  have hmark : self.marks key = view.mark := congrArg StreamView.mark hview
  have hpublished : self.published = view.published := congrArg StreamView.published hview
  obtain ⟨subscription, start, hsubscribed, hlive, hnext, hwindow⟩ :=
    subscribe_view tape resumes hknown hregistration (by simp)
  have hstart : (self.subscribe tape resumes).registrations key = some ⟨start, .live⟩ :=
    congrArg StreamView.registration hsubscribed
  have hmarks : (self.subscribe tape resumes).marks key = view.mark :=
    (congrArg StreamView.mark hsubscribed).trans hmark
  rw [hstart] at hresumable
  obtain ⟨hresumed, hjoined⟩ := hresumable.of_extent h
  rw [handOver_view, hsubscribed, hstart, hview]
  rw [hpublished] at hlive hnext hwindow
  refine h.attach subscription hnext hlive.le feeds_nil ?_ tracker_resume
  have hmarked := h.marked
  rw [← hmarks] at hmarked
  refine tracker_ready view.published hmono hmarked
    (fun first next hdue => (h.proper first next hdue).1) ?_
    (fun first next hdue => (h.proper first next hdue).2) hresumed ?_
  · intro instant hinstant
    obtain ⟨hreplay, hresumes, hfound⟩ := hwindow instant hinstant
    obtain rfl : start = some instant := hinstant
    refine ⟨hreplay, hresumes, ?_⟩
    rw [hmarks, ← hmark]
    exact hfound
  · rw [hmarks]
    exact hjoined

omit [DecidableEq Key] in
/-- While no socket is open every registration is lost. -/
theorem lost_of_socket_none (h : Follows tape (resumes key) (self.view key) due)
    (hsocket : self.socket = none) {registration : Registration}
    (hregistration : self.registrations key = some registration) : registration.sink = .lost := by
  by_contra hrouted
  obtain ⟨_, hopened⟩ := h.socket_of_routed hregistration hrouted
  have hopen : self.socket = _ := hopened
  rw [hsocket] at hopen
  cases hopen

omit [DecidableEq Key] in
/-- A lost registration, held again on the socket another stream opens. -/
theorem follows_reopen {base : Connection Key} (h : Follows tape (resumes key) (base.view key) due)
    (hsocket : base.socket = none) (hknown : self.Known)
    (hview : self.view key = { base.view key with
      socket := some none
      registration := (base.registrations key).map fun _ => ⟨none, .held []⟩ }) :
    Follows tape (resumes key) ((self.subscribe tape resumes).view key) due := by
  have hpublished : self.published = base.published := congrArg StreamView.published hview
  have hmark : self.marks key = base.marks key := congrArg StreamView.mark hview
  have hregistration := congrArg StreamView.registration hview
  match hbase : base.registrations key with
  | none =>
    rw [hbase] at hregistration
    obtain ⟨subscription, hsubscribed, hlive, hnext⟩ :=
      subscribe_view_none tape resumes hregistration
    rw [hsubscribed, hview]
    rw [hpublished] at hlive hnext
    refine h.gone _ ?_ ?_
    · intro found hfound
      cases hfound
      exact ⟨hnext, hlive.le⟩
    · intro start hstart
      have hnone : (base.view key).registration = none := hbase
      rw [hnone] at hstart
      cases hstart
  | some ⟨old, .live⟩ => cases lost_of_socket_none h hsocket hbase
  | some ⟨old, .held frames⟩ => cases lost_of_socket_none h hsocket hbase
  | some ⟨old, .lost⟩ =>
    rw [hbase] at hregistration
    obtain ⟨subscription, start, hsubscribed, hlive, hnext, hwindow⟩ :=
      subscribe_view tape resumes hknown
        hregistration (by simp)
    rw [hsubscribed, hview]
    rw [hpublished, hmark] at hwindow
    rw [hpublished] at hlive hnext
    exact h.hold hbase hlive hnext hwindow

omit [DecidableEq Key] in
/-- No socket holds the symbol: no stream has a registration. -/
theorem registration_eq_none (h : Follows tape (resumes key) (self.view key) due)
    (hsocket : self.socket = some none) : self.registrations key = none := by
  match hregistration : self.registrations key with
  | none => rfl
  | some ⟨start, sink⟩ =>
    by_cases hlost : sink = .lost
    · subst hlost
      have hnone : self.socket = none := h.lost start hregistration
      rw [hsocket] at hnone
      cases hnone
    · obtain ⟨_, hopened⟩ := h.socket_of_routed hregistration hlost
      have hopen : self.socket = _ := hopened
      rw [hsocket] at hopen
      cases hopen

omit [DecidableEq Key] in
/-- A stream that may attach holds no live registration. -/
theorem not_live_of_mayAttach (h : Follows tape (resumes key) (self.view key) due)
    (hmay : self.mayAttach key = true) (start : Option DateTime) :
    self.registrations key ≠ some ⟨start, .live⟩ := by
  intro hregistration
  obtain ⟨attachment, hattachment, hopen⟩ := h.live start hregistration
  have hfound : self.attachments key = some attachment := hattachment
  unfold mayAttach at hmay
  rw [hfound] at hmay
  dsimp only at hmay
  rw [hopen, Bool.false_and] at hmay
  cases hmay

/-- The registrations on a socket just opened, that of the stream opening it forgotten. -/
def reopened (self : Connection Key) (key : Key) : Connection Key :=
  { self with
    registrations := Function.update self.registrations key none
    socket := some none }.holdLost

theorem known_reopened (h : self.Known) (other : Key) : (self.reopened other).Known := by
  intro key registration hregistration
  obtain ⟨old, hfound, -⟩ := Option.map_eq_some_iff.1 hregistration
  have hold : Function.update self.registrations other none key = some old := hfound
  by_cases hkey : key = other
  · subst hkey
    rw [Function.update_self] at hold
    cases hold
  · rw [Function.update_of_ne hkey] at hold
    exact h key old hold

theorem reopened_view (h : Follows tape (resumes key) (self.view key) due)
    (hsocket : self.socket = none) {other : Key} (hne : key ≠ other) :
    (self.reopened other).view key = { self.view key with
      socket := some none
      registration := (self.registrations key).map fun _ => ⟨none, .held []⟩ } := by
  show StreamView.mk _ _ ((Function.update self.registrations other none key).map _) _ _ _ =
    StreamView.mk _ _ _ _ _ _
  rw [Function.update_of_ne hne]
  match hregistration : self.registrations key with
  | none => rfl
  | some registration =>
    dsimp only [Option.map_some]
    rw [if_pos (lost_of_socket_none h hsocket hregistration)]
    rfl

/-- A stream attaches. -/
theorem follows_attach (hmono : Monotone tape)
    (h : Follows tape (resumes key) (self.view key) due) (hknown : self.Known)
    (hmay : self.mayAttach key = true)
    (hresumable : Resumable tape
      (((self.attach tape resumes key).registrations key).bind Registration.start)
      (self.view key)) :
    Follows tape (resumes key) ((self.attach tape resumes key).view key) due := by
  have hunrouted := not_live_of_mayAttach h hmay
  match hsocket : self.socket with
  | some subscription =>
    match hregistration : self.registrations key with
    | some ⟨start, .held frames⟩ =>
      have hattach : self.attach tape resumes key =
          ({ self with
            registrations := Function.update self.registrations key (some ⟨start, .live⟩) } :
            Connection Key).handOver resumes key frames := by
        unfold attach
        rw [hsocket, hregistration]
      obtain ⟨subscription, position, hheld⟩ := h.held start frames hregistration
      have hstart : (self.attach tape resumes key).registrations key = some ⟨start, .live⟩ := by
        rw [hattach]
        exact Function.update_self ..
      rw [hstart] at hresumable
      obtain ⟨hresumed, hjoined⟩ := hresumable.of_extent h
      have hbounds := h.subscribed subscription hheld.socket
      have hview := h.attach subscription hbounds.1 hbounds.2 hheld.feeds
        (tracker_ready subscription.live hmono h.marked
          (fun first next hdue => (h.proper first next hdue).1) hheld.window hheld.before
          hresumed hjoined) tracker_resume
      rw [← hheld.socket] at hview
      rw [hattach, handOver_view]
      unfold view
      dsimp only
      rw [Function.update_self]
      exact hview
    | some ⟨start, .live⟩ => exact absurd hregistration (hunrouted start)
    | some ⟨start, .lost⟩ =>
      have hnone : self.socket = none := h.lost start hregistration
      rw [hsocket] at hnone
      cases hnone
    | none =>
      match subscription with
      | some subscription =>
        have hattach : self.attach tape resumes key =
            (self.insertLive key).handOver resumes key [] := by
          unfold attach
          rw [hsocket, hregistration]
          rfl
        have hstart : (self.attach tape resumes key).registrations key = some ⟨none, .live⟩ := by
          rw [hattach]
          exact Function.update_self ..
        rw [hstart] at hresumable
        obtain ⟨hresumed, hjoined⟩ := hresumable.of_extent h
        have hbounds := h.subscribed subscription hsocket
        have hempty : Feeds [] (subscription.upcoming none) (subscription.upcoming none) := feeds_nil
        have hview := h.attach subscription hbounds.1 hbounds.2 hempty
          (tracker_ready subscription.live hmono h.marked
            (fun first next hdue => (h.proper first next hdue).1)
            (fun _ hnone => by cases hnone)
            (fun first next hdue => absurd (hresumed (by rw [hdue]; simp)) (by simp))
            hresumed hjoined) tracker_resume
        rw [← hsocket] at hview
        rw [hattach, handOver_view, insertLive_view]
        show Follows tape (resumes key) ⟨_, _, _, some ⟨[], false, .tracker self.marks key (resumes key)
          (((self.insertLive key).registrations key).bind Registration.start)⟩, _, _⟩ due
        have hinserted : (self.insertLive key).registrations key = some ⟨none, .live⟩ :=
          Function.update_self ..
        rw [hinserted]
        exact hview
      | none =>
        have hattach : self.attach tape resumes key =
            ((self.insertLive key).subscribe tape resumes).handOver resumes key [] := by
          unfold attach
          rw [hsocket, hregistration]
          rfl
        rw [hattach] at hresumable ⊢
        exact follows_join hmono h (known_insertLive hknown key) insertLive_view hresumable
  | none =>
    have hattach : self.attach tape resumes key =
        (((self.reopened key).insertLive key).subscribe tape resumes).handOver resumes key [] := by
      unfold attach
      rw [hsocket]
      rfl
    rw [hattach] at hresumable ⊢
    have hview : ((self.reopened key).insertLive key).view key = { self.view key with
        socket := some none
        registration := some ⟨none, .live⟩ } := insertLive_view
    exact follows_join hmono h (known_insertLive (known_reopened hknown key) key) hview hresumable

/-- Another stream attaches. -/
theorem follows_attach_ne (h : Follows tape (resumes key) (self.view key) due)
    (hknown : self.Known) {other : Key} (hne : key ≠ other) :
    Follows tape (resumes key) ((self.attach tape resumes other).view key) due := by
  unfold attach
  match hsocket : self.socket with
  | some subscription =>
    dsimp only
    split
    · rw [handOver_view_ne hne]
      unfold view
      dsimp only
      rw [Function.update_of_ne hne, ← hsocket]
      exact h
    · rw [handOver_view_ne hne]
      split
      · rw [insertLive_view_ne hne]
        exact h
      · rename_i hnone
        obtain rfl : subscription = none := by simpa using hnone
        have hregistration := registration_eq_none h hsocket
        have hinserted : (self.insertLive other).registrations key = none :=
          (congrArg StreamView.registration (insertLive_view_ne hne)).trans hregistration
        obtain ⟨opened, hsubscribed, hlive, hnext⟩ :=
          subscribe_view_none tape resumes hinserted
        rw [hsubscribed, insertLive_view_ne hne]
        refine h.gone _ ?_ ?_
        · intro found hfound
          cases hfound
          exact ⟨hnext, hlive.le⟩
        · intro start hstart
          have hgone : (self.view key).registration = none := hregistration
          rw [hgone] at hstart
          cases hstart
  | none =>
    dsimp only
    rw [handOver_view_ne hne]
    have hview : ((self.reopened other).insertLive other).view key = { self.view key with
        socket := some none
        registration := (self.registrations key).map fun _ => ⟨none, .held []⟩ } := by
      rw [insertLive_view_ne hne]
      exact reopened_view h hsocket hne
    exact follows_reopen h hsocket (known_insertLive (known_reopened hknown other) other) hview

omit [DecidableEq Key] in
/-- A stream that does not hold the symbol opens the socket. -/
theorem follows_attachOther (h : Follows tape (resumes key) (self.view key) due)
    (hknown : self.Known) :
    Follows tape (resumes key) ((self.attachOther tape resumes).view key) due := by
  unfold attachOther
  match hsocket : self.socket with
  | some subscription => exact h
  | none =>
    have hview : ({ self with socket := some none } : Connection Key).holdLost.view key =
        { self.view key with
          socket := some none
          registration := (self.registrations key).map fun _ => ⟨none, .held []⟩ } := by
      show StreamView.mk _ _ ((self.registrations key).map _) _ _ _ = StreamView.mk _ _ _ _ _ _
      match hregistration : self.registrations key with
      | none => rfl
      | some registration =>
        dsimp only [Option.map_some]
        rw [if_pos (lost_of_socket_none h hsocket hregistration)]
        rfl
    have hheld : ({ self with socket := some none } : Connection Key).holdLost.Known := by
      intro other registration hregistration
      obtain ⟨old, hold, -⟩ := Option.map_eq_some_iff.1 hregistration
      exact hknown other old hold
    dsimp only
    split
    · -- No registration was lost: the socket is opened for other symbols only.
      rename_i hempty
      rw [hview]
      match hregistration : self.registrations key with
      | none =>
        refine h.gone _ (fun _ hnone => by cases hnone) ?_
        intro start hstart
        have hgone : (self.view key).registration = none := hregistration
        rw [hgone] at hstart
        cases hstart
      | some registration =>
        have hkept := congrArg StreamView.registration hview
        rw [hregistration] at hkept
        have hmem := mem_holders hheld hkept rfl
        rw [List.isEmpty_iff.1 hempty] at hmem
        cases hmem
    · exact follows_reopen h hsocket hheld hview

/-! ## Runs -/

omit [DecidableEq Key] in
theorem Known.of_registrations (h : self.Known) {self' : Connection Key}
    (hstreams : self'.streams = self.streams)
    (hregistrations : ∀ key registration, self'.registrations key = some registration →
      (self.registrations key).isSome) : self'.Known := by
  intro key registration hregistration
  obtain ⟨old, hold⟩ := Option.isSome_iff_exists.1 (hregistrations key registration hregistration)
  rw [hstreams]
  exact h key old hold

omit [DecidableEq Key] in
theorem isSome_of_map {registrations : Key → Option Registration} {f : Registration → Registration}
    {key : Key} {registration : Registration}
    (h : (registrations key).map f = some registration) : (registrations key).isSome := by
  obtain ⟨old, hold, -⟩ := Option.map_eq_some_iff.1 h
  rw [hold]
  rfl

theorem isSome_of_update {registrations : Key → Option Registration} {other key : Key}
    {registration : Registration}
    (h : Function.update registrations other none key = some registration) :
    (registrations key).isSome := by
  by_cases hkey : key = other
  · rw [hkey, Function.update_self] at h
    cases h
  · rw [Function.update_of_ne hkey] at h
    rw [h]
    rfl

omit [DecidableEq Key] in
theorem known_subscribe (tape : ℕ → DateTime) (resumes : Key → Bool) (h : self.Known) : (self.subscribe tape resumes).Known := by
  obtain ⟨-, -, hstreams, -, -⟩ := self.planStarts_frame resumes
  refine h.of_registrations hstreams ?_
  intro key registration hregistration
  by_contra hnone
  rw [Bool.not_eq_true, Option.isSome_eq_false_iff, Option.isNone_iff_eq_none] at hnone
  have hplanned : (self.planStarts resumes).1.registrations key = none :=
    planStarts_registrations_none hnone
  have hsame : (self.subscribe tape resumes).registrations key =
      (self.planStarts resumes).1.registrations key := rfl
  rw [hsame, hplanned] at hregistration
  cases hregistration

theorem known_remove (h : self.Known) (other : Key) : (self.remove other).Known := by
  rw [remove_eq]
  exact h.of_registrations rfl fun _ _ hregistration => isSome_of_update hregistration

theorem known_attach (h : self.Known) (other : Key) : (self.attach tape resumes other).Known := by
  unfold attach
  split
  · split
    · rename_i start frames hregistration
      refine h.of_registrations rfl ?_
      intro key registration hfound
      have hupdated : Function.update self.registrations other (some ⟨start, .live⟩) key =
          some registration := hfound
      by_cases hkey : key = other
      · rw [hkey, hregistration]
        rfl
      · rw [Function.update_of_ne hkey] at hupdated
        rw [hupdated]
        rfl
    · have hinserted := known_insertLive h other
      dsimp only
      split
      · exact hinserted
      · exact known_subscribe tape resumes hinserted
  · have hinserted : ((self.reopened other).insertLive other).Known :=
      known_insertLive (known_reopened h other) other
    exact known_subscribe tape resumes hinserted

theorem known_step (h : self.Known) (event : ConnectionEvent Key) :
    (self.step tape resumes event).Known := by
  cases event with
  | publish => exact h
  | attach other =>
    show (if self.mayAttach other then self.attach tape resumes other else self).Known
    split
    · exact known_attach h other
    · exact h
  | attachOther =>
    show (self.attachOther tape resumes).Known
    unfold attachOther
    split
    · exact h
    · have hheld : ({ self with socket := some none } : Connection Key).holdLost.Known :=
        h.of_registrations rfl fun _ _ hregistration => isSome_of_map hregistration
      dsimp only
      split
      · exact hheld
      · exact known_subscribe tape resumes hheld
  | deliver =>
    show self.deliver.Known
    unfold deliver
    split
    · split
      · exact h.of_registrations rfl fun _ _ hregistration => isSome_of_map hregistration
      · exact h
    · exact h
  | consume other =>
    show (self.consume tape other).Known
    unfold consume
    split <;> exact h
  | lose => exact h.of_registrations rfl fun _ _ hregistration => isSome_of_map hregistration
  | expire other =>
    show (self.expire other).Known
    unfold expire
    split
    · exact known_remove h other
    · exact known_remove h other
    · exact h
  | detach other =>
    have hdropped : ({ self with
        attachments := Function.update self.attachments other none } : Connection Key).Known := h
    show (self.detach other).Known
    unfold detach
    dsimp only
    split
    · exact known_remove hdropped other
    · exact hdropped

/-- The event has a stream that has emitted before attach again. -/
def Reattaches (key : Key) (self : Connection Key) (event : ConnectionEvent Key) : Prop :=
  event = .attach key ∧ self.mayAttach key = true ∧ self.emitted key ≠ []

/-- A window was opened for the stream when it re-attaches. -/
def Windowed (tape : ℕ → DateTime) (resumes : Key → Bool) (key : Key) (self : Connection Key)
    (event : ConnectionEvent Key) : Prop :=
  Reattaches key self event →
    (((self.step tape resumes event).registrations key).bind Registration.start).isSome

/-- The stream does not re-attach while the newest instant it emitted is one it joined in the middle
of. -/
def JoinedWhole (tape : ℕ → DateTime) (key : Key) (self : Connection Key)
    (event : ConnectionEvent Key) : Prop :=
  Reattaches key self event → ∀ first ∈ (self.emitted key).head?, ∀ mark ∈ self.marks key,
    ∀ i < first, tape i ≠ mark.timeExchange

theorem follows_step (hmono : Monotone tape) {event : ConnectionEvent Key}
    (h : ∃ due, Follows tape (resumes key) (self.view key) due) (hknown : self.Known)
    (hwindow : Windowed tape resumes key self event) (hwhole : JoinedWhole tape key self event) :
    ∃ due, Follows tape (resumes key) ((self.step tape resumes event).view key) due := by
  obtain ⟨due, h⟩ := h
  cases event with
  | publish => exact ⟨due, h.publish⟩
  | attach other =>
    show ∃ due, Follows tape (resumes key)
      ((if self.mayAttach other then self.attach tape resumes other else self).view key) due
    split
    · rename_i hmay
      refine ⟨due, ?_⟩
      by_cases hkey : key = other
      · subst hkey
        have hstep : self.step tape resumes (.attach key) = self.attach tape resumes key := if_pos hmay
        refine follows_attach hmono h hknown hmay ⟨?_, ?_⟩
        · intro hemitted
          rw [← hstep]
          exact hwindow ⟨rfl, hmay, hemitted⟩
        · intro first hfirst
          refine hwhole ⟨rfl, hmay, ?_⟩ first hfirst
          intro hempty
          have hhead : (self.emitted key).head? = some first := hfirst
          rw [hempty] at hhead
          cases hhead
      · exact follows_attach_ne h hknown hkey
    · exact ⟨due, h⟩
  | attachOther => exact ⟨due, follows_attachOther h hknown⟩
  | deliver => exact ⟨due, follows_deliver h⟩
  | consume other => exact follows_consume hmono h other
  | lose => exact ⟨due, follows_lose h⟩
  | expire other => exact ⟨due, follows_expire h hknown other⟩
  | detach other => exact ⟨due, follows_detach h hknown other⟩

omit [DecidableEq Key] in
theorem follows_init (key : Key) :
    ∃ due, Follows tape (resumes key) ((init : Connection Key).view key) due := by
  refine ⟨none, rfl, ?_, rfl, ?_, ?_, ?_, ?_, ?_⟩
  · intro _ _ hdue
    cases hdue
  · intro _ hsocket
    cases hsocket
  · intro _ hattachment
    cases hattachment
  · intro _ hregistration
    cases hregistration
  · intro _ _ hregistration
    cases hregistration
  · intro _ hregistration
    cases hregistration

/-- Whatever the market, the socket and the other streams do, a stream that is given a window
whenever it re-attaches emits a run of the tape, if it never re-attaches inside an instant it
joined in the middle of. -/
theorem emitted_run_of_tape (hmono : Monotone tape) {key : Key}
    {events : List (ConnectionEvent Key)}
    (hguard : Transition.Guarded (step tape resumes)
      (fun self event => Windowed tape resumes key self event ∧ JoinedWhole tape key self event)
      init events) :
    ∃ first count, (Transition.run (step tape resumes) init events).emitted key =
      List.range' first count := by
  have hrun := hguard.invariant
    (fun self => self.Known ∧ ∃ due, Follows tape (resumes key) (self.view key) due)
    (fun self event hok hinv =>
      ⟨known_step hinv.1 event, follows_step hmono hinv.2 hinv.1 hok.1 hok.2⟩)
    ⟨fun _ _ hregistration => (nomatch hregistration), follows_init key⟩
  obtain ⟨-, due, hfollows⟩ := hrun
  have hemitted : (Transition.run (step tape resumes) init events).emitted key = due.ticks :=
    hfollows.emitted
  rw [hemitted]
  match due with
  | none => exact ⟨0, 0, rfl⟩
  | some (first, next) => exact ⟨first, next - first, rfl⟩

instance Reattaches.decidable (key : Key) (self : Connection Key) (event : ConnectionEvent Key) :
    Decidable (Reattaches key self event) :=
  inferInstanceAs (Decidable (_ ∧ _ ∧ _))

instance Windowed.decidable (key : Key) (self : Connection Key) (event : ConnectionEvent Key) :
    Decidable (Windowed tape resumes key self event) :=
  inferInstanceAs (Decidable (_ → _))

instance JoinedWhole.decidable (key : Key) (self : Connection Key) (event : ConnectionEvent Key) :
    Decidable (JoinedWhole tape key self event) :=
  inferInstanceAs (Decidable (_ → _))

/-- A stream that joins with the first tick of an instant, and resumes inside it. -/
theorem emitted_run_of_tape_rejoined :
    ∃ first count, (Transition.run (step (fun _ => 0) fun _ => true) init
      [.attach (), .publish, .deliver, .consume (), .publish, .lose, .attach (), .deliver,
        .consume (), .deliver, .consume ()]).emitted () = List.range' first count :=
  emitted_run_of_tape monotone_const (by decide)

/-- The instant already has two ticks when the stream joins: it emits the third, and the replay it
resumes from repeats the second. -/
theorem joined_mid_instant_repeats : ¬ ∀ (tape : ℕ → DateTime) (resumes : Unit → Bool)
    (events : List (ConnectionEvent Unit)), Monotone tape →
    Transition.Guarded (step tape resumes) (Windowed tape resumes ()) init events →
    ∃ first count, (Transition.run (step tape resumes) init events).emitted () =
      List.range' first count := by
  intro h
  obtain ⟨first, count, hrun⟩ := h (fun _ => 0) (fun _ => true)
    [.publish, .publish, .attach (), .publish, .deliver, .consume (), .lose, .attach (), .deliver,
      .consume (), .deliver, .consume ()] monotone_const (by decide)
  have hemitted : [2, 1] = List.range' first count := hrun
  match count with
  | 0 => cases hemitted
  | count + 1 =>
    rw [List.range'_succ, List.cons.injEq] at hemitted
    obtain ⟨rfl, hrest⟩ := hemitted
    match count with
    | 0 => cases hrest
    | count + 1 =>
      rw [List.range'_succ, List.cons.injEq] at hrest
      exact absurd hrest.1 (by decide)

end

end Connection

end Rustrade.Lse
