import Rustrade.Lib.Transition
import Rustrade.Shared.Aligned

/-!
# Runs of the connection task

Every event leaves the task aligned, so every run from a new one does. What one event does to the
registrations (`Registry.Follows`) composes along a run: an identifier handed out is never used
again, a registration that waits for its stream waits under it until it is given up on, and its
deadline is the grace after the loss that made it wait, whatever happens to the socket meanwhile.
-/

set_option autoImplicit false

namespace Rustrade.Shared

namespace Registry

variable {P : Provider} {r r' : Registry P} {id : AttachId} {instants later : List Instant}

theorem Follows.mono (h : Follows instants r r') (hsub : instants ⊆ later) :
    Follows later r r' := by
  refine ⟨h.nextId_le, fun id g' hid hget' => ?_⟩
  obtain ⟨g, hget, hslots, hwaits, hloses⟩ := h.kept id g' hid hget'
  refine ⟨g, hget, hslots, hwaits, fun hlive => ?_⟩
  rcases hloses hlive with hlive' | ⟨at_, hat, hlost⟩
  · exact .inl hlive'
  · exact .inr ⟨at_, hsub hat, hlost⟩

/-- No stream is attached under the identifier. -/
def Unattached (r : Registry P) (id : AttachId) : Prop :=
  ∀ g, r.get? id = some g → g.until? ≠ none

/-- An identifier handed out that no stream is attached under stays so. -/
theorem Follows.unattached (h : Follows instants r r') (hid : id < r.nextId)
    (hnone : r.Unattached id) : r'.Unattached id := by
  intro g' hget' hlive
  obtain ⟨g, hget, -, hwaits, -⟩ := h.kept id g' hid hget'
  obtain ⟨deadline, hdeadline⟩ := Option.ne_none_iff_exists'.1 (hnone g hget)
  rw [hwaits deadline hdeadline] at hlive
  cases hlive

/-- A registration that waits keeps its deadline as long as it is there. -/
theorem Follows.until? (h : Follows instants r r') {g g' : Registration P} {deadline : Instant}
    (hid : id < r.nextId) (hget : r.get? id = some g) (hwaits : g.until? = some deadline)
    (hget' : r'.get? id = some g') : g'.until? = some deadline := by
  obtain ⟨before, hbefore, -, hkept, -⟩ := h.kept id g' hid hget'
  rw [hget] at hbefore
  cases hbefore
  exact hkept deadline hwaits

end Registry

namespace Actor

variable {P : Provider} [Protocol P] {hash : HashOrder} {a : Actor P} {id : AttachId}

/-- Every run leaves the task aligned, and moves no registration to another identifier. -/
theorem Aligned.run (hash : HashOrder) (h : Aligned a) (es : List (Event P)) :
    Aligned (Transition.run (Actor.step hash) a es) ∧
      a.registry.Follows (es.flatMap Event.losses)
        (Transition.run (Actor.step hash) a es).registry := by
  induction es generalizing a with
  | nil => exact ⟨h, .refl⟩
  | cons e es ih =>
    obtain ⟨haligned, hfollows⟩ := h.step hash e
    obtain ⟨hreached, hafter⟩ := ih haligned
    rw [Transition.run_cons, List.flatMap_cons]
    exact ⟨hreached, (hfollows.mono (List.subset_append_left ..)).trans
      (hafter.mono (List.subset_append_right ..))⟩

/-- A detach of an attachment that is not attached any longer does nothing. -/
theorem detach_of_unattached (h : a.registry.Unattached id) (talk : Talk P.Message) :
    a.detach id talk = a := by
  unfold Actor.detach
  cases hremoved : a.registry.removeLive id with
  | none => rfl
  | some removed =>
    obtain ⟨-, g, hget, hlive⟩ := Registry.removeLive_eq_some hremoved
    exact absurd hlive (h g hget)

/-! ## Expiry -/

/-- An expiry gives up on a waiting registration if its deadline has passed, and on no other. -/
theorem Aligned.get?_expire (h : Aligned a) {g : Registration P} {deadline now : Instant}
    (hget : a.registry.get? id = some g) (hwaits : g.until? = some deadline)
    (talk : Talk P.Message) :
    ((a.step hash (.expiry now talk)).registry.get? id).isNone = true ↔ deadline ≤ now := by
  have hat : talk.at_ ∈ [talk.at_] := List.mem_singleton_self _
  obtain ⟨-, -, hmembers⟩ := h.expire hash now hat
  have hmember := congrArg Option.isNone (hmembers id)
  rw [Option.isNone_map, Option.isNone_map, hget, Option.filter_some] at hmember
  show ((a.expire hash now talk).registry.get? id).isNone = true ↔ _
  rw [hmember]
  unfold Registry.expired
  rw [hwaits]
  by_cases hpassed : deadline ≤ now <;> simp [hpassed]

/-- A registration whose socket is lost is given up on at the first expiry past the grace. -/
theorem Aligned.forgotten (h : Aligned a) {g g' : Registration P} {e : Event P} {deadline : Instant}
    (hget : a.registry.get? id = some g) (hlive : g.until? = none)
    (hget' : (a.step hash e).registry.get? id = some g') (hlost : g'.until? = some deadline) :
    (∃ at_ ∈ e.losses, deadline = at_ + reattachGrace) ∧
      ∀ es now talk,
        (∃ g'', (Transition.run (Actor.step hash) (a.step hash e) es).registry.get? id = some g'') →
        ((((Transition.run (Actor.step hash) (a.step hash e) es).step hash
          (.expiry now talk)).registry.get? id).isNone = true ↔ deadline ≤ now) := by
  obtain ⟨haligned, hfollows⟩ := h.step hash e
  have hid : id < a.registry.nextId := h.sound.fresh id g hget
  constructor
  · obtain ⟨before, hbefore, -, -, hloses⟩ := hfollows.kept id g' hid hget'
    rw [hget] at hbefore
    cases hbefore
    rcases hloses hlive with hlive' | ⟨at_, hat, hat'⟩
    · rw [hlive'] at hlost
      cases hlost
    · rw [hat'] at hlost
      exact ⟨at_, hat, (Option.some.inj hlost).symm⟩
  · rintro es now talk ⟨g'', hget''⟩
    obtain ⟨hreached, hafter⟩ := haligned.run hash es
    -- However the socket fared since, the deadline is the one set by the first loss.
    have hwaits := hafter.until? (hid.trans_le hfollows.nextId_le) hget' hlost hget''
    exact hreached.get?_expire hget'' hwaits talk

/-! ## Re-attachment -/

/-- A stream that re-attaches takes over a registration a reconnect held for it, under a fresh
    identifier, with every frame routed to it since the socket was opened. -/
theorem Aligned.reattached (h : Aligned a) {socket : Socket P} (hsocket : a.socket = some socket)
    {request : AttachRequest P} {serving : Serving P} {attachment : Attachment P}
    {kept : List P.Message} {deadline : Instant} {g : Registration P}
    (hget : a.registry.get? id = some g) (hsink : g.sink = .held kept deadline)
    (hrequested : g.isRequestedBy request = true)
    (hok : (a.attach hash request serving).2 = .ok attachment) :
    attachment.id = a.registry.nextId ∧ ∃ held g, a.registry.get? held = some g ∧
      g.isRequestedBy request = true ∧ (a.attach hash request serving).1.registry.get? held = none ∧
      (a.attach hash request serving).1.registry.get? attachment.id =
        some { g with sink := .live (Registry.sentTo held socket.routed) } := by
  obtain ⟨⟨registry, fresh⟩, hreattach⟩ := Option.isSome_iff_exists.1
    (Registry.isSome_reattach hash hget hsink hrequested)
  obtain ⟨held, g, frames, deadline, hget, hsink, hrequested, rfl, -, -, hafter⟩ :=
    Registry.reattach_spec h.sound hreattach
  have hattached : a.attach hash request serving =
      ({ a with registry := registry },
        .ok (Actor.attachment { a with registry := registry } a.registry.nextId)) := by
    unfold Actor.attach at hok ⊢
    split
    · rename_i helsewhere
      rw [if_pos helsewhere] at hok
      cases hok
    · rw [hsocket]
      simp only
      rw [hreattach]
  -- The identifier taken over is not the one given out.
  have hheld : held ≠ a.registry.nextId := (h.sound.fresh held g hget).ne
  rw [hattached] at hok ⊢
  cases hok
  refine ⟨rfl, held, g, hget, hrequested, ?_, ?_⟩
  · show registry.get? held = none
    rw [hafter, if_neg hheld, if_pos rfl]
  · show registry.get? a.registry.nextId = _
    rw [hafter, if_pos rfl, h.heard socket hsocket held g frames deadline hget hsink]

/-! ## Every run -/

/-- What the registry, its index and the socket say of each other. -/
structure Bookkept (a : Actor P) : Prop where
  lost : a.socket = none →
    ∀ id g, a.registry.get? id = some g → ∃ deadline, g.sink = .lost deadline
  unlisted : a.socket = none → ∀ slot, a.registry.index.holders.get? slot = none
  attached : ∀ socket, a.socket = some socket → ∃ id g, a.registry.get? id = some g
  routed : ∀ socket, a.socket = some socket →
    ∀ id g, a.registry.get? id = some g → ∀ deadline, g.sink ≠ .lost deadline
  once : ∀ slot, (a.registry.index.holdersOf slot).Nodup
  listed : ∀ slot id, id ∈ a.registry.index.holdersOf slot ↔
    ∃ g, a.registry.get? id = some g ∧ g.isRouted = true ∧ slot ∈ g.slots
  confirmed : ∀ socket, a.socket = some socket →
    ∀ slot, slot ∈ socket.subscribed ↔ ∃ id g, a.registry.get? id = some g ∧ slot ∈ g.slots

omit [Protocol P] in
theorem Aligned.bookkept (h : Aligned a) : Bookkept a where
  lost hdown id g hget := by
    have hunrouted := h.down hdown id g hget
    unfold Registration.isRouted at hunrouted
    cases hsink : g.sink with
    | lost deadline => exact ⟨deadline, rfl⟩
    | live frames => rw [hsink] at hunrouted; cases hunrouted
    | held kept deadline => rw [hsink] at hunrouted; cases hunrouted
  unlisted hdown slot := by
    rw [h.sound.clean.get?_iff, List.eq_nil_iff_forall_not_mem]
    intro id hid
    obtain ⟨g, hget, hrouted, -⟩ := (h.sound.holders slot id).1 hid
    rw [h.down hdown id g hget] at hrouted
    cases hrouted
  attached socket hsocket := by
    by_contra hnone
    have hempty : a.registry.isEmpty = true := by
      refine isEmpty_iff.2 fun id => ?_
      by_contra hsome
      obtain ⟨g, hget⟩ := Option.ne_none_iff_exists'.1 hsome
      exact hnone ⟨id, g, hget⟩
    rw [h.nonempty socket hsocket] at hempty
    cases hempty
  routed socket hsocket id g hget deadline hsink := by
    have hrouted := h.up socket hsocket id g hget
    unfold Registration.isRouted at hrouted
    rw [hsink] at hrouted
    cases hrouted
  once := h.sound.once
  listed := h.sound.holders
  confirmed := h.subscribed

/-- The task after the events, from its start. -/
def reached (hash : HashOrder) (es : List (Event P)) : Actor P := Transition.run (step hash) new es

/-- The bookkeeping of a shared connection, in every run of its task: the registry, its index and
the socket agree between any two events; a slot is unsubscribed only when no registration holds it;
an attachment that is superseded or lost detaches nothing; a registration whose socket is lost and
whose stream does not re-attach is given up on at the first expiry past the grace, and not before;
and a stream that re-attaches has every frame routed to its registration since the socket was
opened. -/
theorem bookkept_reached (hash : HashOrder) (es : List (Event P)) :
    Bookkept (reached hash es) ∧
      (∀ unsubscribe ∈ (reached hash es).released,
        ∀ slot ∈ unsubscribe.1, ¬ unsubscribe.2.Holds slot) ∧
      (∀ id, id < (reached hash es).registry.nextId → (reached hash es).registry.Unattached id →
        ∀ es' talk, (reached hash (es ++ es')).detach id talk = reached hash (es ++ es')) ∧
      (∀ id g e g' deadline, (reached hash es).registry.get? id = some g → g.until? = none →
        (reached hash (es ++ [e])).registry.get? id = some g' → g'.until? = some deadline →
          (∃ at_ ∈ e.losses, deadline = at_ + reattachGrace) ∧
            ∀ es' now talk, (∃ g'', (reached hash (es ++ e :: es')).registry.get? id = some g'') →
              (((reached hash (es ++ e :: es' ++ [.expiry now talk])).registry.get? id).isNone ↔
                deadline ≤ now)) ∧
      ∀ id g kept deadline socket request serving attachment,
        (reached hash es).socket = some socket → (reached hash es).registry.get? id = some g →
          g.sink = .held kept deadline → g.isRequestedBy request = true →
            ((reached hash es).attach hash request serving).2 = .ok attachment →
              attachment.id = (reached hash es).registry.nextId ∧
                ∃ held g, (reached hash es).registry.get? held = some g ∧
                  g.isRequestedBy request = true ∧
                  (reached hash (es ++ [.attach request serving])).registry.get? held = none ∧
                  (reached hash (es ++ [.attach request serving])).registry.get? attachment.id =
                    some { g with sink := .live (Registry.sentTo held socket.routed) } := by
  have haligned : Aligned (reached hash es) := (aligned_new.run hash es).1
  have hafter (es' : List (Event P)) :
      reached hash (es ++ es') = Transition.run (step hash) (reached hash es) es' :=
    Transition.run_append
  refine ⟨haligned.bookkept, haligned.freed, ?_, ?_, ?_⟩
  · intro id hid hnone es' talk
    rw [hafter]
    exact detach_of_unattached ((haligned.run hash es').2.unattached hid hnone) talk
  · intro id g e g' deadline hget hlive hget' hlost
    rw [hafter, Transition.run_cons, Transition.run_nil] at hget'
    obtain ⟨hgrace, hforgotten⟩ := haligned.forgotten hget hlive hget' hlost
    refine ⟨hgrace, fun es' now talk hthere => ?_⟩
    rw [hafter, Transition.run_cons] at hthere
    rw [List.append_assoc, hafter, List.cons_append, Transition.run_cons, Transition.run_concat]
    exact hforgotten es' now talk hthere
  · intro id g kept deadline socket request serving attachment hsocket hget hsink hrequested hok
    rw [hafter, Transition.run_cons, Transition.run_nil]
    exact haligned.reattached hsocket hget hsink hrequested hok

end Actor

end Rustrade.Shared
