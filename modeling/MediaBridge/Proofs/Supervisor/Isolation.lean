import MediaBridge.Pipeline.Scripted
import MediaBridge.Proofs.Correspondence.InOrder
import MediaBridge.Proofs.Correspondence.Watermark
import MediaBridge.Proofs.Supervisor.Station

/-! # One run after another

A start throws the matched frames away and forgets the entries, and it raises the watermark to the next
id.  Ids of accepted frames are not handed out again, so whatever comes back for one of them later is
below the watermark and below every entry of the new run.

* `passes_of_effect`    an id that passes every entry by goes on to do so while it is held;
* `users_of_step`       what is taken out was registered and is on its way no more;
* `sound_of_step`       the order in which a start clears the output and forgets the entries;
* `isolated_of_steps`   nothing of an earlier run is taken out, or meets an entry.
-/

namespace MediaBridge

variable {π : Type u} {α : Type v}

/-! ## Ids of earlier runs -/

namespace Pending

/-- Withdrawing a frame takes away one entry at most. -/
theorem entries_withdraw_sublist (p : Pending α) (id : Nat) :
    (p.withdraw id).entries.Sublist p.entries := by
  have herase := (List.eraseP_sublist (p := fun e : PendingEntry α => decide (e.id = id))
    (l := p.entries.reverse)).reverse
  rwa [List.reverse_reverse] at herase

/-- With fewer entries and the same watermark, an id passes them by all the more. -/
theorem Passes.of_sublist {p p' : Pending α} {id : Nat} (h : p.Passes id)
    (hwatermark : p'.watermark = p.watermark) (hentries : p'.entries.Sublist p.entries) :
    p'.Passes id :=
  ⟨hwatermark ▸ h.1, fun e he => h.2 e (hentries.subset he)⟩

/-- The new entry is younger, and giving an entry up lifts the watermark no lower than that entry. -/
theorem Passes.enter {b : Bridge α} {id : Nat} (h : b.pending.Passes id)
    (hasc : b.pending.Ascending) (hlt : id < b.pending.nextId) (timing : Timing) (user : α) :
    (b.enter timing user).pending.Passes id := by
  have hknown : (⟨id, user, false⟩ : Owed α).Known b.pending := (Owed.known_of_not_kept rfl).2 h
  have hspared := (hknown.register hlt timing user).spare (hasc.register timing user)
  exact (Owed.known_of_not_kept rfl).1 hspared

end Pending

namespace Concurrent

/-- While an id is held by an accepted frame, its results go on to pass every entry by. -/
theorem passes_of_effect {w w' : Concurrent α} {e : Event α} (heffect : w.Effect w' e)
    (hw : w.Separate) {id : Nat} (hid : id ∈ w.accepted) (h : w.pending.Passes id) :
    w'.pending.Passes id := by
  have hlt : id < w.pending.nextId := hw.below id (List.mem_append_right _ hid)
  cases heffect with
  | registered _ hpending =>
    rw [hpending]
    exact h.enter hw.ascending hlt _ _
  | withdrawn hpending =>
    rw [hpending]
    exact h.of_sublist rfl (w.pending.entries_withdraw_sublist _)
  | resolved _ _ hpending =>
    rw [hpending]
    exact h.of_sublist (w.pending.watermark_resolve _) (w.pending.entries_resolve_sublist _)
  | forgotten hpending =>
    rw [hpending]
    exact ⟨hlt, nofun⟩
  | accepted hpending | ignored hpending | other hpending =>
    rw [hpending]
    exact h

/-- When the entries are forgotten, the watermark covers every accepted frame. -/
theorem passes_of_forgotten {w w' : Concurrent α} (heffect : w.Effect w' .forgotten)
    (hw : w.Separate) {id : Nat} (hid : id ∈ w.accepted) : w'.pending.Passes id := by
  cases heffect with
  | forgotten hpending =>
    rw [hpending]
    exact ⟨hw.below id (List.mem_append_right _ hid), nofun⟩

/-- A submission adds nothing to the entries but its own. -/
theorem entries_of_submission {w w' : Concurrent α} {e : Event α} (heffect : w.Effect w' e)
    (he : e.IsSubmission) :
    (w'.pending.entries.map PendingEntry.user).Subperm
      (e.incident.registered?.toList ++ w.pending.entries.map PendingEntry.user) := by
  cases heffect with
  | @registered t timing user _ hpending =>
    have hentered : w'.pending.entries.Sublist
        (w.pending.entries ++ [w.pending.nextEntry timing user]) := by
      rw [hpending, Bridge.pending_enter]
      split
      · rw [Pending.entries_evict]
        exact List.tail_sublist _
      · exact .refl _
    have hmapped := hentered.map PendingEntry.user
    rw [List.map_append] at hmapped
    exact hmapped.subperm.trans List.perm_append_comm.subperm
  | withdrawn hpending =>
    rw [hpending]
    exact ((w.pending.entries_withdraw_sublist _).map _).subperm
  | accepted hpending | other hpending =>
    rw [hpending]
    exact .refl _
  | resolved | ignored | forgotten => exact he.elim

end Concurrent

namespace Station

/-- What submitters left for the frames on their way. -/
def users (w : Station π α) : List α := w.supervisor.load.users

/-! ## Invariants -/

/-- What starts and stops leave to each other. -/
structure Sound (w : Station π α) : Prop where
  separate : w.world.Separate
  /-- Whatever is left to do ends a stop, or a restart. -/
  ordered : w.todo <:+ Piece.stopping ∨ w.todo <:+ Piece.stopping ++ Piece.starting
  /-- No delivery waits while a start goes on. -/
  quiet : Piece.play ∈ w.todo → w.supervisor.waiting = []
  /-- The output stays empty from its clearing on, as long as the start goes on. -/
  cleared : Piece.play ∈ w.todo → Piece.clear ∉ w.todo → w.supervisor.load.output = []
  /-- Nothing is submitted before there is a pipeline. -/
  blank : w.supervisor.pipeline.isSome = false → w.users = [] ∧ w.accepted = []

/-- A new station is sound, since nothing has happened there. -/
theorem Sound.new (settings : Settings) : (Station.new settings : Station π α).Sound where
  separate := .new settings _
  ordered := .inl (List.nil_suffix)
  quiet := nofun
  cleared := nofun
  blank := fun _ => ⟨rfl, rfl⟩

/-- Forgetting the entries is not the last piece of a start. -/
theorem Sound.play_of_forget {w : Station π α} (h : w.Sound) (hleft : Piece.forget ∈ w.todo) :
    Piece.play ∈ w.todo := by
  rcases h.ordered with hstop | hstart
  · exact absurd (hstop.subset hleft) (by decide)
  · have hlast := hstart.getLast (List.ne_nil_of_mem hleft)
    rw [show (Piece.stopping ++ Piece.starting).getLast _ = Piece.play from rfl] at hlast
    rw [← hlast]
    exact List.getLast_mem _

/-- Nothing from before a moment is on its way any more, and the frames accepted until then have become
    strangers to the entries. -/
structure Renewed (w₁ : Station π α) (registered : List α) (w : Station π α) : Prop where
  users : w.users.Subperm registered
  passes : ∀ id ∈ w₁.accepted, w.world.pending.Passes id

/-- A result that carries no id, or that of a frame accepted before a start, is dropped without an
    error, and neither the entries nor the matched frames change. -/
theorem Renewed.receive {w₁ w : Station π α} {registered : List α} (h : Renewed w₁ registered w)
    {x : Sample} (hx : ∀ id, x.Carries w.supervisor.relay.store id → id ∈ w₁.accepted)
    (uptime : Span) :
    ∃ s, w.supervisor.receive uptime (.sample x) = (some .ok, s) ∧
      s.load = w.supervisor.load ∧ s.failed = w.supervisor.failed := by
  obtain ⟨r, hdeliver, hpending, houtput⟩ := Relay.deliver_of_passes (r := w.supervisor.relay)
    fun c id hc hid => h.passes id (hx id ⟨c, hc, hid⟩)
  simp only [Supervisor.receive, hdeliver]
  refine ⟨_, rfl, ?_, rfl⟩
  show r.load w.supervisor.waiting = w.supervisor.relay.load w.supervisor.waiting
  rw [Relay.load, hpending, houtput]
  rfl

/-- A start has still to forget the entries, or there is not even a pipeline. -/
def StartsAnew (w : Station π α) : Prop :=
  Piece.forget ∈ w.todo ∨ w.supervisor.pipeline.isSome = false

/-! ## What a step does -/

/-- Whatever leaves the entries, the submissions and the accepted frames alone has no effect on
    them. -/
theorem effect_other {w w' : Station π α}
    (hpending : w'.supervisor.load.pending = w.supervisor.load.pending)
    (hsubmissions : w'.submissions = w.submissions) (haccepted : w'.accepted = w.accepted) :
    w.world.Effect w'.world .other := by
  refine .other hpending ?_ haccepted
  show (w'.submissions.map _).Perm (w.submissions.map _)
  rw [hsubmissions]

variable [MediaPipeline π]

/-- Forgetting the entries does just that. -/
theorem effect_of_forget {w : Station π α} (uptime : Span) (rest : List Piece) :
    w.world.Effect
      ({ w with supervisor := w.supervisor.perform uptime .forget, todo := rest } : Station π α).world
      .forgotten := .forgotten rfl rfl rfl

/-- What a step does to the entries, the submissions and the accepted frames. -/
theorem effect_of_step {w w' : Station π α} {i : Incident α} (h : w.Step i w') :
    ∃ e, w.world.Effect w'.world e := by
  cases h with
  | start => exact ⟨_, effect_other rfl rfl rfl⟩
  | stop => exact ⟨_, effect_other rfl rfl rfl⟩
  | bringDown => exact ⟨_, effect_other rfl rfl rfl⟩
  | restart hfree hp hf hr hwatch =>
    obtain ⟨-, rfl⟩ := Supervisor.quiet_of_watch hwatch
    exact ⟨_, effect_other rfl rfl rfl⟩
  | @perform uptime piece rest htodo =>
    by_cases hpiece : piece = .forget
    · cases hpiece
      exact ⟨_, effect_of_forget uptime rest⟩
    · have hload := w.supervisor.load_perform uptime piece
      refine ⟨_, effect_other ?_ rfl rfl⟩
      rw [hload]
      cases piece with
      | forget => exact absurd rfl hpiece
      | _ => rfl
  | pass _ hfree h =>
    exact ⟨_, effect_other (congrArg Load.pending (Supervisor.load_screen_passes h).1) rfl rfl⟩
  | submission hp he h hparked houtput =>
    have heffect := Concurrent.effect_of_step h
    rw [← world_afterwards hparked] at heffect
    exact ⟨_, heffect⟩
  | commit => exact ⟨_, effect_other rfl rfl rfl⟩
  | deliver uptime item =>
    have hpending := w.supervisor.pending_receive uptime item
    rcases w.supervisor.relay.pending_deliver item with hsame | ⟨x, c, id, rfl, hc, hid, hresolve⟩
    · exact ⟨_, effect_other (hpending.trans hsame) rfl rfl⟩
    · exact ⟨_, .resolved hc hid (hpending.trans hresolve) rfl rfl⟩
  | resumeDelivery h =>
    exact ⟨_, effect_other (Supervisor.load_resumeNext? h).1 rfl rfl⟩
  | pop h =>
    exact ⟨_, effect_other (congrArg Load.pending (Supervisor.load_pop? h).1).symm rfl rfl⟩
  | beside _ hc h =>
    exact ⟨_, effect_other (congrArg Load.pending (Supervisor.load_of_isBeside h hc)) rfl rfl⟩

/-- What is taken out was on its way, and what is on its way was registered. -/
theorem users_of_step {w w' : Station π α} {i : Incident α} (h : w.Step i w') :
    ((i.popped?.map Matched.user).toList ++ w'.users).Subperm
      (i.registered?.toList ++ w.users) := by
  have hsame : ∀ {s : Supervisor π α}, s.load = w.supervisor.load → s.load.users.Subperm w.users := by
    intro s hload
    rw [hload]
    exact .refl _
  cases h with
  | start => exact hsame rfl
  | stop => exact hsame rfl
  | bringDown => exact hsame rfl
  | restart hfree hp hf hr hwatch =>
    obtain ⟨-, rfl⟩ := Supervisor.quiet_of_watch hwatch
    exact hsame rfl
  | @perform uptime piece rest htodo =>
    have hload := w.supervisor.load_perform uptime piece
    show (Supervisor.load _).users.Subperm w.users
    rw [hload]
    cases piece with
    | clear => exact Load.users_subperm (.refl _) (List.sublist_append_right _ _).subperm
    | forget => exact Load.users_subperm (List.nil_sublist _) (.refl _)
    | _ => exact .refl _
  | pass _ hfree h => exact hsame (Supervisor.load_screen_passes h).1
  | @submission e c hp he h hparked houtput =>
    have hentries := Concurrent.entries_of_submission (Concurrent.effect_of_step h) he
    have hmatched : (w.afterwards c).supervisor.load.matched = w.supervisor.load.matched := by
      show c.relay.bridge.output.items ++ _ = _
      rw [houtput]
      rfl
    have hpopped : e.incident.popped? = none := by cases e <;> rfl
    have hall := hentries.append (List.Subperm.refl (w.supervisor.load.matched.map Matched.user))
    rw [List.append_assoc] at hall
    rw [hpopped, users, users, Load.users, Load.users, hmatched]
    exact hall
  | commit => exact hsame rfl
  | deliver uptime item => exact w.supervisor.users_receive uptime item
  | resumeDelivery h =>
    obtain ⟨hpending, hmatched, -⟩ := Supervisor.load_resumeNext? h
    exact Load.users_subperm (by rw [hpending]) hmatched
  | @pop m s h =>
    have hload := (Supervisor.load_pop? h).1
    show (m.user :: s.load.users).Subperm w.supervisor.load.users
    rw [hload]
    exact List.perm_middle.symm.subperm
  | beside _ hc h => exact hsame (Supervisor.load_of_isBeside h hc)

/-- What was taken out was on its way before, or it was registered since; and so it is with what is on
    its way still. -/
theorem users_of_steps {w w' : Station π α} {incidents : List (Incident α)}
    (h : w.Steps incidents w') :
    ((incidents.filterMap Incident.popped?).map Matched.user ++ w'.users).Subperm
      (incidents.filterMap Incident.registered? ++ w.users) := by
  induction h with
  | refl => exact .refl _
  | @tail incidents i w₁ w₂ h hstep ih =>
    have hlast := users_of_step hstep
    generalize hpopped : (incidents.filterMap Incident.popped?).map Matched.user = popped at ih
    generalize hregistered : incidents.filterMap Incident.registered? = registered at ih
    have hpopped' : (i.popped?.toList).map Matched.user = (i.popped?.map Matched.user).toList := by
      cases i <;> rfl
    rw [filterMap_snoc, filterMap_snoc, List.map_append, hpopped', hpopped, hregistered,
      List.append_assoc, List.append_assoc]
    -- the last step takes from what was on its way, which the steps before account for
    have hnow := (List.Subperm.refl popped).append hlast
    have hbefore := (List.Subperm.refl i.registered?.toList).append ih
    exact (hnow.trans (List.perm_append_comm_assoc ..).subperm).trans
      (hbefore.trans (List.perm_append_comm_assoc ..).subperm)

/-! ## The order of the pieces -/

/-- A pipeline that was made stays. -/
theorem installed_of_step {w w' : Station π α} {i : Incident α} (h : w.Step i w')
    (hp : w.supervisor.pipeline.isSome = true) : w'.supervisor.pipeline.isSome = true := by
  cases h with
  | start | stop | bringDown | submission | commit => exact hp
  | restart hfree _ hf hr hwatch =>
    obtain ⟨-, rfl⟩ := Supervisor.quiet_of_watch hwatch
    exact hp
  | perform uptime => exact (w.supervisor.installed_perform uptime _).trans hp
  | pass _ hfree h => rw [(Supervisor.load_screen_passes h).2]; exact hp
  | deliver uptime item =>
    have hcall : w.supervisor.call? uptime (.deliver item) =
        some (.delivered (w.supervisor.receive uptime item).1,
          (w.supervisor.receive uptime item).2) := rfl
    exact Supervisor.installed_of_call? hcall hp
  | resumeDelivery h =>
    exact (congrArg Outlook.installed (Supervisor.outlook_resumeNext? h)).trans hp
  | pop h => rw [(Supervisor.load_pop? h).2]; exact hp
  | beside _ hc h => exact Supervisor.installed_of_call? h hp

/-- Nothing is accepted before there is a pipeline. -/
theorem accepted_of_step {w w' : Station π α} {i : Incident α} (h : w.Step i w')
    (hp : w'.supervisor.pipeline.isSome = false) :
    w'.accepted = w.accepted ∧ i.registered? = none := by
  cases h with
  | submission hinstalled => exact absurd (hinstalled.symm.trans hp) nofun
  | _ => exact ⟨rfl, rfl⟩

/-- Nothing was submitted as long as there is no pipeline. -/
theorem blank_of_step {w w' : Station π α} {i : Incident α} (h : w.Sound) (hstep : w.Step i w')
    (hp : w'.supervisor.pipeline.isSome = false) : w'.users = [] ∧ w'.accepted = [] := by
  have hbefore : w.supervisor.pipeline.isSome = false := by
    cases hinstalled : w.supervisor.pipeline.isSome with
    | false => rfl
    | true => exact absurd ((installed_of_step hstep hinstalled).symm.trans hp) nofun
  obtain ⟨husers, haccepted⟩ := h.blank hbefore
  obtain ⟨hsame, hregistered⟩ := accepted_of_step hstep hp
  have hstepped := users_of_step hstep
  rw [hregistered, husers] at hstepped
  have hnil := List.append_eq_nil_iff.1 (List.subperm_nil.1 hstepped)
  exact ⟨hnil.2, hsame.trans haccepted⟩

/-- A start that goes on had gone on before, or it begins: then nothing is cleared yet, and no delivery
    waits. -/
theorem launching_of_step {w w' : Station π α} {i : Incident α} (hstep : w.Step i w')
    (hplay : Piece.play ∈ w'.todo) :
    Piece.play ∈ w.todo ∨ Piece.clear ∈ w'.todo ∧ w'.supervisor.waiting = [] := by
  cases hstep with
  | start hfree hp hquiet =>
    exact .inr ⟨List.mem_append_right _ (by decide), by simpa [Supervisor.isDelivering] using hquiet⟩
  | stop | bringDown => exact absurd hplay (show Piece.play ∉ Piece.stopping by decide)
  | restart hfree hp hf hr hwatch =>
    obtain ⟨hwaiting, rfl⟩ := Supervisor.quiet_of_watch hwatch
    exact .inr ⟨List.mem_append_right Piece.stopping (by decide), hwaiting⟩
  | perform uptime htodo =>
    rw [htodo]
    exact .inl (List.mem_cons_of_mem _ hplay)
  | pass | submission | commit | deliver | resumeDelivery | pop | beside => exact .inl hplay

/-- While a start goes on, matched frames can only be taken out or thrown away. -/
theorem calm_of_step {w w' : Station π α} {i : Incident α} (h : w.Sound) (hstep : w.Step i w')
    (hplay : Piece.play ∈ w.todo) :
    w'.supervisor.load.output.Sublist w.supervisor.load.output ∧
      w'.supervisor.load.waiting.Sublist w.supervisor.load.waiting := by
  have hbusy : w.todo ≠ [] := List.ne_nil_of_mem hplay
  have hsame : ∀ {s : Supervisor π α}, s.load = w.supervisor.load →
      s.load.output.Sublist w.supervisor.load.output ∧
        s.load.waiting.Sublist w.supervisor.load.waiting := by
    intro s hload
    rw [hload]
    exact ⟨.refl _, .refl _⟩
  cases hstep with
  | start hfree | stop hfree | bringDown hfree | restart hfree | pass _ hfree | commit _ hfree =>
    exact absurd hfree hbusy
  | @perform uptime piece rest htodo =>
    have hload := w.supervisor.load_perform uptime piece
    simp only [hload]
    cases piece with
    | clear => exact ⟨List.nil_sublist _, .refl _⟩
    | _ => exact ⟨.refl _, .refl _⟩
  | submission hp he h hparked houtput =>
    refine ⟨?_, .refl _⟩
    show (List.Sublist _ _)
    rw [show (w.afterwards _).supervisor.load.output = _ from houtput]
    exact .refl _
  | deliver uptime item hquiet => exact absurd hplay hquiet
  | resumeDelivery hresume =>
    rw [Supervisor.resumeNext?, h.quiet hplay] at hresume
    exact nomatch hresume
  | pop hpop =>
    have hload := (Supervisor.load_pop? hpop).1
    rw [hload]
    exact ⟨List.sublist_cons_self _ _, .refl _⟩
  | beside _ hc hcall => exact hsame (Supervisor.load_of_isBeside hcall hc)

/-- A piece that is left to do is not left any more when it is done. -/
theorem performed_of_step {w w' : Station π α} {i : Incident α} {piece : Piece}
    (hstep : w.Step i w') (h : piece ∈ w.todo) (h' : piece ∉ w'.todo) :
    ∃ uptime rest, w.todo = piece :: rest ∧
      w' = { w with supervisor := w.supervisor.perform uptime piece, todo := rest } := by
  have hbusy : w.todo ≠ [] := List.ne_nil_of_mem h
  cases hstep with
  | start hfree | stop hfree | bringDown hfree | restart hfree => exact absurd hfree hbusy
  | @perform uptime first rest htodo =>
    rw [htodo] at h
    rcases List.mem_cons.1 h with rfl | hrest
    · exact ⟨uptime, rest, htodo, rfl⟩
    · exact absurd hrest h'
  | pass | submission | commit | deliver | resumeDelivery | pop | beside => exact absurd h h'

/-- The pieces of a stop and of a start are done in their order. -/
theorem ordered_of_step {w w' : Station π α} {i : Incident α} (h : w.Sound) (hstep : w.Step i w') :
    w'.todo <:+ Piece.stopping ∨ w'.todo <:+ Piece.stopping ++ Piece.starting := by
  cases hstep with
  | start =>
    right
    split
    · exact List.suffix_rfl
    · exact List.suffix_append ..
  | stop | bringDown => exact .inl List.suffix_rfl
  | restart => exact .inr List.suffix_rfl
  | @perform uptime piece rest htodo =>
    have hrest : rest <:+ w.todo := by
      rw [htodo]
      exact List.suffix_cons piece rest
    exact h.ordered.imp hrest.trans hrest.trans
  | pass | submission | commit | deliver | resumeDelivery | pop | beside => exact h.ordered

/-- Every step keeps a station sound. -/
theorem sound_of_step {w w' : Station π α} {i : Incident α} (h : w.Sound) (hstep : w.Step i w') :
    w'.Sound := by
  obtain ⟨e, heffect⟩ := effect_of_step hstep
  constructor
  case separate => exact Concurrent.separate_of_effect h.separate heffect
  case ordered => exact ordered_of_step h hstep
  case quiet =>
    intro hplay
    rcases launching_of_step hstep hplay with hbefore | ⟨-, hwaiting⟩
    · have hcalm := (calm_of_step h hstep hbefore).2
      rw [show w.supervisor.load.waiting = [] from h.quiet hbefore] at hcalm
      exact List.sublist_nil.1 hcalm
    · exact hwaiting
  -- either the output was cleared before and stayed empty, or this step clears it
  case cleared =>
    intro hplay hclear
    rcases launching_of_step hstep hplay with hbefore | ⟨hbegins, -⟩
    · by_cases hleft : Piece.clear ∈ w.todo
      · obtain ⟨uptime, rest, -, rfl⟩ := performed_of_step hstep hleft hclear
        exact congrArg Load.output (w.supervisor.load_perform uptime .clear)
      · have hcalm := (calm_of_step h hstep hbefore).1
        rw [h.cleared hbefore hleft] at hcalm
        exact List.sublist_nil.1 hcalm
    · exact absurd hbegins hclear
  case blank => exact blank_of_step h hstep

/-- A station stays sound whatever the threads do. -/
theorem sound_of_steps {w w' : Station π α} {incidents : List (Incident α)} (h : w.Sound)
    (hsteps : w.Steps incidents w') : w'.Sound :=
  hsteps.keeps sound_of_step h

/-- Frames that were accepted stay accepted. -/
theorem accepted_subset_of_steps {w w' : Station π α} {incidents : List (Incident α)}
    (hsteps : w.Steps incidents w') : w.accepted ⊆ w'.accepted := by
  refine hsteps.keeps (P := fun w' => w.accepted ⊆ w'.accepted) (fun hsub hstep => ?_)
    (List.Subset.refl _)
  obtain ⟨e, heffect⟩ := effect_of_step hstep
  exact List.Subset.trans hsub (Concurrent.accepted_subset_of_effect heffect)

/-! ## What a start leaves of earlier runs -/

/-- When the entries are forgotten, nothing at all is on its way any more. -/
theorem forgotten_of_step {w w' : Station π α} {i : Incident α} (h : w.Sound)
    (hstep : w.Step i w') (hleft : Piece.forget ∈ w.todo) (hdone : Piece.forget ∉ w'.todo) :
    w'.users = [] ∧ w.world.Effect w'.world .forgotten := by
  obtain ⟨uptime, rest, htodo, rfl⟩ := performed_of_step hstep hleft hdone
  -- by the order of the pieces, the output was cleared already
  have hrest : rest = [.reopen, .play] := by
    have hordered := h.ordered
    rw [htodo] at hordered
    simpa [Piece.stopping, Piece.starting, List.suffix_cons_iff] using hordered
  have hplay : Piece.play ∈ w.todo := by simp [htodo, hrest]
  have hclear : Piece.clear ∉ w.todo := by simp [htodo, hrest]
  have houtput := h.cleared hplay hclear
  have hwaiting : w.supervisor.load.waiting = [] := h.quiet hplay
  refine ⟨?_, effect_of_forget uptime rest⟩
  show (Supervisor.load _).users = []
  rw [w.supervisor.load_perform uptime .forget]
  simp [Load.users, Load.matched, houtput, hwaiting, Pending.reset]

/-- Whatever is registered in a step may be on its way after it. -/
theorem Renewed.step {w₁ w w' : Station π α} {registered : List α} {i : Incident α}
    (h : Renewed w₁ registered w) (hw : w.Sound) (haccepted : w₁.accepted ⊆ w.accepted)
    (hstep : w.Step i w') : Renewed w₁ (registered ++ i.registered?.toList) w' := by
  obtain ⟨e, heffect⟩ := effect_of_step hstep
  constructor
  · have hlast := (List.sublist_append_right _ _).subperm.trans (users_of_step hstep)
    have hbefore := (List.Subperm.refl i.registered?.toList).append h.users
    exact (hlast.trans hbefore).trans List.perm_append_comm.subperm
  · intro id hid
    exact Concurrent.passes_of_effect heffect hw.separate (haccepted hid) (h.passes id hid)

/-- What is on its way after some steps was registered in them or before. -/
theorem Renewed.steps {w₁ w w' : Station π α} {registered : List α} {incidents : List (Incident α)}
    (h : Renewed w₁ registered w) (hw : w.Sound) (haccepted : w₁.accepted ⊆ w.accepted)
    (hsteps : w.Steps incidents w') :
    Renewed w₁ (registered ++ incidents.filterMap Incident.registered?) w' := by
  induction hsteps with
  | refl =>
    rw [List.filterMap_nil, List.append_nil]
    exact h
  | tail hsteps hstep ih =>
    have hsub := List.Subset.trans haccepted (accepted_subset_of_steps hsteps)
    have hlast := ih.step (sound_of_steps hw hsteps) hsub hstep
    rw [filterMap_snoc, ← List.append_assoc]
    exact hlast

/-- A start that has still to forget the entries goes on until then, and makes everything new. -/
theorem renewed_of_steps {w₁ w : Station π α} {incidents : List (Incident α)} (hw₁ : w₁.Sound)
    (hstarts : w₁.StartsAnew) (hsteps : w₁.Steps incidents w) :
    Piece.forget ∈ w.todo ∨ Renewed w₁ (incidents.filterMap Incident.registered?) w := by
  induction hsteps with
  | refl =>
    rcases hstarts with hleft | hp
    · exact .inl hleft
    · obtain ⟨husers, haccepted⟩ := hw₁.blank hp
      refine .inr ⟨by rw [husers]; exact .refl _, fun id hid => ?_⟩
      rw [haccepted] at hid
      exact absurd hid List.not_mem_nil
  | @tail incidents i w w' hsteps hstep ih =>
    have hw := sound_of_steps hw₁ hsteps
    have haccepted := accepted_subset_of_steps hsteps
    rw [filterMap_snoc]
    rcases ih with hleft | hrenewed
    · by_cases hdone : Piece.forget ∈ w'.todo
      · exact .inl hdone
      · obtain ⟨husers, heffect⟩ := forgotten_of_step hw hstep hleft hdone
        refine .inr ⟨by rw [husers]; exact List.nil_subperm, fun id hid => ?_⟩
        exact Concurrent.passes_of_forgotten heffect hw.separate (haccepted hid)
    · exact .inr (hrenewed.step hw haccepted hstep)

/-! ## Isolation -/

/-- Let a start have still to forget the entries at one moment, and let no start go on at a later one.
    What is taken out after that was registered after the first moment: no frame comes back twice, and
    what the submitters left may tell any two submissions apart.  A result that carries no id but that
    of a frame accepted before the first moment can only be dropped: it is answered as accepted, no
    entry is consumed or passed over, no matched frame is added, and the supervisor does not fail. -/
theorem isolated_of_steps {settings : Settings} {w₁ w₂ w : Station π α}
    {before during after : List (Incident α)} (hbefore : (Station.new settings).Steps before w₁)
    (hstarts : w₁.StartsAnew) (hduring : w₁.Steps during w₂) (hstarted : Piece.play ∉ w₂.todo)
    (hafter : w₂.Steps after w) :
    ((after.filterMap Incident.popped?).map Matched.user).Subperm
      ((during ++ after).filterMap Incident.registered?) ∧
    ∀ x : Sample, (∀ id, x.Carries w.supervisor.relay.store id → id ∈ w₁.accepted) → ∀ uptime,
      ∃ s, w.supervisor.receive uptime (.sample x) = (some .ok, s) ∧
        s.load = w.supervisor.load ∧ s.failed = w.supervisor.failed := by
  have hw₁ := sound_of_steps (.new settings) hbefore
  have hw₂ := sound_of_steps hw₁ hduring
  have haccepted := accepted_subset_of_steps hduring
  have hdone : Piece.forget ∉ w₂.todo := fun hleft => hstarted (hw₂.play_of_forget hleft)
  -- by the second moment the start has forgotten the entries, as it does that before it plays
  have hrenewed := (renewed_of_steps hw₁ hstarts hduring).resolve_left hdone
  refine ⟨?_, fun x hx uptime => ?_⟩
  · have hpopped := (List.sublist_append_left _ _).subperm.trans (users_of_steps hafter)
    have hregistered := (List.Subperm.refl (after.filterMap Incident.registered?)).append
      hrenewed.users
    rw [List.filterMap_append]
    exact (hpopped.trans hregistered).trans List.perm_append_comm.subperm
  · exact (hrenewed.steps hw₂ haccepted hafter).receive hx uptime

/-- A frame of the first run is still with the pipeline when the second run begins, and that of the
    second run comes back and is taken out. -/
theorem isolated_of_second_run : ∃ (w₁ w₂ w : Station Scripted Nat)
    (before during after : List (Incident Nat)),
    (Station.new {}).Steps before w₁ ∧ w₁.StartsAnew ∧ w₁.Steps during w₂ ∧
      Piece.play ∉ w₂.todo ∧ w₂.Steps after w ∧
      (before.filterMap Incident.registered? = [7] ∧
        (after.filterMap Incident.popped?).map Matched.user = [9] ∧
        ((after.filterMap Incident.popped?).map Matched.user).Subperm
          ((during ++ after).filterMap Incident.registered?)) ∧
      Sample.Carries w.supervisor.relay.store ⟨0, none⟩ 0 ∧
      (∀ id, Sample.Carries w.supervisor.relay.store ⟨0, none⟩ id → id ∈ w₁.accepted) ∧
      ∃ s, w.supervisor.receive .zero (.sample ⟨0, none⟩) = (some .ok, s) ∧
        s.load = w.supervisor.load ∧ s.failed = w.supervisor.failed := by
  have hnew : (Station.new {} : Station Scripted Nat).Steps [] (.new {}) := .refl
  -- the first run, whose frame is accepted and pulled
  have hmade := hnew.tail (.beside .zero (c := .install (.ok {})) trivial rfl)
  have hstart₁ := hmade.tail (.start rfl rfl rfl)
  have hcleared₁ := hstart₁.tail (.perform .zero rfl)
  have hforgotten₁ := hcleared₁.tail (.perform .zero rfl)
  have hopen₁ := hforgotten₁.tail (.perform .zero rfl)
  have hplays₁ := hopen₁.tail (.perform .zero rfl)
  have hframes := hplays₁.tail
    (.beside .zero (c := .elsewhere (framesWith [none, none])) trivial rfl)
  have hpassed₁ := hframes.tail (.pass .zero rfl rfl)
  have hfirst := hpassed₁.tail (.submission rfl (by trivial) (.register 0 7 rfl) rfl rfl)
  have hmeasured₁ := hfirst.tail (.submission rfl (by trivial) (.measure (.refl _) rfl) rfl rfl)
  have haccepted₁ := hmeasured₁.tail (.submission rfl (by trivial) (.accept (.refl _) rfl) rfl rfl)
  have hpulled₁ := haccepted₁.tail (.beside .zero (c := .pull) trivial rfl)
  -- the second start finds the first run going on
  have hbefore := hpulled₁.tail (.start rfl rfl rfl)
  have hdrained := hbefore.here.tail (.perform .zero rfl)
  have hclosed := hdrained.tail (.perform .zero rfl)
  have hhalted := hclosed.tail (.perform .zero rfl)
  have hsettled := hhalted.tail (.perform .zero rfl)
  have hcleared₂ := hsettled.tail (.perform .zero rfl)
  have hforgotten₂ := hcleared₂.tail (.perform .zero rfl)
  have hopen₂ := hforgotten₂.tail (.perform .zero rfl)
  have hduring := hopen₂.tail (.perform .zero rfl)
  -- the second run, whose frame comes back
  have hpassed₂ := hduring.here.tail (.pass .zero rfl rfl)
  have hsecond := hpassed₂.tail (.submission rfl (by trivial) (.register 1 9 rfl) rfl rfl)
  have hmeasured₂ := hsecond.tail (.submission rfl (by trivial) (.measure (.refl _) rfl) rfl rfl)
  have haccepted₂ := hmeasured₂.tail (.submission rfl (by trivial) (.accept (.refl _) rfl) rfl rfl)
  have hpulled₂ := haccepted₂.tail (.beside .zero (c := .pull) trivial rfl)
  have hreturned := hpulled₂.tail (.deliver .zero (.sample ⟨1, none⟩) List.not_mem_nil)
  have hafter := hreturned.tail (.pop rfl)
  have hstarts : Piece.forget ∈ Piece.stopping ++ Piece.starting := by decide
  obtain ⟨hpopped, hlate⟩ :=
    isolated_of_steps hbefore (.inl hstarts) hduring List.not_mem_nil hafter
  have honly : ∀ {s : Store} {c : Content}, s.content? 0 = some c → c.info.id = some 0 →
      ∀ id, Sample.Carries s ⟨0, none⟩ id → id ∈ [0] := by
    rintro s c hc hid id ⟨c', hc', hid'⟩
    obtain ⟨-, rfl⟩ := Store.content?_unique hc hid hc' hid'
    exact List.mem_singleton_self _
  exact ⟨_, _, _, _, _, _, hbefore, .inl hstarts, hduring, List.not_mem_nil, hafter,
    ⟨rfl, rfl, hpopped⟩, ⟨_, rfl, rfl⟩, honly rfl rfl, hlate ⟨0, none⟩ (honly rfl rfl) .zero⟩

end Station

end MediaBridge
