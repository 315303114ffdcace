import MediaBridge.Proofs.Pipeline.Moves
import MediaBridge.Proofs.Supervisor.Handover
import MediaBridge.Proofs.Supervisor.Watchdog

/-! # The phase that people see

People are told of a move when it is taken off the bus.  While the pipeline runs the reader does that,
and a stop follows the moves that are left.  A start of a stopped pipeline throws away what is on the
bus, and there are moves on it if an earlier start was refused on the way.

* `passes_of_call?`   what a call does to the moves on the bus, and what people are told;
* `left_of_call?`     a pipeline that is stopped left moves on the bus only if it was refused;
* `told_of_run`       when the moves that people are told follow each other, and when the phase they
  see is the right one.
-/

namespace MediaBridge

variable {π : Type u} {α : Type v}

/-- What the moves in the messages do to what people see. -/
theorem Outlook.hears_foldl (ms : Backlog) {o : Outlook} (hobserver : o.observer.isSome = true) :
    (ms.foldl hear o).observer = o.observer ∧
      (ms.foldl hear o).phase = o.phase.after ms.moves ∧
      (ms.foldl hear o).reports.map Report.move = o.reports.map Report.move ++ ms.moves := by
  induction ms generalizing o with
  | nil => exact ⟨rfl, rfl, (List.append_nil _).symm⟩
  | cons m rest ih =>
    obtain ⟨name, hname⟩ := Option.isSome_iff_exists.1 hobserver
    -- what one message does; only a move of the whole pipeline does anything
    have hfirst : (o.hear m).observer = o.observer ∧
        (o.hear m).phase = o.phase.after m.move?.toList ∧
        (o.hear m).reports.map Report.move = o.reports.map Report.move ++ m.move?.toList := by
      unfold hear
      split
      · exact ⟨rfl, rfl, by simp [hname, Message.move?]⟩
      · rename_i hother
        have hnone : m.move? = none := by
          cases m with
          | phaseChanged source old new pending =>
            cases source with
            | pipeline => exact absurd rfl (hother old new pending)
            | element => rfl
          | _ => rfl
        rw [hnone]
        exact ⟨rfl, rfl, (List.append_nil _).symm⟩
    obtain ⟨hobs, hphase, hreports⟩ := hfirst
    obtain ⟨hobs', hphase', hreports'⟩ := ih (o := o.hear m) (by rw [hobs]; exact hobserver)
    rw [List.foldl_cons, hobs', hphase', hreports', hobs, hphase, hreports, Backlog.moves_cons,
      Phase.after_append, List.append_assoc]
    exact ⟨rfl, rfl, rfl⟩

namespace Supervisor

/-- The phase that the pipeline is really in. -/
def actual (phase : π → Phase) (s : Supervisor π α) : Phase := (s.pipeline.map phase).getD .null

/-- The moves that people were told of, oldest first. -/
def told (s : Supervisor π α) : List Move := s.reports.map Report.move

/-- The moves on the bus. -/
def unread (s : Supervisor π α) : List Move := Backlog.moves s.bus

/-- Moves were thrown away, and then people were told of others; whatever else the pipeline posted is on
    the bus. -/
structure Passes (phase : π → Phase) (s : Supervisor π α) (lost heard : List Move)
    (s' : Supervisor π α) : Prop where
  moves : ∃ posted, s.unread ++ posted = lost ++ heard ++ s'.unread ∧
    (s.actual phase).Leads posted (s'.actual phase)
  observer : s'.observer.isSome = true
  phase : s'.phase = s.phase.after heard
  told : s'.told = s.told ++ heard

section Passes

variable {phase : π → Phase} {s s' s'' : Supervisor π α} {lost heard heard' : List Move}

/-- If nothing is thrown away later, what people are told first comes first. -/
theorem Passes.trans (h : s.Passes phase lost heard s') (h' : s'.Passes phase [] heard' s'') :
    s.Passes phase lost (heard ++ heard') s'' := by
  obtain ⟨posted, hmoves, hleads⟩ := h.moves
  obtain ⟨posted', hmoves', hleads'⟩ := h'.moves
  refine ⟨⟨posted ++ posted', ?_, hleads.append hleads'⟩, h'.observer, ?_, ?_⟩
  · rw [← List.append_assoc, hmoves, List.append_assoc _ s'.unread, hmoves']
    simp only [List.append_assoc, List.nil_append]
  · rw [h'.phase, h.phase, Phase.after_append]
  · rw [h'.told, h.told, List.append_assoc]

/-- Nothing is posted, and nobody is told anything. -/
theorem Passes.of_unseen (h : s.Unseen s') (hobserver : s'.observer.isSome = true)
    (hactual : s'.actual phase = s.actual phase) : s.Passes phase [] [] s' where
  moves := by
    refine ⟨[], ?_, hactual.symm⟩
    rw [unread, unread, h.bus, List.append_nil]
    rfl
  observer := hobserver
  phase := h.phase
  told := by rw [Supervisor.told, Supervisor.told, h.reports, List.append_nil]

/-- Nothing at all happens. -/
theorem Passes.refl (hobserver : s.observer.isSome = true) : s.Passes phase [] [] s :=
  .of_unseen (.refl s) hobserver rfl

/-- The messages on the bus are thrown away. -/
theorem Passes.flushed (hobserver : s.observer.isSome = true) :
    s.Passes phase s.unread [] { s with bus := [] } :=
  ⟨⟨[], by simp [unread], rfl⟩, hobserver, rfl, (List.append_nil _).symm⟩

/-- Messages are taken off the bus, and people are told of the moves among them. -/
theorem Passes.read {read : List Message} (hobserver : s.observer.isSome = true)
    (hbus : s.unread = Backlog.moves read ++ s'.unread)
    (houtlook : s'.outlook = read.foldl Outlook.hear s.outlook)
    (hpipeline : s'.pipeline = s.pipeline) : s.Passes phase [] (Backlog.moves read) s' := by
  obtain ⟨hobs, hphase, hreports⟩ := Outlook.hears_foldl read (o := s.outlook) hobserver
  rw [← houtlook] at hobs hphase hreports
  refine ⟨⟨[], ?_, ?_⟩, ?_, hphase, hreports⟩
  · rw [List.append_nil, List.nil_append, hbus]
  · show s.actual phase = s'.actual phase
    rw [actual, actual, hpipeline]
  · exact (congrArg Option.isSome hobs).trans hobserver

end Passes

/-! ## Requests, stops and starts -/

section Lifecycle

variable [MediaPipeline π] {phase : π → Phase} {s : Supervisor π α}

/-- What the pipeline posts leads from its old phase to its new one, and it is on the bus. -/
theorem passes_request (hphase : Stepwise phase) (hobserver : s.observer.isSome = true) {p : π}
    (hp : s.pipeline = some p) (target : Phase) :
    s.Passes phase [] [] (s.request p target).2 := by
  have hactual : s.actual phase = phase p := by rw [actual, hp]; rfl
  have hleads := hphase.leads p target s.relay.store s.relay.ingest.caps
  rw [← hactual] at hleads
  exact ⟨⟨_, (Backlog.moves_append ..).symm, hleads⟩, hobserver, rfl, (List.append_nil _).symm⟩

/-- The null phase is asked for, if there is a pipeline, and a refusal is noted. -/
theorem passes_halt (hphase : Stepwise phase) (hobserver : s.observer.isSome = true) :
    s.Passes phase [] [] s.halt := by
  cases hp : s.pipeline with
  | none =>
    rw [halt_of_none hp]
    exact .refl hobserver
  | some p =>
    have hrequest := passes_request hphase hobserver hp .null
    rcases halt_of_some hp with h | ⟨e, h⟩
    · rw [h]
      exact hrequest
    · rw [h]
      exact hrequest.trans (.of_unseen (unseen_note _ _) hrequest.observer rfl)

/-- Stopping tells people of every move that is left. -/
theorem passes_bringDown (hphase : Stepwise phase) (hobserver : s.observer.isSome = true)
    (uptime : Span) : ∃ heard, s.Passes phase [] heard (s.bringDown uptime) := by
  have hobserver' : (s.letGo uptime).observer.isSome = true := by
    rcases s.eased_letGo uptime with h | h <;>
      exact (congrArg (fun o => o.observer.isSome) h).trans hobserver
  have hactual : (s.letGo uptime).actual phase = s.actual phase := by
    rw [actual, actual, pipeline_letGo]
  have hletGo : s.Passes phase [] [] (s.letGo uptime) :=
    .of_unseen (s.unseen_letGo uptime) hobserver' hactual
  -- the null phase is asked for before the rest of the bus is followed, so its moves are heard of
  -- too
  have hhalt := hletGo.trans (passes_halt hphase hobserver')
  have hrest := alike_followRest { (s.letGo uptime).halt with reader := .absent }
  have hbus : (s.bringDown uptime).bus = [] := congrArg Core.bus hrest.core
  refine ⟨_, hhalt.trans (.read hhalt.observer ?_ (outlook_settle _) hrest.pipeline)⟩
  show _ = _ ++ Backlog.moves (s.bringDown uptime).bus
  rw [Backlog.moves_filter, hbus]
  exact (List.append_nil _).symm

/-- A stop leaves no move on the bus. -/
theorem unread_bringDown (s : Supervisor π α) (uptime : Span) : (s.bringDown uptime).unread = [] := by
  have hbus : (s.bringDown uptime).bus = [] := congrArg Core.bus (core_bringDown s uptime)
  rw [unread, hbus]
  rfl

/-- Whatever the pipeline answers, its moves are on the bus, from which everything else is gone. -/
theorem passes_launch (hphase : Stepwise phase) (hobserver : s.observer.isSome = true) {p : π}
    (hp : s.pipeline = some p) (uptime : Span) :
    s.Passes phase s.unread [] (s.launch p uptime).2 := by
  have hprepare : ({ s with bus := [] } : Supervisor π α).Passes phase [] [] s.prepare :=
    .of_unseen ⟨rfl, rfl, rfl, rfl⟩ hobserver rfl
  have hrequest := ((Passes.flushed hobserver).trans hprepare).trans
    (passes_request hphase (s := s.prepare) hobserver hp .playing)
  unfold launch
  generalize s.prepare.request p .playing = requested at hrequest
  obtain ⟨result, s₁⟩ := requested
  cases result with
  | error e => exact hrequest.trans (.of_unseen ⟨rfl, rfl, rfl, rfl⟩ hrequest.observer rfl)
  | ok =>
    obtain ⟨hmoves, hobserver', hphase', htold⟩ := hrequest
    exact ⟨hmoves, hobserver', hphase', htold⟩

end Lifecycle

/-! ## Calls -/

/-- Whether a call has nothing to do with the pipeline and its moves. -/
def Call.IsRemote : Call π α → Prop
  | .install _ | .start | .stop | .submit .. | .post _ | .evolve _ | .read => False
  | _ => True

/-- The moves that a turn throws away: a start of a stopped pipeline empties the bus. -/
def Turn.lost (t : Turn π α) : List Move :=
  match t.call with
  | .start => if t.before.pipeline.isSome && !t.before.isRunning then t.before.unread else []
  | _ => []

/-- The moves that people were told of in a turn. -/
def Turn.heard (t : Turn π α) : List Move := t.after.told.drop t.before.told.length

/-- Whether a pipeline that is put in is in the null phase, and whether the pipeline moves only when it
    is asked for a phase. -/
def Turn.IsOrderly (phase : π → Phase) (t : Turn π α) : Prop :=
  match t.call with
  | .install (.ok p) => phase p = .null
  | .post messages => Backlog.moves messages = []
  | .evolve p => ∀ q, t.before.pipeline = some q → phase p = phase q
  | _ => True

/-- Whether the pipeline refuses to begin a run in a turn. -/
def Turn.Refused (t : Turn π α) : Prop :=
  (t.call = .start ∨ t.Restarts) ∧ t.before.pipeline.isSome = true ∧ t.after.isRunning = false

/-- A pipeline that is put in is as good as none as long as it is in the null phase. -/
theorem passes_install {phase : π → Phase} {s : Supervisor π α} {made : Except Error π}
    (hobserver : s.observer.isSome = true) (hmade : ∀ p, made = .ok p → phase p = .null) :
    s.Passes phase [] [] (s.install made).2 := by
  unfold install
  split
  · exact .refl hobserver
  · exact .refl hobserver
  · rename_i p hp
    refine .of_unseen ⟨rfl, rfl, rfl, rfl⟩ hobserver ?_
    simp only [actual, hp, Option.map_some, Option.map_none, Option.getD_some, Option.getD_none]
    exact hmade p rfl

/-- The reader takes one message, if there is one, and people are told if it is a move. -/
theorem passes_readNext {phase : π → Phase} {s : Supervisor π α}
    (hobserver : s.observer.isSome = true) :
    ∃ heard, s.Passes phase [] heard s.readNext := by
  rcases s.readNext_cases with ⟨m, rest, -, hbus, hread⟩ | hidle
  · have houtlook : s.readNext.outlook = [m].foldl Outlook.hear s.outlook := by
      rw [hread]
      exact outlook_handle ..
    have hrest : s.readNext.bus = rest := by
      rw [hread]
      exact bus_handle ..
    refine ⟨_, .read hobserver ?_ houtlook ?_⟩
    · rw [unread, unread, hbus, hrest]
      exact Backlog.moves_append [m] rest
    · rw [hread, pipeline_handle]
  · rw [hidle]
    exact ⟨_, .refl hobserver⟩

section Calls

variable [MediaPipeline π] {phase : π → Phase} {s s' : Supervisor π α} {uptime : Span}
  {c : Call π α} {a : Answer α}

/-- Calls that have nothing to do with the pipeline leave it alone, and do not take the observer
    away. -/
theorem remote_of_call? (h : s.call? uptime c = some (a, s')) (hc : c.IsRemote) :
    s'.pipeline = s.pipeline ∧ (s.observer.isSome = true → s'.observer.isSome = true) := by
  cases c with
  | install | start | stop | submit | post | evolve | read => exact hc.elim
  | resumeSubmit w =>
    obtain ⟨⟨accepted, s₁⟩, hresume, heq⟩ := Option.map_eq_some_iff.1 h
    cases heq
    obtain ⟨⟨taken, r⟩, -, heq⟩ := Option.map_eq_some_iff.1 hresume
    cases taken <;> cases heq <;> exact ⟨rfl, id⟩
  | deliver item =>
    cases h
    unfold receive
    cases item with
    | endOfStream => exact ⟨rfl, id⟩
    | sample x =>
      simp only
      rcases s.relay.deliver (.sample x) with ⟨(e | ⟨⟩) | m, r⟩ <;> exact ⟨rfl, id⟩
  | resumeDelivery =>
    obtain ⟨s₁, hresume, heq⟩ := Option.map_eq_some_iff.1 h
    cases heq
    have hobs := congrArg Outlook.observer (outlook_resumeNext? hresume)
    exact ⟨(alike_resumeNext? hresume).pipeline, fun hs => (congrArg Option.isSome hobs).trans hs⟩
  | observe observer =>
    cases h
    exact ⟨rfl, fun _ => rfl⟩
  | setInputCaps caps =>
    simp only [call?] at h
    cases hset : s.setInputCaps caps with
    | error e =>
      rw [hset] at h
      cases h
      exact ⟨rfl, id⟩
    | ok s₁ =>
      rw [hset] at h
      cases h
      unfold setInputCaps at hset
      split at hset <;> cases hset
      exact ⟨rfl, id⟩
  | pop =>
    simp only [call?, pop?] at h
    cases hpop : s.relay.pop? with
    | none =>
      rw [hpop] at h
      cases h
      exact ⟨rfl, id⟩
    | some popped =>
      rw [hpop] at h
      cases h
      exact ⟨rfl, id⟩
  | pull =>
    simp only [call?, pull?] at h
    cases hpull : s.relay.pull? with
    | none =>
      rw [hpull] at h
      cases h
      exact ⟨rfl, id⟩
    | some pulled =>
      rw [hpull] at h
      cases h
      exact ⟨rfl, id⟩
  | takeFatal | endStream | agreeCaps | elsewhere =>
    cases h
    exact ⟨rfl, id⟩

/-- Calls that have nothing to do with the pipeline leave the moves on the bus, and nobody is told
    anything. -/
theorem passes_remote (h : s.call? uptime c = some (a, s')) (hc : c.IsRemote)
    (hobserver : s.observer.isSome = true) : s.Passes phase [] [] s' := by
  have hunseen : s.Unseen s' := by
    cases c with
    | install | start | stop | submit | post | evolve | read => exact hc.elim
    | _ => exact unseen_of_call? h trivial
  obtain ⟨hpipeline, hkept⟩ := remote_of_call? h hc
  exact .of_unseen hunseen (hkept hobserver) (by rw [actual, actual, hpipeline])

/-- A stop of a pipeline that runs, and nothing otherwise. -/
theorem passes_dispose (hphase : Stepwise phase) (hobserver : s.observer.isSome = true)
    (uptime : Span) : ∃ heard, s.Passes phase [] heard (s.dispose uptime) := by
  unfold dispose
  split
  · exact passes_bringDown hphase hobserver uptime
  · exact ⟨_, .refl hobserver⟩

/-- A start throws away the moves on the bus if it finds a stopped pipeline; a running one is
    stopped first, which tells people of them. -/
theorem passes_start (hphase : Stepwise phase) (hobserver : s.observer.isSome = true)
    (uptime : Span) :
    ∃ heard, s.Passes phase
      (if s.pipeline.isSome && !s.isRunning then s.unread else []) heard (s.start uptime).2 := by
  cases hp : s.pipeline with
  | none =>
    rw [start_eq_dispose hp]
    exact passes_dispose hphase hobserver uptime
  | some p =>
    obtain ⟨q, hq, hstart⟩ := start_eq_launch (s := s) (by rw [hp]; rfl) uptime
    rw [hstart]
    -- the bus is only emptied unread if there is no stop before it
    cases hr : s.isRunning with
    | false =>
      have hidle : s.dispose uptime = s := by simp [dispose, hr]
      rw [hidle] at hq ⊢
      exact ⟨_, passes_launch hphase hobserver hq uptime⟩
    | true =>
      have hdispose : s.dispose uptime = s.bringDown uptime := by simp [dispose, hr]
      rw [hdispose] at hq ⊢
      obtain ⟨heard, hdown⟩ := passes_bringDown hphase hobserver uptime
      have hlaunch := passes_launch hphase hdown.observer hq uptime
      rw [unread_bringDown] at hlaunch
      exact ⟨_, hdown.trans hlaunch⟩

/-- Screening throws no moves away, since the watchdog strikes only at a pipeline that runs. -/
theorem passes_screen (hphase : Stepwise phase) (hobserver : s.observer.isSome = true)
    (uptime : Span) : ∃ heard, s.Passes phase [] heard (s.screen uptime).2 := by
  have hscreens := s.screens_screen uptime
  generalize s.screen uptime = screened at hscreens
  have hsame : ∀ {s' : Supervisor π α}, s.Unseen s' → s'.observer = s.observer →
      s'.pipeline = s.pipeline → s.Passes phase [] [] s' := by
    intro s' hunseen hobs hpipeline
    exact .of_unseen hunseen (by rw [hobs]; exact hobserver) (by rw [actual, actual, hpipeline])
  cases hscreens with
  | uninstalled | turnedDown | idle => exact ⟨_, .refl hobserver⟩
  | lively | struck => exact ⟨_, hsame ⟨rfl, rfl, rfl, rfl⟩ rfl rfl⟩
  | broughtDown =>
    have hnoted := hsame (s.unseen_note .stoppingFailed) rfl rfl
    obtain ⟨heard, hdown⟩ := passes_bringDown hphase hnoted.observer uptime
    exact ⟨_, hnoted.trans hdown⟩
  | restarted hp _ _ _ _ h | unrestarted hp _ _ _ _ h =>
    obtain ⟨q, hq, hrestart⟩ := restart_eq_launch (s := { s with stalls := s.stalls + 1 }) hp uptime
    rw [h] at hrestart
    have hunseen :
        s.Unseen (({ s with stalls := s.stalls + 1 }.note .watchdog).count .restarts) :=
      ⟨rfl, rfl, rfl, rfl⟩
    have hnoted := hsame hunseen rfl rfl
    obtain ⟨heard, hdown⟩ := passes_bringDown hphase hnoted.observer uptime
    have hlaunch := passes_launch hphase hdown.observer hq uptime
    rw [unread_bringDown, ← hrestart] at hlaunch
    exact ⟨_, (hnoted.trans hdown).trans hlaunch⟩

/-- The moves on the bus, and what people are told, after any call. -/
theorem passes_of_call? (hphase : Stepwise phase) (h : s.call? uptime c = some (a, s'))
    (hobserver : s.observer.isSome = true) (horderly : Turn.IsOrderly phase ⟨s, uptime, c, a, s'⟩) :
    ∃ heard, s.Passes phase (Turn.lost ⟨s, uptime, c, a, s'⟩) heard s' := by
  cases c with
  | install made =>
    cases h
    refine ⟨_, passes_install hobserver fun p hp => ?_⟩
    subst hp
    exact horderly
  | start =>
    cases h
    exact passes_start hphase hobserver uptime
  | stop =>
    cases h
    unfold stop
    split
    · exact ⟨_, .refl hobserver⟩
    · exact passes_bringDown hphase hobserver uptime
  | submit frame user =>
    cases h
    obtain ⟨heard, hscreen⟩ := passes_screen hphase hobserver uptime
    rw [submit_eq_screen]
    generalize s.screen uptime = screened at hscreen
    obtain ⟨result | now, s₁⟩ := screened
    · exact ⟨_, hscreen.trans (.of_unseen ⟨rfl, rfl, rfl, rfl⟩ hscreen.observer rfl)⟩
    · have hobs := congrArg Outlook.observer (s₁.outlook_forward frame user now)
      have hpipeline := (s₁.restarts_forward frame user now).2.2
      refine ⟨_, hscreen.trans (.of_unseen (s₁.unseen_forward frame user now) ?_ ?_)⟩
      · exact (congrArg Option.isSome hobs).trans hscreen.observer
      · simp only [actual, hpipeline]
  | post messages =>
    cases h
    have hnone : Backlog.moves messages = [] := horderly
    have hbus : (s.post messages).unread = s.unread := by
      rw [unread, unread, post, Backlog.moves_append, hnone, List.append_nil]
    refine ⟨[], ⟨⟨[], ?_, rfl⟩, hobserver, rfl, (List.append_nil _).symm⟩⟩
    rw [hbus, List.append_nil]
    rfl
  | evolve p =>
    cases h
    refine ⟨_, .of_unseen ⟨rfl, rfl, rfl, rfl⟩ hobserver ?_⟩
    cases hp : s.pipeline with
    | none => simp [actual, hp]
    | some q => simpa [actual, hp] using horderly q hp
  | read =>
    cases h
    exact passes_readNext hobserver
  | _ => exact ⟨_, passes_remote h trivial hobserver⟩

/-! ## Moves that a stopped pipeline left on the bus -/

/-- A pipeline that is not running after a start got stuck on its way up, and its moves are on the
    bus. -/
theorem stuck_launch (s : Supervisor π α) (p : π) (uptime : Span)
    (hr : (s.launch p uptime).2.isRunning = false) : Stuck π (s.launch p uptime).2.unread := by
  rw [unread, bus_launch]
  cases hresult : (MediaPipeline.setPhase p .playing s.prepare.relay.store
      s.prepare.relay.ingest.caps).result with
  | error e => exact ⟨p, _, _, e, hresult, rfl⟩
  | ok =>
    have hrequest : (s.prepare.request p .playing).1 = .ok () := hresult
    unfold launch at hr
    generalize s.prepare.request p .playing = requested at hrequest hr
    obtain ⟨result, s₁⟩ := requested
    cases hrequest
    exact nomatch hr

/-- A submission leaves moves of a stopped pipeline on the bus if the pipeline refused a restart, or if
    they were there before. -/
theorem left_submit {frame : HandleId} {user : α}
    (hr : (s.submit uptime frame user).2.isRunning = false) :
    (s.submit uptime frame user).2.unread = [] ∨
    ((s.submit uptime frame user).2.relay.restarts ≠ s.relay.restarts ∧ s.pipeline.isSome = true) ∧
      Stuck π (s.submit uptime frame user).2.unread ∨
    s.isRunning = false ∧ (s.submit uptime frame user).2.unread = s.unread := by
  have hpasses : ∀ (s : Supervisor π α) (now : ClockTime),
      (s.forward frame user now).2.isRunning = s.isRunning ∧
        (s.forward frame user now).2.unread = s.unread := by
    intro s now
    refine ⟨(s.restarts_forward frame user now).2.1, ?_⟩
    rw [unread, unread, (s.unseen_forward frame user now).bus]
  have hscreens := s.screens_screen uptime
  rw [submit_eq_screen] at hr ⊢
  generalize s.screen uptime = screened at hscreens hr
  cases hscreens with
  | uninstalled | turnedDown => exact .inr (.inr ⟨hr, rfl⟩)
  | broughtDown => exact .inl ((s.note .stoppingFailed).unread_bringDown uptime)
  | idle =>
    rw [(hpasses _ _).1] at hr
    exact .inr (.inr ⟨hr, (hpasses _ _).2⟩)
  | lively _ _ hr' | struck _ _ hr' =>
    rw [(hpasses _ _).1] at hr
    exact absurd (hr'.symm.trans hr) nofun
  | restarted hp _ _ _ _ h | unrestarted hp _ _ _ _ h =>
    obtain ⟨q, -, hrestart⟩ := restart_eq_launch (s := { s with stalls := s.stalls + 1 }) hp uptime
    have hrestarts := (restarts_restart (s := { s with stalls := s.stalls + 1 }) hp uptime).1
    have hstuck := stuck_launch
      ((({ s with stalls := s.stalls + 1 }.note .watchdog).count .restarts).bringDown uptime) q uptime
    rw [← hrestart, h] at hstuck
    rw [h] at hrestarts
    refine .inr (.inl ⟨⟨?_, Option.isSome_of_eq_some hp⟩, hstuck hr⟩)
    intro hsame
    -- the watchdog has counted its restart
    have hone : s.relay.restarts + 1 = s.relay.restarts := hrestarts.symm.trans hsame
    simp at hone

/-- What a stopped pipeline left on the bus after a call: nothing, or it was refused on its way to the
    playing phase, or it was left there before. -/
theorem left_of_call? (h : s.call? uptime c = some (a, s'))
    (horderly : Turn.IsOrderly phase ⟨s, uptime, c, a, s'⟩) (hr : s'.isRunning = false) :
    s'.unread = [] ∨
    Turn.Refused ⟨s, uptime, c, a, s'⟩ ∧ Stuck π s'.unread ∨
    s.isRunning = false ∧ s'.unread = s.unread ∧ (s.pipeline.isSome = true → c ≠ .start ∧ c ≠ .stop) := by
  have hidle : ¬c.IsControl → s.isRunning = false := by
    intro hc
    rw [← isRunning_of_call? h hc]
    exact hr
  have hother : ¬c.IsControl → c ≠ .start ∧ c ≠ .stop := by
    intro hc
    constructor <;> rintro rfl <;> exact hc trivial
  cases c with
  | start =>
    cases h
    cases hp : s.pipeline with
    | none =>
      rw [start_eq_dispose hp] at hr ⊢
      simp only at hr ⊢
      unfold dispose at hr ⊢
      split
      · exact .inl (s.unread_bringDown uptime)
      · rename_i hstopped
        refine .inr (.inr ⟨Bool.eq_false_iff.2 hstopped, rfl, fun hsome => ?_⟩)
        cases hsome
    | some p =>
      have hinstalled : s.pipeline.isSome = true := Option.isSome_of_eq_some hp
      refine .inr (.inl ⟨⟨.inl rfl, hinstalled, hr⟩, ?_⟩)
      obtain ⟨q, -, hstart⟩ := start_eq_launch hinstalled uptime
      rw [hstart] at hr ⊢
      exact stuck_launch _ _ _ hr
  | stop =>
    cases h
    unfold stop at hr ⊢
    cases hp : s.pipeline with
    | none =>
      rw [hp] at hr
      refine .inr (.inr ⟨hr, rfl, fun hsome => ?_⟩)
      cases hsome
    | some p => exact .inl (s.unread_bringDown uptime)
  | submit frame user =>
    cases h
    rcases left_submit hr with hnone | ⟨⟨hrestarts, hp⟩, hstuck⟩ | ⟨hstopped, hsame⟩
    · exact .inl hnone
    · exact .inr (.inl ⟨⟨.inr hrestarts, hp, hr⟩, hstuck⟩)
    · refine .inr (.inr ⟨hstopped, hsame, fun _ => ?_⟩)
      constructor <;> intro heq <;> cases heq
  | post messages =>
    cases h
    have hnone : Backlog.moves messages = [] := horderly
    refine .inr (.inr ⟨hidle id, ?_, fun _ => hother id⟩)
    rw [unread, unread, post, Backlog.moves_append, hnone, List.append_nil]
  | read =>
    cases h
    rcases s.readNext_cases with ⟨m, rest, hreading, -, -⟩ | hsame
    · have habsent : s.reader = .absent := by simpa [isRunning] using hidle id
      rw [hreading] at habsent
      cases habsent
    · rw [hsame]
      exact .inr (.inr ⟨hidle id, rfl, fun _ => hother id⟩)
  | install made =>
    cases h
    refine .inr (.inr ⟨hidle id, ?_, fun _ => hother id⟩)
    unfold install
    split <;> rfl
  | evolve p =>
    cases h
    exact .inr (.inr ⟨hidle id, rfl, fun _ => hother id⟩)
  | _ =>
    refine .inr (.inr ⟨hidle id, ?_, fun _ => hother id⟩)
    rw [unread, unread, (unseen_of_call? h trivial).bus]

end Calls

/-! ## Runs -/

/-- Where the moves are that the pipeline made, and what people see. -/
structure Mirrored (phase : π → Phase) (turns : List (Turn π α)) (s : Supervisor π α) : Prop where
  observer : s.observer.isSome = true
  /-- With those that were thrown away put back, the moves follow each other. -/
  moves : Phase.null.Leads (turns.flatMap (fun t => t.lost ++ t.heard) ++ s.unread) (s.actual phase)
  told : s.told = turns.flatMap Turn.heard
  phase : s.phase = Phase.null.after s.told

/-- Moves are thrown away only by a start of a stopped pipeline, and then all of them are. -/
theorem before_of_lost {t : Turn π α} (h : t.lost ≠ []) :
    t.call = .start ∧ t.before.isRunning = false ∧ t.lost = t.before.unread := by
  obtain ⟨s, uptime, c, a, s'⟩ := t
  cases c with
  | start =>
    have hlost : Turn.lost ⟨s, uptime, .start, a, s'⟩ =
        if s.pipeline.isSome && !s.isRunning then s.unread else [] := rfl
    rw [hlost] at h ⊢
    split at h
    · rename_i hcond
      rw [if_pos hcond]
      simp only [Bool.and_eq_true, Bool.not_eq_true'] at hcond
      exact ⟨rfl, hcond.2, rfl⟩
    · exact absurd rfl h
  | _ => exact absurd rfl h

/-- As long as nothing is thrown away, people are told of everything that is not on the bus. -/
theorem Mirrored.leads {phase : π → Phase} {turns : List (Turn π α)} {s : Supervisor π α}
    (h : Mirrored phase turns s) (hlost : ∀ t ∈ turns, t.lost = []) :
    Phase.null.Leads s.told s.phase ∧ s.phase.Leads s.unread (s.actual phase) := by
  have hheard : turns.flatMap (fun t => t.lost ++ t.heard) = s.told := by
    rw [h.told]
    apply List.flatMap_congr
    intro t ht
    rw [hlost t ht, List.nil_append]
  have hmoves := h.moves
  rw [hheard, Phase.leads_append, ← h.phase] at hmoves
  exact hmoves

section Runs

variable [MediaPipeline π]

/-- What a stopped pipeline left on the bus, it left there when it was last refused. -/
def Leftover (turns : List (Turn π α)) (s : Supervisor π α) : Prop :=
  s.pipeline.isSome = true ∧ Stuck π s.unread ∧
    ∃ earlier t between, turns = earlier ++ t :: between ∧ t.Refused ∧ t.after.unread = s.unread ∧
      ∀ t' ∈ between, t'.call ≠ .start ∧ t'.call ≠ .stop

variable {phase : π → Phase} {settings : Settings} {observer : String}
  {turns : List (Turn π α)} {s : Supervisor π α}

/-- As long as the pipeline is orderly, the moves follow each other in every run. -/
theorem mirrored_of_run (hphase : Stepwise phase)
    (run : Run ((new settings).observe observer) turns s)
    (horderly : ∀ t ∈ turns, t.IsOrderly phase) : Mirrored phase turns s := by
  induction run with
  | start => exact ⟨rfl, rfl, rfl, rfl⟩
  | @turn turns s s' uptime c a _ h ih =>
    obtain ⟨hearlier, hlatest⟩ := List.forall_mem_append.1 horderly
    have hlast : Turn.IsOrderly phase ⟨s, uptime, c, a, s'⟩ := List.forall_mem_singleton.1 hlatest
    have hs := ih hearlier
    obtain ⟨heard, hpasses⟩ := passes_of_call? hphase h hs.observer hlast
    have hheard : Turn.heard ⟨s, uptime, c, a, s'⟩ = heard := by
      rw [Turn.heard, hpasses.told]
      exact List.drop_left
    obtain ⟨posted, hmoves, hleads⟩ := hpasses.moves
    constructor
    case observer => exact hpasses.observer
    case moves =>
      have hall := hs.moves.append hleads
      rw [List.append_assoc, hmoves] at hall
      rw [List.flatMap_append, List.append_assoc, List.flatMap_singleton, hheard]
      exact hall
    case told => rw [hpasses.told, hs.told, List.flatMap_append, List.flatMap_singleton, hheard]
    case phase => rw [hpasses.phase, hs.phase, hpasses.told, Phase.after_append]

/-- What is on the bus of a stopped pipeline was left there by the last refusal. -/
theorem leftover_of_run {s₀ : Supervisor π α} (run : Run s₀ turns s) (hnone : s₀.unread = [])
    (horderly : ∀ t ∈ turns, t.IsOrderly phase) (hr : s.isRunning = false) :
    s.unread = [] ∨ Leftover turns s := by
  induction run with
  | start => exact .inl hnone
  | @turn turns s s' uptime c a _ h ih =>
    obtain ⟨hearlier, hlatest⟩ := List.forall_mem_append.1 horderly
    have hlast : Turn.IsOrderly phase ⟨s, uptime, c, a, s'⟩ := List.forall_mem_singleton.1 hlatest
    -- emptied, refused just now, or as it was before the call
    rcases left_of_call? h hlast hr with hempty | ⟨hrefused, hstuck⟩ | ⟨hstopped, hsame, hcall⟩
    · exact .inl hempty
    · refine .inr ⟨installed_of_call? h hrefused.2.1, hstuck, turns, _, [], rfl, hrefused, rfl, ?_⟩
      exact fun t ht => absurd ht List.not_mem_nil
    · rw [Leftover, hsame]
      refine (ih hearlier hstopped).imp_right ?_
      rintro ⟨hp, hstuck, earlier, t, between, rfl, hrefused, hunread, hbetween⟩
      refine ⟨installed_of_call? h hp, hstuck, earlier, t, between ++ [⟨s, uptime, c, a, s'⟩],
        by simp, hrefused, hunread, ?_⟩
      exact List.forall_mem_append.2 ⟨hbetween, List.forall_mem_singleton.2 (hcall hp)⟩

/-- The moves that a turn throws away were left on the bus when the pipeline was last refused. -/
theorem leftover_of_lost {earlier later : List (Turn π α)} {t : Turn π α}
    (run : Run ((new settings).observe observer) (earlier ++ t :: later) s)
    (horderly : ∀ t' ∈ earlier ++ t :: later, t'.IsOrderly phase) (hlost : t.lost ≠ []) :
    t.lost = t.before.unread ∧ Leftover earlier t.before := by
  obtain ⟨s₁, hearlier, hrest⟩ := run.split
  obtain ⟨rfl, -, -⟩ := hrest.first
  obtain ⟨-, hstopped, hunread⟩ := before_of_lost hlost
  refine ⟨hunread, ?_⟩
  rcases leftover_of_run hearlier rfl (fun t' ht' => horderly t' (List.mem_append_left _ ht'))
    hstopped with hempty | hleft
  · rw [hunread] at hlost
    exact absurd hempty hlost
  · exact hleft

/-- A refusal, and the moves that are on the bus then. -/
theorem behind_of_refused (hphase : Stepwise phase) {earlier later : List (Turn π α)} {t : Turn π α}
    (run : Run ((new settings).observe observer) (earlier ++ t :: later) s)
    (horderly : ∀ t' ∈ earlier ++ t :: later, t'.IsOrderly phase) (hrefused : t.Refused)
    (hlost : ∀ t' ∈ earlier ++ [t], t'.lost = []) :
    (t.after.unread = [] ∨ Stuck π t.after.unread) ∧
      (t.after.phase = t.after.actual phase ↔ t.after.unread = []) := by
  rw [List.append_cons] at run horderly
  obtain ⟨s₁, hfirst, -⟩ := run.split
  obtain ⟨-, -, rfl⟩ := hfirst.last
  have horderly' : ∀ t' ∈ earlier ++ [t], t'.IsOrderly phase :=
    fun t' ht' => horderly t' (List.mem_append_left _ ht')
  have hunread := ((mirrored_of_run hphase hfirst horderly').leads hlost).2
  rcases leftover_of_run hfirst rfl horderly' hrefused.2.2 with hempty | ⟨-, hstuck, -⟩
  · rw [hempty] at hunread ⊢
    exact ⟨.inl rfl, iff_of_true hunread rfl⟩
  · refine ⟨.inr hstuck, fun hsame => ?_, fun hempty => ?_⟩
    · -- the moves on the bus went up, so they did not lead back
      by_cases hempty : t.after.unread = []
      · exact hempty
      · have hlt := hunread.rank_lt (hphase.ascends_of_stuck hstuck) hempty
        rw [hsame] at hlt
        exact absurd hlt (Nat.lt_irrefl _)
    · rw [hempty] at hunread
      exact hunread

/-- Put together with the moves that were thrown away and with those on the bus, the moves that people
    are told of lead from the null phase to the phase that the pipeline is in.  By themselves they follow
    each other exactly if people are told of nothing after moves were thrown away.  A start throws moves
    away only if the pipeline made them before it was last refused, and nobody stopped it since.  As long
    as that does not happen, people see the right phase after a refusal exactly if the pipeline made no
    move before it refused. -/
theorem told_of_run (hphase : Stepwise phase)
    (run : Run ((new settings).observe observer) turns s)
    (horderly : ∀ t ∈ turns, t.IsOrderly phase) :
    Phase.null.Leads (turns.flatMap (fun t => t.lost ++ t.heard) ++ s.unread) (s.actual phase) ∧
    s.told = turns.flatMap Turn.heard ∧ s.phase = Phase.null.after s.told ∧
    ((∃ q, Phase.null.Leads s.told q) ↔ ∀ earlier t later, turns = earlier ++ t :: later →
      t.lost ≠ [] → (t :: later).flatMap Turn.heard = []) ∧
    (∀ earlier t later, turns = earlier ++ t :: later → t.lost ≠ [] → Stuck π t.lost ∧
      ∃ prior t₀ between, earlier = prior ++ t₀ :: between ∧ t₀.Refused ∧
        t.lost = t₀.after.unread ∧ ∀ t' ∈ between, t'.call ≠ .start ∧ t'.call ≠ .stop) ∧
    ∀ earlier t later, turns = earlier ++ t :: later → t.Refused →
      (∀ t' ∈ earlier ++ [t], t'.lost = []) →
        (t.after.unread = [] ∨ Stuck π t.after.unread) ∧
          (t.after.phase = t.after.actual phase ↔ t.after.unread = []) := by
  have hmirrored := mirrored_of_run hphase run horderly
  refine ⟨hmirrored.moves, hmirrored.told, hmirrored.phase, ?_, ?_, ?_⟩
  · -- whatever was thrown away went up, so nothing can follow it without a gap
    rw [hmirrored.told]
    refine Phase.leads_heard_iff (Phase.leads_append.1 hmirrored.moves).1 ?_
    intro t ht m hm
    obtain ⟨earlier, later, rfl⟩ := List.append_of_mem ht
    obtain ⟨hunread, -, hstuck, -⟩ := leftover_of_lost run horderly (List.ne_nil_of_mem hm)
    rw [hunread] at hm
    exact hphase.ascends_of_stuck hstuck m hm
  · rintro earlier t later rfl hlost
    obtain ⟨hunread, -, hstuck, prior, t₀, between, rfl, hrefused, hleft, hbetween⟩ :=
      leftover_of_lost run horderly hlost
    rw [hunread]
    exact ⟨hstuck, prior, t₀, between, rfl, hrefused, hleft.symm, hbetween⟩
  · rintro earlier t later rfl hrefused hlost
    exact behind_of_refused hphase run horderly hrefused hlost

/-- Where a pipeline completes no move before it refuses, people hear of every move and see the right
    phase after a refusal. -/
theorem told_of_prompt (hphase : Stepwise phase) (hprompt : ∀ ms, Stuck π ms → ms = [])
    (run : Run ((new settings).observe observer) turns s)
    (horderly : ∀ t ∈ turns, t.IsOrderly phase) :
    Phase.null.Leads s.told s.phase ∧ ∀ t ∈ turns, t.Refused → t.after.phase = t.after.actual phase := by
  -- what was thrown away was left by a pipeline that got stuck after a move, and there is none of
  -- that kind
  have hlost : ∀ t ∈ turns, t.lost = [] := by
    intro t ht
    obtain ⟨earlier, later, rfl⟩ := List.append_of_mem ht
    by_cases hlost : t.lost = []
    · exact hlost
    · obtain ⟨hunread, -, hstuck, -⟩ := leftover_of_lost run horderly hlost
      exact hunread.trans (hprompt _ hstuck)
  refine ⟨((mirrored_of_run hphase run horderly).leads hlost).1, fun t ht hrefused => ?_⟩
  obtain ⟨earlier, later, rfl⟩ := List.append_of_mem ht
  obtain ⟨hunread, hiff⟩ := behind_of_refused hphase run horderly hrefused fun t' ht' =>
    hlost t' (by simp only [List.mem_append, List.mem_cons, List.not_mem_nil] at ht' ⊢; tauto)
  exact hiff.2 (hunread.elim id (hprompt _))

/-- So it is with loopback pipelines. -/
theorem told_of_loopback {turns : List (Turn Loopback α)} {s : Supervisor Loopback α}
    (run : Run ((new settings).observe observer) turns s)
    (horderly : ∀ t ∈ turns, t.IsOrderly Loopback.phase) :
    Phase.null.Leads s.told s.phase ∧
      ∀ t ∈ turns, t.Refused → t.after.phase = t.after.actual Loopback.phase :=
  told_of_prompt Loopback.stepwise (fun _ => Loopback.eq_nil_of_stuck) run horderly

end Runs

/-- A pipeline is started that gets stuck after its first move, and then it is started once more. -/
def stuckThenStarted : List (Span × Call Faltering Nat) :=
  [.install (.ok { limits := [1] }), .start, .start, .read, .read].map (.zero, ·)

/-- People do not hear of the first move, neither when the pipeline is stuck nor later. -/
theorem told_after_stuck : ∃ (t₀ t₁ t₂ t₃ t₄ : Turn Faltering Nat) (s : Supervisor Faltering Nat),
    Run ((new {}).observe "display") [t₀, t₁, t₂, t₃, t₄] s ∧
      (∀ t ∈ [t₀, t₁, t₂, t₃, t₄], t.IsOrderly Faltering.phase) ∧
      t₁.Refused ∧ t₁.after.phase ≠ t₁.after.actual Faltering.phase ∧
      t₂.lost.map Move.new = [.ready] ∧ s.told.map Move.new = [.paused, .playing] ∧
      ¬∃ q, Phase.null.Leads s.told q := by
  -- all that is read off the turns comes from one evaluation
  obtain ⟨t₀, t₁, t₂, t₃, t₄, s, hturns, hcall₀, hcall₁, hcall₂, hcall₃, hcall₄, hinstalled, hidle,
      hunread, hlost₀, hlost₁, hlost₂, hheard₀, hheard₁, htold⟩ : ∃ t₀ t₁ t₂ t₃ t₄ s,
        ((new {} : Supervisor Faltering Nat).observe "display").turns? stuckThenStarted =
          some ([t₀, t₁, t₂, t₃, t₄], s) ∧
        t₀.call = .install (.ok { limits := [1] }) ∧ t₁.call = .start ∧ t₂.call = .start ∧
        t₃.call = .read ∧ t₄.call = .read ∧ t₁.before.pipeline.isSome = true ∧
        t₁.after.isRunning = false ∧ t₁.after.unread.map Move.new = [.ready] ∧ t₀.lost = [] ∧
        t₁.lost = [] ∧ t₂.lost.map Move.new = [.ready] ∧ t₀.heard = [] ∧ t₁.heard = [] ∧
        s.told.map Move.new = [.paused, .playing] :=
    ⟨_, _, _, _, _, _, rfl, rfl, rfl, rfl, rfl, rfl, rfl, rfl, rfl, rfl, rfl, rfl, rfl, rfl, rfl⟩
  have hrun := run_of_turns? hturns
  have horderly : ∀ t ∈ [t₀, t₁, t₂, t₃, t₄], t.IsOrderly Faltering.phase := by
    simp [Turn.IsOrderly, hcall₀, hcall₁, hcall₂, hcall₃, hcall₄]
  have hrefused : t₁.Refused := ⟨.inl hcall₁, hinstalled, hidle⟩
  obtain ⟨-, hheard, -, hchain, -, hbehind⟩ := told_of_run Faltering.stepwise hrun horderly
  refine ⟨t₀, t₁, t₂, t₃, t₄, s, hrun, horderly, hrefused, ?_, hlost₂, htold, ?_⟩
  · have hiff := hbehind [t₀] t₁ [t₂, t₃, t₄] rfl hrefused (by simp [hlost₀, hlost₁])
    rw [Ne, hiff.2]
    intro hnone
    rw [hnone] at hunread
    exact nomatch hunread
  · rw [hchain]
    intro hall
    have hlost : t₂.lost ≠ [] := by
      intro hnone
      rw [hnone] at hlost₂
      exact nomatch hlost₂
    have hnone := hall [t₀, t₁] t₂ [t₃, t₄] rfl hlost
    rw [hheard, List.flatMap_cons, List.flatMap_cons, hheard₀, hheard₁, hnone] at htold
    exact nomatch htold

/-- So it is not true of every pipeline that what people are told leads from one phase to the next, or
    that they see the right phase after a refusal. -/
theorem not_mirrored : ¬∀ (π : Type) (_ : MediaPipeline π) (phase : π → Phase), Stepwise phase →
    ∀ (settings : Settings) (observer : String) (turns : List (Turn π Nat)) (s : Supervisor π Nat),
      Run ((new settings).observe observer) turns s → (∀ t ∈ turns, t.IsOrderly phase) →
        (∃ q, Phase.null.Leads s.told q) ∧
          ∀ t ∈ turns, t.Refused → t.after.phase = t.after.actual phase := by
  intro hall
  obtain ⟨t₀, t₁, t₂, t₃, t₄, s, hturns, hcall₀, hcall₁, hcall₂, hcall₃, hcall₄, hinstalled, hidle,
      hphase, hactual⟩ : ∃ t₀ t₁ t₂ t₃ t₄ s,
        ((new {} : Supervisor Faltering Nat).observe "display").turns? stuckThenStarted =
          some ([t₀, t₁, t₂, t₃, t₄], s) ∧
        t₀.call = .install (.ok { limits := [1] }) ∧ t₁.call = .start ∧ t₂.call = .start ∧
        t₃.call = .read ∧ t₄.call = .read ∧ t₁.before.pipeline.isSome = true ∧
        t₁.after.isRunning = false ∧ t₁.after.phase = .null ∧
        t₁.after.actual Faltering.phase = .ready :=
    ⟨_, _, _, _, _, _, rfl, rfl, rfl, rfl, rfl, rfl, rfl, rfl, rfl, rfl⟩
  have horderly : ∀ t ∈ [t₀, t₁, t₂, t₃, t₄], t.IsOrderly Faltering.phase := by
    simp [Turn.IsOrderly, hcall₀, hcall₁, hcall₂, hcall₃, hcall₄]
  have hsame := (hall Faltering inferInstance Faltering.phase Faltering.stepwise {} "display" _ s
    (run_of_turns? hturns) horderly).2 t₁ (by simp) ⟨.inl hcall₁, hinstalled, hidle⟩
  rw [hphase, hactual] at hsame
  exact nomatch hsame

end Supervisor

end MediaBridge
