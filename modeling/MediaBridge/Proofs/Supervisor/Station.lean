import MediaBridge.Proofs.Supervisor.Load
import MediaBridge.Proofs.Trail

/-! # Several threads at one supervisor

Starting and stopping take several pieces of work, one after the other, under a lock that only one
caller has at a time.  Others need not wait for that lock: submissions that passed their screening work
on the relay, the pipeline pulls, posts and delivers, the reader reads, and frames are taken out.  All
of them may act between two pieces.

The one thing that is asked of the pipeline is that no delivery goes on during a start.  Deliveries may
come at any other time and bring whatever they like.

* `launch_eq_perform`, `bringDown_eq_perform`       starting and stopping are their pieces;
* `reaches_start`, `reaches_stop`, `reaches_submit`  calls can go on to their end without a break.
-/

namespace MediaBridge

variable {π : Type u} {α : Type v}

/-- A piece of the work of starting or stopping. -/
inductive Piece where
  /-- Deliveries need not wait for room any more. -/
  | drain
  /-- The ingest is closed. -/
  | close
  /-- The pipeline is asked for the null phase. -/
  | halt
  /-- The reader is gone, and the moves that nobody read are followed. -/
  | settle
  /-- The matched frames are thrown away. -/
  | clear
  /-- The entries are forgotten. -/
  | forget
  /-- The failure is forgotten, the bus is emptied, and the ingest is opened. -/
  | reopen
  /-- The pipeline is asked for the playing phase. -/
  | play
  deriving DecidableEq

namespace Piece

/-- The pieces of a stop. -/
def stopping : List Piece := [drain, close, halt, settle]

/-- The pieces of a start, when nothing runs any more. -/
def starting : List Piece := [clear, forget, reopen, play]

end Piece

namespace Supervisor

/-- The watchdog only strikes while no delivery waits. -/
theorem quiet_of_watch {s s' : Supervisor π α} {uptime : Span}
    (h : s.watch uptime = (true, s')) : s.waiting = [] ∧ s' = { s with stalls := s.stalls + 1 } := by
  unfold watch at h
  by_cases hstalled : s.isStalled uptime = true
  · rw [if_pos hstalled] at h
    refine ⟨?_, (congrArg Prod.snd h).symm⟩
    simp only [isStalled, isDelivering, Bool.and_eq_true] at hstalled
    simpa using hstalled.1
  · rw [if_neg hstalled] at h
    exact nomatch h

variable [MediaPipeline π]

/-- Does a piece of the work of starting or stopping. -/
def perform (s : Supervisor π α) (uptime : Span) : Piece → Supervisor π α
  | .drain => s.setDraining true
  | .close => s.setFlushing true
  | .halt => s.halt
  | .settle => s.settle
  | .clear => { s with relay := s.relay.clear }
  | .forget => { s with relay := s.relay.resetPending.2 }
  | .reopen =>
    { (s.setDraining false).setFlushing false with failed := false, lastError := none, bus := [] }
  | .play =>
    match s.pipeline with
    | none => s
    | some p =>
      match s.request p .playing with
      | (.error e, s) => (s.setFlushing true).note (.startRefused (MediaPipeline.name p) e)
      | (.ok (), s) =>
        { s.markDelivery uptime with frameClock := s.frameClock.reset, reader := .reading }

/-- Does several pieces, one after the other. -/
def performAll (s : Supervisor π α) (uptime : Span) (pieces : List Piece) : Supervisor π α :=
  pieces.foldl (fun s piece => s.perform uptime piece) s

/-- If no delivery waits, stopping is its pieces. -/
theorem bringDown_eq_perform {s : Supervisor π α} (hw : s.waiting = []) (uptime : Span) :
    s.bringDown uptime = s.performAll uptime Piece.stopping := by
  have hresume : (s.setDraining true).resume uptime = s.setDraining true := by
    show (s.setDraining true).waiting.length.repeat _ _ = _
    rw [show (s.setDraining true).waiting = [] from hw]
    rfl
  rw [bringDown, letGo, hresume]
  rfl

/-- Starting is its pieces. -/
theorem launch_eq_perform {s : Supervisor π α} {p : π} (hp : s.pipeline = some p) (uptime : Span) :
    (s.launch p uptime).2 = s.performAll uptime Piece.starting := by
  -- the pieces before the last one prepare the start
  show _ = s.prepare.perform uptime .play
  have hprepared : s.prepare.pipeline = some p := hp
  unfold launch
  simp only [perform, hprepared]
  rcases s.prepare.request p .playing with ⟨_ | _, s₁⟩ <;> rfl

/-- A start that finds a pipeline is its pieces, after those of a stop if the pipeline runs. -/
theorem start_eq_perform {s : Supervisor π α} (hp : s.pipeline.isSome = true)
    (hw : s.waiting = []) (uptime : Span) :
    (s.start uptime).2 =
      s.performAll uptime ((if s.isRunning then Piece.stopping else []) ++ Piece.starting) := by
  rw [performAll, List.foldl_append, start]
  by_cases hr : s.isRunning = true
  · obtain ⟨p, hp'⟩ := Option.isSome_iff_exists.1 ((pipeline_bringDown s uptime).trans hp)
    rw [if_pos hr, if_pos hr, hp']
    have hlaunch := launch_eq_perform hp' uptime
    rw [bringDown_eq_perform hw] at hlaunch ⊢
    exact hlaunch
  · obtain ⟨p, hp'⟩ := Option.isSome_iff_exists.1 hp
    rw [if_neg hr, if_neg hr, hp']
    exact launch_eq_perform hp' uptime

/-- A restart is the pieces of a stop and then those of a start. -/
theorem restart_eq_perform {s : Supervisor π α} (hp : s.pipeline.isSome = true)
    (hw : s.waiting = []) (uptime : Span) :
    (s.restart uptime).2 = ((s.note .watchdog).count .restarts).performAll uptime
      (Piece.stopping ++ Piece.starting) := by
  obtain ⟨p, hp'⟩ := Option.isSome_iff_exists.1 hp
  obtain ⟨q, hq, hrestart⟩ := restart_eq_launch hp' uptime
  have hw' : ((s.note .watchdog).count .restarts).waiting = [] := hw
  rw [hrestart, launch_eq_perform hq, bringDown_eq_perform hw', performAll, performAll, performAll,
    List.foldl_append]

/-- Only two of the pieces touch the load: one throws the matched frames away, one forgets the
    entries. -/
theorem load_perform (s : Supervisor π α) (uptime : Span) (piece : Piece) :
    (s.perform uptime piece).load =
      match piece with
      | .clear => { s.load with output := [] }
      | .forget => { s.load with pending := s.load.pending.reset }
      | _ => s.load := by
  cases piece with
  | halt => exact s.load_halt
  | settle => exact s.load_settle
  | play =>
    simp only [perform]
    cases s.pipeline with
    | none => rfl
    | some p =>
      have hload := s.load_request p .playing
      simp only
      generalize s.request p .playing = requested at hload
      rcases requested with ⟨_ | _, s₁⟩ <;> exact hload
  | _ => rfl

/-- A pipeline that was made stays. -/
theorem installed_perform (s : Supervisor π α) (uptime : Span) (piece : Piece) :
    (s.perform uptime piece).pipeline.isSome = s.pipeline.isSome := by
  cases piece with
  | halt => exact (halt_cases s).2
  | settle =>
    exact congrArg Option.isSome (alike_followRest { s with reader := .absent }).pipeline
  | play =>
    simp only [perform]
    cases hp : s.pipeline with
    | none => rw [hp]
    | some p =>
      have hinstalled : (s.request p .playing).2.pipeline.isSome = true := rfl
      simp only
      generalize s.request p .playing = requested at hinstalled
      rcases requested with ⟨_ | _, s₁⟩ <;> exact hinstalled
  | _ => rfl

end Supervisor

/-! ## Steps -/

/-- A supervisor at which several threads work. -/
structure Station (π : Type u) (α : Type v) where
  supervisor : Supervisor π α
  /-- What is left to do of the start or the stop under way. -/
  todo : List Piece := []
  /-- The submissions that passed their screening. -/
  submissions : List Underway := []
  /-- The ids of all the frames that were ever accepted. -/
  accepted : List Nat := []

/-- What a step is, as far as frames go in and out. -/
inductive Incident (α : Type v) where
  /-- A frame was registered, and this goes with its result. -/
  | registered (user : α)
  /-- A matched frame was taken out. -/
  | popped (m : Matched α)
  | other

namespace Incident

/-- What goes with the result of the frame that was registered, if one was. -/
def registered? : Incident α → Option α
  | registered user => some user
  | _ => none

/-- The matched frame that was taken out, if one was. -/
def popped? : Incident α → Option (Matched α)
  | popped m => some m
  | _ => none

end Incident

/-- What a step at the relay is, as far as frames go in and out. -/
def Event.incident : Event α → Incident α
  | .registered _ user => .registered user
  | _ => .other

namespace Station

/-- A supervisor at which nobody works yet. -/
def new (s : Settings) : Station π α := { supervisor := .new s }

/-- The relay, with what is under way at it. -/
def world (w : Station π α) : Concurrent α where
  relay := w.supervisor.relay
  submissions := w.submissions
  parked := w.supervisor.waiting
  accepted := w.accepted

/-- The station after a step at the relay. -/
def afterwards (w : Station π α) (c : Concurrent α) : Station π α :=
  { w with
    supervisor := { w.supervisor with relay := c.relay }
    submissions := c.submissions
    accepted := c.accepted }

/-- The supervisor holds all there is to a relay, besides the submissions. -/
theorem world_afterwards {w : Station π α} {c : Concurrent α} (hparked : c.parked = w.world.parked) :
    (w.afterwards c).world = c := by
  simp only [world, afterwards]
  rw [show w.supervisor.waiting = c.parked from hparked.symm]

variable [MediaPipeline π]

/-- One step of one thread. -/
inductive Step (w : Station π α) : Incident α → Station π α → Prop where
  -- A start begins while no delivery goes on; what runs is stopped first.
  | start (hfree : w.todo = []) (hp : w.supervisor.pipeline.isSome = true)
    (hquiet : w.supervisor.isDelivering = false) :
    w.Step .other
      { w with
        todo := (if w.supervisor.isRunning then Piece.stopping else []) ++ Piece.starting }
  | stop (hfree : w.todo = []) (hp : w.supervisor.pipeline.isSome = true) :
    w.Step .other { w with todo := Piece.stopping }
  -- A submission finds that the supervisor has failed, and stops the pipeline.
  | bringDown (hfree : w.todo = []) (hp : w.supervisor.pipeline.isSome = true)
    (hf : w.supervisor.failed = true) (hr : w.supervisor.isRunning = true) :
    w.Step .other
      { w with supervisor := w.supervisor.note .stoppingFailed, todo := Piece.stopping }
  -- A submission finds the pipeline stalled once too often, and restarts it.
  | restart {uptime : Span} {s : Supervisor π α} (hfree : w.todo = [])
    (hp : w.supervisor.pipeline.isSome = true) (hf : w.supervisor.failed = false)
    (hr : w.supervisor.isRunning = true) (hwatch : w.supervisor.watch uptime = (true, s)) :
    w.Step .other
      { w with
        supervisor := (s.note .watchdog).count .restarts
        todo := Piece.stopping ++ Piece.starting }
  -- Whoever starts or stops the pipeline goes on.
  | perform (uptime : Span) {piece : Piece} {rest : List Piece} (htodo : w.todo = piece :: rest) :
    w.Step .other { w with supervisor := w.supervisor.perform uptime piece, todo := rest }
  -- A submission passes its screening.
  | pass (uptime : Span) {now : ClockTime} {s : Supervisor π α} (hfree : w.todo = [])
    (h : w.supervisor.screen uptime = (.passes now, s)) : w.Step .other { w with supervisor := s }
  -- A submission that passed goes on at the relay, where it leaves the matched frames alone
  -- (`Concurrent.submissionStep_cases`).
  | submission {e : Event α} {c : Concurrent α} (hp : w.supervisor.pipeline.isSome = true)
    (he : e.IsSubmission) (h : w.world.Step e c) (hparked : c.parked = w.world.parked)
    (houtput : c.relay.bridge.output.items = w.supervisor.relay.bridge.output.items) :
    w.Step e.incident (w.afterwards c)
  -- A submission that was accepted moves the frame clock on.
  | commit (now : ClockTime) (hfree : w.todo = []) :
    w.Step .other { w with supervisor := w.supervisor.commit now }
  -- The pipeline delivers, but not while a start goes on.
  | deliver (uptime : Span) (item : Item) (hquiet : Piece.play ∉ w.todo) :
    w.Step .other { w with supervisor := (w.supervisor.receive uptime item).2 }
  | resumeDelivery {uptime : Span} {s : Supervisor π α}
    (h : w.supervisor.resumeNext? uptime = some s) : w.Step .other { w with supervisor := s }
  | pop {m : Matched α} {s : Supervisor π α} (h : w.supervisor.pop? = some (m, s)) :
    w.Step (.popped m) { w with supervisor := s }
  -- Something that has nothing to do with the frames on their way.
  | beside (uptime : Span) {c : Supervisor.Call π α} {a : Supervisor.Answer α}
    {s : Supervisor π α} (hc : c.IsBeside) (h : w.supervisor.call? uptime c = some (a, s)) :
    w.Step .other { w with supervisor := s }

/-- The steps that lead from one station to another, oldest first. -/
abbrev Steps (w : Station π α) : List (Incident α) → Station π α → Prop := Trail Step w

/-! ## Calls that nobody interrupts -/

/-- One station can come after another. -/
abbrev Reaches (w w' : Station π α) : Prop := Attains Step w w'

/-- Where nothing is left to do, nothing needs to be done. -/
theorem reaches_of_free {w : Station π α} (hfree : w.todo = []) :
    w.Reaches { w with todo := [] } := by
  rw [← hfree]
  exact .refl w

/-- Whoever starts or stops the pipeline can do all the pieces in a row. -/
theorem reaches_performAll (uptime : Span) {pieces : List Piece} {w : Station π α}
    (htodo : w.todo = pieces) :
    w.Reaches { w with supervisor := w.supervisor.performAll uptime pieces, todo := [] } := by
  induction pieces generalizing w with
  | nil => exact reaches_of_free htodo
  | cons piece rest ih =>
    have hstep : w.Reaches _ := .one (.perform uptime htodo)
    exact hstep.trans (ih rfl)

/-- All the deliveries that wait can be resumed in a row. -/
theorem reaches_resume (uptime : Span) (w : Station π α) :
    w.Reaches { w with supervisor := w.supervisor.resume uptime } :=
  Supervisor.resume_keeps (P := fun s => w.Reaches { w with supervisor := s })
    (fun hreach hresume => hreach.step (.resumeDelivery hresume)) (.refl w)

/-- A stop goes on to its end, whether or not deliveries wait. -/
theorem reaches_bringDown {w : Station π α} (htodo : w.todo = Piece.stopping) (uptime : Span) :
    w.Reaches { w with supervisor := w.supervisor.bringDown uptime, todo := [] } := by
  have hdrained : w.Reaches _ := .one (.perform uptime htodo)
  -- the deliveries that waited go on as soon as they need no room
  have hresumed := hdrained.trans (reaches_resume uptime _)
  exact hresumed.trans (reaches_performAll uptime rfl)

/-- A stop goes on to its end, if there is a pipeline at all. -/
theorem reaches_stop {w : Station π α} (hfree : w.todo = []) (uptime : Span) :
    w.Reaches { w with supervisor := (w.supervisor.stop uptime).2, todo := [] } := by
  unfold Supervisor.stop
  cases hp : w.supervisor.pipeline with
  | none => exact reaches_of_free hfree
  | some p =>
    have hbegun : w.Reaches _ := .one (.stop hfree (Option.isSome_of_eq_some hp))
    exact hbegun.trans (reaches_bringDown rfl uptime)

/-- A start goes on to its end, if no delivery goes on. -/
theorem reaches_start {w : Station π α} (hfree : w.todo = [])
    (hp : w.supervisor.pipeline.isSome = true) (hquiet : w.supervisor.isDelivering = false)
    (uptime : Span) :
    w.Reaches { w with supervisor := (w.supervisor.start uptime).2, todo := [] } := by
  have hwaiting : w.supervisor.waiting = [] := by simpa [Supervisor.isDelivering] using hquiet
  have hbegun : w.Reaches _ := .one (.start hfree hp hquiet)
  rw [Supervisor.start_eq_perform hp hwaiting]
  exact hbegun.trans (reaches_performAll uptime rfl)

/-- A restart by the watchdog goes on to its end. -/
theorem reaches_restart {w : Station π α} (hfree : w.todo = [])
    (hp : w.supervisor.pipeline.isSome = true) (hf : w.supervisor.failed = false)
    (hr : w.supervisor.isRunning = true) {uptime : Span} {s : Supervisor π α}
    (hwatch : w.supervisor.watch uptime = (true, s)) :
    w.Reaches { w with supervisor := (s.restart uptime).2, todo := [] } := by
  have hbegun : w.Reaches _ := .one (.restart hfree hp hf hr hwatch)
  obtain ⟨hwaiting, hs⟩ := Supervisor.quiet_of_watch hwatch
  rw [Supervisor.restart_eq_perform (by rw [hs]; exact hp) (by rw [hs]; exact hwaiting)]
  exact hbegun.trans (reaches_performAll uptime rfl)

/-- Others may do with the buffers what they like. -/
theorem reaches_store (w : Station π α) (store : Store) :
    w.Reaches { w with
      supervisor := { w.supervisor with relay := { w.supervisor.relay with store } } } :=
  .one (.beside .zero (c := .elsewhere store) trivial rfl)

/-- The steps of a submission at the relay are steps at the station. -/
theorem reaches_of_submits {w : Station π α} {c : Concurrent α}
    (hp : w.supervisor.pipeline.isSome = true) (h : w.world.Submits c) :
    w.Reaches (w.afterwards c) ∧ c.parked = w.world.parked := by
  induction h with
  | refl => exact ⟨.refl w, rfl⟩
  | @tail c c' _ hstep ih =>
    obtain ⟨hreach, hparked⟩ := ih
    obtain ⟨e, he, hstep, hsame, houtput⟩ := hstep
    have hworld := world_afterwards hparked
    refine ⟨hreach.step (.submission hp he ?_ ?_ houtput), hsame.trans hparked⟩
    · rw [hworld]
      exact hstep
    · rw [hworld]
      exact hsame

/-- A submission that passed its screening goes on to its end, or until it waits at the ingest. -/
theorem reaches_forward {w : Station π α} (hfree : w.todo = [])
    (hp : w.supervisor.pipeline.isSome = true) (frame : HandleId) (user : α) (now : ClockTime) :
    ∃ submissions accepted, w.Reaches { w with
      supervisor := (w.supervisor.forward frame user now).2, submissions, accepted } := by
  unfold Supervisor.forward
  cases w.supervisor.relay.store.setTiming frame (w.supervisor.frameClock.timingAt now) with
  | error e => exact ⟨_, _, reaches_store w _⟩
  | ok store =>
    simp only
    -- the frame is stamped before the relay sees it
    have hstamped := reaches_store w store
    generalize hw₁ : ({ w with supervisor := { w.supervisor with
      relay := { w.supervisor.relay with store } } } : Station π α) = w₁ at hstamped
    have hp₁ : w₁.supervisor.pipeline.isSome = true := by
      rw [← hw₁]
      exact hp
    generalize hsubmission : Relay.submit _ frame user = submission
    rcases submission with ⟨result, r⟩
    have hsubmit : w₁.world.relay.submit frame user = (result, r) := by
      rw [← hw₁]
      exact hsubmission
    obtain ⟨submissions, accepted, hsubmits, -⟩ := Concurrent.submits_of_submit hsubmit
    have hforwarded := hstamped.trans (reaches_of_submits hp₁ hsubmits).1
    rw [← hw₁] at hforwarded
    refine ⟨submissions, accepted, ?_⟩
    rcases result with ⟨e | ⟨_ | _⟩⟩ | ⟨ticket, offer⟩
    · exact hforwarded
    · exact hforwarded
    · exact hforwarded.step (.commit now hfree)
    · exact hforwarded

/-- A submission goes on to its end from its screening on, which may stop or restart the pipeline.
    -/
theorem reaches_submit {w : Station π α} (hfree : w.todo = []) (uptime : Span) (frame : HandleId)
    (user : α) :
    ∃ submissions accepted, w.Reaches {
      supervisor := (w.supervisor.submit uptime frame user).2, todo := [], submissions, accepted } := by
  have hscreens := w.supervisor.screens_screen uptime
  rw [Supervisor.submit_eq_screen]
  generalize hscreen : w.supervisor.screen uptime = screened at hscreens
  have hpasses : ∀ {now s'}, w.supervisor.screen uptime = (.passes now, s') →
      w.supervisor.pipeline.isSome = true →
        ∃ submissions accepted, w.Reaches {
          supervisor := (s'.forward frame user now).2, todo := [], submissions, accepted } := by
    intro now s' h hp
    have hpassed : w.Reaches _ := .one (.pass _ hfree h)
    obtain ⟨-, hpipeline⟩ := Supervisor.load_screen_passes h
    obtain ⟨submissions, accepted, hforwarded⟩ := reaches_forward
      (w := { w with supervisor := s' }) hfree (by rw [hpipeline]; exact hp) frame user now
    rw [← hfree]
    exact ⟨submissions, accepted, hpassed.trans hforwarded⟩
  cases hscreens with
  | uninstalled =>
    exact ⟨_, _, (reaches_of_free hfree).trans (reaches_store { w with todo := [] } _)⟩
  | turnedDown =>
    exact ⟨_, _, (reaches_of_free hfree).trans (reaches_store { w with todo := [] } _)⟩
  | broughtDown hp hf hr =>
    have hbegun : w.Reaches _ := .one (.bringDown hfree (Option.isSome_of_eq_some hp) hf hr)
    have hdone := hbegun.trans (reaches_bringDown rfl uptime)
    exact ⟨_, _, hdone.trans (reaches_store _ _)⟩
  | idle hp => exact hpasses hscreen (Option.isSome_of_eq_some hp)
  | lively hp => exact hpasses hscreen (Option.isSome_of_eq_some hp)
  | struck hp => exact hpasses hscreen (Option.isSome_of_eq_some hp)
  | restarted hp hf hr hstalled hcount h | unrestarted hp hf hr hstalled hcount h =>
    have hwatch : w.supervisor.watch uptime =
        (true, { w.supervisor with stalls := w.supervisor.stalls + 1 }) := by
      simp only [Supervisor.watch, if_pos hstalled, decide_eq_true hcount]
    have hdone := reaches_restart hfree (Option.isSome_of_eq_some hp) hf hr hwatch
    rw [h] at hdone
    exact ⟨_, _, hdone.trans (reaches_store _ _)⟩

end Station

end MediaBridge
