import MediaBridge.Proofs.Correspondence.Counting
import MediaBridge.Proofs.Correspondence.Interleaving
import MediaBridge.Supervisor.Traffic

/-! # What starting and stopping leave

Much of a supervisor only serves the frames on their way and the people who watch it.  What later
calls hinge on is its *core*: the status messages nobody read yet, whether it runs and whether it
failed, the ingest, the entries, the frame clock, and how often the watchdog struck.  There is one
equation here for the core that each of the operations leaves.

* `core_bringDown`  stopping closes the ingest and empties the bus;
* `launch_cases`    a run begins with an open ingest, or it is refused and the ingest is closed.
-/

namespace MediaBridge

variable {π : Type u} {α : Type v}

/-- The part of a supervisor that decides what the next calls do. -/
structure Core (α : Type v) where
  bus : Backlog
  reader : Reader
  failed : Bool
  lastError : Option String
  fatal : Option Error
  frameClock : FrameClock
  ingest : Ingest
  pending : Pending α
  /-- How often the watchdog restarted the pipeline. -/
  restarts : UInt64

/-- An ingest that was closed; it holds nothing. -/
def Ingest.closed (p : Ingest) : Ingest :=
  { p with flushing := true, queue := [], queuedBytes := 0 }

namespace Core

/-- The core after the pipeline was stopped. -/
def down (c : Core α) : Core α :=
  { c with bus := [], reader := .absent, ingest := c.ingest.closed }

/-- The core with a clean slate for the next run. -/
def prepared (c : Core α) : Core α :=
  { c with
    bus := []
    failed := false
    lastError := none
    ingest := c.ingest.reopen
    pending := c.pending.reset }

/-- The core after a run began, during which messages were posted. -/
def begun (c : Core α) (posted : Backlog) : Core α :=
  { c.prepared with bus := posted, frameClock := c.frameClock.reset, reader := .reading }

/-- The core after the pipeline refused to begin a run. -/
def unbegun (c : Core α) (posted : Backlog) : Core α :=
  { c.prepared with bus := posted, ingest := c.ingest.reopen.closed }

end Core

/-- The phases a pipeline was asked for, each with its answer, oldest first.  Nothing else happened to
    it. -/
inductive MediaPipeline.Asked [MediaPipeline π] : List (Phase × Except Error Unit) → π → π → Prop where
  | nothing (p : π) : Asked [] p p
  | request {p q : π} {target : Phase} {store : Store} {caps : Option Caps}
    {later : List (Phase × Except Error Unit)}
    (h : Asked later (MediaPipeline.setPhase p target store caps).pipeline q) :
    Asked ((target, (MediaPipeline.setPhase p target store caps).result) :: later) p q

/-- What a pipeline was asked in two stretches it was asked altogether. -/
theorem MediaPipeline.Asked.append [MediaPipeline π] {p q r : π}
    {earlier later : List (Phase × Except Error Unit)} (h : Asked earlier p q)
    (h' : Asked later q r) : Asked (earlier ++ later) p r := by
  induction h with
  | nothing => exact h'
  | request _ ih => exact .request (ih h')

namespace Relay

/-- How often the watchdog restarted the pipeline. -/
def restarts (r : Relay α) : UInt64 := r.bridge.health.value .restarts

/-- A publication leaves the ingest alone. -/
theorem ingest_publish (r : Relay α) (m : Matched α) : (r.publish m).2.ingest = r.ingest := by
  have hp := r.publishes_publish m
  generalize r.publish m = publication at hp
  cases hp <;> rfl

/-- A publication is no restart. -/
theorem restarts_publish (r : Relay α) (m : Matched α) : (r.publish m).2.restarts = r.restarts := by
  have hp := r.publishes_publish m
  generalize r.publish m = publication at hp
  cases hp <;> simp [restarts]

end Relay

namespace Supervisor

/-- The part of a supervisor that decides what the next calls do. -/
def core (s : Supervisor π α) : Core α where
  bus := s.bus
  reader := s.reader
  failed := s.failed
  lastError := s.lastError
  fatal := s.fatal
  frameClock := s.frameClock
  ingest := s.relay.ingest
  pending := s.relay.bridge.pending
  restarts := s.relay.restarts

/-- The core and the pipeline are the same. -/
structure Alike (s s' : Supervisor π α) : Prop where
  core : s'.core = s.core
  pipeline : s'.pipeline = s.pipeline

/-- Nothing happened to the core. -/
theorem Alike.refl (s : Supervisor π α) : s.Alike s := ⟨rfl, rfl⟩

/-- What two steps leave alone, both together do. -/
theorem Alike.trans {s s' s'' : Supervisor π α} (h : s.Alike s') (h' : s'.Alike s'') :
    s.Alike s'' := ⟨h'.core.trans h.core, h'.pipeline.trans h.pipeline⟩

/-- A supervisor runs while it has a reader, at work or not. -/
theorem isRunning_iff {s : Supervisor π α} : s.isRunning = true ↔ s.core.reader ≠ .absent := by
  simp [isRunning, core]

/-! ## Small changes -/

/-- A notice is nothing to the core. -/
theorem alike_note (s : Supervisor π α) (n : Notice) : s.Alike (s.note n) := ⟨rfl, rfl⟩

/-- A notice is nothing to the core. -/
@[simp] theorem core_note (s : Supervisor π α) (n : Notice) : (s.note n).core = s.core := rfl

/-- Giving a frame up is nothing to the core. -/
@[simp] theorem core_discard (s : Supervisor π α) (frame : HandleId) :
    (s.discard frame).core = s.core := rfl

/-- The time of the last delivery is nothing to the core. -/
@[simp] theorem core_markDelivery (s : Supervisor π α) (uptime : Span) :
    (s.markDelivery uptime).core = s.core := rfl

/-- The output is no part of the core. -/
@[simp] theorem core_setDraining (s : Supervisor π α) (draining : Bool) :
    (s.setDraining draining).core = s.core := rfl

/-- The ingest is closed, and nothing else happens to the core. -/
@[simp] theorem core_close (s : Supervisor π α) :
    (s.setFlushing true).core = { s.core with ingest := s.core.ingest.closed } := rfl

/-- The frame clock goes on, and nothing else happens to the core. -/
theorem core_commit (s : Supervisor π α) (now : ClockTime) :
    (s.commit now).core = { s.core with frameClock := s.core.frameClock.commit now } := rfl

/-- Of a relay, the ingest and the entries are in the core. -/
theorem core_withRelay {s : Supervisor π α} {r : Relay α} (h : r.restarts = s.relay.restarts) :
    ({ s with relay := r } : Supervisor π α).core =
      { s.core with ingest := r.ingest, pending := r.bridge.pending } := by
  simp only [core, h]

/-- A pipeline that is installed is nothing to the core. -/
theorem core_install (s : Supervisor π α) (made : Except Error π) :
    (s.install made).2.core = s.core := by
  unfold install
  cases s.pipeline with
  | some p => rfl
  | none => cases made <;> rfl

/-- A pipeline that is asked for a phase may post messages. -/
theorem core_request [MediaPipeline π] (s : Supervisor π α) (p : π) (target : Phase) :
    ∃ posted, (s.request p target).2.core = { s.core with bus := s.core.bus ++ posted } :=
  ⟨(MediaPipeline.setPhase p target s.relay.store s.relay.ingest.caps).posted, rfl⟩

/-! ## Deliveries that go on -/

/-- A delivery that goes on is nothing to the core. -/
theorem alike_resumeNext? {s s' : Supervisor π α} {uptime : Span}
    (h : s.resumeNext? uptime = some s') : s.Alike s' := by
  unfold resumeNext? at h
  split at h
  · exact nomatch h
  · rename_i m rest _
    obtain ⟨r, hr, heq⟩ := Option.map_eq_some_iff.1 h
    cases heq
    have hpublish := Relay.publish_of_publish? hr
    have hingest := s.relay.ingest_publish m
    have hpending := s.relay.pending_publish m
    have hrestarts := s.relay.restarts_publish m
    -- a publication that went on is one that did not have to wait
    rw [hpublish] at hingest hpending hrestarts
    simp only at hingest hpending hrestarts
    constructor
    · rw [core_markDelivery]
      simp only [core, hingest, hpending, hrestarts]
    · rfl

/-- What every delivery that goes on keeps holds when all have gone on. -/
theorem resume_keeps {P : Supervisor π α → Prop} {uptime : Span} {s : Supervisor π α}
    (hstep : ∀ {s s'}, P s → s.resumeNext? uptime = some s' → P s') (hs : P s) :
    P (s.resume uptime) := by
  unfold resume
  -- as many go on as waited at first; the induction is on that number
  generalize s.waiting.length = n
  induction n with
  | zero => exact hs
  | succ n ih =>
    rw [Nat.repeat]
    generalize n.repeat (fun s => (s.resumeNext? uptime).getD s) s = s₁ at ih
    cases h : s₁.resumeNext? uptime with
    | none => exact ih
    | some s₂ => exact hstep ih h

/-- Deliveries that go on are nothing to the core, however many they are. -/
theorem alike_resume (s : Supervisor π α) (uptime : Span) : s.Alike (s.resume uptime) :=
  resume_keeps (P := s.Alike) (fun h hresume => h.trans (alike_resumeNext? hresume)) (.refl s)

/-! ## Status messages -/

/-- A move that is followed has nothing to do with the core. -/
theorem alike_apply {s : Supervisor π α} {m : Message} (h : m.kind = .phaseChanged) :
    s.Alike (s.apply m) := by
  cases m with
  | phaseChanged source => cases source <;> exact ⟨rfl, rfl⟩
  | _ => exact nomatch h

/-- Following any number of moves is nothing to the core. -/
theorem alike_foldl_apply {ms : List Message} (hms : ∀ m ∈ ms, m.kind = .phaseChanged)
    (s : Supervisor π α) : s.Alike (ms.foldl apply s) := by
  induction ms generalizing s with
  | nil => exact .refl s
  | cons m rest ih =>
    have hm := hms m List.mem_cons_self
    have hrest : ∀ m ∈ rest, m.kind = .phaseChanged := by
      intro m' hm'
      exact hms m' (List.mem_cons_of_mem _ hm')
    exact (alike_apply hm).trans (ih hrest _)

/-- What no message touches, any number of messages leaves alone. -/
theorem foldl_apply_keeps {β : Type w} {f : Supervisor π α → β} (hf : ∀ s m, f (s.apply m) = f s)
    (ms : List Message) (s : Supervisor π α) : f (ms.foldl apply s) = f s := by
  induction ms generalizing s with
  | nil => rfl
  | cons m rest ih => rw [List.foldl_cons, ih, hf]

/-- The moves left on the bus are followed, and the other messages are gone. -/
theorem alike_followRest (s : Supervisor π α) : ({ s with bus := [] }).Alike s.followRest := by
  apply alike_foldl_apply
  intro m hm
  simpa using (List.mem_filter.1 hm).2

/-! ## Stopping -/

/-- Letting go of those who wait closes the ingest. -/
theorem core_letGo (s : Supervisor π α) (uptime : Span) :
    (s.letGo uptime).core = { s.core with ingest := s.core.ingest.closed } := by
  simp only [letGo, core_close, (alike_resume _ uptime).core, core_setDraining]

/-- Letting go of those who wait asks the pipeline for nothing. -/
theorem pipeline_letGo (s : Supervisor π α) (uptime : Span) :
    (s.letGo uptime).pipeline = s.pipeline := by
  show ((s.setDraining true).resume uptime).pipeline = _
  rw [(alike_resume _ uptime).pipeline]
  rfl

/-- With no pipeline there is none to halt. -/
theorem halt_of_none [MediaPipeline π] {s : Supervisor π α} (hp : s.pipeline = none) :
    s.halt = s := by
  unfold halt
  rw [hp]

/-- Whatever the pipeline answers, it was asked for the null phase; a refusal is noted. -/
theorem halt_of_some [MediaPipeline π] {s : Supervisor π α} {p : π} (hp : s.pipeline = some p) :
    s.halt = (s.request p .null).2 ∨
      ∃ e, s.halt = (s.request p .null).2.note (.stopRefused e) := by
  unfold halt
  rw [hp]
  simp only
  -- the answer makes no difference but for the notice
  rcases s.request p .null with ⟨e | _, s₁⟩
  · exact .inr ⟨e, rfl⟩
  · exact .inl rfl

/-- Whether or not the pipeline agrees, it is still there, and may have posted messages. -/
theorem halt_cases [MediaPipeline π] (s : Supervisor π α) :
    (∃ posted, s.halt.core = { s.core with bus := s.core.bus ++ posted }) ∧
      s.halt.pipeline.isSome = s.pipeline.isSome := by
  cases hp : s.pipeline with
  | none =>
    rw [halt_of_none hp, hp]
    exact ⟨⟨[], by rw [List.append_nil]⟩, rfl⟩
  | some p =>
    rcases halt_of_some hp with h | ⟨e, h⟩ <;> rw [h] <;> exact ⟨core_request s p .null, rfl⟩

/-- Stopping closes the ingest, there is no reader any more, and nothing stays on the bus. -/
@[simp] theorem core_bringDown [MediaPipeline π] (s : Supervisor π α) (uptime : Span) :
    (s.bringDown uptime).core = s.core.down := by
  obtain ⟨⟨posted, hhalt⟩, -⟩ := halt_cases (s.letGo uptime)
  -- whatever the pipeline posts while it halts is drained with the rest of the bus
  have hrest := (alike_followRest { (s.letGo uptime).halt with reader := .absent }).core
  rw [bringDown, settle, hrest]
  show { (s.letGo uptime).halt.core with bus := [], reader := .absent } = _
  rw [hhalt, core_letGo]
  rfl

/-- After a stop nothing runs. -/
theorem isRunning_bringDown [MediaPipeline π] (s : Supervisor π α) (uptime : Span) :
    (s.bringDown uptime).isRunning = false := by
  have hreader : (s.bringDown uptime).reader = .absent :=
    congrArg Core.reader (core_bringDown s uptime)
  simp [isRunning, hreader]

/-- A stop neither installs a pipeline nor takes one away. -/
theorem pipeline_bringDown [MediaPipeline π] (s : Supervisor π α) (uptime : Span) :
    (s.bringDown uptime).pipeline.isSome = s.pipeline.isSome := by
  have hrest := (alike_followRest { (s.letGo uptime).halt with reader := .absent }).pipeline
  rw [bringDown, settle, hrest]
  show (s.letGo uptime).halt.pipeline.isSome = _
  rw [(halt_cases _).2, pipeline_letGo]

/-! ## Starting -/

/-- Before a run the slate is wiped. -/
theorem core_prepare (s : Supervisor π α) : s.prepare.core = s.core.prepared := by
  simp [prepare, core, Core.prepared, Relay.restarts, Relay.setFlushing, Relay.setDraining,
    Relay.resetPending, Relay.clear, Ingest.setFlushing, Bridge.setDraining, Bridge.resetPending]

/-- A run begins with an open ingest and an idle frame clock, or the pipeline refuses and the ingest is
    closed again. -/
theorem launch_cases [MediaPipeline π] (s : Supervisor π α) (p : π) (uptime : Span) :
    (∃ posted s', s.launch p uptime = (.ok (), s') ∧ s'.core = s.core.begun posted) ∨
    ∃ e posted s', s.launch p uptime = (.error e, s') ∧ s'.core = s.core.unbegun posted := by
  -- the request is the only step that the pipeline has a say in
  obtain ⟨posted, hcore⟩ := core_request s.prepare p .playing
  rw [core_prepare] at hcore
  unfold launch
  cases hr : s.prepare.request p .playing with
  | mk result s₁ =>
    rw [hr] at hcore
    simp only at hcore
    cases result with
    | ok =>
      refine .inl ⟨posted, _, rfl, ?_⟩
      have hclock : s₁.frameClock = s.frameClock := congrArg Core.frameClock hcore
      show { s₁.core with frameClock := s₁.frameClock.reset, reader := .reading } = _
      rw [hcore, hclock]
      rfl
    | error e =>
      refine .inr ⟨e, posted, _, rfl, ?_⟩
      rw [core_note, core_close, hcore]
      rfl

/-! ## What the pipeline is asked for -/

section Asked

variable [MediaPipeline π] {s : Supervisor π α} {p : π}

/-- A request asks for one phase. -/
theorem asked_request (s : Supervisor π α) (p : π) (target : Phase) :
    ∃ q, MediaPipeline.Asked [(target, (s.request p target).1)] p q ∧
      (s.request p target).2.pipeline = some q :=
  ⟨_, .request (.nothing _), rfl⟩

/-- Whatever the pipeline answers, stopping asks it for the null phase once. -/
theorem asked_halt (hp : s.pipeline = some p) :
    ∃ r q, MediaPipeline.Asked [(.null, r)] p q ∧ s.halt.pipeline = some q := by
  obtain ⟨q, hasked, hq⟩ := asked_request s p .null
  refine ⟨_, q, hasked, ?_⟩
  rcases halt_of_some hp with h | ⟨e, h⟩ <;> rw [h] <;> exact hq

/-- A stop asks the pipeline for the null phase once. -/
theorem asked_bringDown (hp : s.pipeline = some p) (uptime : Span) :
    ∃ r q, MediaPipeline.Asked [(.null, r)] p q ∧ (s.bringDown uptime).pipeline = some q := by
  obtain ⟨r, q, hasked, hq⟩ := asked_halt ((pipeline_letGo s uptime).trans hp)
  have hrest := (alike_followRest { (s.letGo uptime).halt with reader := .absent }).pipeline
  refine ⟨r, q, hasked, ?_⟩
  rw [bringDown, settle, hrest]
  exact hq

/-- Starting asks the pipeline for the playing phase once, and answers as the pipeline does. -/
theorem asked_launch (s : Supervisor π α) (p : π) (uptime : Span) :
    ∃ q, MediaPipeline.Asked [(.playing, (s.launch p uptime).1)] p q ∧
      (s.launch p uptime).2.pipeline = some q := by
  obtain ⟨q, hasked, hq⟩ := asked_request s.prepare p .playing
  refine ⟨q, ?_⟩
  unfold launch
  cases hr : s.prepare.request p .playing with
  | mk result s₁ =>
    rw [hr] at hasked hq
    cases result <;> exact ⟨hasked, hq⟩

end Asked

end Supervisor

end MediaBridge
