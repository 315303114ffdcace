import MediaBridge.Pipeline.Scripted
import MediaBridge.Proofs.Supervisor.Calls

/-! # When the ingest is open

Starting opens the ingest; a start that is refused, stopping, an error of the pipeline and a result out
of order close it.  Two other things say whether frames are welcome: the supervisor runs, and it has
not failed.  `Gated` says that the three never disagree, and that nothing is left in a closed ingest.

* `gated_of_course`  no call breaks the invariant;
* `gate_of_run`      what it means for submissions at every point of a run.
-/

namespace MediaBridge

variable {π : Type u} {α : Type v}

/-- A closed ingest turns everybody away at once. -/
theorem Ingest.answer?_of_flushing {p : Ingest} (h : p.flushing = true) :
    p.answer? = some .flushing := by simp [answer?, h]

namespace Supervisor

/-- Whether frames are welcome. -/
def Serves (s : Supervisor π α) : Prop := s.isRunning = true ∧ s.failed = false

/-! ## The invariant -/

/-- The ingest is open exactly while frames are welcome. -/
structure Gated (c : Core α) : Prop where
  gate : c.ingest.flushing = false ↔ c.reader ≠ .absent ∧ c.failed = false
  /-- A closed ingest holds nothing. -/
  empty : c.ingest.flushing = true → c.ingest.queue = [] ∧ c.ingest.queuedBytes = 0

/-- A new supervisor does not run, and its ingest is closed. -/
theorem gated_new (settings : Settings) : Gated (new settings : Supervisor π α).core where
  gate := by simp [core, new, Relay.new]
  empty := fun _ => ⟨rfl, rfl⟩

/-- A closed ingest is right for one that does not run or has failed. -/
theorem Gated.of_closed {c : Core α} {p : Ingest} (hingest : c.ingest = p.closed)
    (h : c.reader = .absent ∨ c.failed = true) : Gated c where
  gate := by
    rw [hingest]
    rcases h with hr | hf
    · simp [Ingest.closed, hr]
    · simp [Ingest.closed, hf]
  empty := by
    intro
    rw [hingest]
    exact ⟨rfl, rfl⟩

/-- A run begins with an open ingest. -/
theorem Gated.begun {c : Core α} (posted : Backlog) : Gated (c.begun posted) where
  gate := by simp [Core.begun, Core.prepared, Ingest.reopen]
  empty := by simp [Core.begun, Core.prepared, Ingest.reopen]

/-- A start that is refused leaves a closed ingest and no run. -/
theorem Gated.unbegun {c : Core α} (hr : c.reader = .absent) (posted : Backlog) :
    Gated (c.unbegun posted) := .of_closed rfl (.inl hr)

/-- Stopping closes the ingest. -/
theorem Gated.halted {c : Core α} (hc : Gated c) : Gated c.halted := by
  unfold Core.halted
  split
  · exact hc
  · exact .of_closed rfl (.inl rfl)

/-- What the ingest lets in, and whether frames are welcome, are as before. -/
theorem Gated.same {c c' : Core α} (hc : Gated c)
    (hflushing : c'.ingest.flushing = c.ingest.flushing)
    (hqueue : c.ingest.flushing = true →
      c'.ingest.queue = c.ingest.queue ∧ c'.ingest.queuedBytes = c.ingest.queuedBytes)
    (hreader : c'.reader = .absent ↔ c.reader = .absent) (hfailed : c'.failed = c.failed) :
    Gated c' where
  gate := by
    rw [hflushing, hfailed, Ne, hreader]
    exact hc.gate
  empty := by
    intro h
    rw [hflushing] at h
    rw [(hqueue h).1, (hqueue h).2]
    exact hc.empty h

/-- A frame that goes to the ingest opens and closes nothing. -/
theorem gated_of_forwards {c c' : Core α} {now : ClockTime} {a : Admission}
    (h : c.Forwards now a c') (hc : Gated c) : Gated c' := by
  cases h with
  | refused => exact hc.same rfl (fun _ => ⟨rfl, rfl⟩) .rfl rfl
  | accepted ha =>
    refine hc.same rfl (fun hclosed => ?_) .rfl rfl
    rw [Ingest.answer?_of_flushing hclosed] at ha
    exact nomatch ha
  | waits => exact hc.same rfl (fun _ => ⟨rfl, rfl⟩) .rfl rfl

/-- No call breaks the invariant. -/
theorem gated_of_course {c c' : Core α} {call : Call π α} {a : Answer α} (h : Course c call a c')
    (hc : Gated c) : Gated c' := by
  cases h with
  | aside => exact hc
  -- starting and stopping
  | unstarted => exact hc.halted
  | begun => exact .begun _
  | unbegun => exact .unbegun c.reader_halted _
  | unstopped => exact hc
  | stopped => exact .of_closed rfl (.inl rfl)
  -- submissions
  | uninstalled => exact hc
  | turnedDown => exact hc.halted
  | restarted => exact .begun _
  | unrestarted => exact .unbegun rfl _
  | forwarded _ h => exact gated_of_forwards h hc
  | resumed ha =>
    refine hc.same rfl (fun hclosed => ?_) .rfl rfl
    rw [Ingest.answer?_of_flushing hclosed] at ha
    exact nomatch ha
  | withdrawn => exact hc.same rfl (fun _ => ⟨rfl, rfl⟩) .rfl rfl
  | taken => exact hc.same rfl (fun _ => ⟨rfl, rfl⟩) .rfl rfl
  | capsSet => exact hc.same rfl (fun _ => ⟨rfl, rfl⟩) .rfl rfl
  | capsUnset => exact hc
  | streamEnded => exact hc.same rfl (fun _ => ⟨rfl, rfl⟩) .rfl rfl
  -- results and frames on their way
  | received => exact hc.same rfl (fun _ => ⟨rfl, rfl⟩) .rfl rfl
  | outOfOrder => exact .of_closed rfl (.inr rfl)
  | pulled hpull =>
    obtain ⟨rest, hqueue, -, rfl⟩ := Ingest.pull_cases hpull
    refine hc.same rfl (fun hclosed => ?_) .rfl rfl
    -- there was a frame to pull
    rw [(hc.empty hclosed).1] at hqueue
    exact nomatch hqueue
  | nothingToPull => exact hc
  -- status messages
  | posted => exact hc.same rfl (fun _ => ⟨rfl, rfl⟩) .rfl rfl
  | nothingToRead => exact hc
  | readOn => exact hc.same rfl (fun _ => ⟨rfl, rfl⟩) .rfl rfl
  | readEnd hr =>
    by_cases hf : c.failed = true
    · exact .of_closed (if_pos hf) (.inr hf)
    · have hingest : (if c.failed then c.ingest.closed else c.ingest) = c.ingest := if_neg hf
      simp only [hingest]
      refine hc.same rfl (fun _ => ⟨rfl, rfl⟩) ?_ rfl
      simp [hr]
  | readError => exact .of_closed rfl (.inr rfl)

/-- The invariant holds after every run. -/
theorem gated_of_run [MediaPipeline π] {settings : Settings} {turns : List (Turn π α)}
    {s : Supervisor π α} (run : Run (.new settings) turns s) : Gated s.core := by
  induction run with
  | start => exact gated_new settings
  | turn _ h ih => exact gated_of_course (course_of_call? h) ih

/-! ## What it means for submissions -/

/-- The ingest is open exactly while the supervisor serves. -/
theorem Gated.serves_iff {s : Supervisor π α} (h : Gated s.core) :
    s.relay.ingest.flushing = false ↔ s.Serves := by
  rw [Serves, isRunning_iff]
  exact h.gate

/-- A closed ingest is as it would be if it were closed again. -/
theorem Gated.closed {c : Core α} (hc : Gated c) (h : c.ingest.flushing = true) :
    c.ingest.closed = c.ingest := by
  obtain ⟨hqueue, hbytes⟩ := hc.empty h
  rw [Ingest.closed, ← h, ← hqueue, ← hbytes]

/-- Stopping leaves a closed ingest as it was. -/
theorem Gated.ingest_halted {c : Core α} (hc : Gated c) (h : c.ingest.flushing = true) :
    c.halted.ingest = c.ingest := by
  unfold Core.halted
  split
  · rfl
  · exact hc.closed h

/-- A frame is accepted by an open ingest only. -/
theorem open_of_accepted {c c' : Core α} {frame : HandleId} {user : α}
    (h : Course (π := π) c (.submit frame user) (.submitted (.done (.ok true))) c') :
    c.ingest.flushing = false := by
  cases h with
  | aside hcall => exact hcall.elim
  | forwarded hf h =>
    cases h with
    | refused hresult => exact absurd rfl hresult
    | accepted ha => exact (Ingest.answer?_eq_ok_iff.1 ha).1

/-- A submission that waited is accepted by an open ingest only. -/
theorem open_of_resumed {c c' : Core α} {w : Waiter}
    (h : Course (π := π) c (.resumeSubmit w) (.resumed true) c') : c.ingest.flushing = false := by
  cases h with
  | aside hcall => exact hcall.elim
  | resumed ha => exact (Ingest.answer?_eq_ok_iff.1 ha).1

/-- A submission that finds the ingest closed ends at once, and leaves the ingest and the next id as
    they were. -/
theorem idle_of_closed {c c' : Core α} {frame : HandleId} {user : α} {a : Admission}
    (h : Course (π := π) c (.submit frame user) (.submitted a) c') (hc : Gated c)
    (hclosed : c.ingest.flushing = true) :
    (∃ result, a = .done result ∧ result ≠ .ok true) ∧ c'.ingest = c.ingest ∧
      c'.pending.nextId = c.pending.nextId := by
  have hidle : c.failed = false → c.reader ≠ .absent → False := by
    intro hf hr
    have hopen := hc.gate.2 ⟨hr, hf⟩
    rw [hclosed] at hopen
    exact nomatch hopen
  cases h with
  | aside hcall => exact hcall.elim
  | uninstalled => exact ⟨⟨_, rfl, nofun⟩, rfl, rfl⟩
  | turnedDown =>
    refine ⟨⟨_, rfl, nofun⟩, hc.ingest_halted hclosed, ?_⟩
    rw [Core.pending_halted]
  -- the watchdog looks at the supervisor only while the ingest is open
  | restarted hf hr => exact (hidle hf hr).elim
  | unrestarted hf hr => exact (hidle hf hr).elim
  | forwarded hf h =>
    cases h with
    | refused hresult hid => exact ⟨⟨_, rfl, hresult⟩, rfl, hid⟩
    | accepted ha =>
      rw [Ingest.answer?_of_flushing hclosed] at ha
      exact nomatch ha
    | waits ha =>
      rw [Ingest.answer?_of_flushing hclosed] at ha
      exact nomatch ha

/-- At every point of every run the ingest is open exactly while the supervisor runs and has not
    failed.  Only then is a frame accepted, at once or after a wait; at any other point a submission
    ends at once, and leaves the ingest and the next id as they were. -/
theorem gate_of_run [MediaPipeline π] {settings : Settings} {turns : List (Turn π α)}
    {s : Supervisor π α} (run : Run (.new settings) turns s) :
    (s.relay.ingest.flushing = false ↔ s.Serves) ∧
    (∀ uptime frame user a s', s.submit uptime frame user = (a, s') →
      (a = .done (.ok true) → s.Serves) ∧
      (¬s.Serves → (∃ result, a = .done result ∧ result ≠ .ok true) ∧
        s'.relay.ingest = s.relay.ingest ∧
        s'.relay.bridge.pending.nextId = s.relay.bridge.pending.nextId)) ∧
    ∀ w s', s.resumeSubmit? w = some (true, s') → s.Serves := by
  have hs := gated_of_run run
  refine ⟨hs.serves_iff, ?_, ?_⟩
  · intro uptime frame user a s' h
    have hcourse := course_submit s uptime frame user
    rw [h] at hcourse
    constructor
    · intro ha
      cases ha
      exact hs.serves_iff.1 (open_of_accepted hcourse)
    · intro hidle
      have hclosed : s.core.ingest.flushing = true := by
        rw [← hs.serves_iff] at hidle
        exact Bool.of_not_eq_false hidle
      exact idle_of_closed hcourse hs hclosed
  · intro w s' h
    exact hs.serves_iff.1 (open_of_resumed (course_resumeSubmit h))

/-- A frame is accepted, and then the pipeline fails. -/
def failingCalls : List (Span × Call Scripted Nat) :=
  [.install (.ok { posts := false }), .elsewhere (framesWith [none]), .start, .submit 0 7,
    .post [.error .pipeline "stuck" none], .read].map (.zero, ·)

/-- The ingest was open and is closed again, so no submission that still waits is accepted. -/
theorem gate_of_failed_run : ∃ (turns : List (Turn Scripted Nat)) (s : Supervisor Scripted Nat),
    Run (.new {}) turns s ∧
      turns[3]?.map Turn.answer = some (.submitted (.done (.ok true))) ∧
      s.isRunning = true ∧ s.failed = true ∧ s.relay.ingest.flushing = true ∧
      ∀ w s', s.resumeSubmit? w ≠ some (true, s') := by
  obtain ⟨turns, s, hturns, hanswer, hrunning, hfailed⟩ : ∃ turns s,
      (new {} : Supervisor Scripted Nat).turns? failingCalls = some (turns, s) ∧
        turns[3]?.map Turn.answer = some (.submitted (.done (.ok true))) ∧
        s.isRunning = true ∧ s.failed = true :=
    ⟨_, _, rfl, rfl, rfl, rfl⟩
  have hrun := run_of_turns? hturns
  obtain ⟨hgate, -, hresume⟩ := gate_of_run hrun
  have hidle : ¬s.Serves := by
    intro h
    rw [h.2] at hfailed
    exact nomatch hfailed
  refine ⟨turns, s, hrun, hanswer, hrunning, hfailed, ?_, ?_⟩
  · rw [← hgate] at hidle
    exact Bool.of_not_eq_false hidle
  · intro w s' h
    exact hidle (hresume w s' h)

end Supervisor

end MediaBridge
