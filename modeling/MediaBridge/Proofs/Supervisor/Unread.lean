import MediaBridge.Pipeline.Scripted
import MediaBridge.Proofs.Supervisor.Calls

/-! # Errors that nobody read yet

The reader takes messages off the bus until one of them ends its work.  So an error that was posted is
recorded only if it is the first such message, and only once the reader comes to it: behind the end of
the stream nothing is read any more.  The watchdog asks whether the supervisor has failed, and does not
look at the bus.

Of an error on the bus, `Awaits` says that it is still there and that nothing has failed, and
`Recorded` that the error which ended the reading was recorded.  Until the caller starts or stops the
pipeline there is no way out of the second, and only two ways out of the first: an error is recorded,
or the watchdog throws the bus away.

* `fate_of_course`  what one call makes of an error that waits;
* `error_of_run`    what a run makes of it.
-/

namespace MediaBridge

variable {π : Type u} {α : Type v}

/-- The message that will end the reader's work, if it is on the bus already. -/
def Core.ending? (c : Core α) : Option Message :=
  if c.reader = .reading then c.bus.find? Supervisor.endsReading else none

namespace Supervisor

/-- The caller neither starts nor stops the pipeline, and no result comes out of order. -/
def IsQuiet : Call π α → Answer α → Bool
  | .start, _ | .stop, _ | _, .delivered (some .error) => false
  | _, _ => true

/-- Whether the watchdog restarts the pipeline, or tries to. -/
def Turn.Restarts (t : Turn π α) : Prop := t.after.relay.restarts ≠ t.before.relay.restarts

/-! ## What a call does to the status -/

/-- What is on the bus, whether it is read, and what is known of failures and restarts, is the same. -/
structure SameStatus (c c' : Core α) : Prop where
  bus : c'.bus = c.bus
  reader : c'.reader = c.reader
  failed : c'.failed = c.failed
  lastError : c'.lastError = c.lastError
  restarts : c'.restarts = c.restarts

/-- What a quiet call does to all that. -/
inductive Stirs (c : Core α) : Core α → Prop where
  | same {c' : Core α} (h : SameStatus c c') : Stirs c c'
  | posted {messages : List Message} : Stirs c { c with bus := c.bus ++ messages }
  -- The watchdog strikes, and the bus is thrown away.
  | struck {c' : Core α} (hf : c.failed = false) (hrestarts : c'.restarts = c.restarts + 1)
    (hf' : c'.failed = false) (hlast : c'.lastError = none) : Stirs c c'
  -- The pipeline is stopped because it failed.
  | halted (hf : c.failed = true) : Stirs c c.halted
  -- The reader takes a message.
  | readOn {m : Message} {rest : Backlog} (hr : c.reader = .reading) (hm : endsReading m = false)
    (hbus : c.bus = m :: rest) : Stirs c { c with bus := rest }
  | readEnd {rest : Backlog} {p : Ingest} (hr : c.reader = .reading)
    (hbus : c.bus = .endOfStream :: rest) :
    Stirs c { c with bus := rest, reader := .finished, ingest := p }
  | readError {source : Source} {text : String} {details : Option String} {rest : Backlog}
    (hr : c.reader = .reading) (hbus : c.bus = .error source text details :: rest) :
    Stirs c { c.withFailure text with bus := rest, reader := .finished }

/-- What a quiet call does to the status, whichever call it is. -/
theorem stirs_of_course {c c' : Core α} {call : Call π α} {a : Answer α} (h : Course c call a c')
    (hquiet : IsQuiet call a = true) : Stirs c c' := by
  cases h with
  | unstarted => exact nomatch hquiet
  | begun => exact nomatch hquiet
  | unbegun => exact nomatch hquiet
  | unstopped => exact nomatch hquiet
  | stopped => exact nomatch hquiet
  | outOfOrder => exact nomatch hquiet
  | turnedDown hf => exact .halted hf
  | restarted hf => exact .struck hf rfl rfl rfl
  | unrestarted hf => exact .struck hf rfl rfl rfl
  | posted => exact .posted
  | readOn hr hm hbus => exact .readOn hr hm hbus
  | readEnd hr hbus => exact .readEnd hr hbus
  | readError hr hbus => exact .readError hr hbus
  | forwarded _ h => cases h <;> exact .same ⟨rfl, rfl, rfl, rfl, rfl⟩
  | _ => exact .same ⟨rfl, rfl, rfl, rfl, rfl⟩

/-! ## An error that waits -/

/-- An error waits on the bus since the core was `c₀`. -/
structure Awaits (c₀ : Core α) (m : Message) (c : Core α) : Prop where
  failed : c.failed = false
  waits : m ∈ c.bus
  /-- What will end the reading was on the bus from the beginning. -/
  ending : ∀ e, c.ending? = some e → c₀.ending? = some e

/-- The error that was to end the reading when the core was `c₀` was recorded. -/
structure Recorded (c₀ c : Core α) : Prop where
  failed : c.failed = true
  reader : c.reader ≠ .reading
  ending : ∃ source text details,
    c₀.ending? = some (.error source text details) ∧ c.lastError = some text

variable {c₀ c c' : Core α} {m : Message}

/-- The error is still on the bus if another message was taken. -/
theorem mem_of_ne_head {m' : Message} {bus rest : Backlog} (hm : m ∈ bus) (hbus : bus = m' :: rest)
    (hne : m ≠ m') : m ∈ rest := by
  rw [hbus] at hm
  rcases List.mem_cons.1 hm with heq | hrest
  · exact absurd heq hne
  · exact hrest

/-- What is posted later does not end the reading, since the error already would. -/
theorem Awaits.post (h : Awaits c₀ m c) (hm : endsReading m = true) (messages : List Message) :
    Awaits c₀ m { c with bus := c.bus ++ messages } where
  failed := h.failed
  waits := List.mem_append_left _ h.waits
  ending := by
    intro e he
    apply h.ending
    -- something on the bus ends the reading already, and what comes later is behind it
    obtain ⟨first, hfirst⟩ : ∃ first, c.bus.find? endsReading = some first := by
      rw [← Option.isSome_iff_exists, List.find?_isSome]
      exact ⟨m, h.waits, hm⟩
    unfold Core.ending? at he ⊢
    simp only [List.find?_append, hfirst, Option.some_or] at he ⊢
    exact he

/-- A message that does not end the reading is not the error. -/
theorem Awaits.readOn {m' : Message} {rest : Backlog} (h : Awaits c₀ m c)
    (hm : endsReading m = true) (hm' : endsReading m' = false) (hbus : c.bus = m' :: rest) :
    Awaits c₀ m { c with bus := rest } where
  failed := h.failed
  waits := by
    apply mem_of_ne_head h.waits hbus
    intro heq
    rw [heq, hm'] at hm
    exact nomatch hm
  ending := by
    intro e he
    apply h.ending
    unfold Core.ending? at he ⊢
    rw [hbus, List.find?_cons_of_neg (by simp [hm'])]
    exact he

/-- When the reader has taken the end of the stream, nothing ends the reading any more. -/
theorem Awaits.readEnd {rest : Backlog} {p : Ingest} (h : Awaits c₀ m c) (hm : m ≠ .endOfStream)
    (hbus : c.bus = .endOfStream :: rest) :
    Awaits c₀ m { c with bus := rest, reader := .finished, ingest := p } where
  failed := h.failed
  waits := mem_of_ne_head h.waits hbus hm
  ending := by
    intro e he
    exact nomatch he

/-- The reader takes an error, and it is the one that was to end the reading. -/
theorem Awaits.readError {source : Source} {text : String} {details : Option String} {rest : Backlog}
    (h : Awaits c₀ m c) (hr : c.reader = .reading) (hbus : c.bus = .error source text details :: rest) :
    Recorded c₀ { c.withFailure text with bus := rest, reader := .finished } where
  failed := rfl
  reader := nofun
  ending := by
    refine ⟨source, text, details, h.ending _ ?_, rfl⟩
    rw [Core.ending?, if_pos hr, hbus]
    exact List.find?_cons_of_pos rfl

/-- The watchdog may strike, and then nothing is known of the error; otherwise the error waits on, or
    the reading ends with a failure. -/
theorem Awaits.of_stirs (h : Stirs c c') (hm : m.kind = .error) (hc : Awaits c₀ m c) :
    c'.restarts = c.restarts + 1 ∧ c'.failed = false ∧ c'.lastError = none ∨
      c'.restarts = c.restarts ∧ (Awaits c₀ m c' ∨ Recorded c₀ c') := by
  -- an error ends the reading, and it is not the end of the stream
  obtain ⟨hends, hne⟩ : endsReading m = true ∧ m ≠ .endOfStream := by
    cases m with
    | error => exact ⟨rfl, nofun⟩
    | _ => exact nomatch hm
  cases h with
  | same h =>
    refine .inr ⟨h.restarts, .inl ⟨h.failed.trans hc.failed, ?_, ?_⟩⟩
    · rw [h.bus]
      exact hc.waits
    · rw [Core.ending?, h.reader, h.bus]
      exact hc.ending
  | posted => exact .inr ⟨rfl, .inl (hc.post hends _)⟩
  | struck _ hrestarts hf hlast => exact .inl ⟨hrestarts, hf, hlast⟩
  | halted hf =>
    rw [hc.failed] at hf
    exact nomatch hf
  | readOn _ hm' hbus => exact .inr ⟨rfl, .inl (hc.readOn hends hm' hbus)⟩
  | readEnd _ hbus => exact .inr ⟨rfl, .inl (hc.readEnd hne hbus)⟩
  | readError hr hbus => exact .inr ⟨rfl, .inr (hc.readError hr hbus)⟩

/-- Nothing is read any more, and the watchdog leaves a failed pipeline alone. -/
theorem Recorded.of_stirs (h : Stirs c c') (hc : Recorded c₀ c) :
    c'.restarts = c.restarts ∧ Recorded c₀ c' := by
  cases h with
  | same h =>
    refine ⟨h.restarts, h.failed.trans hc.failed, ?_, ?_⟩
    · rw [h.reader]
      exact hc.reader
    · rw [h.lastError]
      exact hc.ending
  | posted => exact ⟨rfl, hc.failed, hc.reader, hc.ending⟩
  | struck hf =>
    rw [hc.failed] at hf
    exact nomatch hf
  | halted =>
    unfold Core.halted
    split
    · exact ⟨rfl, hc⟩
    · exact ⟨rfl, hc.failed, nofun, hc.ending⟩
  | readOn hr => exact absurd hr hc.reader
  | readEnd hr => exact absurd hr hc.reader
  | readError hr => exact absurd hr hc.reader

/-! ## Runs -/

/-- Whether a turn is quiet. -/
def Turn.isQuiet (t : Turn π α) : Bool := IsQuiet t.call t.answer

variable [MediaPipeline π] {s s' : Supervisor π α} {turns : List (Turn π α)}

/-- The error waits or is recorded, unless the watchdog strikes. -/
theorem fate_of_run (run : Run s turns s') (hquiet : ∀ t ∈ turns, t.isQuiet = true)
    (hm : m.kind = .error) (hwaits : m ∈ s.bus) (hf : s.failed = false) :
    (∃ t ∈ turns, t.Restarts ∧ m ∈ t.before.bus ∧ t.after.failed = false ∧
      t.after.lastError = none) ∨
    (∀ t ∈ turns, ¬t.Restarts) ∧ (Awaits s.core m s'.core ∨ Recorded s.core s'.core) := by
  induction run with
  | start =>
    have hnone : ∀ t ∈ ([] : List (Turn π α)), ¬t.Restarts :=
      fun t ht => absurd ht List.not_mem_nil
    exact .inr ⟨hnone, .inl ⟨hf, hwaits, fun e he => he⟩⟩
  | @turn turns s₁ s₂ uptime c a run hcall ih =>
    have hold : ∀ t ∈ turns, t.isQuiet = true := by
      intro t ht
      exact hquiet t (List.mem_append_left _ ht)
    have hnew : IsQuiet c a = true :=
      hquiet ⟨s₁, uptime, c, a, s₂⟩ (List.mem_append_right _ (List.mem_singleton_self _))
    have hstirs := stirs_of_course (course_of_call? hcall) hnew
    rcases ih hold with ⟨t, ht, hstruck⟩ | ⟨hnone, hfate⟩
    · exact .inl ⟨t, List.mem_append_left _ ht, hstruck⟩
    · -- a turn that counts no restart is none
      have hsnoc : s₂.core.restarts = s₁.core.restarts →
          ∀ t ∈ turns ++ [⟨s₁, uptime, c, a, s₂⟩], ¬t.Restarts := by
        intro hrestarts t ht hr
        rcases List.mem_append.1 ht with ht | ht
        · exact hnone t ht hr
        · rw [List.mem_singleton.1 ht] at hr
          exact hr hrestarts
      rcases hfate with hawaits | hrecorded
      · rcases hawaits.of_stirs hstirs hm with ⟨hrestarts, hf', hlast⟩ | ⟨hrestarts, hfate⟩
        · refine .inl ⟨_, List.mem_append_right _ (List.mem_singleton_self _), ?_, hawaits.waits,
            hf', hlast⟩
          intro heq
          have hone : s₁.core.restarts + 1 = s₁.core.restarts := hrestarts.symm.trans heq
          simp at hone
        · exact .inr ⟨hsnoc hrestarts, hfate⟩
      · obtain ⟨hrestarts, hrecorded⟩ := hrecorded.of_stirs hstirs
        exact .inr ⟨hsnoc hrestarts, .inr hrecorded⟩

/-- From the moment an error is on the bus until the caller starts or stops the pipeline, the watchdog
    does not strike and the error is either still there or the supervisor has failed, with the text of
    the first error on the bus; unless the watchdog strikes before that error was read.  Then the bus is
    thrown away, and the supervisor knows of no failure. -/
theorem error_of_run {source : Source} {text : String} {details : Option String}
    (run : Run s turns s') (hquiet : ∀ t ∈ turns, t.isQuiet = true)
    (hwaits : .error source text details ∈ s.bus) (hf : s.failed = false) :
    (∃ t ∈ turns, t.Restarts ∧ .error source text details ∈ t.before.bus ∧
      t.after.failed = false ∧ t.after.lastError = none) ∨
    (∀ t ∈ turns, ¬t.Restarts) ∧
      (s'.failed = false ∧ .error source text details ∈ s'.bus ∨
        s'.failed = true ∧ ∃ source' text' details',
          s.core.ending? = some (.error source' text' details') ∧ s'.lastError = some text') := by
  rcases fate_of_run run hquiet rfl hwaits hf with hstruck | ⟨hnone, hawaits | hrecorded⟩
  · exact .inl hstruck
  · exact .inr ⟨hnone, .inl ⟨hawaits.failed, hawaits.waits⟩⟩
  · exact .inr ⟨hnone, .inr ⟨hrecorded.failed, hrecorded.ending⟩⟩

/-- A run begins, in which a warning and an error are posted. -/
def warnedThenStuck : List (Span × Call Scripted Nat) :=
  [.install (.ok { posts := false }), .start,
    .post [.warning .pipeline "slow", .error .pipeline "stuck" none]].map (.zero, ·)

/-- The reader comes to the error before the next submission. -/
def readThenSubmitted : List (Span × Call Scripted Nat) :=
  [.read, .read, .submit 0 7].map (.zero, ·)

/-- So the error is recorded, and the watchdog does not strike. -/
theorem error_of_run_recorded : ∃ (s s' : Supervisor Scripted Nat) (turns : List (Turn Scripted Nat)),
    Run s turns s' ∧ .error .pipeline "stuck" none ∈ s.bus ∧ s.failed = false ∧
      (∀ t ∈ turns, ¬t.Restarts) ∧ s'.failed = true ∧ s'.lastError = some "stuck" := by
  obtain ⟨prior, s, turns, s', -, hturns, hwaits, hf, hquiet, hstill, hending, hfailed⟩ :
      ∃ prior s turns s',
        (new {} : Supervisor Scripted Nat).turns? warnedThenStuck = some (prior, s) ∧
        s.turns? readThenSubmitted = some (turns, s') ∧
        s.bus.contains (.error .pipeline "stuck" none) = true ∧ s.failed = false ∧
        turns.all Turn.isQuiet = true ∧
        (turns.all fun t => t.after.relay.restarts = t.before.relay.restarts) = true ∧
        s.core.ending? = some (.error .pipeline "stuck" none) ∧ s'.failed = true :=
    ⟨_, _, _, _, rfl, rfl, rfl, rfl, rfl, rfl, rfl, rfl⟩
  have hrun := run_of_turns? hturns
  have hmem := List.contains_iff_mem.1 hwaits
  have hnone : ∀ t ∈ turns, ¬t.Restarts := by
    intro t ht hr
    exact hr (of_decide_eq_true (List.all_eq_true.1 hstill t ht))
  refine ⟨s, s', turns, hrun, hmem, hf, hnone, hfailed, ?_⟩
  rcases error_of_run hrun (List.all_eq_true.1 hquiet) hmem hf with
    ⟨t, ht, hr, -⟩ | ⟨-, ⟨hf', -⟩ | ⟨-, source, text, details, hfirst, hlast⟩⟩
  · exact absurd hr (hnone t ht)
  · rw [hfailed] at hf'
    exact nomatch hf'
  · rw [hending] at hfirst
    cases hfirst
    exact hlast

/-- A run begins, and the reader takes the end of the stream before an error is posted. -/
def endedThenStuck : List (Span × Call Scripted Nat) :=
  [.install (.ok {}), .start, .read, .read, .read, .post [.endOfStream], .read,
    .post [.error .pipeline "decoder exploded" none]].map (.zero, ·)

/-- Settings with which every submission is one that restarts the pipeline. -/
def impatient : Settings := { watchdog := { timeoutMs := 0, resetCount := 1 } }

/-- So it is not true that the watchdog leaves a pipeline alone that has posted an error, or that such an
    error stays on the bus until it is recorded. -/
theorem not_error_recorded : ¬∀ (settings : Settings) (prior turns : List (Turn Scripted Nat))
    (s s' : Supervisor Scripted Nat) (source : Source) (text : String) (details : Option String),
    settings.validate = .ok () → Run (.new settings) prior s → s.isRunning = true →
    Run s turns s' → (∀ t ∈ turns, t.isQuiet = true) → .error source text details ∈ s.bus →
    s.failed = false →
      (∀ t ∈ turns, ¬t.Restarts) ∧
        (.error source text details ∈ s'.bus ∨ s'.failed = true ∧ s'.lastError = some text) := by
  intro hall
  obtain ⟨prior, s, turns, s', hprior, hturns, hrunning, hquiet, hwaits, hf, hlost, hf'⟩ :
      ∃ prior s turns s',
        (new impatient : Supervisor Scripted Nat).turns? endedThenStuck = some (prior, s) ∧
        s.turns? [(.zero, .submit 0 7)] = some (turns, s') ∧ s.isRunning = true ∧
        turns.all Turn.isQuiet = true ∧
        s.bus.contains (.error .pipeline "decoder exploded" none) = true ∧ s.failed = false ∧
        s'.bus.contains (.error .pipeline "decoder exploded" none) = false ∧ s'.failed = false :=
    ⟨_, _, _, _, rfl, rfl, rfl, rfl, rfl, rfl, rfl, rfl⟩
  have hmem := List.contains_iff_mem.1 hwaits
  obtain ⟨-, hmem' | ⟨hfailed, -⟩⟩ := hall impatient prior turns s s' _ _ _ rfl
    (run_of_turns? hprior) hrunning (run_of_turns? hturns) (List.all_eq_true.1 hquiet) hmem hf
  · rw [List.contains_iff_mem.2 hmem'] at hlost
    exact nomatch hlost
  · rw [hf'] at hfailed
    exact nomatch hfailed

end Supervisor

end MediaBridge
