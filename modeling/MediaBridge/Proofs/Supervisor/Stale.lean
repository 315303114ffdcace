import MediaBridge.Proofs.Supervisor.Failed

/-! # Errors of an earlier run

Three things tell that a pipeline failed: the flag, the text of the last error, and the error of a
result out of order, which waits until somebody takes it.  Flag and text go together.  A start takes
both back, but the error that waits is left alone, so it can be taken in a run that is in order.

* `accord_of_run`     flag and text always agree;
* `fatal_of_course`   what one call makes of the error that waits;
* `stale_iff_of_run`  an error waits though nothing has failed exactly if it survived a start.
-/

namespace MediaBridge

variable {π : Type u} {α : Type v}

/-- A stop leaves the error that waits. -/
theorem Core.fatal_halted (c : Core α) : c.halted.fatal = c.fatal := by
  unfold halted
  split <;> rfl

/-- A stop does not forget a failure. -/
theorem Core.failed_halted (c : Core α) : c.halted.failed = c.failed := by
  unfold halted
  split <;> rfl

namespace Supervisor

/-! ## Flag and text -/

/-- The flag says that the pipeline failed exactly if there is a text. -/
def Accord (c : Core α) : Prop := c.failed = true ↔ c.lastError.isSome = true

/-- A stop leaves flag and text as they were. -/
theorem Accord.halted {c : Core α} (hc : Accord c) : Accord c.halted := by
  unfold Core.halted
  split <;> exact hc

/-- Flag and text were both taken back. -/
theorem Accord.of_cleared {c : Core α} (hf : c.failed = false) (hlast : c.lastError = none) :
    Accord c := by
  simp [Accord, hf, hlast]

/-- The flag was set, and a text with it. -/
theorem Accord.of_failure {c : Core α} {text : String} (hf : c.failed = true)
    (hlast : c.lastError = some text) : Accord c := by
  simp [Accord, hf, hlast]

/-- Wherever a call changes the flag, it changes the text too. -/
theorem accord_of_course {c c' : Core α} {call : Call π α} {a : Answer α} (h : Course c call a c')
    (hc : Accord c) : Accord c' := by
  cases h with
  | unstarted => exact hc.halted
  | turnedDown => exact hc.halted
  | begun | unbegun | restarted | unrestarted => exact .of_cleared rfl rfl
  | outOfOrder | readError => exact .of_failure rfl rfl
  | forwarded _ h => cases h <;> exact hc
  | _ => exact hc

/-- The flag says that the pipeline failed exactly if there is a text, at every point of a run. -/
theorem accord_of_run [MediaPipeline π] {settings : Settings} {turns : List (Turn π α)}
    {s : Supervisor π α} (run : Run (.new settings) turns s) : Accord s.core := by
  induction run with
  | start => exact .of_cleared rfl rfl
  | turn _ h ih => exact accord_of_course (course_of_call? h) ih

/-! ## The error that waits -/

/-- What a call makes of the error that waits to be taken. -/
inductive Leaves (c : Core α) : Call π α → Answer α → Core α → Prop where
  | same {call : Call π α} {a : Answer α} {c' : Core α} (hfatal : c'.fatal = c.fatal) :
    Leaves c call a c'
  | taken {a : Answer α} {c' : Core α} (hfatal : c'.fatal = none) : Leaves c .takeFatal a c'
  -- A result came out of order.
  | raised {item : Item} {c' : Core α} (hf : c'.failed = true) :
    Leaves c (.deliver item) (.delivered (some .error)) c'

/-- The error that waits is taken, or raised by a result out of order, or left as it was. -/
theorem fatal_of_course {c c' : Core α} {call : Call π α} {a : Answer α} (h : Course c call a c') :
    Leaves c call a c' := by
  cases h with
  | unstarted => exact .same c.fatal_halted
  | begun => exact .same c.fatal_halted
  | unbegun => exact .same c.fatal_halted
  | turnedDown => exact .same c.fatal_halted
  | taken => exact .taken rfl
  | outOfOrder => exact .raised rfl
  | forwarded _ h => cases h <;> exact .same rfl
  | _ => exact .same rfl

/-- Nothing fails unless a result comes out of order or an error is read. -/
theorem sound_of_course {c c' : Core α} {call : Call π α} {a : Answer α} (h : Course c call a c')
    (hf : c.failed = false) :
    c'.failed = false ∨ (∃ item, call = .deliver item ∧ a = .delivered (some .error)) ∨
      call = .read ∧ c.reader = .reading ∧ ∃ m rest, c.bus = m :: rest ∧ m.kind = .error := by
  cases h with
  | unstarted => exact .inl (c.failed_halted.trans hf)
  | begun | unbegun | restarted | unrestarted => exact .inl rfl
  | turnedDown hf' => exact nomatch hf.symm.trans hf'
  | outOfOrder => exact .inr (.inl ⟨_, rfl, rfl⟩)
  | readError hr hbus => exact .inr (.inr ⟨rfl, hr, _, _, hbus, rfl⟩)
  | forwarded _ h => cases h <;> exact .inl hf
  | _ => exact .inl hf

/-- Whether a turn starts the pipeline, or tries to. -/
def Turn.Starts (t : Turn π α) : Prop := t.call = .start ∧ t.before.pipeline.isSome = true

/-- Whether a turn leaves an error that waits to be taken, and a supervisor that has not failed, as they
    were. -/
def Turn.Spares (t : Turn π α) : Prop := t.call ≠ .takeFatal ∧ ¬t.Fails

section Turns

variable [MediaPipeline π]

/-- Whatever the pipeline answers, flag and text are taken back, and an error that waits is not. -/
theorem fatal_start {s : Supervisor π α} (hp : s.pipeline.isSome = true) (uptime : Span) :
    (s.start uptime).2.failed = false ∧ (s.start uptime).2.lastError = none ∧
      (s.start uptime).2.fatal = s.fatal := by
  obtain ⟨p, -, hstart⟩ := start_eq_launch hp uptime
  have hfatal : (s.dispose uptime).fatal = s.fatal :=
    (congrArg Core.fatal (core_dispose s uptime)).trans s.core.fatal_halted
  rw [hstart, ← hfatal]
  rcases launch_cases (s.dispose uptime) p uptime with ⟨posted, s₂, h, hcore⟩ | ⟨e, posted, s₂, h, hcore⟩
  · rw [h]
    exact ⟨congrArg Core.failed hcore, congrArg Core.lastError hcore, congrArg Core.fatal hcore⟩
  · rw [h]
    exact ⟨congrArg Core.failed hcore, congrArg Core.lastError hcore, congrArg Core.fatal hcore⟩

/-- Without a pipeline a start changes nothing of what is known of failures. -/
theorem failed_start_of_none {s : Supervisor π α} (hp : s.pipeline = none) (uptime : Span) :
    (s.start uptime).2.failed = s.failed := by
  rw [start_eq_dispose hp]
  exact (congrArg Core.failed (core_dispose s uptime)).trans s.core.failed_halted

variable {s s' : Supervisor π α} {uptime : Span} {c : Call π α} {a : Answer α}

/-- Only a start makes a supervisor that has failed forget it. -/
theorem starts_of_cleared (h : s.call? uptime c = some (a, s')) (hf : s.failed = true)
    (hf' : s'.failed = false) : Turn.Starts ⟨s, uptime, c, a, s'⟩ := by
  have hforgets : s'.failed ≠ s.failed := by
    rw [hf, hf']
    exact Bool.false_ne_true
  -- every other call keeps a failed supervisor failed (`failed_of_course`)
  cases c with
  | start =>
    cases h
    cases hp : s.pipeline with
    | none => exact absurd (failed_start_of_none hp uptime) hforgets
    | some p => exact ⟨rfl, Option.isSome_of_eq_some hp⟩
  | _ => exact absurd ((failed_of_course (course_of_call? h) nofun hf).1.trans hf.symm) hforgets

/-- A supervisor that has not failed does not fail in such a turn. -/
theorem Turn.Spares.sound (hspares : Turn.Spares ⟨s, uptime, c, a, s'⟩)
    (h : s.call? uptime c = some (a, s')) (hf : s.failed = false) : s'.failed = false := by
  rcases sound_of_course (course_of_call? h) hf with
    hsound | ⟨item, rfl, hanswer⟩ | ⟨rfl, hr, m, rest, hbus, hm⟩
  · exact hsound
  · exact absurd hanswer hspares.2
  · have hnext : s.next? = some m := (if_pos hr).trans (congrArg List.head? hbus)
    exact absurd ⟨m, hnext, hm⟩ hspares.2

/-- An error that waits still waits after such a turn. -/
theorem Turn.Spares.fatal (hspares : Turn.Spares ⟨s, uptime, c, a, s'⟩)
    (h : s.call? uptime c = some (a, s')) : s'.fatal = s.fatal := by
  have hleaves := fatal_of_course (course_of_call? h)
  generalize hcore : s'.core = core at hleaves
  cases hleaves with
  | same hfatal => exact (congrArg Core.fatal hcore).trans hfatal
  | taken => exact absurd rfl hspares.1
  | raised => exact absurd rfl hspares.2

/-- An error that waits while nothing has failed was left alone by the last turn. -/
theorem spares_of_waits (h : s.call? uptime c = some (a, s')) (hfatal : s'.fatal.isSome = true)
    (hf : s'.failed = false) : Turn.Spares ⟨s, uptime, c, a, s'⟩ := by
  constructor
  · rintro rfl
    cases h
    exact nomatch hfatal
  · intro hfails
    exact Bool.false_ne_true (hf.symm.trans (hfails.failed h))

/-! ## Runs -/

variable {settings : Settings} {turns : List (Turn π α)}

/-- The error that waits is of an earlier run if it survived a start, and nobody has taken it and
    nothing has failed since. -/
theorem stale_of_split {s₀ : Supervisor π α} (run : Run s₀ turns s)
    (hfatal : s₀.fatal.isSome = true) (hf : s₀.failed = false)
    (hspares : ∀ t ∈ turns, t.Spares) : s.fatal.isSome = true ∧ s.failed = false := by
  induction run with
  | start => exact ⟨hfatal, hf⟩
  | @turn turns s s' uptime c a _ h ih =>
    obtain ⟨hearlier, hspared⟩ := List.forall_mem_append.1 hspares
    have hlast : Turn.Spares ⟨s, uptime, c, a, s'⟩ := List.forall_mem_singleton.1 hspared
    obtain ⟨hfatal', hf'⟩ := ih hearlier
    refine ⟨?_, hlast.sound h hf'⟩
    rw [hlast.fatal h]
    exact hfatal'

/-- There is such a start whenever an error waits though nothing has failed. -/
theorem split_of_stale (run : Run (.new settings) turns s) (hfatal : s.fatal.isSome = true)
    (hf : s.failed = false) :
    ∃ earlier t later, turns = earlier ++ t :: later ∧ t.Starts ∧ t.before.fatal.isSome = true ∧
      ∀ t' ∈ later, t'.Spares := by
  induction run with
  | start => exact nomatch hfatal
  | @turn turns s s' uptime c a _ h ih =>
    have hlast : Turn.Spares ⟨s, uptime, c, a, s'⟩ := spares_of_waits h hfatal hf
    have hbefore : s.fatal.isSome = true := by
      rw [← hlast.fatal h]
      exact hfatal
    -- if the supervisor had failed before the last turn, that turn is the start
    cases hfailed : s.failed with
    | true =>
      refine ⟨turns, _, [], rfl, starts_of_cleared h hfailed hf, hbefore, ?_⟩
      exact fun t ht => absurd ht List.not_mem_nil
    | false =>
      obtain ⟨earlier, t, later, rfl, hstarts, hwaits, hspares⟩ := ih hbefore hfailed
      refine ⟨earlier, t, later ++ [⟨s, uptime, c, a, s'⟩], by simp, hstarts, hwaits, ?_⟩
      exact List.forall_mem_append.2 ⟨hspares, List.forall_mem_singleton.2 hlast⟩

/-- Flag and text agree at every point of every run.  They disagree with the error that waits exactly if
    that error survived a start, and nobody has taken it and nothing has failed since.  So a start takes
    flag and text back, but an error that waits then still waits. -/
theorem stale_iff_of_run (run : Run (.new settings) turns s) :
    (s.failed = true ↔ s.lastError.isSome = true) ∧
    (s.fatal.isSome = true ∧ s.failed = false ↔
      ∃ earlier t later, turns = earlier ++ t :: later ∧ t.Starts ∧
        t.before.fatal.isSome = true ∧ ∀ t' ∈ later, t'.Spares) ∧
    (s.pipeline.isSome = true → ∀ uptime, (s.start uptime).2.failed = false ∧
      (s.start uptime).2.lastError = none ∧ (s.start uptime).2.fatal = s.fatal) := by
  refine ⟨accord_of_run run, ⟨fun h => split_of_stale run h.1 h.2, ?_⟩, fatal_start⟩
  rintro ⟨earlier, t, later, rfl, hstarts, hwaits, hspares⟩
  obtain ⟨s₁, -, hrest⟩ := run.split
  obtain ⟨rfl, hcall, hlater⟩ := hrest.first
  obtain ⟨hstart, hp⟩ := hstarts
  obtain ⟨hf, -, hfatal⟩ := fatal_start hp t.uptime
  -- a start leaves the error and forgets the failure, and the turns after it spare both
  have hafter : (t.before.start t.uptime).2 = t.after := by
    rw [hstart] at hcall
    exact (Prod.mk.inj (Option.some.inj hcall)).2
  rw [hafter] at hf hfatal
  refine stale_of_split hlater ?_ hf hspares
  rw [hfatal]
  exact hwaits

end Turns

/-- The second of three results comes back twice, and the pipeline is started again. -/
def restartedAfterViolation : List (Span × Call Scripted Nat) :=
  secondBack ++ [.deliver (.sample ⟨1, none⟩), .start].map (.zero, ·)

/-- The error of the result out of order still waits. -/
theorem stale_after_start : ∃ (turns : List (Turn Scripted Nat)) (s : Supervisor Scripted Nat),
    Run (.new {}) turns s ∧ s.isRunning = true ∧ s.failed = false ∧ s.lastError = none ∧
      s.fatal = some (.orderingViolation 1 2) ∧
      (∃ earlier t later, turns = earlier ++ t :: later ∧ t.Starts ∧
        t.before.fatal.isSome = true ∧ ∀ t' ∈ later, t'.Spares) ∧
      (s.start .zero).2.fatal = some (.orderingViolation 1 2) := by
  obtain ⟨turns, s, hturns, hrunning, hinstalled, hf, hlast, hfatal⟩ : ∃ turns s,
      (new {} : Supervisor Scripted Nat).turns? restartedAfterViolation = some (turns, s) ∧
        s.isRunning = true ∧ s.pipeline.isSome = true ∧ s.failed = false ∧ s.lastError = none ∧
        s.fatal = some (.orderingViolation 1 2) :=
    ⟨_, _, rfl, rfl, rfl, rfl, rfl, rfl⟩
  have hrun := run_of_turns? hturns
  obtain ⟨-, hstale, hstart⟩ := stale_iff_of_run hrun
  have hwaits : s.fatal.isSome = true := by rw [hfatal]; rfl
  obtain ⟨-, -, hkept⟩ := hstart hinstalled .zero
  exact ⟨turns, s, hrun, hrunning, hf, hlast, hfatal, hstale.1 ⟨hwaits, hf⟩, hkept.trans hfatal⟩

/-- So the three do not always agree. -/
theorem not_reports_agree : ¬∀ (settings : Settings) (turns : List (Turn Scripted Nat))
    (s : Supervisor Scripted Nat), Run (.new settings) turns s →
      (s.failed = true ↔ s.lastError.isSome = true) ∧
        (s.fatal.isSome = true → s.failed = true) := by
  intro hall
  obtain ⟨turns, s, hturns, hwaits, hf⟩ : ∃ turns s,
      (new {} : Supervisor Scripted Nat).turns? restartedAfterViolation = some (turns, s) ∧
        s.fatal.isSome = true ∧ s.failed = false :=
    ⟨_, _, rfl, rfl, rfl⟩
  have hfailed := (hall {} turns s (run_of_turns? hturns)).2 hwaits
  exact Bool.false_ne_true (hf.symm.trans hfailed)

end Supervisor

end MediaBridge
