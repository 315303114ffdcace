import MediaBridge.Proofs.Supervisor.Gate
import MediaBridge.Proofs.Supervisor.Outlook
import MediaBridge.Proofs.Supervisor.Unread

/-! # A supervisor that has failed

An error that is read and a result out of order make the supervisor fail.  Until the caller starts or
stops the pipeline it stays so: the ingest is closed, the watchdog sleeps, and submissions are turned
down.  The first of them stops the pipeline, if it still runs; the pipeline is not asked for anything
else.

* `failed_of_course`  what one call makes of a failed supervisor;
* `down_of_run`       what any number of calls make of it;
* `turnedDown_of_run` what it means for each of them.
-/

namespace MediaBridge

variable {π : Type u} {α : Type v}

namespace Supervisor

/-! ## How a supervisor fails -/

/-- Whether a turn makes the supervisor fail: an error is read, or a result comes out of order. -/
def Turn.Fails (t : Turn π α) : Prop :=
  match t.call with
  | .read => ∃ m, t.before.next? = some m ∧ m.kind = .error
  | .deliver _ => t.answer = .delivered (some .error)
  | _ => False

/-- Reading an error is a failure. -/
theorem failed_of_readError {c c' : Core α} {a : Answer α} {m : Message} {rest : Backlog}
    (h : Course (π := π) c .read a c') (hr : c.reader = .reading) (hbus : c.bus = m :: rest)
    (hm : m.kind = .error) : c'.failed = true := by
  cases h with
  | aside hcall => exact hcall.elim
  | nothingToRead hidle =>
    rcases hidle with hr' | hbus'
    · exact absurd hr hr'
    · rw [hbus] at hbus'
      exact nomatch hbus'
  | @readOn m' rest' _ hends hbus' =>
    rw [hbus] at hbus'
    cases hbus'
    cases m with
    | error => exact nomatch hends
    | _ => exact nomatch hm
  | readEnd _ hbus' =>
    rw [hbus] at hbus'
    cases hbus'
    exact nomatch hm
  | readError => rfl

/-- A delivery that is answered with an error is a failure. -/
theorem failed_of_outOfOrder {s : Supervisor π α} {uptime : Span} {item : Item}
    (h : (s.receive uptime item).1 = some .error) : (s.receive uptime item).2.failed = true := by
  unfold receive at h ⊢
  cases item with
  | endOfStream => exact nomatch h
  | sample x =>
    simp only at h ⊢
    generalize s.relay.deliver (.sample x) = delivery at h ⊢
    rcases delivery with ⟨(e | ⟨⟩) | m, r⟩
    · rfl
    · exact nomatch h
    · exact nomatch h

/-- After a turn that makes the supervisor fail, it has failed. -/
theorem Turn.Fails.failed [MediaPipeline π] {t : Turn π α} (hfails : t.Fails)
    (h : t.before.call? t.uptime t.call = some (t.answer, t.after)) : t.after.failed = true := by
  obtain ⟨s, uptime, c, a, s'⟩ := t
  cases c with
  | read =>
    obtain ⟨m, hnext, hm⟩ := hfails
    unfold next? at hnext
    split at hnext
    · rename_i hr
      obtain ⟨rest, hbus⟩ := List.head?_eq_some_iff.1 hnext
      exact failed_of_readError (course_of_call? h) hr hbus hm
    · exact nomatch hnext
  | deliver item =>
    have hanswer : a = .delivered (some .error) := hfails
    simp only [call?, hanswer, Option.some.injEq, Prod.mk.injEq, Answer.delivered.injEq] at h
    rw [← h.2]
    exact failed_of_outOfOrder h.1
  | _ => exact hfails.elim

/-! ## What calls make of it -/

/-- No call but a start makes a failed supervisor serve again; none of them uses up an id or wakes the
    watchdog. -/
theorem failed_of_course {c c' : Core α} {call : Call π α} {a : Answer α} (h : Course c call a c')
    (hstart : call ≠ .start) (hf : c.failed = true) :
    c'.failed = true ∧ c'.restarts = c.restarts ∧ c'.pending.nextId ≤ c.pending.nextId := by
  cases h with
  | unstarted => exact absurd rfl hstart
  | begun => exact absurd rfl hstart
  | unbegun => exact absurd rfl hstart
  | turnedDown =>
    rw [Core.pending_halted]
    unfold Core.halted
    split <;> exact ⟨hf, rfl, Nat.le_refl _⟩
  | restarted hf' | unrestarted hf' | forwarded hf' => exact nomatch hf.symm.trans hf'
  | @withdrawn w =>
    -- the id of a refused frame is given back, if it was the last one
    refine ⟨hf, rfl, ?_⟩
    show (if c.pending.nextId = w.ticket.id + 1 then w.ticket.id else c.pending.nextId) ≤ _
    split <;> omega
  | received hid => exact ⟨hf, rfl, Nat.le_of_eq hid⟩
  | outOfOrder hid => exact ⟨rfl, rfl, Nat.le_of_eq hid⟩
  | readError => exact ⟨rfl, rfl, Nat.le_refl _⟩
  | _ => exact ⟨hf, rfl, Nat.le_refl _⟩

/-- The ingest of a failed supervisor is closed and empty. -/
theorem Gated.closed_of_failed {c : Core α} (hc : Gated c) (hf : c.failed = true) :
    c.ingest.flushing = true ∧ c.ingest.queue = [] := by
  have hclosed : c.ingest.flushing = true := by
    rw [← Bool.not_eq_false, hc.gate, hf]
    exact fun h => nomatch h.2
  exact ⟨hclosed, (hc.empty hclosed).1⟩

variable [MediaPipeline π]

/-- A failed supervisor answers a submission at once.  If the pipeline still runs it is stopped, and
    otherwise it is left alone. -/
theorem turnedDown_submit {s : Supervisor π α} {p : π} (hp : s.pipeline = some p)
    (hf : s.failed = true) (uptime : Span) (frame : HandleId) (user : α) :
    (s.submit uptime frame user).1 = .done (.ok false) ∧
      (s.submit uptime frame user).2.isRunning = false ∧
      (s.isRunning = true → ∃ r q, MediaPipeline.Asked [(.null, r)] p q ∧
        (s.submit uptime frame user).2.pipeline = some q) ∧
      (s.isRunning = false → (s.submit uptime frame user).2.pipeline = some p) := by
  have hscreens := s.screens_screen uptime
  rw [submit_eq_screen]
  generalize s.screen uptime = screened at hscreens
  cases hscreens with
  | uninstalled hp' => cases hp.symm.trans hp'
  | turnedDown _ _ hr =>
    exact ⟨rfl, hr, fun hr' => (Bool.false_ne_true (hr.symm.trans hr')).elim, fun _ => hp⟩
  | broughtDown _ _ hr =>
    have hasked := asked_bringDown (s := s.note .stoppingFailed) hp uptime
    exact ⟨rfl, isRunning_bringDown (s.note .stoppingFailed) uptime, fun _ => hasked,
      fun hr' => (Bool.false_ne_true (hr'.symm.trans hr)).elim⟩
  | idle _ hf' | lively _ hf' | struck _ hf' | restarted _ hf' | unrestarted _ hf' =>
    cases hf.symm.trans hf'

/-- A submission that waits is refused. -/
theorem refused_of_failed {s s' : Supervisor π α} {uptime : Span} {w : Waiter} {a : Answer α}
    (h : s.call? uptime (.resumeSubmit w) = some (a, s')) (hgated : Gated s.core)
    (hf : s.failed = true) : a = .resumed false := by
  obtain ⟨⟨accepted, s₁⟩, hresume, heq⟩ := Option.map_eq_some_iff.1 h
  cases heq
  cases accepted with
  | false => rfl
  | true =>
    -- only an open ingest can take the frame
    have hopen := open_of_resumed (course_resumeSubmit hresume)
    exact nomatch (hgated.closed_of_failed hf).1.symm.trans hopen

/-! ## Runs -/

/-- What is left of a supervisor that had failed when it was `s₀`, after some turns without starts or
    stops. -/
structure Down (s₀ : Supervisor π α) (turns : List (Turn π α)) (s : Supervisor π α) : Prop where
  failed : s.failed = true
  gated : Gated s.core
  installed : s.isRunning = true → s.pipeline.isSome = true
  /-- The pipeline runs on until the first submission. -/
  running : s.isRunning = true ↔ s₀.isRunning = true ∧ ∀ t ∈ turns, t.call.isSubmit = false

variable {s₀ s : Supervisor π α} {turns : List (Turn π α)}

/-- A failed supervisor stays down, however many turns without starts or stops there are. -/
theorem down_of_run (run : Run s₀ turns s) (hf : s₀.failed = true) (hgated : Gated s₀.core)
    (hinstalled : s₀.isRunning = true → s₀.pipeline.isSome = true)
    (hcontrol : ∀ t ∈ turns, t.call ≠ .start ∧ t.call ≠ .stop) : Down s₀ turns s := by
  induction run with
  | start => exact ⟨hf, hgated, hinstalled, by simp⟩
  | @turn turns s s' uptime c a run h ih =>
    have hdown := ih fun t ht => hcontrol t (List.mem_append_left _ ht)
    obtain ⟨hstart, hstop⟩ := hcontrol ⟨s, uptime, c, a, s'⟩
      (List.mem_append_right _ (List.mem_singleton_self _))
    have hcourse := course_of_call? h
    -- only a submission stops the pipeline, and the first one does
    have hrunning : s'.isRunning = true ↔ s.isRunning = true ∧ c.isSubmit = false := by
      cases c with
      | start => exact absurd rfl hstart
      | stop => exact absurd rfl hstop
      | submit frame user =>
        cases h
        have hstopped : (s.submit uptime frame user).2.isRunning = false := by
          cases hp : s.pipeline with
          | some p => exact (turnedDown_submit hp hdown.failed uptime frame user).2.1
          | none =>
            simp only [submit, hp]
            exact idle_of_uninstalled hdown.installed hp
        rw [hstopped]
        exact ⟨fun hr => (Bool.false_ne_true hr).elim, fun hr => (Bool.false_ne_true hr.2.symm).elim⟩
      | _ =>
        rw [isRunning_of_call? h id]
        exact ⟨fun hr => ⟨hr, rfl⟩, And.left⟩
    constructor
    · exact (failed_of_course hcourse hstart hdown.failed).1
    · exact gated_of_course hcourse hdown.gated
    · exact installed_of_running h hdown.installed
    · rw [hrunning, hdown.running, and_assoc]
      refine and_congr_right fun _ => ?_
      simp [or_imp, forall_and]

/-- When a supervisor has failed, frames are turned down, no id is used up, and the watchdog does not
    strike, until the caller starts or stops the pipeline.  If the pipeline still ran, the first
    submission asks it for the null phase, once; no other submission asks it for anything. -/
theorem turnedDown_of_run {settings : Settings} {prior later : List (Turn π α)} {t₀ : Turn π α}
    {s : Supervisor π α} (run : Run (.new settings) (prior ++ t₀ :: later) s) (hfails : t₀.Fails)
    (hcontrol : ∀ t ∈ later, t.call ≠ .start ∧ t.call ≠ .stop) :
    (∀ t ∈ t₀ :: later, t.after.failed = true ∧ t.after.isPlaying = false ∧
      t.after.relay.ingest.queue = []) ∧
    (∀ t ∈ later, ¬t.Restarts ∧ (∀ w, t.call = .resumeSubmit w → t.answer = .resumed false) ∧
      t.after.relay.bridge.pending.nextId ≤ t.before.relay.bridge.pending.nextId) ∧
    ∀ earlier t rest frame user p, later = earlier ++ t :: rest → t.call = .submit frame user →
      t.before.pipeline = some p →
        t.answer = .submitted (.done (.ok false)) ∧
        t.after.relay.bridge.pending.nextId = t.before.relay.bridge.pending.nextId ∧
        (t₀.after.isRunning = true ∧ (∀ t' ∈ earlier, t'.call.isSubmit = false) →
          ∃ r q, MediaPipeline.Asked [(.null, r)] p q ∧ t.after.pipeline = some q) ∧
        (¬(t₀.after.isRunning = true ∧ ∀ t' ∈ earlier, t'.call.isSubmit = false) →
          t.after.pipeline = some p) := by
  obtain ⟨s₁, hprior, hrest⟩ := run.split
  obtain ⟨rfl, hcall₀, hlater⟩ := hrest.first
  have hf := hfails.failed hcall₀
  have hrun := hprior.turn hcall₀
  -- what is known when a turn begins, and its call
  have hcut : ∀ earlier t rest, later = earlier ++ t :: rest →
      Down t₀.after earlier t.before ∧
        t.before.call? t.uptime t.call = some (t.answer, t.after) := by
    intro earlier t rest heq
    rw [heq] at hlater hcontrol
    obtain ⟨s₂, hearlier, hrest⟩ := hlater.split
    obtain ⟨rfl, hcall, -⟩ := hrest.first
    have hdown := down_of_run hearlier hf (gated_of_run hrun) (installed_of_run hrun)
      fun t' ht' => hcontrol t' (List.mem_append_left _ ht')
    exact ⟨hdown, hcall⟩
  -- what each later turn does
  have hturn : ∀ t ∈ later, t.after.failed = true ∧ Gated t.after.core ∧
      ¬t.Restarts ∧ (∀ w, t.call = .resumeSubmit w → t.answer = .resumed false) ∧
      t.after.relay.bridge.pending.nextId ≤ t.before.relay.bridge.pending.nextId := by
    intro t ht
    obtain ⟨earlier, rest, heq⟩ := List.append_of_mem ht
    obtain ⟨hdown, hcall⟩ := hcut earlier t rest heq
    have hcourse := course_of_call? hcall
    obtain ⟨hfailed, hrestarts, hid⟩ := failed_of_course hcourse (hcontrol t ht).1 hdown.failed
    refine ⟨hfailed, gated_of_course hcourse hdown.gated, fun hr => hr hrestarts, ?_, hid⟩
    intro w hw
    rw [hw] at hcall
    exact refused_of_failed hcall hdown.gated hdown.failed
  refine ⟨?_, fun t ht => (hturn t ht).2.2, ?_⟩
  · have hidle : ∀ t : Turn π α, t.after.failed = true → Gated t.after.core →
        t.after.failed = true ∧ t.after.isPlaying = false ∧ t.after.relay.ingest.queue = [] := by
      intro t hfailed hgated
      exact ⟨hfailed, by simp [isPlaying, hfailed], (hgated.closed_of_failed hfailed).2⟩
    intro t ht
    rcases List.mem_cons.1 ht with rfl | ht
    · exact hidle t hf (gated_of_run hrun)
    · exact hidle t (hturn t ht).1 (hturn t ht).2.1
  · intro earlier t rest frame user p heq hsubmit hp
    obtain ⟨hdown, hcall⟩ := hcut earlier t rest heq
    rw [hsubmit] at hcall
    obtain ⟨hanswer, hafter⟩ := Prod.mk.inj (Option.some.inj hcall)
    obtain ⟨hrefused, -, hasked, halone⟩ :=
      turnedDown_submit hp hdown.failed t.uptime frame user
    obtain ⟨-, -, hid⟩ := idle_of_closed (course_submit t.before t.uptime frame user) hdown.gated
      (hdown.gated.closed_of_failed hdown.failed).1
    rw [hrefused] at hanswer
    rw [hafter] at hid hasked halone
    rw [← hdown.running, Bool.not_eq_true]
    exact ⟨hanswer.symm, hid, hasked, halone⟩

/-- Three frames are accepted, and the result of the second one comes back. -/
def secondBack : List (Span × Call Scripted Nat) :=
  [.install (.ok {}), .elsewhere (framesWith [none, none, none]), .start, .submit 0 7, .submit 1 8,
    .submit 2 9, .elsewhere (framesWith [some 1, some 1, none, none]),
    .deliver (.sample ⟨0, none⟩)].map (.zero, ·)

/-- The same result comes back once more, and after that the pipeline posts an error between two
    submissions. -/
def secondBackAgain : List (Span × Call Scripted Nat) :=
  [.deliver (.sample ⟨1, none⟩), .submit 2 10, .post [.error .pipeline "stuck" none], .read,
    .submit 3 11].map (.zero, ·)

/-- The first of the submissions stops the pipeline, and the second one leaves it alone. -/
theorem turnedDown_of_violation : ∃ (prior : List (Turn Scripted Nat))
    (t₀ t₁ t₂ t₃ t₄ : Turn Scripted Nat) (p : Scripted) (s : Supervisor Scripted Nat),
    Run (.new {}) (prior ++ t₀ :: [t₁, t₂, t₃, t₄]) s ∧ t₀.answer = .delivered (some .error) ∧
      t₁.answer = .submitted (.done (.ok false)) ∧ t₄.answer = .submitted (.done (.ok false)) ∧
      t₁.before.pipeline = some p ∧
      (∃ r q, MediaPipeline.Asked [(.null, r)] p q ∧ t₁.after.pipeline = some q) ∧
      t₄.after.pipeline = t₄.before.pipeline ∧ ∀ t ∈ [t₁, t₂, t₃, t₄], ¬t.Restarts := by
  obtain ⟨prior, t₀, t₁, t₂, t₃, t₄, s₁, s, p, p₄, hprior, hlater, hanswer, hcall₀, hcall₁, hcall₂,
      hcall₃, hcall₄, hp, hp₄, hrunning⟩ : ∃ prior t₀ t₁ t₂ t₃ t₄ s₁ s p p₄,
        (new {} : Supervisor Scripted Nat).turns? secondBack = some (prior, s₁) ∧
        s₁.turns? secondBackAgain = some ([t₀, t₁, t₂, t₃, t₄], s) ∧
        t₀.answer = .delivered (some .error) ∧ t₀.call = .deliver (.sample ⟨1, none⟩) ∧
        t₁.call = .submit 2 10 ∧ t₂.call = .post [.error .pipeline "stuck" none] ∧
        t₃.call = .read ∧ t₄.call = .submit 3 11 ∧ t₁.before.pipeline = some p ∧
        t₄.before.pipeline = some p₄ ∧ t₀.after.isRunning = true :=
    ⟨_, _, _, _, _, _, _, _, _, _, rfl, rfl, rfl, rfl, rfl, rfl, rfl, rfl, rfl, rfl, rfl⟩
  have hrun := (run_of_turns? hprior).append hlater
  have hfails : t₀.Fails := by
    unfold Turn.Fails
    rw [hcall₀]
    exact hanswer
  have hcontrol : ∀ t ∈ [t₁, t₂, t₃, t₄], t.call ≠ .start ∧ t.call ≠ .stop := by
    simp [hcall₁, hcall₂, hcall₃, hcall₄]
  obtain ⟨-, hquiet, hsubmit⟩ := turnedDown_of_run hrun hfails hcontrol
  obtain ⟨hanswer₁, -, hasked, -⟩ := hsubmit [] t₁ [t₂, t₃, t₄] 2 10 p rfl hcall₁ hp
  obtain ⟨hanswer₄, -, -, halone⟩ := hsubmit [t₁, t₂, t₃] t₄ [] 3 11 p₄ rfl hcall₄ hp₄
  -- the submission before it stopped the pipeline
  have hsecond : ¬(t₀.after.isRunning = true ∧ ∀ t ∈ [t₁, t₂, t₃], t.call.isSubmit = false) := by
    intro h
    have hfirst := h.2 t₁ List.mem_cons_self
    rw [hcall₁] at hfirst
    exact nomatch hfirst
  exact ⟨prior, t₀, t₁, t₂, t₃, t₄, p, s, hrun, hanswer, hanswer₁, hanswer₄, hp,
    hasked ⟨hrunning, by simp⟩, (halone hsecond).trans hp₄.symm, fun t ht => (hquiet t ht).1⟩

end Supervisor

end MediaBridge
