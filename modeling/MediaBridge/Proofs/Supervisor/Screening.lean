import MediaBridge.Proofs.Supervisor.Lifecycle

/-! # Screening

Before its frame is stamped, a submission looks whether the supervisor has failed and asks the watchdog.
That part of it, during which nobody else starts or stops the pipeline, either ends the submission or
lets the frame pass, and it is the only part in which the pipeline may be asked for a phase.

* `submit_eq_screen`  a submission is its screening, and what becomes of a frame that passes;
* `screens_screen`    the ways a screening can go;
* `asked_restart`     a restart asks the pipeline for two phases.
-/

namespace MediaBridge

variable {π : Type u} {α : Type v}

/-- What a screening comes to. -/
inductive Screening where
  | ended (result : Except Error Bool)
  /-- The frame goes on, at this reading of the pipeline's clock. -/
  | passes (now : ClockTime)

namespace Supervisor

variable [MediaPipeline π]

/-- The part of a submission that comes before its frame is stamped. -/
def screen (s : Supervisor π α) (uptime : Span) : Screening × Supervisor π α :=
  match s.pipeline with
  | none => (.ended (.error .notInitialized), s)
  | some p =>
    if s.failed then
      (.ended (.ok false), if s.isRunning then (s.note .stoppingFailed).bringDown uptime else s)
    else
      match if s.isRunning then s.watch uptime else (false, s) with
      | (true, s) =>
        match s.restart uptime with
        | (.error e, s) => (.ended (.error e), s)
        | (.ok (), s) => (.ended (.ok false), s)
      | (false, s) => (.passes (MediaPipeline.clockTime p uptime), s)

/-- A submission is a screening, and then the frame is given up or goes to the ingest. -/
theorem submit_eq_screen (s : Supervisor π α) (uptime : Span) (frame : HandleId) (user : α) :
    s.submit uptime frame user =
      match s.screen uptime with
      | (.ended result, s) => (.done result, s.discard frame)
      | (.passes now, s) => s.forward frame user now := by
  unfold submit screen
  cases s.pipeline with
  | none => rfl
  | some p =>
    simp only
    split
    · rfl
    · generalize (if s.isRunning then s.watch uptime else (false, s)) = watched
      rcases watched with ⟨_ | _, s₁⟩
      · rfl
      · simp only
        generalize s₁.restart uptime = restarted
        rcases restarted with ⟨_ | _, s₂⟩ <;> rfl

/-! ## Restarts -/

/-- A restart stops the pipeline and launches it again; nothing is left to be stopped a second time. -/
theorem restart_eq_launch {s : Supervisor π α} {p : π} (hp : s.pipeline = some p)
    (uptime : Span) :
    ∃ q, (((s.note .watchdog).count .restarts).bringDown uptime).pipeline = some q ∧
      s.restart uptime = (((s.note .watchdog).count .restarts).bringDown uptime).launch q uptime := by
  have hidle := isRunning_bringDown ((s.note .watchdog).count .restarts) uptime
  have hpipeline := pipeline_bringDown ((s.note .watchdog).count .restarts) uptime
  obtain ⟨q, hq⟩ := Option.isSome_iff_exists.1 (hpipeline.trans (Option.isSome_of_eq_some hp))
  refine ⟨q, hq, ?_⟩
  unfold restart start
  simp only [hidle, Bool.false_eq_true, if_false, hq]

/-- A restart asks the pipeline for the null phase and then, whatever it answered, for the playing
    phase. -/
theorem asked_restart {s : Supervisor π α} {p : π} (hp : s.pipeline = some p) (uptime : Span) :
    ∃ r q, MediaPipeline.Asked [(.null, r), (.playing, (s.restart uptime).1)] p q ∧
      (s.restart uptime).2.pipeline = some q := by
  obtain ⟨q, hq, hrestart⟩ := restart_eq_launch hp uptime
  have hp₁ : ((s.note .watchdog).count .restarts).pipeline = some p := hp
  obtain ⟨r, q', hdown, hq'⟩ := asked_bringDown hp₁ uptime
  rw [hq] at hq'
  cases hq'
  obtain ⟨q'', hlaunched, hq''⟩ := asked_launch
    (((s.note .watchdog).count .restarts).bringDown uptime) q uptime
  rw [hrestart]
  exact ⟨r, q'', hdown.append hlaunched, hq''⟩

/-! ## The ways a screening can go -/

/-- How a screening can go. -/
inductive Screens (s : Supervisor π α) (uptime : Span) : Screening × Supervisor π α → Prop where
  | uninstalled (hp : s.pipeline = none) : Screens s uptime (.ended (.error .notInitialized), s)
  -- The supervisor has failed, and the pipeline was stopped since.
  | turnedDown {p : π} (hp : s.pipeline = some p) (hf : s.failed = true)
    (hr : s.isRunning = false) : Screens s uptime (.ended (.ok false), s)
  -- The supervisor has failed, and the pipeline is stopped now.
  | broughtDown {p : π} (hp : s.pipeline = some p) (hf : s.failed = true)
    (hr : s.isRunning = true) :
    Screens s uptime (.ended (.ok false), (s.note .stoppingFailed).bringDown uptime)
  -- The pipeline does not run, so the watchdog sleeps.
  | idle {p : π} (hp : s.pipeline = some p) (hf : s.failed = false) (hr : s.isRunning = false) :
    Screens s uptime (.passes (MediaPipeline.clockTime p uptime), s)
  -- Results are coming.
  | lively {p : π} (hp : s.pipeline = some p) (hf : s.failed = false) (hr : s.isRunning = true)
    (hstalled : s.isStalled uptime = false) :
    Screens s uptime (.passes (MediaPipeline.clockTime p uptime), { s with stalls := 0 })
  -- No results are coming, but the watchdog has patience.
  | struck {p : π} (hp : s.pipeline = some p) (hf : s.failed = false) (hr : s.isRunning = true)
    (hstalled : s.isStalled uptime = true)
    (hcount : s.stalls + 1 < s.settings.watchdog.resetCount.toNat) :
    Screens s uptime
      (.passes (MediaPipeline.clockTime p uptime), { s with stalls := s.stalls + 1 })
  -- The watchdog stops the pipeline and starts it again.
  | restarted {p : π} {s' : Supervisor π α} (hp : s.pipeline = some p) (hf : s.failed = false)
    (hr : s.isRunning = true) (hstalled : s.isStalled uptime = true)
    (hcount : s.settings.watchdog.resetCount.toNat ≤ s.stalls + 1)
    (h : ({ s with stalls := s.stalls + 1 } : Supervisor π α).restart uptime = (.ok (), s')) :
    Screens s uptime (.ended (.ok false), s')
  -- The watchdog stops the pipeline, which refuses to start again.
  | unrestarted {p : π} {e : Error} {s' : Supervisor π α} (hp : s.pipeline = some p)
    (hf : s.failed = false) (hr : s.isRunning = true) (hstalled : s.isStalled uptime = true)
    (hcount : s.settings.watchdog.resetCount.toNat ≤ s.stalls + 1)
    (h : ({ s with stalls := s.stalls + 1 } : Supervisor π α).restart uptime = (.error e, s')) :
    Screens s uptime (.ended (.error e), s')

/-- Every screening goes one of these ways. -/
theorem screens_screen (s : Supervisor π α) (uptime : Span) :
    s.Screens uptime (s.screen uptime) := by
  unfold screen
  cases hp : s.pipeline with
  | none => exact .uninstalled hp
  | some p =>
    simp only
    cases hf : s.failed with
    | true =>
      cases hr : s.isRunning with
      | true => exact .broughtDown hp hf hr
      | false => exact .turnedDown hp hf hr
    | false =>
      simp only [Bool.false_eq_true, if_false]
      cases hr : s.isRunning with
      | false => exact .idle hp hf hr
      | true =>
        rw [if_pos rfl, watch]
        cases hstalled : s.isStalled uptime with
        | false => exact .lively hp hf hr hstalled
        | true =>
          rw [if_pos rfl]
          by_cases hcount : s.settings.watchdog.resetCount.toNat ≤ s.stalls + 1
          · simp only [hcount, decide_true]
            cases hrestart : ({ s with stalls := s.stalls + 1 } : Supervisor π α).restart uptime with
            | mk result s' =>
              cases result with
              | ok => exact .restarted hp hf hr hstalled hcount hrestart
              | error e => exact .unrestarted hp hf hr hstalled hcount hrestart
          · simp only [hcount, decide_false]
            exact .struck hp hf hr hstalled (Nat.lt_of_not_le hcount)

end Supervisor

end MediaBridge
