import MediaBridge.Pipeline.Scripted
import MediaBridge.Proofs.Supervisor.Gate
import MediaBridge.Proofs.Supervisor.Outlook
import MediaBridge.Proofs.Supervisor.Unread
import Mathlib.Data.List.DropRight

/-! # When the watchdog strikes

The watchdog looks at the submissions to a supervisor that runs and has not failed.  One that finds the
pipeline stalled is a strike against it.  Strikes are counted in a row: the count begins anew with a
start or a restart that is not refused, with a sample that is handed over, and with a submission that
does not find the pipeline stalled.  When there are enough of them the pipeline is stopped and started,
and the frame of that submission goes nowhere.

* `cycles_restart`  what a restart leaves as it was;
* `watches_submit`  what a submission is to the watchdog;
* `counted_of_run`  while the pipeline runs, the count is the number of strikes in a row;
* `cycle_of_run`    when there is a restart in a run.
-/

namespace MediaBridge

variable {π : Type u} {α : Type v}

/-- The time of the last delivery is no counter. -/
theorem Health.value_markDelivery (h : Health) (uptime : Span) (c : Counter) :
    (h.markDelivery uptime).value c = h.value c := by cases c <;> rfl

namespace Supervisor

/-! ## Strikes -/

/-- Whether the watchdog looks at a turn. -/
def Turn.isWatched (t : Turn π α) : Bool :=
  t.call.isSubmit && t.before.isRunning && !t.before.failed

/-- Whether the watchdog finds the pipeline stalled. -/
def Turn.strikes (t : Turn π α) : Bool := t.isWatched && t.before.isStalled t.uptime

/-- Whether a run of the pipeline begins, with a start or with a restart. -/
def Turn.launches (t : Turn π α) : Bool :=
  match t.call, t.answer with
  | .start, .returned (.ok ()) => true
  | .submit .., .submitted (.done (.ok false)) =>
    t.after.relay.restarts ≠ t.before.relay.restarts
  | _, _ => false

/-- Whether a sample was handed over, at once or after it had waited for room. -/
def Turn.handsOver (t : Turn π α) : Bool :=
  match t.call, t.answer with
  | .deliver item, .delivered f => IsDelivery item f
  | .resumeDelivery, _ => true
  | _, _ => false

/-- Whether the watchdog begins to count anew. -/
def Turn.clears (t : Turn π α) : Bool :=
  t.launches || t.handsOver || (t.isWatched && !t.before.isStalled t.uptime)

/-- A strike is a turn that the watchdog looks at. -/
theorem isWatched_of_strikes {t : Turn π α} (h : t.strikes = true) : t.isWatched = true :=
  (Bool.and_eq_true_iff.1 h).1

/-- The watchdog looks only while the supervisor serves. -/
theorem serves_of_isWatched {t : Turn π α} (h : t.isWatched = true) : t.before.Serves := by
  simp only [Turn.isWatched, Bool.and_eq_true, Bool.not_eq_true'] at h
  exact ⟨h.1.2, h.2⟩

/-- While the supervisor serves, a submission is a strike if it finds the pipeline stalled. -/
theorem strikes_of_serves {t : Turn π α} (hsubmit : t.call.isSubmit = true)
    (hserves : t.before.Serves) : t.strikes = t.before.isStalled t.uptime := by
  simp [Turn.strikes, Turn.isWatched, hsubmit, hserves.1, hserves.2]

/-- A submission without a restart clears the count if it does not find the pipeline stalled. -/
theorem clears_of_unchanged {t : Turn π α} (hsubmit : t.call.isSubmit = true)
    (hserves : t.before.Serves) (hrestarts : t.after.relay.restarts = t.before.relay.restarts) :
    t.clears = !t.before.isStalled t.uptime := by
  obtain ⟨s, uptime, c, a, s'⟩ := t
  cases c with
  | submit frame user =>
    have hlaunches : (⟨s, uptime, .submit frame user, a, s'⟩ : Turn π α).launches = false := by
      unfold Turn.launches
      split
      · rename_i hcall _
        exact nomatch hcall
      · exact decide_eq_false fun hne => hne hrestarts
      · rfl
    obtain ⟨hr, hf⟩ : s.isRunning = true ∧ s.failed = false := hserves
    simp [Turn.clears, hlaunches, Turn.handsOver, Turn.isWatched, Call.isSubmit, hr, hf]
  | _ => exact nomatch hsubmit

/-- How many strikes there were since the watchdog began to count. -/
def strikesInRow (turns : List (Turn π α)) : Nat :=
  (turns.rtakeWhile fun t => !t.clears).countP Turn.strikes

/-- One more turn clears the strikes in a row, adds to them, or leaves them. -/
theorem strikesInRow_concat (turns : List (Turn π α)) (t : Turn π α) :
    strikesInRow (turns ++ [t]) =
      if t.clears then 0 else strikesInRow turns + if t.strikes then 1 else 0 := by
  unfold strikesInRow
  rw [List.rtakeWhile_concat]
  cases t.clears with
  | true => rfl
  | false => simp [List.countP_append, List.countP_singleton]

/-! ## The count -/

/-- How many strikes in a row the watchdog lets pass before it restarts the pipeline, that one
    included. -/
def patience (settings : Settings) : Nat := max 1 settings.watchdog.resetCount.toNat

/-- The patience of a watchdog fits into a 32-bit word. -/
theorem patience_lt_size (settings : Settings) : patience settings < UInt32.size := by
  have hlt := settings.watchdog.resetCount.toNat_lt
  show max 1 settings.watchdog.resetCount.toNat < 4294967296
  omega

/-- The watchdog's count after `n` strikes in a row, with the settings given. -/
structure Counted (given : Settings) (n : Nat) (s : Supervisor π α) : Prop where
  settings : s.settings = given
  installed : s.isRunning = true → s.pipeline.isSome = true
  count : s.isRunning = true → s.stalls = n ∧ n < patience given
  bound : s.stalls ≤ patience given

variable {given : Settings} {n : Nat} {s s' : Supervisor π α}

/-- A new supervisor has counted nothing. -/
theorem counted_new : Counted given 0 (new given : Supervisor π α) where
  settings := rfl
  installed := nofun
  count := nofun
  bound := Nat.zero_le _

/-- Nothing runs, so it does not matter how many strikes there were. -/
theorem Counted.of_idle (h : Counted given n s) (hsettings : s'.settings = s.settings)
    (hr : s'.isRunning = false) (hstalls : s'.stalls ≤ s.stalls) (n' : Nat) :
    Counted given n' s' where
  settings := hsettings.trans h.settings
  installed := fun hr' => nomatch hr.symm.trans hr'
  count := fun hr' => nomatch hr.symm.trans hr'
  bound := Nat.le_trans hstalls h.bound

/-- The watchdog begins to count anew. -/
theorem Counted.cleared (h : Counted given n s) (hsettings : s'.settings = s.settings)
    (hinstalled : s'.isRunning = true → s'.pipeline.isSome = true) (hstalls : s'.stalls = 0) :
    Counted given 0 s' where
  settings := hsettings.trans h.settings
  installed := hinstalled
  count := fun _ => ⟨hstalls, Nat.lt_of_lt_of_le Nat.zero_lt_one (Nat.le_max_left ..)⟩
  bound := Nat.le_trans (Nat.le_of_eq hstalls) (Nat.zero_le _)

/-- The watchdog finds everything as it was. -/
theorem Counted.same (h : Counted given n s) (hsettings : s'.settings = s.settings)
    (hinstalled : s'.isRunning = true → s'.pipeline.isSome = true)
    (hr : s'.isRunning = s.isRunning) (hstalls : s'.stalls = s.stalls) : Counted given n s' where
  settings := hsettings.trans h.settings
  installed := hinstalled
  count := by
    rw [hr, hstalls]
    exact h.count
  bound := hstalls ▸ h.bound

/-- Whether a submission is the one that restarts the pipeline. -/
def IsOverdue (s : Supervisor π α) (uptime : Span) : Prop :=
  s.Serves ∧ s.isStalled uptime = true ∧ s.settings.watchdog.resetCount.toNat ≤ s.stalls + 1

/-- A submission restarts the pipeline if it is a strike and the watchdog has no patience left. -/
theorem Counted.isOverdue_iff {t : Turn π α} (h : Counted given n t.before)
    (hsubmit : t.call.isSubmit = true) :
    t.before.IsOverdue t.uptime ↔ t.strikes = true ∧ patience given ≤ n + 1 := by
  -- a count of zero is as good as one
  have hpatience : ∀ m, t.before.settings.watchdog.resetCount.toNat ≤ m + 1 ↔
      patience given ≤ m + 1 := by
    intro m
    rw [h.settings, patience]
    omega
  constructor
  · intro ⟨hserves, hstalled, hcount⟩
    rw [hpatience, (h.count hserves.1).1] at hcount
    exact ⟨(strikes_of_serves hsubmit hserves).trans hstalled, hcount⟩
  · intro ⟨hstrikes, hcount⟩
    have hserves := serves_of_isWatched (isWatched_of_strikes hstrikes)
    rw [strikes_of_serves hsubmit hserves] at hstrikes
    rw [← (h.count hserves.1).1, ← hpatience] at hcount
    exact ⟨hserves, hstrikes, hcount⟩

/-! ## Restarts -/

/-- Only submissions restart the pipeline. -/
theorem restarts_of_course {c c' : Core α} {call : Call π α} {a : Answer α}
    (h : Course c call a c') (hsubmit : call.isSubmit = false) : c'.restarts = c.restarts := by
  cases h with
  | restarted => exact nomatch hsubmit
  | unrestarted => exact nomatch hsubmit
  | forwarded => exact nomatch hsubmit
  | turnedDown => exact nomatch hsubmit
  | unstarted | begun | unbegun => exact c.restarts_halted
  | _ => rfl

/-- A frame that goes to the ingest is no restart, and starts and stops nothing. -/
theorem restarts_of_forwards {c c' : Core α} {now : ClockTime} {a : Admission}
    (h : c.Forwards now a c') : c'.restarts = c.restarts ∧ c'.reader = c.reader := by
  cases h <;> exact ⟨rfl, rfl⟩

/-- A frame that passes the watchdog has nothing to do with the pipeline, its running or its
    restarts. -/
theorem restarts_forward (s : Supervisor π α) (frame : HandleId) (user : α) (now : ClockTime) :
    (s.forward frame user now).2.relay.restarts = s.relay.restarts ∧
      (s.forward frame user now).2.isRunning = s.isRunning ∧
        (s.forward frame user now).2.pipeline = s.pipeline := by
  obtain ⟨hrestarts, hreader⟩ := restarts_of_forwards (s.forwards_forward frame user now)
  have hrunning : (s.forward frame user now).2.reader = s.reader := hreader
  refine ⟨hrestarts, by rw [isRunning, isRunning, hrunning], ?_⟩
  unfold forward
  split
  · rfl
  · split <;> rfl

/-- While the pipeline is stalled no delivery waits. -/
theorem waiting_of_stalled {s : Supervisor π α} {uptime : Span} (h : s.isStalled uptime = true) :
    s.waiting = [] := by
  unfold isStalled isDelivering at h
  simp_all

/-- Applying a message counts nothing. -/
theorem health_apply (s : Supervisor π α) (m : Message) :
    (s.apply m).relay.bridge.health = s.relay.bridge.health := by
  cases m with
  | error source text details => cases details <;> rfl
  | phaseChanged source => cases source <;> rfl
  | _ => rfl

variable [MediaPipeline π]

/-- Halting the pipeline counts nothing. -/
theorem health_halt (s : Supervisor π α) :
    s.halt.relay.bridge.health = s.relay.bridge.health := by
  cases hp : s.pipeline with
  | none => rw [halt_of_none hp]
  | some p => rcases halt_of_some hp with h | ⟨e, h⟩ <;> rw [h] <;> rfl

/-- Stopping counts nothing if no delivery waits. -/
theorem health_bringDown {s : Supervisor π α} (hw : s.waiting = []) (uptime : Span) :
    (s.bringDown uptime).relay.bridge.health = s.relay.bridge.health := by
  have hletGo : (s.letGo uptime).relay.bridge.health = s.relay.bridge.health := by
    unfold letGo resume
    -- nobody waits, so no delivery comes to its end when the output is drained
    rw [show (s.setDraining true).waiting = [] from hw]
    rfl
  rw [bringDown, settle, followRest,
    foldl_apply_keeps (f := fun s => s.relay.bridge.health) health_apply]
  exact (health_halt _).trans hletGo

/-- Starting counts the entries that are forgotten, and nothing else. -/
theorem value_launch {c : Counter} (hc : c ≠ .stale) (s : Supervisor π α) (p : π) (uptime : Span) :
    (s.launch p uptime).2.relay.bridge.health.value c = s.relay.bridge.health.value c := by
  have hprepare : s.prepare.relay.bridge.health.value c = s.relay.bridge.health.value c :=
    Health.value_add_of_ne hc ..
  have hrequest : (s.prepare.request p .playing).2.relay.bridge.health.value c =
      s.relay.bridge.health.value c := hprepare
  unfold launch
  cases hr : s.prepare.request p .playing with
  | mk result s₁ =>
    rw [hr] at hrequest
    cases result with
    | error e => exact hrequest
    | ok => exact (Health.value_markDelivery ..).trans hrequest

/-- A restart is counted once, whether or not it is refused, and uses up no id. -/
theorem restarts_restart {s : Supervisor π α} {p : π} (hp : s.pipeline = some p) (uptime : Span) :
    (s.restart uptime).2.relay.restarts = s.relay.restarts + 1 ∧
      (s.restart uptime).2.relay.bridge.pending.nextId = s.relay.bridge.pending.nextId := by
  rcases restart_cases hp uptime with ⟨posted, s', h, hcore⟩ | ⟨e, posted, s', h, hcore⟩
  · rw [h]
    exact ⟨congrArg Core.restarts hcore, congrArg (fun c => c.pending.nextId) hcore⟩
  · rw [h]
    exact ⟨congrArg Core.restarts hcore, congrArg (fun c => c.pending.nextId) hcore⟩

/-- What a restart does while no delivery waits: the pipeline is stopped and started, and what was
    submitted and delivered so far is not counted otherwise. -/
structure Cycles (s : Supervisor π α) (result : Except Error Unit) (s' : Supervisor π α) : Prop where
  asked : ∃ p r q, s.pipeline = some p ∧
    MediaPipeline.Asked [(.null, r), (.playing, result)] p q ∧ s'.pipeline = some q
  restarts : s'.relay.restarts = s.relay.restarts + 1
  nextId : s'.relay.bridge.pending.nextId = s.relay.bridge.pending.nextId
  counters : ∀ c, c ≠ .restarts → c ≠ .stale →
    s'.relay.bridge.health.value c = s.relay.bridge.health.value c
  cleared : result = .ok () → s'.stalls = 0

/-- A restart while no delivery waits is a stop and a start, and counts itself and the entries
    forgotten. -/
theorem cycles_restart {s : Supervisor π α} {p : π} (hp : s.pipeline = some p)
    (hw : s.waiting = []) (uptime : Span) :
    s.Cycles (s.restart uptime).1 (s.restart uptime).2 := by
  obtain ⟨r, q, hasked, hq⟩ := asked_restart hp uptime
  obtain ⟨hrestarts, hid⟩ := restarts_restart hp uptime
  have hlaunched := launched_restart (Option.isSome_of_eq_some hp) uptime
  refine ⟨⟨p, r, q, hp, hasked, hq⟩, hrestarts, hid, ?_, ?_⟩
  · intro c hc hstale
    obtain ⟨q', -, hrestart⟩ := restart_eq_launch hp uptime
    have hdown := health_bringDown (s := (s.note .watchdog).count .restarts) hw uptime
    rw [hrestart, value_launch hstale, hdown]
    exact Health.value_add_of_ne hc ..
  · intro hok
    exact hlaunched.cleared (by rw [hok]; rfl)

/-! ## Submissions -/

/-- What a submission is to the watchdog. -/
inductive Watches (s : Supervisor π α) (uptime : Span) : Admission → Supervisor π α → Prop where
  -- The watchdog does not look, and after the submission nothing runs.
  | asleep {a : Admission} {s' : Supervisor π α} (hserves : ¬s.Serves)
    (hsettings : s'.settings = s.settings) (hr : s'.isRunning = false)
    (hstalls : s'.stalls ≤ s.stalls) (hrestarts : s'.relay.restarts = s.relay.restarts) :
    Watches s uptime a s'
  -- The frame passes.
  | passed {a : Admission} {s' : Supervisor π α} (hserves : s.Serves)
    (hoverdue : ¬s.IsOverdue uptime) (hsettings : s'.settings = s.settings)
    (hr : s'.isRunning = true)
    (hstalls : s'.stalls = if s.isStalled uptime then s.stalls + 1 else 0)
    (hpipeline : s'.pipeline = s.pipeline) (hrestarts : s'.relay.restarts = s.relay.restarts) :
    Watches s uptime a s'
  -- The pipeline is restarted.
  | cycled {result : Except Error Unit} {s' : Supervisor π α} (hoverdue : s.IsOverdue uptime)
    (hlaunched : ({ s with stalls := s.stalls + 1 } : Supervisor π α).Launched result s')
    (hcycles : s.Cycles result s') : Watches s uptime (.done (result.map fun () => false)) s'

/-- The submission that the watchdog ends is a cycle. -/
theorem cycled_restart {s s' : Supervisor π α} {p : π} {uptime : Span}
    {result : Except Error Unit} (hp : s.pipeline = some p) (hoverdue : s.IsOverdue uptime)
    (h : ({ s with stalls := s.stalls + 1 } : Supervisor π α).restart uptime = (result, s'))
    (frame : HandleId) :
    s.Watches uptime (.done (result.map fun () => false)) (s'.discard frame) := by
  have hlaunched := launched_of_struck hp h
  have hcycles := cycles_restart (s := { s with stalls := s.stalls + 1 }) hp
    (waiting_of_stalled hoverdue.2.1) uptime
  rw [h] at hcycles
  exact .cycled hoverdue
    ⟨hlaunched.settings, hlaunched.installed, hlaunched.running, hlaunched.stalls,
      hlaunched.cleared⟩
    ⟨hcycles.asked, hcycles.restarts, hcycles.nextId, hcycles.counters, hcycles.cleared⟩

/-- A frame that passes the watchdog leaves the count it made. -/
theorem passed_forward {s : Supervisor π α} {uptime : Span} {n : Nat} (hserves : s.Serves)
    (hoverdue : ¬s.IsOverdue uptime) (hn : n = if s.isStalled uptime then s.stalls + 1 else 0)
    (frame : HandleId) (user : α) (now : ClockTime) :
    s.Watches uptime (({ s with stalls := n } : Supervisor π α).forward frame user now).1
      (({ s with stalls := n } : Supervisor π α).forward frame user now).2 := by
  obtain ⟨hrestarts, hrunning, hpipeline⟩ :=
    ({ s with stalls := n } : Supervisor π α).restarts_forward frame user now
  have houtlook := ({ s with stalls := n } : Supervisor π α).outlook_forward frame user now
  exact .passed hserves hoverdue (congrArg Outlook.settings houtlook) (hrunning.trans hserves.1)
    ((congrArg Outlook.stalls houtlook).trans hn) hpipeline hrestarts

/-- Every submission is one of these to the watchdog. -/
theorem watches_submit {s : Supervisor π α}
    (hinstalled : s.isRunning = true → s.pipeline.isSome = true) (uptime : Span)
    (frame : HandleId) (user : α) :
    s.Watches uptime (s.submit uptime frame user).1 (s.submit uptime frame user).2 := by
  have hscreens := s.screens_screen uptime
  rw [submit_eq_screen]
  generalize s.screen uptime = screened at hscreens
  cases hscreens with
  | uninstalled hp =>
    have hidle := idle_of_uninstalled hinstalled hp
    exact .asleep (fun h => nomatch hidle.symm.trans h.1) rfl hidle (Nat.le_refl _) rfl
  | turnedDown hp hf hr =>
    exact .asleep (fun h => nomatch hf.symm.trans h.2) rfl hr (Nat.le_refl _) rfl
  | broughtDown hp hf hr =>
    obtain ⟨hsettings, -, hstalls⟩ := stalls_bringDown (s.note .stoppingFailed) uptime
    have hcore := core_bringDown (s.note .stoppingFailed) uptime
    exact .asleep (fun h => nomatch hf.symm.trans h.2) hsettings
      (isRunning_bringDown (s.note .stoppingFailed) uptime) hstalls (congrArg Core.restarts hcore)
  | @idle p hp hf hr =>
    obtain ⟨hrestarts, hrunning, -⟩ :=
      s.restarts_forward frame user (MediaPipeline.clockTime p uptime)
    have houtlook := s.outlook_forward frame user (MediaPipeline.clockTime p uptime)
    exact .asleep (fun h => nomatch hr.symm.trans h.1) (congrArg Outlook.settings houtlook)
      (hrunning.trans hr) (Nat.le_of_eq (congrArg Outlook.stalls houtlook)) hrestarts
  | lively hp hf hr hstalled =>
    refine passed_forward ⟨hr, hf⟩ (fun h => nomatch hstalled.symm.trans h.2.1) ?_ frame user _
    rw [hstalled]
    rfl
  | struck hp hf hr hstalled hcount =>
    refine passed_forward ⟨hr, hf⟩ (fun h => absurd h.2.2 (Nat.not_le_of_lt hcount)) ?_ frame user _
    rw [hstalled]
    rfl
  | restarted hp hf hr hstalled hcount h =>
    exact cycled_restart hp ⟨⟨hr, hf⟩, hstalled, hcount⟩ h frame
  | unrestarted hp hf hr hstalled hcount h =>
    exact cycled_restart hp ⟨⟨hr, hf⟩, hstalled, hcount⟩ h frame

/-! ## Runs -/

/-- A start that is not refused clears the count, and after one that is refused nothing runs. -/
theorem counted_start (h : Counted given n s) (uptime : Span) :
    let t : Turn π α := ⟨s, uptime, .start, .returned (s.start uptime).1, (s.start uptime).2⟩
    Counted given (if t.clears then 0 else n + if t.strikes then 1 else 0) t.after := by
  intro t
  cases hp : s.pipeline with
  | none =>
    have hidle := idle_of_uninstalled h.installed hp
    have hstart : s.start uptime = (.error .notInitialized, s) := by simp [start, hidle, hp]
    show Counted _ _ (s.start uptime).2
    rw [hstart]
    exact h.of_idle rfl hidle (Nat.le_refl _) _
  | some p =>
    have hlaunched := launched_start (Option.isSome_of_eq_some hp) uptime
    cases hresult : (s.start uptime).1 with
    | ok =>
      have hclears : t.clears = true := by simp [t, Turn.clears, Turn.launches, hresult]
      rw [if_pos hclears]
      exact h.cleared hlaunched.settings (fun _ => hlaunched.installed)
        (hlaunched.cleared (by rw [hresult]; rfl))
    | error e =>
      have hrunning := hlaunched.running
      rw [hresult] at hrunning
      exact h.of_idle hlaunched.settings hrunning hlaunched.stalls _

/-- A submission counts as what it is to the watchdog. -/
theorem counted_of_watches {t : Turn π α} {a : Admission} (h : Counted given n t.before)
    (hsubmit : t.call.isSubmit = true) (hanswer : t.answer = .submitted a)
    (hinstalled : t.after.isRunning = true → t.after.pipeline.isSome = true)
    (hwatches : t.before.Watches t.uptime a t.after) :
    Counted given (if t.clears then 0 else n + if t.strikes then 1 else 0) t.after := by
  obtain ⟨s, uptime, c, answer, s'⟩ := t
  cases c with
  | submit frame user =>
    cases hwatches with
    -- nothing runs, so the number is of no account
    | asleep _ hsettings hr hstalls => exact h.of_idle hsettings hr hstalls _
    | passed hserves hoverdue hsettings hr hstalls _ hrestarts =>
      obtain ⟨hcount, -⟩ := h.count hserves.1
      have hclears := clears_of_unchanged hsubmit hserves hrestarts
      have hstrikes := strikes_of_serves hsubmit hserves
      cases hstalled : s.isStalled uptime with
      | false =>
        rw [hstalled] at hclears hstalls
        rw [hclears]
        exact h.cleared hsettings hinstalled hstalls
      | true =>
        rw [hstalled] at hclears hstalls hstrikes
        rw [hclears, hstrikes]
        -- the watchdog let the frame pass, so it has patience for more
        have hbelow : s.stalls + 1 < patience given := by
          rw [← h.settings]
          have hlt := Nat.lt_of_not_le fun hle => hoverdue ⟨hserves, hstalled, hle⟩
          exact Nat.lt_of_lt_of_le hlt (Nat.le_max_right ..)
        exact {
          settings := hsettings.trans h.settings
          installed := hinstalled
          count := fun _ => by
            rw [hstalls, hcount]
            exact ⟨rfl, hcount ▸ hbelow⟩
          bound := by
            rw [hstalls]
            exact Nat.le_of_lt hbelow }
    | @cycled result s' hoverdue hlaunched hcycles =>
      obtain ⟨hcount, hbelow⟩ : s.stalls = n ∧ n < patience given := h.count hoverdue.1.1
      cases result with
      | ok =>
        have hclears : (⟨s, uptime, .submit frame user, answer, s'⟩ : Turn π α).clears = true := by
          have hanswer' : answer = .submitted (.done (.ok false)) := hanswer
          have hrestarts : s'.relay.restarts = s.relay.restarts + 1 := hcycles.restarts
          simp [hanswer', hrestarts, Turn.clears, Turn.launches]
        rw [if_pos hclears]
        exact h.cleared hlaunched.settings hinstalled (hlaunched.cleared rfl)
      | error e =>
        have hr : s'.isRunning = false := hlaunched.running
        exact {
          settings := hlaunched.settings.trans h.settings
          installed := hinstalled
          count := fun hr' => nomatch hr.symm.trans hr'
          bound := by
            refine Nat.le_trans hlaunched.stalls ?_
            show s.stalls + 1 ≤ _
            omega }
  | _ => exact nomatch hsubmit

/-- Every turn leaves the count at the number of strikes in a row. -/
theorem counted_of_turn {t : Turn π α} (h : t.before.call? t.uptime t.call = some (t.answer, t.after))
    (hs : Counted given n t.before) :
    Counted given (if t.clears then 0 else n + if t.strikes then 1 else 0) t.after := by
  obtain ⟨s, uptime, c, a, s'⟩ := t
  replace h : s.call? uptime c = some (a, s') := h
  have hinstalled := installed_of_running h hs.installed
  cases c with
  | start =>
    cases h
    exact counted_start hs uptime
  | stop =>
    cases h
    unfold stop at hinstalled ⊢
    cases hp : s.pipeline with
    | none => exact hs.same rfl hs.installed rfl rfl
    | some p =>
      obtain ⟨hsettings, -, hstalls⟩ := stalls_bringDown s uptime
      exact hs.of_idle hsettings (isRunning_bringDown s uptime) hstalls _
  | submit frame user =>
    cases h
    exact counted_of_watches hs rfl rfl hinstalled (watches_submit hs.installed uptime frame user)
  | deliver item =>
    have hrunning := isRunning_of_call? h id
    cases h
    have houtlook := outlook_receive s uptime item
    -- the count is set back by a sample that comes to its end, and not by one that waits
    cases hdelivery : IsDelivery item (s.receive uptime item).1 with
    | true =>
      rw [hdelivery] at houtlook
      have hclears : (⟨s, uptime, .deliver item, .delivered (s.receive uptime item).1,
          (s.receive uptime item).2⟩ : Turn π α).clears = true := by
        simp [Turn.clears, Turn.handsOver, hdelivery]
      rw [if_pos hclears]
      exact hs.cleared (congrArg Outlook.settings houtlook) hinstalled
        (congrArg Outlook.stalls houtlook)
    | false =>
      rw [hdelivery] at houtlook
      have hclears : (⟨s, uptime, .deliver item, .delivered (s.receive uptime item).1,
          (s.receive uptime item).2⟩ : Turn π α).clears = false := by
        simp [Turn.clears, Turn.handsOver, Turn.launches, Turn.isWatched, Call.isSubmit, hdelivery]
      rw [hclears]
      exact hs.same (congrArg Outlook.settings houtlook) hinstalled hrunning
        (congrArg Outlook.stalls houtlook)
  | resumeDelivery =>
    obtain ⟨s₁, hresume, heq⟩ := Option.map_eq_some_iff.1 h
    cases heq
    have houtlook := outlook_resumeNext? hresume
    exact hs.cleared (congrArg Outlook.settings houtlook) hinstalled
      (congrArg Outlook.stalls houtlook)
  | _ =>
    have hund := undisturbed_of_call? h trivial
    exact hs.same hund.settings hinstalled (isRunning_of_call? h id) hund.stalls

/-- After a run the count is the number of strikes in a row. -/
theorem counted_of_run {turns : List (Turn π α)} (run : Run (.new given) turns s) :
    Counted given (strikesInRow turns) s := by
  induction run with
  | start => exact counted_new
  | turn _ h ih =>
    rw [strikesInRow_concat]
    exact counted_of_turn h ih

/-- The watchdog restarts the pipeline exactly at a submission that is a strike, and before which there
    were as many in a row as it has patience for, but for one.  The frame of that submission goes
    nowhere.  The count never exceeds a 32-bit word. -/
theorem cycle_of_run {turns : List (Turn π α)} {t : Turn π α}
    (run : Run (.new given) (turns ++ [t]) s) :
    (t.Restarts ↔ t.strikes = true ∧ patience given ≤ strikesInRow turns + 1) ∧
    (t.Restarts → ∃ result, t.answer = .submitted (.done (result.map fun () => false)) ∧
      t.before.Cycles result t.after) ∧
    (t.isWatched = true → ¬t.Restarts → t.after.pipeline = t.before.pipeline) ∧
    (t.strikes = true → t.before.stalls + 1 < UInt32.size) ∧ t.after.stalls < UInt32.size := by
  obtain ⟨hprior, hcall, rfl⟩ := run.last
  have hbefore := counted_of_run hprior
  have hafter := counted_of_run run
  have hsize := patience_lt_size given
  have hbound : t.after.stalls < UInt32.size := Nat.lt_of_le_of_lt hafter.bound hsize
  have hstrike : t.strikes = true → t.before.stalls + 1 < UInt32.size := by
    intro hstrikes
    have hserves := serves_of_isWatched (isWatched_of_strikes hstrikes)
    obtain ⟨hcount, hbelow⟩ := hbefore.count hserves.1
    omega
  -- the bounds are settled; what is left depends on whether the turn is a submission
  suffices hturn : (t.Restarts ↔ t.strikes = true ∧ patience given ≤ strikesInRow turns + 1) ∧
      (t.Restarts → ∃ result, t.answer = .submitted (.done (result.map fun () => false)) ∧
        t.before.Cycles result t.after) ∧
      (t.isWatched = true → ¬t.Restarts → t.after.pipeline = t.before.pipeline) from
    ⟨hturn.1, hturn.2.1, hturn.2.2, hstrike, hbound⟩
  obtain ⟨s, uptime, c, a, s'⟩ := t
  replace hcall : s.call? uptime c = some (a, s') := hcall
  cases hsubmit : c.isSubmit with
  | false =>
    have hrestarts := restarts_of_course (course_of_call? hcall) hsubmit
    have hquiet : ¬(⟨s, uptime, c, a, s'⟩ : Turn π α).Restarts := fun hr => hr hrestarts
    have hwatched : (⟨s, uptime, c, a, s'⟩ : Turn π α).isWatched = false := by
      simp [Turn.isWatched, hsubmit]
    refine ⟨⟨fun hr => absurd hr hquiet, fun h => ?_⟩, fun hr => absurd hr hquiet,
      fun h => nomatch hwatched.symm.trans h⟩
    simp [Turn.strikes, hwatched] at h
  | true =>
    have hoverdue := hbefore.isOverdue_iff hsubmit
    rw [← hoverdue]
    cases c with
    | submit frame user =>
      obtain ⟨ha, hs'⟩ := Prod.mk.inj (Option.some.inj hcall)
      have hwatches := watches_submit hbefore.installed uptime frame user
      rw [hs'] at hwatches
      generalize (s.submit uptime frame user).1 = admission at hwatches ha
      subst ha
      cases hwatches with
      | asleep hserves _ _ _ hrestarts =>
        exact ⟨⟨fun hr => absurd hrestarts hr, fun h => absurd h.1 hserves⟩,
          fun hr => absurd hrestarts hr, fun h => absurd (serves_of_isWatched h) hserves⟩
      | passed hserves hidle _ _ _ hpipeline hrestarts =>
        exact ⟨⟨fun hr => absurd hrestarts hr, fun h => absurd h hidle⟩,
          fun hr => absurd hrestarts hr, fun _ _ => hpipeline⟩
      | cycled hdue _ hcycles =>
        -- the counter wraps, but one more is never the same
        have hne : s'.relay.restarts ≠ s.relay.restarts := by
          rw [hcycles.restarts]
          simp
        exact ⟨⟨fun _ => hdue, fun _ => hne⟩, fun _ => ⟨_, rfl, hcycles⟩,
          fun _ hquiet => absurd hne hquiet⟩
    | _ => exact nomatch hsubmit

/-- Settings with which the second strike in a row restarts the pipeline. -/
def twoStrikes : Settings := { watchdog := { timeoutMs := 1000, resetCount := 2 } }

/-- After a strike a result without an id is handed over, and then there is a strike again. -/
def struckTwice : List (Span × Call Scripted Nat) :=
  [(.zero, .install (.ok {})), (.zero, .elsewhere (framesWith [none, none, none, none])),
    (.zero, .start), (.ofMillis 1500, .submit 0 7), (.ofMillis 1500, .deliver (.sample ⟨1, none⟩)),
    (.ofMillis 3000, .submit 2 8)]

/-- The next strike is the second in a row, and restarts the pipeline. -/
theorem cycle_of_struckTwice : ∃ (turns : List (Turn Scripted Nat)) (t : Turn Scripted Nat)
    (s : Supervisor Scripted Nat), Run (.new twoStrikes) (turns ++ [t]) s ∧
      turns.countP Turn.strikes = 2 ∧ strikesInRow turns = 1 ∧ t.Restarts ∧
      ∃ result, t.answer = .submitted (.done (result.map fun () => false)) ∧
        t.before.Cycles result t.after := by
  obtain ⟨turns, t, s₁, s, hturns, hlast, hcount, hrow, hstrikes⟩ : ∃ turns t s₁ s,
      (new twoStrikes : Supervisor Scripted Nat).turns? struckTwice = some (turns, s₁) ∧
        s₁.turns? [(.ofMillis 4500, .submit 3 9)] = some ([t], s) ∧
        turns.countP Turn.strikes = 2 ∧ strikesInRow turns = 1 ∧ t.strikes = true :=
    ⟨_, _, _, _, rfl, rfl, rfl, rfl, rfl⟩
  have hrun := (run_of_turns? hturns).append hlast
  obtain ⟨hiff, hcycles, -⟩ := cycle_of_run hrun
  have hrestarts : t.Restarts := hiff.2 ⟨hstrikes, by rw [hrow]; decide⟩
  exact ⟨turns, t, s, hrun, hcount, hrow, hrestarts, hcycles hrestarts⟩

end Supervisor

end MediaBridge
