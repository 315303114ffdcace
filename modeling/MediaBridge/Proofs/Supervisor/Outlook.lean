import MediaBridge.Proofs.Supervisor.Calls

/-! # What people see and the watchdog counts by

Beside its core a supervisor has an *outlook*: whether there is a pipeline, the phase that was read off
the bus, what observers were told, and how many submissions in a row found the pipeline stalled.  Only
moves of the pipeline change what people see, and only deliveries, starts and submissions change the
count.

* `outlook_bringDown`     stopping follows the moves that were left on the bus;
* `outlook_launch`        a start that is not refused sets the count back;
* `installed_of_call?`    a pipeline that was made stays.
-/

namespace MediaBridge

variable {π : Type u} {α : Type v}

/-- What people see of a supervisor, and what its watchdog counts by. -/
structure Outlook where
  settings : Settings
  /-- Whether there is a pipeline. -/
  installed : Bool
  phase : Phase
  observer : Option String
  reports : List Report
  stalls : Nat

namespace Outlook

/-- Applies a status message. -/
def hear (o : Outlook) : Message → Outlook
  | .phaseChanged .pipeline old new pending =>
    { o with phase := new, reports := o.reports ++ o.observer.toList.map (⟨·, old, new, pending⟩) }
  | _ => o

/-- The same outlook, but deliveries may have ended in the meantime. -/
def Eased (o o' : Outlook) : Prop := o' = o ∨ o' = { o with stalls := 0 }

/-- Nothing ended. -/
theorem Eased.refl (o : Outlook) : o.Eased o := .inl rfl

/-- Deliveries may end in two stretches. -/
theorem Eased.trans {o o' o'' : Outlook} (h : o.Eased o') (h' : o'.Eased o'') : o.Eased o'' := by
  rcases h with rfl | rfl
  · exact h'
  · rcases h' with rfl | rfl <;> exact .inr rfl

/-- Messages have nothing to do with the watchdog. -/
theorem settings_foldl_hear (ms : List Message) (o : Outlook) :
    (ms.foldl hear o).settings = o.settings ∧ (ms.foldl hear o).installed = o.installed ∧
      (ms.foldl hear o).stalls = o.stalls := by
  induction ms generalizing o with
  | nil => exact ⟨rfl, rfl, rfl⟩
  | cons m rest ih =>
    rw [List.foldl_cons]
    obtain ⟨hsettings, hinstalled, hstalls⟩ := ih (o.hear m)
    rw [hsettings, hinstalled, hstalls]
    -- a message that is heard changes the phase and the reports, any other nothing
    unfold hear
    split <;> exact ⟨rfl, rfl, rfl⟩

end Outlook

namespace Supervisor

/-- What people see of a supervisor, and what its watchdog counts by. -/
def outlook (s : Supervisor π α) : Outlook where
  settings := s.settings
  installed := s.pipeline.isSome
  phase := s.phase
  observer := s.observer
  reports := s.reports
  stalls := s.stalls

/-! ## The pipeline and its messages -/

/-- What the pipeline is asked for is not seen until it posts. -/
theorem outlook_request [MediaPipeline π] (s : Supervisor π α) (p : π) (target : Phase) :
    (s.request p target).2.outlook = { s.outlook with installed := true } := rfl

/-- Messages other than moves of the pipeline are not seen. -/
theorem outlook_apply (s : Supervisor π α) (m : Message) :
    (s.apply m).outlook = s.outlook.hear m := by
  cases m with
  | error source text details => cases details <;> rfl
  | phaseChanged source => cases source <;> rfl
  | _ => rfl

/-- Any number of messages are applied one after the other. -/
theorem outlook_foldl_apply (ms : List Message) (s : Supervisor π α) :
    (ms.foldl apply s).outlook = ms.foldl Outlook.hear s.outlook := by
  induction ms generalizing s with
  | nil => rfl
  | cons m rest ih => rw [List.foldl_cons, ih, outlook_apply, List.foldl_cons]

/-! ## Stopping and starting -/

/-- A delivery that goes on sets the count back. -/
theorem outlook_resumeNext? {s s' : Supervisor π α} {uptime : Span}
    (h : s.resumeNext? uptime = some s') : s'.outlook = { s.outlook with stalls := 0 } := by
  unfold resumeNext? at h
  split at h
  · exact nomatch h
  · obtain ⟨r, -, heq⟩ := Option.map_eq_some_iff.1 h
    cases heq
    rfl

/-- Letting go of those who wait sets the count back if anybody waited. -/
theorem eased_letGo (s : Supervisor π α) (uptime : Span) :
    s.outlook.Eased (s.letGo uptime).outlook :=
  resume_keeps (s := s.setDraining true) (P := fun s' => s.outlook.Eased s'.outlook)
    (fun h hresume => h.trans (.inr (outlook_resumeNext? hresume))) (.refl _)

/-- Halting the pipeline is not seen until its messages are followed. -/
@[simp] theorem outlook_halt [MediaPipeline π] (s : Supervisor π α) :
    s.halt.outlook = s.outlook := by
  cases hp : s.pipeline with
  | none => rw [halt_of_none hp]
  | some p =>
    have hinstalled : { s.outlook with installed := true } = s.outlook := by rw [outlook, hp]; rfl
    rcases halt_of_some hp with h | ⟨e, h⟩ <;> rw [h] <;> exact hinstalled

/-- The moves that were left on the bus are followed. -/
theorem outlook_settle (s : Supervisor π α) :
    s.settle.outlook =
      (s.bus.filter fun m => m.kind = .phaseChanged).foldl Outlook.hear s.outlook :=
  outlook_foldl_apply ..

/-- What people see after a stop is what the moves left on the bus make of it. -/
theorem outlook_bringDown [MediaPipeline π] (s : Supervisor π α) (uptime : Span) :
    ∃ (o : Outlook) (ms : List Message),
      s.outlook.Eased o ∧ (s.bringDown uptime).outlook = ms.foldl Outlook.hear o :=
  ⟨_, _, eased_letGo s uptime, by rw [bringDown, outlook_settle, outlook_halt]⟩

/-- A start that is not refused sets the count back. -/
theorem outlook_launch [MediaPipeline π] (s : Supervisor π α) (p : π) (uptime : Span) :
    (s.launch p uptime).2.outlook =
      match (s.launch p uptime).1 with
      | .ok () => { s.outlook with installed := true, stalls := 0 }
      | .error _ => { s.outlook with installed := true } := by
  have houtlook := outlook_request s.prepare p .playing
  unfold launch
  cases hr : s.prepare.request p .playing with
  | mk result s₁ =>
    rw [hr] at houtlook
    cases result with
    | ok => exact congrArg (fun o : Outlook => { o with stalls := 0 }) houtlook
    | error e => exact houtlook

/-! ## Frames and results -/

/-- What becomes of a frame at the ingest is not seen. -/
@[simp] theorem outlook_forward (s : Supervisor π α) (frame : HandleId) (user : α)
    (now : ClockTime) : (s.forward frame user now).2.outlook = s.outlook := by
  unfold forward
  split
  · rfl
  · split <;> rfl

/-- Whether an answer says that a sample was handed over, whatever became of it. -/
def IsDelivery : Item → Option Flow → Bool
  | .sample _, some _ => true
  | _, _ => false

/-- A sample that is handed over sets the count back, and one that waits does not. -/
theorem outlook_receive (s : Supervisor π α) (uptime : Span) (item : Item) :
    (s.receive uptime item).2.outlook =
      if IsDelivery item (s.receive uptime item).1 then { s.outlook with stalls := 0 }
      else s.outlook := by
  unfold receive
  cases item with
  | endOfStream => rfl
  | sample x =>
    simp only
    rcases s.relay.deliver (.sample x) with ⟨(e | ⟨⟩) | m, r⟩ <;> rfl

/-- The message that the reader takes next. -/
def next? (s : Supervisor π α) : Option Message := if s.reader = .reading then s.bus.head? else none

/-- The reader changes what people see by the message it takes. -/
theorem outlook_readNext (s : Supervisor π α) :
    s.readNext.outlook = s.next?.elim s.outlook s.outlook.hear := by
  unfold readNext next?
  split
  · rename_i m rest hr hbus
    have happly := outlook_apply { s with bus := rest } m
    rw [if_pos hr, hbus]
    simp only
    split
    · split <;> exact happly
    · exact happly
  · rename_i h
    by_cases hr : s.reader = .reading
    · cases hbus : s.bus with
      | nil => rw [if_pos hr]; rfl
      | cons m rest => exact absurd hbus (h m rest hr)
    · rw [if_neg hr]
      rfl

/-! ## Calls -/

/-- Whether a call has nothing to do with the watchdog. -/
def Call.IsPlain : Call π α → Prop
  | .start | .stop | .submit .. | .deliver _ | .resumeDelivery => False
  | _ => True

/-- The watchdog finds everything as it was, but there may be a pipeline now. -/
structure Undisturbed (s s' : Supervisor π α) : Prop where
  settings : s'.settings = s.settings
  stalls : s'.stalls = s.stalls
  installed : s.pipeline.isSome = true → s'.pipeline.isSome = true

/-- Who sees the same finds everything as it was. -/
theorem Undisturbed.of_outlook {s s' : Supervisor π α} (houtlook : s'.outlook = s.outlook) :
    s.Undisturbed s' where
  settings := congrArg Outlook.settings houtlook
  stalls := congrArg Outlook.stalls houtlook
  installed := fun h => (congrArg Outlook.installed houtlook).trans h

/-- Calls that touch one part only do not disturb the watchdog. -/
theorem Touched.undisturbed {s s' : Supervisor π α} {c : Call π α} (h : s.Touched c s') :
    s.Undisturbed s' := by
  cases h with
  | pipeline hkept => exact ⟨rfl, rfl, hkept⟩
  | nothing | intake | output | observer | fatal | caps | bus => exact ⟨rfl, rfl, id⟩

/-- Reading messages does not disturb the watchdog. -/
theorem undisturbed_readNext (s : Supervisor π α) : s.Undisturbed s.readNext := by
  have houtlook := outlook_readNext s
  cases hnext : s.next? with
  | none =>
    rw [hnext] at houtlook
    exact .of_outlook houtlook
  | some m =>
    obtain ⟨hsettings, hinstalled, hstalls⟩ := Outlook.settings_foldl_hear [m] s.outlook
    rw [hnext] at houtlook
    exact {
      settings := (congrArg Outlook.settings houtlook).trans hsettings
      stalls := (congrArg Outlook.stalls houtlook).trans hstalls
      installed := fun h => ((congrArg Outlook.installed houtlook).trans hinstalled).trans h }

/-- A submission that waited does not disturb the watchdog. -/
theorem undisturbed_resumeSubmit? {s s' : Supervisor π α} {w : Waiter} {accepted : Bool}
    (h : s.resumeSubmit? w = some (accepted, s')) : s.Undisturbed s' := by
  obtain ⟨⟨taken, r⟩, -, heq⟩ := Option.map_eq_some_iff.1 h
  cases taken <;> cases heq <;> exact .of_outlook rfl

/-- What the watchdog finds after the pipeline was asked to play, with this result. -/
structure Launched (s : Supervisor π α) (result : Except Error Unit) (s' : Supervisor π α) : Prop where
  settings : s'.settings = s.settings
  installed : s'.pipeline.isSome = true
  running : s'.isRunning = result.isOk
  stalls : s'.stalls ≤ s.stalls
  cleared : result.isOk = true → s'.stalls = 0

/-- The pipeline was stopped before. -/
theorem Launched.of_stopped {s s₁ s' : Supervisor π α} {result : Except Error Unit}
    (h : s₁.Launched result s') (hsettings : s₁.settings = s.settings)
    (hstalls : s₁.stalls ≤ s.stalls) : s.Launched result s' where
  settings := h.settings.trans hsettings
  installed := h.installed
  running := h.running
  stalls := Nat.le_trans h.stalls hstalls
  cleared := h.cleared

/-- Whether a call submits a frame. -/
def Call.isSubmit : Call π α → Bool
  | .submit .. => true
  | _ => false

/-- Whether a call may start or stop the pipeline. -/
def Call.IsControl : Call π α → Prop
  | .start | .stop | .submit .. => True
  | _ => False

/-- A reader whose work ends is still there. -/
theorem absent_iff_of_course {c c' : Core α} {call : Call π α} {a : Answer α}
    (h : Course c call a c') (hc : ¬call.IsControl) : c'.reader = .absent ↔ c.reader = .absent := by
  cases h with
  | unstarted | begun | unbegun | unstopped | stopped | uninstalled | turnedDown | restarted
  | unrestarted | forwarded => exact absurd trivial hc
  | readEnd hr => simp [hr]
  | readError hr => simp [hr]
  | _ => rfl

/-- Without a pipeline nothing runs. -/
theorem idle_of_uninstalled {s : Supervisor π α}
    (hinstalled : s.isRunning = true → s.pipeline.isSome = true) (hp : s.pipeline = none) :
    s.isRunning = false := by
  rw [Bool.eq_false_iff]
  intro hr
  have hsome := hinstalled hr
  rw [hp] at hsome
  cases hsome

section Calls

variable [MediaPipeline π]

/-- Stopping may end deliveries, but it does not raise the count. -/
theorem stalls_bringDown (s : Supervisor π α) (uptime : Span) :
    (s.bringDown uptime).settings = s.settings ∧
      (s.bringDown uptime).pipeline.isSome = s.pipeline.isSome ∧
        (s.bringDown uptime).stalls ≤ s.stalls := by
  obtain ⟨o, ms, heased, hdown⟩ := outlook_bringDown s uptime
  obtain ⟨hsettings, hinstalled, hstalls⟩ := Outlook.settings_foldl_hear ms o
  rw [← hdown] at hsettings hinstalled hstalls
  rcases heased with rfl | rfl
  · exact ⟨hsettings, hinstalled, Nat.le_of_eq hstalls⟩
  · exact ⟨hsettings, hinstalled, Nat.le_trans (Nat.le_of_eq hstalls) (Nat.zero_le _)⟩

/-- Stopping what runs does not raise the count. -/
theorem stalls_dispose (s : Supervisor π α) (uptime : Span) :
    (s.dispose uptime).settings = s.settings ∧
      (s.dispose uptime).pipeline.isSome = s.pipeline.isSome ∧
        (s.dispose uptime).stalls ≤ s.stalls := by
  unfold dispose
  split
  · exact stalls_bringDown s uptime
  · exact ⟨rfl, rfl, Nat.le_refl _⟩

/-- After it was stopped nothing runs. -/
theorem isRunning_dispose (s : Supervisor π α) (uptime : Span) :
    (s.dispose uptime).isRunning = false := by
  unfold dispose
  split
  · exact isRunning_bringDown s uptime
  · rename_i hidle
    exact Bool.eq_false_iff.2 hidle

/-- A launch that is not refused runs the pipeline and sets the count back. -/
theorem launched_launch {s : Supervisor π α} (hr : s.isRunning = false) (p : π) (uptime : Span) :
    s.Launched (s.launch p uptime).1 (s.launch p uptime).2 := by
  have houtlook := outlook_launch s p uptime
  -- whether it runs afterwards and whether the count is set back go by the answer of the pipeline
  rcases launch_cases s p uptime with ⟨posted, s', h, hcore⟩ | ⟨e, posted, s', h, hcore⟩
  · have hreader : s'.reader = .reading := congrArg Core.reader hcore
    rw [h] at houtlook ⊢
    have hstalls : s'.stalls = 0 := congrArg Outlook.stalls houtlook
    exact {
      settings := congrArg Outlook.settings houtlook
      installed := congrArg Outlook.installed houtlook
      running := by simp [isRunning, hreader, Except.isOk, Except.toBool]
      stalls := Nat.le_trans (Nat.le_of_eq hstalls) (Nat.zero_le _)
      cleared := fun _ => hstalls }
  · have hreader : s'.reader = s.reader := congrArg Core.reader hcore
    rw [h] at houtlook ⊢
    exact {
      settings := congrArg Outlook.settings houtlook
      installed := congrArg Outlook.installed houtlook
      running := by rw [isRunning, hreader]; exact hr
      stalls := Nat.le_of_eq (congrArg Outlook.stalls houtlook)
      cleared := fun hok => (Bool.false_ne_true hok).elim }

/-- A start stops the pipeline if it runs, and then asks it to play. -/
theorem start_eq_launch {s : Supervisor π α} (hp : s.pipeline.isSome = true) (uptime : Span) :
    ∃ p, (s.dispose uptime).pipeline = some p ∧ s.start uptime = (s.dispose uptime).launch p uptime := by
  obtain ⟨p, hp'⟩ := Option.isSome_iff_exists.1 ((stalls_dispose s uptime).2.1.trans hp)
  refine ⟨p, hp', ?_⟩
  unfold dispose at hp' ⊢
  unfold start
  simp only [hp']

/-- Without a pipeline there is nothing to ask. -/
theorem start_eq_dispose {s : Supervisor π α} (hp : s.pipeline = none) (uptime : Span) :
    s.start uptime = (.error .notInitialized, s.dispose uptime) := by
  have hp' := (stalls_dispose s uptime).2.1
  rw [hp, Option.isSome_none, Option.isSome_eq_false_iff, Option.isNone_iff_eq_none] at hp'
  unfold dispose at hp' ⊢
  unfold start
  simp only [hp']

/-- Stopping what runs halts the core. -/
theorem core_dispose (s : Supervisor π α) (uptime : Span) :
    (s.dispose uptime).core = s.core.halted := core_stopIfRunning (.refl s) uptime

/-- A start that is not refused runs the pipeline and sets the count back. -/
theorem launched_start {s : Supervisor π α} (hp : s.pipeline.isSome = true) (uptime : Span) :
    s.Launched (s.start uptime).1 (s.start uptime).2 := by
  obtain ⟨hsettings, -, hstalls⟩ := stalls_dispose s uptime
  obtain ⟨p, -, hstart⟩ := start_eq_launch hp uptime
  rw [hstart]
  exact (launched_launch (isRunning_dispose s uptime) p uptime).of_stopped hsettings hstalls

/-- A restart that is not refused runs the pipeline and sets the count back. -/
theorem launched_restart {s : Supervisor π α} (hp : s.pipeline.isSome = true) (uptime : Span) :
    s.Launched (s.restart uptime).1 (s.restart uptime).2 := by
  obtain ⟨hsettings, hinstalled, hstalls⟩ :=
    stalls_bringDown ((s.note .watchdog).count .restarts) uptime
  exact (launched_start (hinstalled.trans hp) uptime).of_stopped hsettings hstalls

/-- The strike for which the pipeline is restarted was counted before. -/
theorem launched_of_struck {s s' : Supervisor π α} {p : π} {uptime : Span}
    {result : Except Error Unit} (hp : s.pipeline = some p)
    (h : ({ s with stalls := s.stalls + 1 } : Supervisor π α).restart uptime = (result, s')) :
    ({ s with stalls := s.stalls + 1 } : Supervisor π α).Launched result s' := by
  have hlaunched := launched_restart (s := { s with stalls := s.stalls + 1 })
    (Option.isSome_of_eq_some hp) uptime
  rwa [h] at hlaunched

/-- Calls that neither start, stop nor submit change nothing about whether the pipeline runs. -/
theorem isRunning_of_call? {s s' : Supervisor π α} {uptime : Span} {c : Call π α} {a : Answer α}
    (h : s.call? uptime c = some (a, s')) (hc : ¬c.IsControl) : s'.isRunning = s.isRunning := by
  rw [Bool.eq_iff_iff, isRunning_iff, isRunning_iff, Ne, Ne,
    absent_iff_of_course (course_of_call? h) hc]

/-- Plain calls do not disturb the watchdog. -/
theorem undisturbed_of_call? {s s' : Supervisor π α} {uptime : Span} {c : Call π α} {a : Answer α}
    (h : s.call? uptime c = some (a, s')) (hc : c.IsPlain) : s.Undisturbed s' := by
  cases c with
  | start | stop | submit | deliver | resumeDelivery => exact hc.elim
  | resumeSubmit w =>
    obtain ⟨⟨accepted, s₁⟩, hresume, heq⟩ := Option.map_eq_some_iff.1 h
    cases heq
    exact undisturbed_resumeSubmit? hresume
  | read =>
    cases h
    exact undisturbed_readNext s
  | _ => exact (touched_of_call? h trivial).undisturbed

/-- What becomes of a frame that passes the screening is not seen. -/
theorem outlook_submit (s : Supervisor π α) (uptime : Span) (frame : HandleId) (user : α) :
    (s.submit uptime frame user).2.outlook = (s.screen uptime).2.outlook := by
  rw [submit_eq_screen]
  rcases s.screen uptime with ⟨_ | _, s₁⟩
  · rfl
  · exact outlook_forward ..

/-- A screening changes no settings, and neither makes a pipeline nor takes one away. -/
theorem settings_screen (s : Supervisor π α) (uptime : Span) :
    (s.screen uptime).2.settings = s.settings ∧
      (s.screen uptime).2.pipeline.isSome = s.pipeline.isSome := by
  have hscreens := s.screens_screen uptime
  generalize s.screen uptime = screened at hscreens
  cases hscreens with
  | uninstalled => exact ⟨rfl, rfl⟩
  | turnedDown => exact ⟨rfl, rfl⟩
  | broughtDown =>
    obtain ⟨hsettings, hinstalled, -⟩ := stalls_bringDown (s.note .stoppingFailed) uptime
    exact ⟨hsettings, hinstalled⟩
  | idle => exact ⟨rfl, rfl⟩
  | lively => exact ⟨rfl, rfl⟩
  | struck => exact ⟨rfl, rfl⟩
  | restarted hp _ _ _ _ h | unrestarted hp _ _ _ _ h =>
    have hlaunched := launched_of_struck hp h
    exact ⟨hlaunched.settings, hlaunched.installed.trans (Option.isSome_of_eq_some hp).symm⟩

/-- A pipeline that was made stays. -/
theorem installed_of_call? {s s' : Supervisor π α} {uptime : Span} {c : Call π α} {a : Answer α}
    (h : s.call? uptime c = some (a, s')) (hp : s.pipeline.isSome = true) :
    s'.pipeline.isSome = true := by
  -- only starts, stops, submissions and deliveries reach the watchdog; the others are plain
  cases c with
  | start =>
    cases h
    exact (launched_start hp uptime).installed
  | stop =>
    cases h
    unfold stop
    split
    · exact hp
    · exact (stalls_bringDown s uptime).2.1.trans hp
  | submit frame user =>
    cases h
    exact (congrArg Outlook.installed (outlook_submit s uptime frame user)).trans
      ((settings_screen s uptime).2.trans hp)
  | deliver item =>
    cases h
    have houtlook := congrArg Outlook.installed (outlook_receive s uptime item)
    split at houtlook
    · exact houtlook.trans hp
    · exact houtlook.trans hp
  | resumeDelivery =>
    obtain ⟨s₁, hresume, heq⟩ := Option.map_eq_some_iff.1 h
    cases heq
    exact (congrArg Outlook.installed (outlook_resumeNext? hresume)).trans hp
  | _ => exact (undisturbed_of_call? h trivial).installed hp

/-- Nothing runs before there is a pipeline. -/
theorem installed_of_running {s s' : Supervisor π α} {uptime : Span} {c : Call π α} {a : Answer α}
    (h : s.call? uptime c = some (a, s')) (hs : s.isRunning = true → s.pipeline.isSome = true)
    (hr : s'.isRunning = true) : s'.pipeline.isSome = true := by
  cases hp : s.pipeline with
  | some p => exact installed_of_call? h (Option.isSome_of_eq_some hp)
  | none =>
    have hidle : ¬s.isRunning = true := Bool.eq_false_iff.1 (idle_of_uninstalled hs hp)
    -- without a pipeline no call can begin a run
    suffices s'.isRunning = s.isRunning from absurd (this ▸ hr) hidle
    cases c with
    | start =>
      cases h
      simp [start, hidle, hp]
    | stop =>
      cases h
      simp [stop, hp]
    | submit =>
      cases h
      simp only [submit, hp]
      rfl
    | _ => exact isRunning_of_call? h id

/-- What runs has a pipeline. -/
theorem installed_of_run {settings : Settings} {turns : List (Turn π α)} {s : Supervisor π α}
    (run : Run (.new settings) turns s) (hr : s.isRunning = true) : s.pipeline.isSome = true := by
  induction run with
  | start => exact nomatch hr
  | turn _ h ih => exact installed_of_running h ih hr

end Calls

end Supervisor

end MediaBridge
