import MediaBridge.Proofs.Supervisor.Screening

/-! # Runs of a supervisor

The caller, the pipeline and the reader of the status messages work on one supervisor.  A run is a
sequence of what they do, in any order, recorded by its turns.  A call that would have to wait is not
part of a run until it need not, except for a submission that waits at the ingest and the delivery of a
sample that waits for room: others may act before these go on, so they take two turns.

* `Course`           how a call can go, and the core it leaves;
* `course_of_call?`  every call goes one of these ways;
* `touched_of_call?` what calls that touch one part of the supervisor leave behind.
-/

namespace MediaBridge

variable {π : Type u} {α : Type v}

/-! ## Submissions and deliveries at the relay -/

namespace Relay

/-- How a submission leaves the ingest and the next id, as far as it goes without waiting. -/
inductive Offers (r : Relay α) (frame : HandleId) : Submission × Relay α → Prop where
  -- The frame did not get into the ingest, and no id was used up.
  | refused {result : Except Error Bool} {r' : Relay α} (hresult : result ≠ .ok true)
    (hingest : r'.ingest = r.ingest)
    (hid : r'.bridge.pending.nextId = r.bridge.pending.nextId)
    (hrestarts : r'.restarts = r.restarts) : r.Offers frame (.done result, r')
  -- The frame is queued, and carries the id of its entry.
  | accepted {o : Offer} {r' : Relay α} {info : FrameInfo} (ha : r.ingest.answer? = some .ok)
    (hingest : r'.ingest = r.ingest.accept o) (hrestarts : r'.restarts = r.restarts)
    (hinfo : r.store.info frame = .ok info)
    (hstamped : r'.store.info frame = .ok (info.stamped info.timing r.bridge.pending.nextId)) :
    r.Offers frame (.done (.ok true), r')
  -- The ingest is open and full.
  | waits {t : Ticket} {o : Offer} {r' : Relay α} {info : FrameInfo} (ha : r.ingest.answer? = none)
    (hingest : r'.ingest = r.ingest) (hrestarts : r'.restarts = r.restarts)
    (hinfo : r.store.info frame = .ok info)
    (hstamped : r'.store.info frame = .ok (info.stamped info.timing r.bridge.pending.nextId)) :
    r.Offers frame (.waits t o, r')

/-- A registration is no restart. -/
theorem restarts_enter (b : Bridge α) (timing : Timing) (user : α) :
    (b.enter timing user).health.value .restarts = b.health.value .restarts :=
  Bridge.value_enter_of_ne (by decide) ..

/-- A withdrawal is no restart. -/
theorem restarts_withdraw (b : Bridge α) (id : Nat) :
    (b.withdraw id).health.value .restarts = b.health.value .restarts := by
  rw [Bridge.health_withdraw, Health.value_add_of_ne (by decide)]

/-- Accepting a frame is no restart. -/
theorem restarts_confirm (b : Bridge α) (size : Nat) :
    (b.confirm size).health.value .restarts = b.health.value .restarts := by
  rw [Bridge.health_confirm, Health.value_add_of_ne (by decide),
    Health.value_add_of_ne (by decide)]

/-- Every submission is refused, accepted or waits. -/
theorem offers_submit (r : Relay α) (frame : HandleId) (user : α) :
    r.Offers frame (r.submit frame user) := by
  have hreg := r.registers_register frame user
  unfold submit
  generalize r.register frame user = registration at hreg
  cases hreg with
  | failed => exact .refused nofun rfl rfl rfl
  | turnedAway =>
    refine .refused nofun rfl rfl ?_
    simp [restarts]
  | @registered s size info _ hinfo hstamped =>
    have hid := r.bridge.nextId_withdraw_enter info.timing user
    have hrestarts := restarts_enter r.bridge info.timing user
    have hwithdrawn : ((r.bridge.enter info.timing user).withdraw
        r.bridge.pending.nextId).health.value .restarts = r.bridge.health.value .restarts :=
      (restarts_withdraw ..).trans hrestarts
    simp only
    rcases measure_cases { r with store := s, bridge := r.bridge.enter info.timing user }
        ⟨r.bridge.pending.nextId, size, frame⟩ with ⟨s', o, ho, hsame, hm⟩ | ⟨s', hm⟩
    · simp only [hm]
      rcases resume?_cases { r with store := s', bridge := r.bridge.enter info.timing user }
          ⟨r.bridge.pending.nextId, size, frame⟩ o with ⟨ha, hr⟩ | ⟨ha, hr⟩ | hr
      · simp only [hr]
        exact .waits ha rfl hrestarts hinfo (hsame.trans hstamped)
      · simp only [hr]
        exact .accepted ha rfl ((restarts_confirm ..).trans hrestarts) hinfo (hsame.trans hstamped)
      · simp only [hr]
        exact .refused nofun rfl hid hwithdrawn
    · simp only [hm]
      exact .refused nofun rfl hid hwithdrawn

/-- A delivery uses up no id, and leaves the ingest alone. -/
theorem keeps_deliver (r : Relay α) (item : Item) :
    (r.deliver item).2.ingest = r.ingest ∧
    (r.deliver item).2.bridge.pending.nextId = r.bridge.pending.nextId ∧
    (r.deliver item).2.restarts = r.restarts := by
  cases item with
  | endOfStream => exact ⟨rfl, rfl, rfl⟩
  | sample x =>
    have hd := r.delivers_deliver x
    generalize r.deliver (.sample x) = delivery at hd
    cases hd with
    | matched hc hid hr hm hf hd =>
      rw [hd, ingest_publish, pending_publish, restarts_publish]
      exact ⟨rfl, Pending.nextId_resolve .., by simp [restarts]⟩
    | unmatched => exact ⟨rfl, Pending.nextId_resolve .., by simp [restarts]⟩
    | outOfOrder => exact ⟨rfl, Pending.nextId_resolve .., by simp [restarts]⟩
    | unreadable => exact ⟨rfl, rfl, by simp [restarts]⟩
    | uncorrelated => exact ⟨rfl, by simp, by simp [restarts]⟩

end Relay

/-! ## Calls -/

namespace Supervisor

/-- What is done to a supervisor. -/
inductive Call (π : Type u) (α : Type v) where
  -- what the caller does
  | install (made : Except Error π)
  | start
  | stop
  | submit (frame : HandleId) (user : α)
  /-- A submission that waits at the ingest looks again. -/
  | resumeSubmit (w : Waiter)
  | pop
  | takeFatal
  | observe (observer : String)
  | setInputCaps (c : Caps)
  | endStream
  -- what the pipeline does
  | deliver (item : Item)
  /-- The delivery that waits longest looks again. -/
  | resumeDelivery
  | pull
  | post (messages : List Message)
  | agreeCaps
  /-- The pipeline goes on by itself. -/
  | evolve (p : π)
  -- what the reader does
  | read
  /-- Others work with the buffers, in whatever way. -/
  | elsewhere (store : Store)

/-- What a call gives back. -/
inductive Answer (α : Type v) where
  | returned (result : Except Error Unit)
  | submitted (a : Admission)
  | resumed (accepted : Bool)
  | delivered (flow : Option Flow)
  | popped (m : Option (Matched α))
  | pulled (frame : Option HandleId)
  | taken (cause : Option Error)
  | done

/-- Carries a call out at a time, as far as it goes; none if it would have to wait on. -/
def call? [MediaPipeline π] (s : Supervisor π α) (uptime : Span) :
    Call π α → Option (Answer α × Supervisor π α)
  | .install made => some (.returned (s.install made).1, (s.install made).2)
  | .start => some (.returned (s.start uptime).1, (s.start uptime).2)
  | .stop => some (.returned (s.stop uptime).1, (s.stop uptime).2)
  | .submit frame user =>
    some (.submitted (s.submit uptime frame user).1, (s.submit uptime frame user).2)
  | .resumeSubmit w => (s.resumeSubmit? w).map fun (accepted, s) => (.resumed accepted, s)
  | .pop =>
    match s.pop? with
    | some (m, s) => some (.popped m, s)
    | none => some (.popped none, s)
  | .takeFatal => some (.taken s.takeFatal.1, s.takeFatal.2)
  | .observe observer => some (.done, s.observe observer)
  | .setInputCaps c =>
    match s.setInputCaps c with
    | .ok s => some (.returned (.ok ()), s)
    | .error e => some (.returned (.error e), s)
  | .endStream => some (.done, s.endStream)
  | .deliver item => some (.delivered (s.receive uptime item).1, (s.receive uptime item).2)
  | .resumeDelivery => (s.resumeNext? uptime).map (.done, ·)
  | .pull =>
    match s.pull? with
    | some (h, s) => some (.pulled h, s)
    | none => some (.pulled none, s)
  | .post messages => some (.done, s.post messages)
  | .agreeCaps => some (.done, s.agreeCaps.2)
  | .evolve p => some (.done, { s with pipeline := s.pipeline.map fun _ => p })
  | .read => some (.done, s.readNext)
  | .elsewhere store => some (.done, { s with relay := { s.relay with store } })

/-- Whether a call has nothing to do with the core, whatever it comes to. -/
def Call.IsAside : Call π α → Prop
  | .install _ | .pop | .observe _ | .resumeDelivery | .agreeCaps | .evolve _ | .elsewhere _ => True
  | _ => False

/-! ## Small calls -/

/-- Whether a call touches one part of the supervisor only. -/
def Call.IsSmall : Call π α → Prop
  | .start | .stop | .submit .. | .resumeSubmit _ | .deliver _ | .resumeDelivery | .read => False
  | _ => True

/-- What a small call leaves behind. -/
inductive Touched (s : Supervisor π α) : Call π α → Supervisor π α → Prop where
  | nothing {c : Call π α} : Touched s c s
  | pipeline {c : Call π α} {p? : Option π}
    (hkept : s.pipeline.isSome = true → p?.isSome = true) : Touched s c { s with pipeline := p? }
  | intake {c : Call π α} {ingest : Ingest} {store : Store} :
    Touched s c { s with relay := { s.relay with ingest, store } }
  | output {output : BoundedQueue (Matched α)} :
    Touched s .pop
      { s with relay := { s.relay with bridge := { s.relay.bridge with output } } }
  | observer {observer : String} : Touched s (.observe observer) (s.observe observer)
  | fatal : Touched s .takeFatal s.takeFatal.2
  | caps : Touched s .agreeCaps s.agreeCaps.2
  | bus {messages : List Message} : Touched s (.post messages) (s.post messages)

/-- Every small call leaves one of these behind. -/
theorem touched_of_call? [MediaPipeline π] {s s' : Supervisor π α} {uptime : Span} {c : Call π α}
    {a : Answer α} (h : s.call? uptime c = some (a, s')) (hc : c.IsSmall) : s.Touched c s' := by
  cases c with
  | start | stop | submit | resumeSubmit | deliver | resumeDelivery | read => exact hc.elim
  | install made =>
    cases h
    unfold install
    cases s.pipeline with
    | some p => exact .nothing
    | none =>
      cases made with
      | error e => exact .nothing
      | ok p => exact .pipeline fun _ => rfl
  | setInputCaps caps =>
    simp only [call?] at h
    cases hset : s.setInputCaps caps with
    | error e =>
      rw [hset] at h
      cases h
      exact .nothing
    | ok s₁ =>
      rw [hset] at h
      cases h
      unfold setInputCaps at hset
      split at hset
      · exact nomatch hset
      · cases hset
        exact .intake
  | pop =>
    simp only [call?, pop?, Relay.pop?] at h
    cases hpop : s.relay.bridge.output.pop? with
    | none =>
      rw [hpop] at h
      cases h
      exact .nothing
    | some popped =>
      rw [hpop] at h
      cases h
      exact .output
  | pull =>
    simp only [call?, pull?, Relay.pull?] at h
    cases hpull : s.relay.ingest.pull s.relay.store with
    | none =>
      rw [hpull] at h
      cases h
      exact .nothing
    | some pulled =>
      rw [hpull] at h
      cases h
      exact .intake
  | evolve p =>
    cases h
    exact .pipeline fun hp => (Option.isSome_map ..).trans hp
  | takeFatal =>
    cases h
    exact .fatal
  | observe observer =>
    cases h
    exact .observer
  | post messages =>
    cases h
    exact .bus
  | agreeCaps =>
    cases h
    exact .caps
  | endStream | elsewhere =>
    cases h
    exact .intake

end Supervisor

/-! ## How a call goes -/

namespace Core

/-- The core after the pipeline was stopped, if it ran. -/
def halted (c : Core α) : Core α := if c.reader = .absent then c else c.down

/-- After a stop there is no reader. -/
theorem reader_halted (c : Core α) : c.halted.reader = .absent := by
  unfold halted
  split
  · rename_i hr
    exact hr
  · rfl

/-- Entries outlive a stop. -/
theorem pending_halted (c : Core α) : c.halted.pending = c.pending := by
  unfold halted
  split <;> rfl

/-- A stop is no restart. -/
theorem restarts_halted (c : Core α) : c.halted.restarts = c.restarts := by
  unfold halted
  split <;> rfl

/-- The core after the watchdog stopped the pipeline. -/
def struck (c : Core α) : Core α := { c.down with restarts := c.restarts + 1 }

/-- The core after an error, which is told by a text. -/
def withFailure (c : Core α) (text : String) : Core α :=
  { c with failed := true, lastError := some text, ingest := c.ingest.closed }

/-- How a frame fares at the ingest when it was stamped at a clock reading. -/
inductive Forwards (c : Core α) (now : ClockTime) : Admission → Core α → Prop where
  -- The frame does not get in, and no id was used up.
  | refused {result : Except Error Bool} {p : Pending α} (hresult : result ≠ .ok true)
    (hid : p.nextId = c.pending.nextId) : c.Forwards now (.done result) { c with pending := p }
  -- The frame is queued.
  | accepted {o : Offer} {p : Pending α} (ha : c.ingest.answer? = some .ok) :
    c.Forwards now (.done (.ok true))
      { c with
        pending := p
        ingest := c.ingest.accept o
        frameClock := c.frameClock.commit now }
  -- The ingest is open and full.
  | waits {w : Waiter} {p : Pending α} (ha : c.ingest.answer? = none) :
    c.Forwards now (.waits w) { c with pending := p }

end Core

namespace Supervisor

/-- How a call goes: the answer it gives, and the core it leaves. -/
inductive Course (c : Core α) : Call π α → Answer α → Core α → Prop where
  | aside {call : Call π α} {a : Answer α} (hcall : call.IsAside) : Course c call a c
  -- There is no pipeline to start.
  | unstarted : Course c .start (.returned (.error .notInitialized)) c.halted
  -- A run begins.
  | begun {posted : Backlog} : Course c .start (.returned (.ok ())) (c.halted.begun posted)
  -- The pipeline refuses to begin a run.
  | unbegun {e : Error} {posted : Backlog} :
    Course c .start (.returned (.error e)) (c.halted.unbegun posted)
  -- There is no pipeline to stop.
  | unstopped : Course c .stop (.returned (.error .notInitialized)) c
  | stopped : Course c .stop (.returned (.ok ())) c.down
  -- There is no pipeline to submit to.
  | uninstalled {frame : HandleId} {user : α} :
    Course c (.submit frame user) (.submitted (.done (.error .notInitialized))) c
  -- The supervisor has failed, so the pipeline is stopped, if it still runs.
  | turnedDown {frame : HandleId} {user : α} (hf : c.failed = true) :
    Course c (.submit frame user) (.submitted (.done (.ok false))) c.halted
  -- The watchdog stops the pipeline and starts it again.
  | restarted {frame : HandleId} {user : α} {posted : Backlog} (hf : c.failed = false)
    (hr : c.reader ≠ .absent) :
    Course c (.submit frame user) (.submitted (.done (.ok false))) (c.struck.begun posted)
  -- The watchdog stops the pipeline, which refuses to start again.
  | unrestarted {frame : HandleId} {user : α} {e : Error} {posted : Backlog} (hf : c.failed = false)
    (hr : c.reader ≠ .absent) :
    Course c (.submit frame user) (.submitted (.done (.error e))) (c.struck.unbegun posted)
  -- The frame goes to the ingest.
  | forwarded {frame : HandleId} {user : α} {now : ClockTime} {a : Admission} {c' : Core α}
    (hf : c.failed = false) (h : c.Forwards now a c') :
    Course c (.submit frame user) (.submitted a) c'
  -- A submission that waited is accepted.
  | resumed {w : Waiter} (ha : c.ingest.answer? = some .ok) :
    Course c (.resumeSubmit w) (.resumed true)
      { c with ingest := c.ingest.accept w.offer, frameClock := c.frameClock.commit w.now }
  -- A submission that waited is refused.
  | withdrawn {w : Waiter} :
    Course c (.resumeSubmit w) (.resumed false)
      { c with pending := c.pending.withdraw w.ticket.id }
  | taken : Course c .takeFatal (.taken c.fatal) { c with fatal := none }
  | capsSet {caps : Caps} :
    Course c (.setInputCaps caps) (.returned (.ok ())) { c with ingest := c.ingest.setCaps caps }
  | capsUnset {caps : Caps} {e : Error} : Course c (.setInputCaps caps) (.returned (.error e)) c
  | streamEnded : Course c .endStream .done { c with ingest := c.ingest.endStream }
  -- An item was handed over, or waits for room.
  | received {item : Item} {f : Option Flow} {p : Pending α} (hid : p.nextId = c.pending.nextId) :
    Course c (.deliver item) (.delivered f) { c with pending := p }
  -- A result came out of order.
  | outOfOrder {item : Item} {e : Error} {p : Pending α} (hid : p.nextId = c.pending.nextId) :
    Course c (.deliver item) (.delivered (some .error))
      { c.withFailure e.message with pending := p, fatal := some e }
  | pulled {h : HandleId} {p : Ingest} {s s' : Store} (hpull : c.ingest.pull s = some (h, p, s')) :
    Course c .pull (.pulled (some h)) { c with ingest := p }
  | nothingToPull : Course c .pull (.pulled none) c
  | posted {messages : List Message} :
    Course c (.post messages) .done { c with bus := c.bus ++ messages }
  -- The reader has nothing to do.
  | nothingToRead (h : c.reader ≠ .reading ∨ c.bus = []) : Course c .read .done c
  -- The reader takes a message that does not end its work.
  | readOn {m : Message} {rest : Backlog} (hr : c.reader = .reading) (hm : endsReading m = false)
    (hbus : c.bus = m :: rest) : Course c .read .done { c with bus := rest }
  -- The reader takes the end of the stream.
  | readEnd {rest : Backlog} (hr : c.reader = .reading) (hbus : c.bus = .endOfStream :: rest) :
    Course c .read .done
      { c with
        bus := rest
        reader := .finished
        ingest := if c.failed then c.ingest.closed else c.ingest }
  -- The reader takes an error.
  | readError {source : Source} {text : String} {details : Option String} {rest : Backlog}
    (hr : c.reader = .reading) (hbus : c.bus = .error source text details :: rest) :
    Course c .read .done { c.withFailure text with bus := rest, reader := .finished }

/-! ### Starting and stopping -/

/-- A supervisor that is stopped if it runs is halted. -/
theorem core_stopIfRunning [MediaPipeline π] {s s₁ : Supervisor π α} (h : s.Alike s₁)
    (uptime : Span) :
    (if s.isRunning then s₁.bringDown uptime else s).core = s.core.halted := by
  unfold Core.halted
  by_cases hr : s.core.reader = .absent
  · have hidle : ¬s.isRunning = true := fun hrun => isRunning_iff.1 hrun hr
    rw [if_neg hidle, if_pos hr]
  · rw [if_pos (isRunning_iff.2 hr), if_neg hr, core_bringDown, h.core]

/-- Every start goes one of three ways. -/
theorem course_start [MediaPipeline π] (s : Supervisor π α) (uptime : Span) :
    Course (π := π) s.core .start (.returned (s.start uptime).1) (s.start uptime).2.core := by
  have hcore := core_stopIfRunning (.refl s) uptime
  unfold start
  simp only
  generalize (if s.isRunning then s.bringDown uptime else s) = s₁ at hcore
  cases hp : s₁.pipeline with
  | none =>
    simp only
    rw [hcore]
    exact .unstarted
  | some p =>
    rcases launch_cases s₁ p uptime with ⟨posted, s₂, hl, hcore₂⟩ | ⟨e, posted, s₂, hl, hcore₂⟩
    · simp only [hl]
      rw [hcore₂, hcore]
      exact .begun
    · simp only [hl]
      rw [hcore₂, hcore]
      exact .unbegun

/-- Every stop goes one of two ways. -/
theorem course_stop [MediaPipeline π] (s : Supervisor π α) (uptime : Span) :
    Course (π := π) s.core .stop (.returned (s.stop uptime).1) (s.stop uptime).2.core := by
  unfold stop
  cases hp : s.pipeline with
  | none => exact .unstopped
  | some p =>
    simp only [core_bringDown]
    exact .stopped

/-! ### Submissions -/

/-- A run begins anew, or the pipeline refuses; whatever was on the bus is gone. -/
theorem restart_cases [MediaPipeline π] {s : Supervisor π α} {p : π} (hp : s.pipeline = some p)
    (uptime : Span) :
    (∃ posted s', s.restart uptime = (.ok (), s') ∧ s'.core = s.core.struck.begun posted) ∨
    ∃ e posted s', s.restart uptime = (.error e, s') ∧ s'.core = s.core.struck.unbegun posted := by
  obtain ⟨q, -, hrestart⟩ := restart_eq_launch hp uptime
  have hcore : (((s.note .watchdog).count .restarts).bringDown uptime).core = s.core.struck :=
    core_bringDown ..
  rw [hrestart, ← hcore]
  exact launch_cases _ q uptime

/-- A frame that was stamped goes to the ingest. -/
theorem forwards_forward (s : Supervisor π α) (frame : HandleId) (user : α) (now : ClockTime) :
    s.core.Forwards now (s.forward frame user now).1 (s.forward frame user now).2.core := by
  unfold forward
  cases s.relay.store.setTiming frame (s.frameClock.timingAt now) with
  | error e => exact .refused nofun rfl
  | ok store =>
    have h := Relay.offers_submit { s.relay with store } frame user
    simp only
    generalize ({ s.relay with store } : Relay α).submit frame user = submission at h
    cases h with
    | @refused result r hresult hingest hid hrestarts =>
      rcases result with e | accepted
      · simp only [core_withRelay hrestarts, hingest]
        exact .refused hresult hid
      · cases accepted with
        | true => exact absurd rfl hresult
        | false =>
          simp only [core_withRelay hrestarts, hingest]
          exact .refused hresult hid
    | @accepted o r _ ha hingest hrestarts =>
      simp only [core_commit, core_withRelay hrestarts, hingest]
      exact .accepted ha
    | @waits t o r _ ha hingest hrestarts =>
      simp only [core_withRelay hrestarts, hingest]
      exact .waits ha

/-- Every submission goes one of five ways. -/
theorem course_submit [MediaPipeline π] (s : Supervisor π α) (uptime : Span) (frame : HandleId)
    (user : α) :
    Course (π := π) s.core (.submit frame user) (.submitted (s.submit uptime frame user).1)
      (s.submit uptime frame user).2.core := by
  have hscreens := s.screens_screen uptime
  rw [submit_eq_screen]
  generalize s.screen uptime = screened at hscreens
  cases hscreens with
  | uninstalled => exact .uninstalled
  | turnedDown _ hf hr =>
    have hcore := core_stopIfRunning (.refl s) uptime
    simp only [hr, Bool.false_eq_true, if_false] at hcore
    have hcourse : Course (π := π) s.core (.submit frame user) (.submitted (.done (.ok false)))
        s.core.halted := .turnedDown hf
    rw [← hcore] at hcourse
    exact hcourse
  | broughtDown _ hf hr =>
    have hcore := core_stopIfRunning (s.alike_note Notice.stoppingFailed) uptime
    simp only [hr, if_true] at hcore
    simp only [core_discard, hcore]
    exact .turnedDown hf
  | idle _ hf => exact .forwarded hf (s.forwards_forward frame user _)
  | lively _ hf =>
    exact .forwarded hf (({ s with stalls := 0 } : Supervisor π α).forwards_forward frame user _)
  | struck _ hf =>
    exact .forwarded hf
      (({ s with stalls := s.stalls + 1 } : Supervisor π α).forwards_forward frame user _)
  | restarted hp hf hr _ _ h =>
    rcases restart_cases (s := { s with stalls := s.stalls + 1 }) hp uptime with
      ⟨posted, s₂, hrestart, hcore⟩ | ⟨e, posted, s₂, hrestart, -⟩
    · rw [h] at hrestart
      cases hrestart
      simp only [core_discard, hcore]
      exact .restarted hf (isRunning_iff.1 hr)
    · rw [h] at hrestart
      exact nomatch hrestart
  | unrestarted hp hf hr _ _ h =>
    rcases restart_cases (s := { s with stalls := s.stalls + 1 }) hp uptime with
      ⟨posted, s₂, hrestart, -⟩ | ⟨e, posted, s₂, hrestart, hcore⟩
    · rw [h] at hrestart
      exact nomatch hrestart
    · rw [h] at hrestart
      cases hrestart
      simp only [core_discard, hcore]
      exact .unrestarted hf (isRunning_iff.1 hr)

/-- A submission that waited is accepted or refused. -/
theorem course_resumeSubmit {s s' : Supervisor π α} {w : Waiter} {accepted : Bool}
    (h : s.resumeSubmit? w = some (accepted, s')) :
    Course (π := π) s.core (.resumeSubmit w) (.resumed accepted) s'.core := by
  unfold resumeSubmit? at h
  rcases s.relay.resume?_cases w.ticket w.offer with ⟨-, hr⟩ | ⟨ha, hr⟩ | hr
  · rw [hr] at h
    exact nomatch h
  · rw [hr] at h
    cases h
    have hrestarts := Relay.restarts_confirm s.relay.bridge w.ticket.size
    rw [core_commit, core_withRelay hrestarts]
    exact .resumed ha
  · rw [hr] at h
    cases h
    have hrestarts := Relay.restarts_withdraw s.relay.bridge w.ticket.id
    rw [core_withRelay hrestarts]
    exact .withdrawn

/-! ### Results -/

/-- A delivery that is not out of order changes the entries alone. -/
theorem core_handled {s : Supervisor π α} {r : Relay α} (hingest : r.ingest = s.relay.ingest)
    (hrestarts : r.restarts = s.relay.restarts) (egress : Egress Unit) (waiting : List (Matched α)) :
    ({ s with egress, relay := r, waiting } : Supervisor π α).core =
      { s.core with pending := r.bridge.pending } := by
  simp only [core, hingest, hrestarts]

/-- A failure is told by a text and kept as the cause. -/
theorem core_fail (s : Supervisor π α) (e : Error) :
    (s.fail e).core = { s.core.withFailure e.message with fatal := some e } := rfl

/-- A delivery uses up no id, and has nothing to do with the rest of the core, unless its result comes
    out of order. -/
theorem course_receive (s : Supervisor π α) (uptime : Span) (item : Item) :
    Course (π := π) s.core (.deliver item) (.delivered (s.receive uptime item).1)
      (s.receive uptime item).2.core := by
  obtain ⟨hingest, hid, hrestarts⟩ := s.relay.keeps_deliver item
  unfold receive
  cases item with
  | endOfStream => exact .received rfl
  | sample x =>
    simp only
    generalize s.relay.deliver (.sample x) = delivery at hingest hid hrestarts
    rcases delivery with ⟨(e | ⟨⟩) | m, r⟩
    · have hcore := core_handled hingest hrestarts s.egress.countSample s.waiting
      show Course _ _ _ (Supervisor.fail (markDelivery _ uptime) e).core
      rw [core_fail, core_markDelivery, hcore]
      exact .outOfOrder (p := r.bridge.pending) hid
    · have hcore := core_handled hingest hrestarts s.egress.countSample s.waiting
      show Course _ _ _ (markDelivery _ uptime).core
      rw [core_markDelivery, hcore]
      exact .received hid
    · have hcore := core_handled hingest hrestarts s.egress.countSample (s.waiting ++ [m])
      show Course _ _ _ (core { s with egress := s.egress.countSample, relay := r, waiting := _ })
      rw [hcore]
      exact .received hid

/-! ### The reader -/

/-- The reader takes a message or has nothing to do. -/
theorem course_readNext (s : Supervisor π α) :
    Course (π := π) s.core .read .done s.readNext.core := by
  unfold readNext
  split
  · rename_i m rest hr hbus
    cases m with
    | error source text details =>
      cases details <;> exact .readError hr hbus
    | endOfStream =>
      have h : Course (π := π) s.core .read .done
          { s.core with
            bus := rest
            reader := .finished
            ingest := if s.failed then s.core.ingest.closed else s.core.ingest } := .readEnd hr hbus
      show Course _ _ _ (core (if s.failed
        then ({ s with bus := rest, reader := .finished } : Supervisor π α).setFlushing true
        else { s with bus := rest, reader := .finished }))
      by_cases hf : s.failed = true
      · rw [if_pos hf] at h ⊢
        exact h
      · rw [if_neg hf] at h ⊢
        exact h
    | phaseChanged source =>
      have h : Course (π := π) s.core .read .done { s.core with bus := rest } := .readOn hr rfl hbus
      cases source <;> exact h
    | warning source text => exact .readOn hr rfl hbus
  · rename_i h
    apply Course.nothingToRead
    by_cases hr : s.reader = .reading
    · right
      cases hbus : s.bus with
      | nil => exact hbus
      | cons m rest => exact absurd hbus (h m rest hr)
    · exact .inl hr

/-- Every call goes one of these ways. -/
theorem course_of_call? [MediaPipeline π] {s s' : Supervisor π α} {uptime : Span} {c : Call π α}
    {a : Answer α} (h : s.call? uptime c = some (a, s')) : Course s.core c a s'.core := by
  cases c with
  | start =>
    cases h
    exact course_start s uptime
  | stop =>
    cases h
    exact course_stop s uptime
  | submit frame user =>
    cases h
    exact course_submit s uptime frame user
  | resumeSubmit w =>
    obtain ⟨⟨accepted, s₁⟩, hresume, heq⟩ := Option.map_eq_some_iff.1 h
    cases heq
    exact course_resumeSubmit hresume
  | deliver item =>
    cases h
    exact course_receive s uptime item
  | read =>
    cases h
    exact course_readNext s
  | takeFatal =>
    cases h
    exact .taken
  | setInputCaps caps =>
    simp only [call?, setInputCaps] at h
    cases hp : s.pipeline with
    | none =>
      rw [hp] at h
      cases h
      exact .capsUnset
    | some p =>
      rw [hp] at h
      cases h
      exact .capsSet
  | endStream =>
    cases h
    exact .streamEnded
  | pull =>
    simp only [call?, pull?, Relay.pull?] at h
    cases hpull : s.relay.ingest.pull s.relay.store with
    | none =>
      rw [hpull] at h
      cases h
      exact .nothingToPull
    | some pulled =>
      rw [hpull] at h
      cases h
      exact .pulled hpull
  | post messages =>
    cases h
    exact .posted
  | resumeDelivery =>
    obtain ⟨s₁, hresume, heq⟩ := Option.map_eq_some_iff.1 h
    cases heq
    rw [(alike_resumeNext? hresume).core]
    exact .aside trivial
  | install made =>
    simp only [call?] at h
    cases h
    rw [core_install]
    exact .aside trivial
  | pop =>
    simp only [call?, pop?, Relay.pop?] at h
    cases hpop : s.relay.bridge.output.pop? with
    | none =>
      rw [hpop] at h
      cases h
      exact .aside trivial
    | some popped =>
      rw [hpop] at h
      cases h
      exact .aside trivial
  | observe | agreeCaps | evolve | elsewhere =>
    cases h
    exact .aside trivial

/-! ## Turns and runs -/

/-- A call that was carried out at a time, with the supervisor before and after it. -/
structure Turn (π : Type u) (α : Type v) where
  before : Supervisor π α
  uptime : Span
  call : Call π α
  answer : Answer α
  after : Supervisor π α

variable [MediaPipeline π]

/-- The turns that lead from one supervisor to another, oldest first. -/
inductive Run (s₀ : Supervisor π α) : List (Turn π α) → Supervisor π α → Prop where
  | start : Run s₀ [] s₀
  | turn {turns : List (Turn π α)} {s s' : Supervisor π α} {uptime : Span} {c : Call π α}
    {a : Answer α} (run : Run s₀ turns s) (h : s.call? uptime c = some (a, s')) :
    Run s₀ (turns ++ [⟨s, uptime, c, a, s'⟩]) s'

/-- The last turn of a run was carried out where the others had led. -/
theorem Run.last {s₀ s : Supervisor π α} {turns : List (Turn π α)} {t : Turn π α}
    (run : Run s₀ (turns ++ [t]) s) :
    Run s₀ turns t.before ∧ t.before.call? t.uptime t.call = some (t.answer, t.after) ∧
      s = t.after := by
  generalize hall : turns ++ [t] = all at run
  cases run with
  | start => exact absurd hall (by simp)
  | turn run h =>
    obtain ⟨rfl, heq⟩ := List.append_inj' hall rfl
    cases heq
    exact ⟨run, h, rfl⟩

/-- A run without turns leads nowhere. -/
theorem Run.eq_of_nil {s₀ s : Supervisor π α} (run : Run s₀ [] s) : s = s₀ := by
  generalize hnil : ([] : List (Turn π α)) = turns at run
  cases run with
  | start => rfl
  | turn => exact absurd hnil (by simp)

/-- A run goes on where its first part ended. -/
theorem Run.split {s₀ s : Supervisor π α} {earlier later : List (Turn π α)}
    (run : Run s₀ (earlier ++ later) s) : ∃ s₁, Run s₀ earlier s₁ ∧ Run s₁ later s := by
  generalize hall : earlier ++ later = all at run
  induction run generalizing later with
  | start =>
    obtain ⟨rfl, rfl⟩ := List.append_eq_nil_iff.1 hall
    exact ⟨s₀, .start, .start⟩
  | @turn turns s s' uptime c a run h ih =>
    rcases List.eq_nil_or_concat later with rfl | ⟨init, t, rfl⟩
    · rw [List.append_nil] at hall
      subst hall
      exact ⟨s', .turn run h, .start⟩
    · rw [List.concat_eq_append, ← List.append_assoc] at hall
      obtain ⟨hinit, ht⟩ := List.append_inj' hall rfl
      cases ht
      obtain ⟨s₁, hearlier, hlater⟩ := ih hinit
      refine ⟨s₁, hearlier, ?_⟩
      rw [List.concat_eq_append]
      exact hlater.turn h

/-- The first turn of a run was carried out where the run began. -/
theorem Run.first {s₀ s : Supervisor π α} {turns : List (Turn π α)} {t : Turn π α}
    (run : Run s₀ (t :: turns) s) :
    s₀ = t.before ∧ t.before.call? t.uptime t.call = some (t.answer, t.after) ∧
      Run t.after turns s := by
  obtain ⟨s₁, hfirst, hrest⟩ : ∃ s₁, Run s₀ [t] s₁ ∧ Run s₁ turns s := Run.split run
  have hone : Run s₀ ([] ++ [t]) s₁ := hfirst
  obtain ⟨hnone, hcall, rfl⟩ := hone.last
  exact ⟨hnone.eq_of_nil.symm, hcall, hrest⟩

/-- Carries calls out one after the other, each at its time; none if one of them would have to
    wait on. -/
def turns? (s : Supervisor π α) :
    List (Span × Call π α) → Option (List (Turn π α) × Supervisor π α)
  | [] => some ([], s)
  | (uptime, c) :: rest =>
    match s.call? uptime c with
    | none => none
    | some (a, s') =>
      (s'.turns? rest).map fun (turns, last) => (⟨s, uptime, c, a, s'⟩ :: turns, last)

/-- A run can be continued by calls that are carried out. -/
theorem Run.append {s₀ s s' : Supervisor π α} {prior turns : List (Turn π α)}
    {calls : List (Span × Call π α)} (run : Run s₀ prior s)
    (h : s.turns? calls = some (turns, s')) : Run s₀ (prior ++ turns) s' := by
  induction calls generalizing prior s turns with
  | nil =>
    cases h
    rw [List.append_nil]
    exact run
  | cons call rest ih =>
    -- the first of the calls ends the run so far, and the others go on from there
    obtain ⟨uptime, c⟩ := call
    rw [turns?] at h
    cases hc : s.call? uptime c with
    | none => rw [hc] at h; exact nomatch h
    | some done =>
      obtain ⟨a, s₁⟩ := done
      rw [hc] at h
      obtain ⟨⟨turns', last⟩, hrest, heq⟩ := Option.map_eq_some_iff.1 h
      cases heq
      have hrun := ih (run.turn hc) hrest
      rwa [List.append_assoc, List.singleton_append] at hrun

/-- Calls that are carried out one after the other make a run. -/
theorem run_of_turns? {s s' : Supervisor π α} {calls : List (Span × Call π α)}
    {turns : List (Turn π α)} (h : s.turns? calls = some (turns, s')) : Run s turns s' := by
  have hrun := Run.start.append h
  rwa [List.nil_append] at hrun

end Supervisor

end MediaBridge
