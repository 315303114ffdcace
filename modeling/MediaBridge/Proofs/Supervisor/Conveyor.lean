import Mathlib.Logic.Relation
import MediaBridge.Proofs.Correspondence.Passing
import MediaBridge.Proofs.Pipeline.Copying
import MediaBridge.Proofs.Supervisor.Screening
import MediaBridge.Session

/-! # A supervised loopback pipeline, step by step

The application submits its frames one after the other.  Meanwhile the worker takes frames from the
ingest, copies them and hands the copies to the supervisor, a reader takes messages off the bus, and
somebody may turn the faults of the pipeline on and off.  None of them waits for the others between two
of its steps.

A submission is stamped, registered, measured and accepted, and then its time is remembered.  A sample
is taken, and then matched and published.  These are the places where another thread can come in
between; `reaches_submit` and `reaches_work?` say that what a supervisor and a session do is made of
them.
-/

namespace MediaBridge

open Relation (ReflTransGen)

variable {π : Type u} {α : Type v}

namespace Supervisor

/-- Ends a delivery, or lets it wait for room. -/
def conclude (s : Supervisor π α) (uptime : Span) :
    Delivery α → Option Flow × Supervisor π α
  | .waits m => (none, { s with waiting := s.waiting ++ [m] })
  | .done (.ok ()) => (some .ok, s.markDelivery uptime)
  | .done (.error e) => (some .error, (s.markDelivery uptime).fail e)

/-- What a supervisor makes of a sample is to count it, to leave it to the relay, and to end the
    delivery. -/
theorem receive_sample (s : Supervisor π α) (uptime : Span) (x : Sample) :
    s.receive uptime (.sample x) =
      ({ s with
        egress := s.egress.countSample
        relay := (s.relay.deliver (.sample x)).2 }).conclude uptime
          (s.relay.deliver (.sample x)).1 := by
  simp only [receive]
  cases s.relay.deliver (.sample x) with
  | mk delivery relay =>
    cases delivery with
    | waits m => rfl
    | done result => cases result <;> rfl

/-- Lets the worker of the pipeline go on after an answer. -/
def reply (s : Supervisor Loopback α) (flow : Flow) : Supervisor Loopback α :=
  (s.pipeline.map fun l => Session.answer s l flow).getD s

/-- A worker whose sample was accepted looks for the next frame. -/
theorem reply_of_delivering {s : Supervisor Loopback α} {l : Loopback} {w : Worker}
    (hpipeline : s.pipeline = some l) (hworker : l.worker = some w)
    (hactivity : w.activity = .delivering) :
    s.reply .ok =
      { s with pipeline := some { l with worker := some { w with activity := .polling } } } := by
  simp only [reply, hpipeline, Option.map_some, Option.getD_some, Session.answer, Loopback.answered,
    hworker, Worker.answered, hactivity, post, List.append_nil]

end Supervisor

/-- How far a submission got. -/
inductive Passage (α : Type u) where
  /-- There is none under way. -/
  | idle
  /-- The frame was stamped. -/
  | stamped (x : Shipment α) (now : ClockTime)
  | registered (t : Ticket) (now : ClockTime)
  /-- The frame was measured and waits for the ingest. -/
  | offered (w : Waiter)
  /-- The frame is in the ingest, and its time is not remembered yet. -/
  | accepted (now : ClockTime)

/-- How far a submission got that was not turned down. -/
def Passage.after : Admission → Passage α
  | .done _ => .idle
  | .waits w => .offered w

/-- A supervised loopback pipeline with all that works on it. -/
structure Conveyor (α : Type u) where
  supervisor : Supervisor Loopback α
  /-- What the supervisor is doing with a sample. -/
  errand : Errand α := .idle
  /-- What became of the submission that is under way. -/
  passage : Passage α := .idle
  /-- The frames that are to be submitted. -/
  todo : List (HandleId × α)
  /-- The frames that were registered, oldest first. -/
  log : List (Shipment α) := []

namespace Conveyor

/-- After a step of the worker.  The end of the stream is answered at once. -/
def worked (c : Conveyor α) (r : WorkerStep) (l : Loopback) : Conveyor α :=
  let s := { c.supervisor with
    pipeline := some l
    relay := { c.supervisor.relay with store := r.store, ingest := r.ingest } }
  match r.item with
  | some .endOfStream => { c with supervisor := s.reply .ok }
  | item => { c with supervisor := s, errand := .begun item }

/-- A step of the worker that hands nothing on. -/
theorem worked_of_none {c : Conveyor α} {r : WorkerStep} {l : Loopback} (h : r.item = none) :
    c.worked r l = { c with
      supervisor := { c.supervisor with
        pipeline := some l
        relay := { c.supervisor.relay with store := r.store, ingest := r.ingest } }
      errand := .idle } := by
  simp only [worked, h, Errand.begun]

/-- A step of the worker that hands a sample on. -/
theorem worked_of_sample {c : Conveyor α} {r : WorkerStep} {l : Loopback} {x : Sample}
    (h : r.item = some (.sample x)) :
    c.worked r l = { c with
      supervisor := { c.supervisor with
        pipeline := some l
        relay := { c.supervisor.relay with store := r.store, ingest := r.ingest } }
      errand := .handed x } := by
  simp only [worked, h, Errand.begun]

/-- A step of the worker; none while it waits. -/
def work? (c : Conveyor α) (waited : Bool) : Option (Conveyor α) :=
  let s := c.supervisor
  s.pipeline.bind fun l =>
    (l.step? s.relay.store s.relay.ingest s.egress.caps waited).map fun (r, l) => c.worked r l

/-- The sample's delivery ends, and the worker is answered, or the matched frame waits. -/
def concluded (c : Conveyor α) (x : Sample) (s : Supervisor Loopback α) (uptime : Span)
    (d : Delivery α) : Conveyor α :=
  match d, s.conclude uptime d with
  | .waits m, (_, s) => { c with supervisor := s, errand := .parked x m }
  | .done _, (flow, s) => { c with supervisor := (flow.map s.reply).getD s, errand := .idle }

/-- What the supervisor does next with a sample; none if it has none, or while the matched frame has to
    wait. -/
def receive? (c : Conveyor α) (uptime : Span) : Option (Conveyor α) :=
  let s := c.supervisor
  match c.errand with
  | .idle => none
  | .handed x =>
    let counted := { s with egress := s.egress.countSample }
    match s.relay.store.takePayload x.frame with
    | (.ok (some (copy, id)), store) =>
      some { c with
        supervisor := { counted with relay := { s.relay with store } }
        errand := .copied x copy id }
    | _ =>
      let delivered := s.relay.deliver (.sample x)
      some (c.concluded x { counted with relay := delivered.2 } uptime delivered.1)
  | .copied x copy id =>
    let matched := s.relay.matchCopy copy id
    some (c.concluded x { s with relay := matched.2 } uptime matched.1)
  | .parked _ _ =>
    (s.resumeNext? uptime).map fun s => { c with supervisor := s.reply .ok, errand := .idle }

/-- A step of one of those who are at work.  Submissions come to an end only by being accepted, and the
    watchdog lets them pass, whatever it counts. -/
inductive Step (c : Conveyor α) : Conveyor α → Prop where
  | stamp {frame : HandleId} {user : α} {rest : List (HandleId × α)} {l : Loopback} {store : Store}
    (uptime : Span) (stalls : Nat) (hpassage : c.passage = .idle)
    (htodo : c.todo = (frame, user) :: rest) (hpipeline : c.supervisor.pipeline = some l)
    (hfailed : c.supervisor.failed = false)
    (hset : c.supervisor.relay.store.setTiming frame
      (c.supervisor.frameClock.timingAt (MediaPipeline.clockTime l uptime)) = .ok store) :
    Step c { c with
      supervisor := { c.supervisor with stalls, relay := { c.supervisor.relay with store } }
      passage := .stamped
        ⟨frame, user, c.supervisor.frameClock.timingAt (MediaPipeline.clockTime l uptime)⟩
        (MediaPipeline.clockTime l uptime)
      todo := rest }
  | register {x : Shipment α} {now : ClockTime} {t : Ticket} {relay : Relay α}
    (hpassage : c.passage = .stamped x now)
    (hregister : c.supervisor.relay.register x.frame x.user = (.registered t, relay)) :
    Step c { c with
      supervisor := { c.supervisor with relay }
      passage := .registered t now
      log := c.log ++ [x] }
  | measure {t : Ticket} {now : ClockTime} {o : Offer} {relay : Relay α}
    (hpassage : c.passage = .registered t now)
    (hmeasure : c.supervisor.relay.measure t = (some o, relay)) :
    Step c { c with
      supervisor := { c.supervisor with relay }
      passage := .offered ⟨t, o, now⟩ }
  | accept {w : Waiter} {relay : Relay α} (hpassage : c.passage = .offered w)
    (hresume : c.supervisor.relay.resume? w.ticket w.offer = some (true, relay)) :
    Step c { c with
      supervisor := { c.supervisor with relay }
      passage := .accepted w.now }
  | commit {now : ClockTime} (hpassage : c.passage = .accepted now) :
    Step c { c with supervisor := c.supervisor.commit now, passage := .idle }
  -- The worker does nothing while the supervisor has its sample.
  | work {c' : Conveyor α} (waited : Bool) (hidle : c.errand = .idle)
    (hwork : c.work? waited = some c') : Step c c'
  | receive {c' : Conveyor α} (uptime : Span) (hreceive : c.receive? uptime = some c') : Step c c'
  | read : Step c { c with supervisor := c.supervisor.readNext }
  -- Somebody changes the faults, but not which frames are lost and whether ids are forgotten.
  | control {l : Loopback} (f : Faults) (hpipeline : c.supervisor.pipeline = some l)
    (hdrops : f.dropEvery = l.faults.dropEvery) (hstrips : f.stripsIds = l.faults.stripsIds) :
    Step c { c with supervisor := { c.supervisor with pipeline := some { l with faults := f } } }

/-- Some steps lead from one conveyor to another. -/
abbrev Reaches : Conveyor α → Conveyor α → Prop := ReflTransGen Step

/-! ## What is made of these steps -/

section

variable {c : Conveyor α} {s : Supervisor Loopback α} {uptime : Span}

/-- A submission that passed its screening is made of steps, if it is accepted or waits at the
    ingest. -/
theorem reaches_forward {frame : HandleId} {user : α} {rest : List (HandleId × α)} {l : Loopback}
    {n : Nat} {a : Admission} (hpassage : c.passage = .idle)
    (htodo : c.todo = (frame, user) :: rest) (hpipeline : c.supervisor.pipeline = some l)
    (hfailed : c.supervisor.failed = false)
    (h : ({ c.supervisor with stalls := n } : Supervisor Loopback α).forward frame user
      (MediaPipeline.clockTime l uptime) = (a, s))
    (ha : ∀ result, a = .done result → result = .ok true) :
    Reaches c { c with
      supervisor := s
      passage := .after a
      todo := rest
      log := c.log ++ [⟨frame, user, c.supervisor.frameClock.timingAt (.ofSpan uptime)⟩] } := by
  have hdone : ∀ {result : Except Error Bool} {s' : Supervisor Loopback α},
      (Admission.done result, s') = (a, s) → result = .ok true :=
    fun heq => ha _ (congrArg Prod.fst heq).symm
  unfold Supervisor.forward at h
  cases hset : c.supervisor.relay.store.setTiming frame
    (c.supervisor.frameClock.timingAt (MediaPipeline.clockTime l uptime)) with
  | error e =>
    rw [hset] at h
    exact nomatch hdone h
  | ok store =>
    have hstamped : Reaches c _ :=
      .single (.stamp uptime n hpassage htodo hpipeline hfailed hset)
    simp only [hset, Relay.submit] at h
    -- stamping, registering, measuring and accepting follow each other as in `Relay.submit`
    cases hregister : ({ c.supervisor.relay with store } : Relay α).register frame user with
    | mk registration relay =>
      rw [hregister] at h
      cases registration with
      | failed e => exact nomatch hdone h
      | turnedAway => exact nomatch hdone h
      | registered t =>
        have hregistered := hstamped.tail (.register rfl hregister)
        simp only at h
        cases hmeasure : relay.measure t with
        | mk offer relay' =>
          rw [hmeasure] at h
          cases offer with
          | none => exact nomatch hdone h
          | some o =>
            have hoffered := hregistered.tail (.measure rfl hmeasure)
            simp only at h
            cases hresume : relay'.resume? t o with
            | none =>
              rw [hresume] at h
              cases h
              exact hoffered
            | some resumed =>
              obtain ⟨accepted, relay''⟩ := resumed
              rw [hresume] at h
              cases accepted with
              | false => exact nomatch hdone h
              | true =>
                cases h
                exact (hoffered.tail (.accept rfl hresume)).tail (.commit rfl)

/-- So is a submission as a whole. -/
theorem reaches_submit {frame : HandleId} {user : α} {rest : List (HandleId × α)} {a : Admission}
    (hpassage : c.passage = .idle) (htodo : c.todo = (frame, user) :: rest)
    (h : c.supervisor.submit uptime frame user = (a, s))
    (ha : ∀ result, a = .done result → result = .ok true) :
    Reaches c { c with
      supervisor := s
      passage := .after a
      todo := rest
      log := c.log ++ [⟨frame, user, c.supervisor.frameClock.timingAt (.ofSpan uptime)⟩] } := by
  have hdone : ∀ {result : Except Error Bool} {s' : Supervisor Loopback α},
      (Admission.done result, s') = (a, s) → result = .ok true :=
    fun heq => ha _ (congrArg Prod.fst heq).symm
  have hscreens := c.supervisor.screens_screen uptime
  rw [Supervisor.submit_eq_screen] at h
  generalize c.supervisor.screen uptime = screened at h hscreens
  cases hscreens with
  | idle hp hf =>
    exact reaches_forward (n := c.supervisor.stalls) hpassage htodo hp hf h ha
  | lively hp hf => exact reaches_forward hpassage htodo hp hf h ha
  | struck hp hf => exact reaches_forward hpassage htodo hp hf h ha
  | _ => exact nomatch hdone h

/-- And the end of one that waited. -/
theorem reaches_resumeSubmit? {w : Waiter} (hpassage : c.passage = .offered w)
    (h : c.supervisor.resumeSubmit? w = some (true, s)) :
    Reaches c { c with supervisor := s, passage := .idle } := by
  obtain ⟨⟨accepted, relay⟩, hresume, heq⟩ := Option.map_eq_some_iff.1 h
  cases accepted with
  | false => cases heq
  | true =>
    cases heq
    exact (ReflTransGen.single (.accept hpassage hresume)).tail (.commit rfl)

/-- A sample that can be copied is taken first. -/
theorem receive?_of_copied {x : Sample} {copy : HandleId} {id : Nat} {store : Store}
    (h : c.errand = .handed x)
    (htaken : c.supervisor.relay.store.takePayload x.frame = (.ok (some (copy, id)), store)) :
    c.receive? uptime = some { c with
      supervisor := { c.supervisor with
        egress := c.supervisor.egress.countSample
        relay := { c.supervisor.relay with store } }
      errand := .copied x copy id } := by
  simp only [receive?, h, htaken]

/-- A sample that the supervisor was just handed is received step by step. -/
theorem reaches_receive {x : Sample} (h : c.errand = .handed x) (uptime : Span) :
    Reaches c (c.concluded x
      { c.supervisor with
        egress := c.supervisor.egress.countSample
        relay := (c.supervisor.relay.deliver (.sample x)).2 } uptime
      (c.supervisor.relay.deliver (.sample x)).1) := by
  -- a sample that cannot be copied is done with in one step
  by_cases hcopied : ∃ copy id store,
      c.supervisor.relay.store.takePayload x.frame = (.ok (some (copy, id)), store)
  · obtain ⟨copy, id, store, htaken⟩ := hcopied
    rw [Relay.deliver_of_copied htaken]
    exact (ReflTransGen.single (.receive uptime (receive?_of_copied h htaken))).tail
      (.receive uptime rfl)
  · refine .single (.receive uptime ?_)
    simp only [receive?, h]
    split
    · rename_i copy id store htaken
      exact absurd ⟨copy, id, store, htaken⟩ hcopied
    · rfl

/-- What a session lets its worker do is made of steps. -/
theorem reaches_work? {l : Loopback} (hidle : c.errand = .idle)
    (hpipeline : c.supervisor.pipeline = some l) (hanswered : l.awaitsAnswer = false)
    (h : Session.work? c.supervisor uptime = some s) :
    ∃ e, Reaches c { c with supervisor := s, errand := e } := by
  unfold Session.work? at h
  simp only [hpipeline, hanswered, Bool.false_eq_true, if_false] at h
  cases hstep : l.step? c.supervisor.relay.store c.supervisor.relay.ingest c.supervisor.egress.caps
    true with
  | none =>
    rw [hstep] at h
    cases h
  | some stepped =>
    obtain ⟨r, l'⟩ := stepped
    have hwork : c.work? true = some (c.worked r l') := by
      simp only [work?, hpipeline, Option.bind_some, hstep, Option.map_some]
    have hworked := ReflTransGen.single (Step.work true hidle hwork)
    simp only [hstep] at h
    unfold worked at hworked
    cases hitem : r.item with
    | none =>
      simp only [hitem] at h hworked
      cases h
      exact ⟨_, hworked⟩
    | some item =>
      cases item with
      | endOfStream =>
        simp only [hitem] at h hworked
        cases h
        exact ⟨_, hworked⟩
      | sample x =>
        simp only [hitem] at h hworked
        have hreceived := hworked.trans (reaches_receive rfl uptime)
        rw [Supervisor.receive_sample] at h
        generalize hd : Relay.deliver _ _ = d at h hreceived
        obtain ⟨delivery, relay⟩ := d
        cases delivery with
        | waits m =>
          cases h
          exact ⟨_, hreceived⟩
        | done result =>
          cases result <;> cases h <;> exact ⟨_, hreceived⟩

end

end Conveyor

end MediaBridge
