import MediaBridge.Pipeline.Loopback
import MediaBridge.Supervisor.Traffic

/-! # Sessions

A supervisor over a loopback pipeline, with the reader, the worker and the deliveries all at work.
`step?` is one step of one of them, whichever comes first, and `run` lets them work until each of them
waits for the application.
-/

namespace MediaBridge

/-- A supervised loopback pipeline, some time after everything began. -/
structure Session (α : Type u) where
  supervisor : Supervisor Loopback α
  uptime : Span := .zero

namespace Session

variable {α : Type u}

/-- A session with its pipeline stopped. -/
def new (s : Settings) (o : LoopbackOptions) : Session α where
  supervisor := ((Supervisor.new s).install (.ok { options := o })).2

/-- Changes the faults of the pipeline. -/
def withFaults (s : Session α) (f : Faults → Faults) : Session α :=
  { s with
    supervisor := { s.supervisor with
      pipeline := s.supervisor.pipeline.map fun l => { l with faults := f l.faults } } }

/-- Lets time pass. -/
def advance (s : Session α) (d : Span) : Session α :=
  { s with uptime := ⟨s.uptime.nanos + d.nanos⟩ }

/-! ## Work -/

/-- Lets the worker go on after an answer. -/
def answer (s : Supervisor Loopback α) (l : Loopback) (f : Flow) : Supervisor Loopback α :=
  let (l, posted) := l.answered f
  { s with pipeline := some l }.post posted

/-- A step of the worker; none while it waits. -/
def work? (s : Supervisor Loopback α) (uptime : Span) : Option (Supervisor Loopback α) :=
  match s.pipeline with
  | none => none
  | some l =>
    if l.awaitsAnswer then
      if s.isDelivering then none else some (answer s l .ok)
    else
      match l.step? s.relay.store s.relay.ingest s.egress.caps true with
      | none => none
      | some (r, l) =>
        let s := { s with
          pipeline := some l
          relay := { s.relay with store := r.store, ingest := r.ingest } }
        match r.item with
        | none => some s
        | some item =>
          match s.receive uptime item with
          | (none, s) => some s
          | (some f, s) => some (answer s l f)

/-- A step of the reader, of a delivery, or of the worker; none while they all wait. -/
def step? (s : Session α) : Option (Session α) :=
  let sup := s.supervisor
  if sup.reader = .reading ∧ sup.bus ≠ [] then some { s with supervisor := sup.readNext }
  else ((sup.resumeNext? s.uptime).or (work? sup s.uptime)).map fun supervisor =>
    { s with supervisor }

/-- More steps than can follow without the application: a frame takes three of the worker's, and
    every message and every delivery one. -/
def stepBound (s : Session α) : Nat :=
  s.supervisor.bus.length + s.supervisor.waiting.length +
    3 * s.supervisor.relay.ingest.queue.length + 8

/-- Lets everything work until it waits for the application. -/
def run (s : Session α) : Session α := s.stepBound.repeat (fun s => s.step?.getD s) s

/-! ## What the application does -/

/-- Starts the pipeline. -/
def start (s : Session α) : Except Error Unit × Session α :=
  let (r, supervisor) := s.supervisor.start s.uptime
  (r, { s with supervisor }.run)

/-- Stops the pipeline. -/
def stop (s : Session α) : Except Error Unit × Session α :=
  let (r, supervisor) := s.supervisor.stop s.uptime
  (r, { s with supervisor }.run)

/-- Submits a new frame. -/
def submit (s : Session α) (bytes : ByteArray) (user : α) : Admission × Session α :=
  let (frame, store) := s.supervisor.relay.store.newFrame bytes
  let sup := { s.supervisor with relay := { s.supervisor.relay with store } }
  let (r, supervisor) := sup.submit s.uptime frame user
  (r, { s with supervisor }.run)

/-- The result of a submission; none while it waits. -/
def finish? (s : Session α) (a : Admission) : Option (Except Error Bool × Session α) :=
  (s.supervisor.finish? a).map fun (result, supervisor) => (result, { s with supervisor }.run)

/-- Takes the oldest matched frame out; the frame still is in the store. -/
def pop? (s : Session α) : Option (Matched α × Session α) :=
  s.supervisor.pop?.map fun (m, supervisor) => (m, { s with supervisor }.run)

end Session

end MediaBridge
