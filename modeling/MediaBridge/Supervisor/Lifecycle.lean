import MediaBridge.Supervisor.Basic

/-! # Starting and stopping

Stopping has three stages: `letGo` makes waiting deliveries give up and closes the ingest, `halt` asks
the pipeline for the null phase, and `settle` ends the reading and follows the moves that nobody read.
Starting begins with an empty bus, no pending entries and no matched frames, so nothing of an earlier
run is left.
-/

namespace MediaBridge.Supervisor

variable {π : Type u} {α : Type v}

/-- A sample was handed over, whatever came of it. -/
def markDelivery (s : Supervisor π α) (uptime : Span) : Supervisor π α :=
  { s with
    relay := { s.relay with
      bridge := { s.relay.bridge with health := s.relay.bridge.health.markDelivery uptime } }
    stalls := 0 }

/-- Ends the delivery that waits longest, if it need not wait any more. -/
def resumeNext? (s : Supervisor π α) (uptime : Span) : Option (Supervisor π α) :=
  match s.waiting with
  | [] => none
  | m :: rest =>
    (s.relay.publish? m).map fun relay => { s with relay, waiting := rest }.markDelivery uptime

/-- Ends the deliveries that need not wait any more. -/
def resume (s : Supervisor π α) (uptime : Span) : Supervisor π α :=
  s.waiting.length.repeat (fun s => (s.resumeNext? uptime).getD s) s

/-- Asks the pipeline for a phase; the messages it posts go on the bus. -/
def request [MediaPipeline π] (s : Supervisor π α) (p : π) (target : Phase) :
    Except Error Unit × Supervisor π α :=
  let t := MediaPipeline.setPhase p target s.relay.store s.relay.ingest.caps
  (t.result,
    { s with
      pipeline := some t.pipeline
      relay := { s.relay with store := t.store }
      bus := s.bus ++ t.posted
      egress := { s.egress with caps := t.outputCaps.or s.egress.caps } })

/-! ## Stopping -/

/-- Makes waiting deliveries give up and closes the ingest. -/
def letGo (s : Supervisor π α) (uptime : Span) : Supervisor π α :=
  ((s.setDraining true).resume uptime).setFlushing true

/-- Asks the pipeline for the null phase; it may refuse. -/
def halt [MediaPipeline π] (s : Supervisor π α) : Supervisor π α :=
  match s.pipeline with
  | none => s
  | some p =>
    match s.request p .null with
    | (.error e, s) => s.note (.stopRefused e)
    | (.ok (), s) => s

/-- Ends the reading and follows the moves that nobody read. -/
def settle (s : Supervisor π α) : Supervisor π α := { s with reader := .absent }.followRest

/-- Stops the pipeline, running or not. -/
def bringDown [MediaPipeline π] (s : Supervisor π α) (uptime : Span) : Supervisor π α :=
  (s.letGo uptime).halt.settle

/-- Stops the pipeline. -/
def stop [MediaPipeline π] (s : Supervisor π α) (uptime : Span) :
    Except Error Unit × Supervisor π α :=
  match s.pipeline with
  | none => (.error .notInitialized, s)
  | some _ => (.ok (), s.bringDown uptime)

/-- Gives the supervisor up; a running pipeline is stopped. -/
def dispose [MediaPipeline π] (s : Supervisor π α) (uptime : Span) : Supervisor π α :=
  if s.isRunning then s.bringDown uptime else s

/-! ## Starting -/

/-- Makes a clean slate for a run: no matched frames, no pending entries, no failure, no messages, and
    an open ingest. -/
def prepare (s : Supervisor π α) : Supervisor π α :=
  let relay := (s.relay.clear.resetPending.2.setDraining false).setFlushing false
  -- what the last run left on the bus must not end the work of the new reader
  { s with relay, failed := false, lastError := none, bus := [] }

/-- Begins a run of the pipeline.  A pipeline that refuses leaves the ingest closed. -/
def launch [MediaPipeline π] (s : Supervisor π α) (p : π) (uptime : Span) :
    Except Error Unit × Supervisor π α :=
  match s.prepare.request p .playing with
  | (.error e, s) =>
    (.error e, (s.setFlushing true).note (.startRefused (MediaPipeline.name p) e))
  | (.ok (), s) =>
    (.ok (), { s.markDelivery uptime with frameClock := s.frameClock.reset, reader := .reading })

/-- Starts the pipeline; one that is running is stopped first. -/
def start [MediaPipeline π] (s : Supervisor π α) (uptime : Span) :
    Except Error Unit × Supervisor π α :=
  -- a reader whose work has ended still counts as running
  let s := if s.isRunning then s.bringDown uptime else s
  match s.pipeline with
  | none => (.error .notInitialized, s)
  | some p => s.launch p uptime

end MediaBridge.Supervisor
