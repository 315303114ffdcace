import MediaBridge.Supervisor.Lifecycle

/-! # Frames in, results out

A submission first runs the watchdog: it counts as stalled if no delivery is in progress and none
ended within the watchdog's time, and after so many stalled ones in a row the pipeline is restarted.
There is no timer beside that.

A result is passed to the relay; the only error it can cause, a result out of order, makes the
supervisor fail.
-/

namespace MediaBridge

/-- A supervised submission that waits at the ingest. -/
structure Waiter where
  ticket : Ticket
  offer : Offer
  /-- The reading of the pipeline's clock when the frame was submitted. -/
  now : ClockTime
  deriving DecidableEq, Repr

/-- How far a supervised submission got. -/
inductive Admission where
  | done (result : Except Error Bool)
  /-- The ingest is full. -/
  | waits (w : Waiter)

namespace Supervisor

variable {π : Type u} {α : Type v}

/-! ## The watchdog -/

/-- Whether a submission finds the pipeline stalled. -/
def isStalled (s : Supervisor π α) (uptime : Span) : Bool :=
  !s.isDelivering && s.relay.bridge.health.isStalled uptime s.settings.watchdog.timeout

/-- Counts a submission for the watchdog, and says whether it is the one that restarts the
    pipeline. -/
def watch (s : Supervisor π α) (uptime : Span) : Bool × Supervisor π α :=
  if s.isStalled uptime then
    let stalls := s.stalls + 1
    (s.settings.watchdog.resetCount.toNat ≤ stalls, { s with stalls })
  else (false, { s with stalls := 0 })

/-- Raises a counter by one. -/
def count (s : Supervisor π α) (c : Counter) : Supervisor π α :=
  { s with relay := { s.relay with bridge := s.relay.bridge.count c 1 } }

/-- Stops the pipeline and starts it again, which is counted. -/
def restart [MediaPipeline π] (s : Supervisor π α) (uptime : Span) :
    Except Error Unit × Supervisor π α :=
  (((s.note .watchdog).count .restarts).bringDown uptime).start uptime

/-! ## Submitting -/

/-- Gives a frame up. -/
def discard (s : Supervisor π α) (frame : HandleId) : Supervisor π α :=
  { s with relay := { s.relay with store := s.relay.store.drop frame } }

/-- Remembers the clock reading of an accepted frame. -/
def commit (s : Supervisor π α) (now : ClockTime) : Supervisor π α :=
  { s with frameClock := s.frameClock.commit now }

/-- Stamps a frame with its timing and hands it to the relay. -/
def forward (s : Supervisor π α) (frame : HandleId) (user : α) (now : ClockTime) :
    Admission × Supervisor π α :=
  match s.relay.store.setTiming frame (s.frameClock.timingAt now) with
  | .error e => (.done (.error e), s.discard frame)
  | .ok store =>
    match { s.relay with store }.submit frame user with
    | (.waits ticket offer, relay) => (.waits ⟨ticket, offer, now⟩, { s with relay })
    | (.done (.ok true), relay) => (.done (.ok true), { s with relay }.commit now)
    | (.done r, relay) => (.done r, { s with relay })

/-- Submits a frame, as far as that goes without waiting.  A failed pipeline is brought down and
    accepts nothing, and the submission that restarts the pipeline is not accepted either. -/
def submit [MediaPipeline π] (s : Supervisor π α) (uptime : Span) (frame : HandleId) (user : α) :
    Admission × Supervisor π α :=
  match s.pipeline with
  | none => (.done (.error .notInitialized), s.discard frame)
  | some p =>
    if s.failed then
      let s := if s.isRunning then (s.note .stoppingFailed).bringDown uptime else s
      (.done (.ok false), s.discard frame)
    else
      -- the watchdog sleeps while the pipeline is stopped
      match if s.isRunning then s.watch uptime else (false, s) with
      | (true, s) =>
        match s.restart uptime with
        | (.error e, s) => (.done (.error e), s.discard frame)
        | (.ok (), s) => (.done (.ok false), s.discard frame)
      | (false, s) => s.forward frame user (MediaPipeline.clockTime p uptime)

/-- Ends a submission that waited; none while it has to wait on. -/
def resumeSubmit? (s : Supervisor π α) (w : Waiter) : Option (Bool × Supervisor π α) :=
  (s.relay.resume? w.ticket w.offer).map fun
    | (true, relay) => (true, { s with relay }.commit w.now)
    | (false, relay) => (false, { s with relay })

/-- The result of a supervised submission; none while it waits. -/
def finish? (s : Supervisor π α) : Admission → Option (Except Error Bool × Supervisor π α)
  | .done result => some (result, s)
  | .waits w => (s.resumeSubmit? w).map fun (accepted, s) => (.ok accepted, s)

/-! ## Results -/

/-- A result came out of order: the ingest is closed, deliveries do not wait any more, and the
    supervisor has failed. -/
def fail (s : Supervisor π α) (cause : Error) : Supervisor π α :=
  { ((s.note (.fatal cause)).setFlushing true).setDraining true with
    failed := true, lastError := some cause.message, fatal := some cause }

/-- Takes what the pipeline delivers.  The answer is none while the delivery waits for room; when it
    ends, it is answered as accepted. -/
def receive (s : Supervisor π α) (uptime : Span) (item : Item) : Option Flow × Supervisor π α :=
  match item with
  | .endOfStream => (some .ok, { s with relay := (s.relay.deliver item).2 })
  | .sample _ =>
    let counted := { s with egress := s.egress.countSample }
    match s.relay.deliver item with
    | (.waits m, relay) => (none, { counted with relay, waiting := s.waiting ++ [m] })
    | (.done r, relay) =>
      -- every sample counts as a delivery, whatever became of it
      let marked := { counted with relay }.markDelivery uptime
      match r with
      | .ok () => (some .ok, marked)
      | .error e => (some .error, marked.fail e)

/-- The answer to a delivery, which is given when it need not wait any more. -/
def answer? (s : Supervisor π α) : Option Flow → Option Flow
  | some f => some f
  | none => if s.isDelivering then none else some .ok

/-- Takes the oldest frame that waits for the pipeline. -/
def pull? (s : Supervisor π α) : Option (HandleId × Supervisor π α) :=
  s.relay.pull?.map fun (h, relay) => (h, { s with relay })

/-- Announces to the pipeline that no frames will follow. -/
def endStream (s : Supervisor π α) : Supervisor π α := { s with relay := s.relay.endStream }

/-- Takes the oldest matched frame. -/
def pop? (s : Supervisor π α) : Option (Matched α × Supervisor π α) :=
  s.relay.pop?.map fun (m, relay) => (m, { s with relay })

end Supervisor

end MediaBridge
