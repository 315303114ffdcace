import MediaBridge.Boundary.Recorder
import MediaBridge.Pipeline.Loopback

/-! # Lines

A loopback pipeline between its ingest and its egress, without a supervisor.  What it delivers goes to
a recorder, and what it posts stays on its bus until somebody reads it.
-/

namespace MediaBridge

/-- A loopback pipeline with all that it works on. -/
structure Line where
  store : Store := {}
  ingest : Ingest
  egress : Egress Recorder
  pipeline : Loopback
  bus : Backlog := []

namespace Line

/-- Pushes a frame; none if it would have to wait. -/
def push? (l : Line) (h : HandleId) : Option (Flow × Line) :=
  match l.store.measure h with
  | (none, store) => some (.error, { l with store })
  | (some o, store) =>
    (l.ingest.settle? store o).map fun (f, ingest, store) => (f, { l with ingest, store })

/-- A step of the worker; none while it waits.  Its wait for a frame may have run out. -/
def step? (l : Line) (waited : Bool) : Option Line :=
  (l.pipeline.step? l.store l.ingest l.egress.caps waited).map fun (r, pipeline) =>
    let l := { l with pipeline, store := r.store, ingest := r.ingest }
    match r.item with
    | none => l
    | some item =>
      let (f, egress, store) := l.egress.deliver l.store item
      let (pipeline, posted) := pipeline.answered f
      { l with egress, store, pipeline, bus := l.bus ++ posted }

/-- Lets the worker go on until it waits.  A frame takes it two steps, and the end of the stream
    one. -/
def runFor (l : Line) (waited : Bool) : Line :=
  (2 * l.ingest.queue.length + 2).repeat (fun l => (l.step? waited).getD l) l

/-- Lets the worker go on until it waits for a frame. -/
def run (l : Line) : Line := l.runFor false

/-- Lets the worker go on until its wait for a frame runs out. -/
def runOut (l : Line) : Line := l.runFor true

/-- Lets time pass until the line is as it should be, unless it is so already. -/
def await (l : Line) (p : Line → Bool) : Line := if p l then l else l.runOut

/-- Asks the pipeline for a phase.  Where the worker is ended, its wait for a frame runs out. -/
def setPhase (l : Line) (target : Phase) : Except Error Unit × Line :=
  let l := if l.pipeline.phase = .playing ∧ target ≠ .playing then l.runOut else l
  let t := l.pipeline.setPhase target l.store l.ingest.caps
  (t.result,
    { l with
      pipeline := t.pipeline
      store := t.store
      bus := l.bus ++ t.posted
      egress := { l.egress with caps := t.outputCaps.or l.egress.caps } })

/-- Closes or opens the ingest. -/
def setFlushing (l : Line) (flushing : Bool) : Line :=
  let (ingest, store) := l.ingest.setFlushing l.store flushing
  { l with ingest, store }

/-- Changes the faults of the pipeline. -/
def withFaults (l : Line) (f : Faults → Faults) : Line :=
  { l with pipeline := { l.pipeline with faults := f l.pipeline.faults } }

/-- Puts a message on the bus. -/
def post (l : Line) (m : Message) : Line := { l with bus := l.bus ++ [m] }

/-- Lets the recorder drop the oldest sample it keeps; none if there is none. -/
def letGo? (l : Line) : Option Line := do
  let r ← l.egress.receiver
  let (r, store) ← r.letGo? l.store
  return { l with egress := l.egress.register r, store }

end Line

end MediaBridge
