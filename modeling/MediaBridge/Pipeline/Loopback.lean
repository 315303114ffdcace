import MediaBridge.Pipeline.Basic
import MediaBridge.Pipeline.Worker

/-! # The loopback pipeline

A pipeline that hands every frame straight back, through a worker that is there exactly while the
pipeline plays.  Each move posts two messages, first one about the transforming element and then one
about the pipeline.
-/

namespace MediaBridge

/-- A pipeline that hands its input back. -/
structure Loopback where
  options : LoopbackOptions := {}
  faults : Faults := {}
  phase : Phase := .null
  /-- The worker, while the pipeline plays. -/
  worker : Option Worker := none

namespace Loopback

/-- The element that changes the frames. -/
def transformElement (l : Loopback) : Source := .element (l.options.name ++ "-transform")

/-- Ends the worker's work. -/
def stopWorker (l : Loopback) (s : Store) : Loopback × Store :=
  ({ l with worker := none }, (l.worker.map (·.quit s)).getD s)

/-- Makes one move.  A move away from playing ends the worker, and one to playing starts a new one;
    on the way from ready to paused the input format becomes the output format. -/
def enter (l : Loopback) (new : Phase) (s : Store) (inputCaps : Option Caps) :
    Loopback × Store × Option Caps :=
  let (l, s) := if l.phase = .playing then l.stopWorker s else (l, s)
  -- formats are agreed on before any frame flows
  let caps := if l.phase = .ready ∧ new = .paused then inputCaps else none
  let worker := if new = .playing then some {} else l.worker
  ({ l with phase := new, worker }, s, caps)

/-- Makes a move on the way to a phase and posts its messages. -/
def move (inputCaps : Option Caps) (t : Transition Loopback) (m : Move) : Transition Loopback :=
  let (pipeline, store, caps) := t.pipeline.enter m.new t.store inputCaps
  { t with
    pipeline, store
    posted := t.posted ++ [m.message t.pipeline.transformElement, m.message .pipeline]
    outputCaps := caps.or t.outputCaps }

/-- Asks for a phase. -/
def setPhase (l : Loopback) (target : Phase) (store : Store) (inputCaps : Option Caps) :
    Transition Loopback :=
  if target = .playing ∧ l.faults.refusesPlaying then
    { pipeline := l, store, result := .error (.phaseRefused target) }
  else
    (l.phase.movesTo target).foldl (move inputCaps) { pipeline := l, store, result := .ok () }

instance : MediaPipeline Loopback where
  name l := l.options.name
  clockTime _ uptime := .ofSpan uptime
  setPhase := setPhase

/-- The message of a fault in the transforming element, put in from outside. -/
def injected (text : String) : Message :=
  .error (.element "loopback-transform") text (some "injected")

/-- The next step of the worker; none while it waits or there is none. -/
def step? (l : Loopback) (s : Store) (p : Ingest) (caps : Option Caps) (waited : Bool) :
    Option (WorkerStep × Loopback) :=
  l.worker.bind fun w =>
    (w.step? l.options l.faults s p caps waited).map fun r => (r, { l with worker := some r.worker })

/-- Goes on after the answer to what the worker handed on, with the messages posted then. -/
def answered (l : Loopback) (answer : Flow) : Loopback × List Message :=
  match l.worker with
  | none => (l, [])
  | some w =>
    let (w, posted) := w.answered l.options answer
    ({ l with worker := some w }, posted)

/-- Whether the worker waits for an answer. -/
def awaitsAnswer (l : Loopback) : Bool := l.worker.any (·.awaitsAnswer)

end Loopback

end MediaBridge
