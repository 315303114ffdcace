import MediaBridge.Correspondence.Relay
import MediaBridge.Pipeline.Basic
import MediaBridge.Boundary.Egress

/-! # The supervisor

A supervisor looks after one pipeline: it starts and stops it, passes frames in and results out, reads
what the pipeline posts on its bus, and restarts it when no results come any more.

This module holds its state and what it makes of a status message.  While the pipeline runs, a reader
takes the messages off the bus in the order they were posted, until one of them ends its work: an
error, which makes the supervisor fail, or the end of the stream.
-/

namespace MediaBridge

/-- The reader of status messages. -/
inductive Reader where
  /-- The pipeline is stopped. -/
  | absent
  | reading
  /-- The pipeline was started, but its error or the end of the stream was read. -/
  | finished
  deriving DecidableEq, Repr, Inhabited

/-- A move of the pipeline, as it was reported to an observer. -/
structure Report where
  /-- The observer's name. -/
  observer : String
  move : Move
  deriving DecidableEq, Repr

/-- A supervisor for a pipeline of type `π`, with user data of type `α`. -/
structure Supervisor (π : Type u) (α : Type v) where
  settings : Settings
  relay : Relay α
  egress : Egress Unit := { receiver := some () }
  /-- The pipeline, once it is made. -/
  pipeline : Option π := none
  /-- What the pipeline posted and nobody read yet. -/
  bus : Backlog := []
  reader : Reader := .absent
  frameClock : FrameClock
  /-- The phase of the pipeline, as far as it was read off the bus. -/
  phase : Phase := .null
  /-- Who is told about moves of the pipeline. -/
  observer : Option String := none
  /-- What observers were told, oldest first. -/
  reports : List Report := []
  /-- Whether the pipeline failed since the last start. -/
  failed : Bool := false
  /-- The text of the last error since the last start. -/
  lastError : Option String := none
  /-- The error of the last result out of order, until somebody takes it. -/
  fatal : Option Error := none
  /-- How many submissions in a row found the pipeline stalled. -/
  stalls : Nat := 0
  /-- The deliveries that wait for room in the output queue, longest first. -/
  waiting : List (Matched α) := []

namespace Supervisor

variable {π : Type u} {α : Type v}

/-- A supervisor without a pipeline. -/
def new (s : Settings) : Supervisor π α :=
  { settings := s, relay := .new s s.ingestMaxBytes.toNat, frameClock := { period := s.framePeriod } }

/-- Puts in the pipeline that was made, or the reason why none was made.  There can be only one. -/
def install (s : Supervisor π α) (made : Except Error π) :
    Except Error Unit × Supervisor π α :=
  match s.pipeline, made with
  | some _, _ => (.error .alreadyInitialized, s)
  | none, .error e => (.error e, s)
  | none, .ok p => (.ok (), { s with pipeline := some p })

/-! ## Looking at a supervisor -/

/-- Whether the pipeline was started and not stopped since. -/
def isRunning (s : Supervisor π α) : Bool := s.reader ≠ .absent

/-- Whether the pipeline plays and did not fail. -/
def isPlaying (s : Supervisor π α) : Bool := !s.failed && s.phase.isPlaying

/-- Whether a delivery is in progress.  The pipeline delivers from one thread, so deliveries come one at a
    time, and the one that is in progress between two calls is the one that waits for room. -/
def isDelivering (s : Supervisor π α) : Bool := !s.waiting.isEmpty

/-- How many matched frames wait to be taken. -/
def outputCount (s : Supervisor π α) : Nat := s.relay.bridge.output.length

/-- Whether a matched frame waits to be taken. -/
def hasOutput (s : Supervisor π α) : Bool := !s.relay.bridge.output.isEmpty

/-- The reading of the pipeline's clock, `uptime` after everything began. -/
def clockTime [MediaPipeline π] (s : Supervisor π α) (uptime : Span) : Except Error ClockTime :=
  match s.pipeline with
  | none => .error .notInitialized
  | some p => .ok (MediaPipeline.clockTime p uptime)

/-- The format of the results, if it was agreed on. -/
def outputCaps (s : Supervisor π α) : Except Error (Option Caps) :=
  match s.pipeline with
  | none => .error .notInitialized
  | some _ => .ok s.egress.caps

/-! ## Small changes -/

/-- Says what format the submitted frames have. -/
def setInputCaps (s : Supervisor π α) (c : Caps) : Except Error (Supervisor π α) :=
  match s.pipeline with
  | none => .error .notInitialized
  | some _ => .ok { s with relay := { s.relay with ingest := s.relay.ingest.setCaps c } }

/-- Makes the format of the submitted frames, if they have one, that of the results. -/
def agreeCaps (s : Supervisor π α) : Option Caps × Supervisor π α :=
  let caps := s.relay.ingest.caps
  (caps, { s with egress := { s.egress with caps := caps.or s.egress.caps } })

/-- Puts an observer in place of any other. -/
def observe (s : Supervisor π α) (observer : String) : Supervisor π α :=
  { s with observer := some observer }

/-- Takes the error of the last result out of order. -/
def takeFatal (s : Supervisor π α) : Option Error × Supervisor π α :=
  (s.fatal, { s with fatal := none })

/-- Takes what observers were told. -/
def takeReports (s : Supervisor π α) : List Report × Supervisor π α :=
  (s.reports, { s with reports := [] })

/-- Adds a notice. -/
def note (s : Supervisor π α) (n : Notice) : Supervisor π α := { s with relay := s.relay.note n }

/-- Closes or opens the ingest. -/
def setFlushing (s : Supervisor π α) (flushing : Bool) : Supervisor π α :=
  { s with relay := s.relay.setFlushing flushing }

/-- Lets deliveries give up instead of waiting, or wait again. -/
def setDraining (s : Supervisor π α) (draining : Bool) : Supervisor π α :=
  { s with relay := s.relay.setDraining draining }

/-! ## Status messages -/

/-- Puts messages on the bus. -/
def post (s : Supervisor π α) (ms : List Message) : Supervisor π α := { s with bus := s.bus ++ ms }

/-- Follows a move of the pipeline and tells the observer. -/
def follow (s : Supervisor π α) (m : Move) : Supervisor π α :=
  { s with
    phase := m.new
    reports := s.reports ++ s.observer.toList.map (⟨·, m⟩) }

/-- Applies one status message.  Moves of single elements are passed over. -/
def apply (s : Supervisor π α) : Message → Supervisor π α
  | .error source text details =>
    let noted := s.note (.pipelineError source text)
    let noted := match details with
      | none => noted
      | some d => noted.note (.details d)
    { noted with failed := true, lastError := some text }
  | .endOfStream => s
  | .phaseChanged .pipeline old new pending => s.follow ⟨old, new, pending⟩
  | .phaseChanged (.element _) .. => s
  | .warning source text => s.note (.unexpected (.warning source text))

/-- Whether a message ends the reading. -/
def endsReading : Message → Bool
  | .error .. | .endOfStream => true
  | _ => false

/-- Lets the reader take the next message.  When its work ends and the pipeline has failed, the ingest
    is closed. -/
def readNext (s : Supervisor π α) : Supervisor π α :=
  match s.reader, s.bus with
  | .reading, m :: rest =>
    let applied := { s with bus := rest }.apply m
    if endsReading m then
      -- the end of the stream closes the ingest only after an earlier failure
      let ended := { applied with reader := .finished }
      if ended.failed then ended.setFlushing true else ended
    else applied
  | _, _ => s

/-- Lets the reader take every message on the bus. -/
def readAll (s : Supervisor π α) : Supervisor π α := s.bus.length.repeat readNext s

/-- Applies the moves among the messages on the bus and throws the others away. -/
def followRest (s : Supervisor π α) : Supervisor π α :=
  (s.bus.filter fun m => m.kind = .phaseChanged).foldl apply { s with bus := [] }

end Supervisor

end MediaBridge
