import MediaBridge.About
import MediaBridge.Demo.Arguments
import MediaBridge.Session
import MediaBridge.Settings.Document

/-! # The demonstration

Frames of one grey level each go through a loopback pipeline that inverts them.  The producer submits
four of them in a frame period, and the consumer takes every result as soon as it is there.
-/

namespace MediaBridge.Demo

/-- The width of a frame. -/
def width : Nat := 64

/-- The height of a frame. -/
def height : Nat := 48

/-- The format of the frames. -/
def format : Caps :=
  (((Caps.new "video/x-raw").withField "format" "GRAY8").withField "width" (toString width)).withField
    "height" (toString height)

/-- The frame with an index. -/
def picture (index : Nat) : ByteArray := Bytes.filled (width * height) (UInt8.ofNat index)

/-- A demonstration under way. -/
structure State where
  session : Session Nat
  accepted : Nat := 0
  received : Nat := 0

/-- What came of a demonstration. -/
structure Summary where
  caps : Option Caps
  frames : Nat
  accepted : Nat
  received : Nat
  health : Health

/-- The lines that tell what came of a demonstration. -/
def Summary.capsLine? (s : Summary) : Option String := s.caps.map fun c => "Output caps: " ++ c.render

/-- How many frames went in and out. -/
def Summary.countsLine (s : Summary) : String :=
  s!"Submitted {s.frames} frames, {s.accepted} accepted, {s.received} received"

/-- Why a demonstration did not end well. -/
inductive Failure where
  /-- The settings could not be loaded from a path. -/
  | settings (path : String) (cause : Error)
  /-- The pipeline did not start. -/
  | start (cause : Error)
  /-- A result came out of order. -/
  | bridge (cause : Error)
  deriving DecidableEq, Repr

/-- The failure as it is shown. -/
def Failure.message : Failure → String
  | settings path _ => "unable to load configuration from " ++ path
  | start cause => cause.message
  | bridge cause => "bridge failed: " ++ cause.message

/-- What lies behind a failure. -/
def Failure.cause? : Failure → Option Error
  | settings _ cause => some cause
  | _ => none

namespace State

/-- Takes one result, if there is one, and drops it. -/
def take? (s : State) : Option State :=
  s.session.pop?.map fun (m, session) =>
    let sup := session.supervisor
    let relay := { sup.relay with store := sup.relay.store.drop m.frame }
    { s with session := { session with supervisor := { sup with relay } }, received := s.received + 1 }

/-- More results than there can be without another submission. -/
def resultBound (s : State) : Nat :=
  let sup := s.session.supervisor
  sup.outputCount + sup.waiting.length + sup.relay.ingest.queue.length + 1

/-- Takes every result. -/
def consume (s : State) : State := s.resultBound.repeat (fun s => s.take?.getD s) s

/-- Submits a frame, takes the results, and lets a quarter of a period pass. -/
def submit (s : State) (period : Span) (index : Nat) : State :=
  let (admission, session) := s.session.submit (picture index) index
  -- a full ingest opens again once the consumer has taken its results
  let s := { s with session }.consume
  let s := match s.session.finish? admission with
    | some (.ok true, session) => { s with session, accepted := s.accepted + 1 }.consume
    | some (_, session) => { s with session }.consume
    | none => s
  { s with session := s.session.advance ⟨period.nanos / 4⟩ }

/-- Submits the frames from an index on, one after the other. -/
def submitAll (s : State) (period : Span) (index : Nat) : Nat → State
  | 0 => s
  | n + 1 => (s.submit period index).submitAll period (index + 1) n

end State

/-- Runs the demonstration. -/
def demonstrate (settings : Settings) (frames dropEvery : Nat) : Except Failure Summary :=
  let options : LoopbackOptions := { transform := some .invert }
  let session : Session Nat := (Session.new settings options).withFaults ({ · with dropEvery })
  let sup := session.supervisor
  let ingest := sup.relay.ingest.setCaps format
  let session := { session with supervisor := { sup with relay := { sup.relay with ingest } } }
  match session.start with
  | (.error e, _) => .error (.start e)
  | (.ok (), session) =>
    let caps := session.supervisor.egress.caps
    let s := State.submitAll { session } settings.framePeriod 0 frames
    match s.session.supervisor.fatal with
    | some e => .error (.bridge e)
    | none =>
      let health := s.session.stop.2.supervisor.relay.bridge.health
      .ok { caps, frames, accepted := s.accepted, received := s.received, health }

/-- The settings for a demonstration: those of the document, if there is one, under the policy asked
    for. -/
def settingsFor (a : Arguments) (document : Option ByteArray) : Except Failure Settings := do
  let loaded ← match a.config with
    | none => .ok {}
    | some path => (Settings.loadFile document).mapError (.settings path)
  return { loaded with discardPolicy := a.policy.getD loaded.discardPolicy }

/-- Does what the arguments ask for; `document` holds the bytes of the settings document, if there is
    one at its path. -/
def perform (a : Arguments) (document : Option ByteArray) : Except Failure Summary := do
  demonstrate (← settingsFor a document) a.frames.toNat a.dropEvery.toNat

/-- The line that shows how the program is called. -/
def usageLine : String := s!"Usage: {About.name} [OPTIONS]"

/-- The help text. -/
def help : String :=
  let line (f : Flag) : String :=
    "  " ++ (f.short?.elim "    " fun c => "-" ++ String.singleton c ++ ", ") ++ "--" ++ f.long ++ "  " ++
      f.description
  "\n".intercalate ([About.purpose, "", usageLine, "", "Options:"] ++ Flag.all.map line)

end MediaBridge.Demo
