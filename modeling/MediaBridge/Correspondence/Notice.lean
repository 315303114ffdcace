import MediaBridge.Bus
import MediaBridge.Error

/-! # Notices

What a bridge and its supervisor have to tell the people who run them.  A notice names what happened;
its level and its wording are functions of it.
-/

namespace MediaBridge

/-- Something worth a line in the log. -/
inductive Notice where
  /-- So many entries were given up since the last such notice. -/
  | evicted (count : Nat)
  /-- A result carries no correspondence id. -/
  | noCorrespondence
  /-- A result cannot be read. -/
  | unreadable (cause : Error)
  /-- A result has an id for which nothing is pending. -/
  | nothingPending (id : Nat)
  /-- So many frames found no room since the last such notice. -/
  | outputDropped (count : Nat)
  /-- A result came out of order. -/
  | fatal (cause : Error)
  /-- A failed pipeline is stopped. -/
  | stoppingFailed
  /-- The watchdog restarts the pipeline. -/
  | watchdog
  /-- The pipeline refused to start. -/
  | startRefused (pipeline : String) (cause : Error)
  /-- The pipeline refused to stop. -/
  | stopRefused (cause : Error)
  /-- The pipeline reported an error. -/
  | pipelineError (source : Source) (text : String)
  /-- What the pipeline adds to its error. -/
  | details (text : String)
  /-- The pipeline reported something else. -/
  | unexpected (message : Message)
  deriving DecidableEq, Repr

/-- How serious a notice is. -/
inductive Level where
  | warn
  | error
  deriving DecidableEq, Repr

/-- The name of a level. -/
def Level.name : Level → String
  | warn => "WARN"
  | error => "ERROR"

namespace Notice

/-- How serious the notice is. -/
def level : Notice → Level
  | nothingPending _ | fatal _ | startRefused .. | pipelineError .. | details _ => .error
  | _ => .warn

/-- The wording. -/
def text : Notice → String
  | evicted count => s!"CorrespondenceBridge: pending queue is full, evicted {count} entries"
  | noCorrespondence =>
    "CorrespondenceBridge: could not establish correspondence of frame and user data"
  | unreadable cause => "CorrespondenceBridge: dropping unreadable frame: " ++ cause.message
  | nothingPending id =>
    s!"CorrespondenceBridge: received frame {id} but no user data is pending, discarding"
  | outputDropped count => s!"CorrespondenceBridge: output queue is full, dropped {count} frames"
  | fatal cause => "PipelineSupervisor: fatal error while matching output: " ++ cause.message
  | stoppingFailed => "PipelineSupervisor: pipeline failed, stopping it until restarted"
  | watchdog => "PipelineSupervisor: pipeline watchdog activated, restarting pipeline"
  | startRefused pipeline cause =>
    s!"PipelineSupervisor: unable to start {pipeline}: " ++ cause.message
  | stopRefused cause => "PipelineSupervisor: " ++ cause.message
  | pipelineError source text => s!"Error received from {source}: {text}"
  | details text => "Debugging information: " ++ text
  | unexpected message => "Unexpected message received: " ++ message.describe

/-- The line in the log. -/
def line (n : Notice) : String := n.level.name ++ " " ++ n.text

end Notice

end MediaBridge
