import MediaBridge.Phase
import MediaBridge.Text.Quoted

/-! # What can go wrong

Every operation that can fail names its cause here.  The wording shown to people is `Error.message`,
a function of the cause alone.
-/

namespace MediaBridge

/-- How a buffer is to be mapped. -/
inductive Access where
  | read
  | write
  deriving DecidableEq, Repr, Inhabited

/-- The access as an adjective. -/
def Access.adjective : Access → String
  | read => "readable"
  | write => "writable"

/-- Why a buffer could not be mapped. -/
inductive MapFault where
  /-- Another handle maps it writable. -/
  | heldWritable
  /-- Another handle maps it. -/
  | held
  /-- The handle was released, or no owner of the buffer is left. -/
  | gone
  deriving DecidableEq, Repr

/-- The cause as it is shown. -/
def MapFault.reason : MapFault → String
  | heldWritable => "buffer is mapped writable by another handle"
  | held => "buffer is mapped by another handle"
  | gone => "buffer was released or its owner was freed"

/-- Why settings are refused. -/
inductive SettingsFault where
  /-- The output queue has no room. -/
  | noOutputRoom
  /-- No frame may be in flight. -/
  | noInputRoom
  /-- The bound on pending entries is below the bound on frames in flight. -/
  | pendingBelowInput (maxPending maxInput : Nat)
  /-- Frames have no period. -/
  | noFramePeriod
  /-- A poll interval is zero. -/
  | noPollInterval
  deriving DecidableEq, Repr

/-- The cause as it is shown. -/
def SettingsFault.message : SettingsFault → String
  | noOutputRoom => "max_output_queue must be at least 1"
  | noInputRoom => "max_input_queue must be at least 1"
  | pendingBelowInput maxPending maxInput =>
    s!"max_pending ({maxPending}) must not be smaller than max_input_queue ({maxInput})"
  | noFramePeriod => "frame_period_ms must be positive"
  | noPollInterval => "poll intervals must be positive"

/-- Why a text describes no format. -/
inductive CapsFault where
  /-- The text has a blank where the media type belongs. -/
  | noMediaType (text : String)
  /-- A part after the media type has no equals sign. -/
  | malformedField (part : String)
  deriving DecidableEq, Repr

/-- The cause as it is shown. -/
def CapsFault.message : CapsFault → String
  | noMediaType text => "caps without media type: " ++ Text.quoted text
  | malformedField part => "malformed caps field: " ++ Text.quoted part

/-- An invalid configuration. -/
inductive Invalid where
  | settings (cause : SettingsFault)
  | caps (cause : CapsFault)
  /-- A cause that only the maker of a pipeline knows. -/
  | other (text : String)
  deriving DecidableEq, Repr

/-- The cause as it is shown. -/
def Invalid.message : Invalid → String
  | settings cause => cause.message
  | caps cause => cause.message
  | other text => text

/-- Why a file gave no text. -/
inductive FileFault where
  | missing
  | notText
  deriving DecidableEq, Repr

/-- The cause as it is shown. -/
def FileFault.message : FileFault → String
  | missing => "No such file or directory (os error 2)"
  | notText => "stream did not contain valid UTF-8"

/-- A failed operation. -/
inductive Error where
  /-- A pipeline was given to a supervisor that already has one. -/
  | alreadyInitialized
  /-- An operation needs the pipeline before there is one. -/
  | notInitialized
  /-- A buffer could not be mapped. -/
  | map (access : Access) (cause : MapFault)
  /-- A result came back with an id older than every pending entry. -/
  | orderingViolation (id oldest : Nat)
  /-- The pipeline refused to go to a phase. -/
  | phaseRefused (target : Phase)
  /-- The handle was released, or no owner of the buffer is left. -/
  | bufferReleased
  /-- A configuration value cannot be used. -/
  | invalid (cause : Invalid)
  /-- A file could not be read. -/
  | file (cause : FileFault)
  /-- A settings document is not what it should be. -/
  | malformedDocument
  deriving DecidableEq, Repr

/-- The error as it is shown. -/
def Error.message : Error → String
  | alreadyInitialized => "pipeline was already initialized"
  | notInitialized => "pipeline was not initialized"
  | map access cause => s!"unable to map buffer {access.adjective}: {cause.reason}"
  | orderingViolation id oldest =>
    s!"correspondence id {id} is smaller than the oldest pending entry {oldest}"
  | phaseRefused target => s!"pipeline rejected state change to {target}"
  | bufferReleased => "buffer handle has been released"
  | invalid cause => "invalid configuration: " ++ cause.message
  | file cause => "I/O error: " ++ cause.message
  | malformedDocument => "JSON error: malformed settings document"

end MediaBridge
