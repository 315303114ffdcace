import MediaBridge.Buffer.Describe
import MediaBridge.Caps

/-! # What goes in and out

The application hands frames to a pipeline at its ingest and gets them back at its egress.  Every
hand-over is answered with a `Flow`.
-/

namespace MediaBridge

/-- The answer to a hand-over. -/
inductive Flow where
  /-- Accepted. -/
  | ok
  /-- The other side is not running. -/
  | flushing
  /-- The stream is over. -/
  | ended
  /-- The other side failed. -/
  | error
  deriving DecidableEq, Repr, Inhabited

/-- Every answer. -/
def Flow.all : List Flow := [ok, flushing, ended, error]

/-- The name of an answer. -/
def Flow.name : Flow → String
  | ok => "Ok"
  | flushing => "Flushing"
  | ended => "Eos"
  | error => "Error"

/-- A frame that a pipeline delivers, with its format. -/
structure Sample where
  /-- The handle of the frame, which the sample owns. -/
  frame : HandleId
  caps : Option Caps := none
  deriving DecidableEq, Inhabited

/-- The sample's frame, as the store has it, and its format. -/
def Sample.describe (s : Sample) (store : Store) : String :=
  Text.braced "Sample" [("buffer", (store.handle s.frame).describe),
    ("caps", Text.optional (fun c : Caps => Text.quoted c.render) s.caps)]

/-- What a pipeline delivers. -/
inductive Item where
  | sample (s : Sample)
  /-- No sample follows. -/
  | endOfStream
  deriving DecidableEq

end MediaBridge
