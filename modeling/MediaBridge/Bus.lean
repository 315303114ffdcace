import MediaBridge.Phase
import MediaBridge.Text.Quoted

/-! # The status bus

A pipeline posts messages about itself on a bus, and whoever supervises it takes them off in the
order they were posted.  Taking looks for certain kinds of message and throws away what stands in
front of the first one.

* `popFiltered_eq` the message taken is the first of a wanted kind, and the rest stays in order.
-/

namespace MediaBridge

/-- Who a message is about. -/
inductive Source where
  | pipeline
  | element (name : String)
  deriving DecidableEq, Repr

/-- The name shown for a source. -/
def Source.name : Source → String
  | pipeline => "pipeline"
  | element name => name

instance : ToString Source := ⟨Source.name⟩

/-- A status message. -/
inductive Message where
  /-- The pipeline failed. -/
  | error (source : Source) (text : String) (details : Option String)
  /-- The stream is over. -/
  | endOfStream
  /-- A move from one phase to the next was completed, on the way to `pending` if there is one. -/
  | phaseChanged (source : Source) (old new : Phase) (pending : Option Phase)
  /-- Something went wrong that does not stop the pipeline. -/
  | warning (source : Source) (text : String)
  deriving DecidableEq, Repr

/-- The kinds of message. -/
inductive MessageKind where
  | error
  | endOfStream
  | phaseChanged
  | warning
  deriving DecidableEq, Repr, Inhabited

/-- Every kind. -/
def MessageKind.all : List MessageKind := [error, endOfStream, phaseChanged, warning]

/-- The name of a kind. -/
def MessageKind.name : MessageKind → String
  | error => "Error"
  | endOfStream => "EndOfStream"
  | phaseChanged => "StateChanged"
  | warning => "Warning"

namespace Message

/-- The kind of a message. -/
def kind : Message → MessageKind
  | error .. => .error
  | endOfStream => .endOfStream
  | phaseChanged .. => .phaseChanged
  | warning .. => .warning

private def describeSource : Source → String
  | .pipeline => "Pipeline"
  | .element name => "Element(" ++ Text.quoted name ++ ")"

/-- All a message says, for the log. -/
def describe : Message → String
  | error source text details =>
    Text.braced "Error" [("source", describeSource source), ("message", Text.quoted text),
      ("debug", Text.optional Text.quoted details)]
  | endOfStream => "EndOfStream"
  | phaseChanged source old new pending =>
    Text.braced "StateChanged" [("source", describeSource source), ("old", old.name),
      ("new", new.name), ("pending", Text.optional Phase.name pending)]
  | warning source text =>
    Text.braced "Warning" [("source", describeSource source), ("message", Text.quoted text)]

end Message

/-- The messages waiting on a bus, oldest first. -/
abbrev Backlog := List Message

/-- Takes the first message of a wanted kind, throwing away those in front of it.  If there is none,
    nothing is left. -/
def Backlog.popFiltered (kinds : List MessageKind) : Backlog → Option Message × Backlog
  | [] => (none, [])
  | m :: rest => if kinds.contains m.kind then (some m, rest) else popFiltered kinds rest

theorem Backlog.popFiltered_eq (kinds : List MessageKind) (b : Backlog) :
    popFiltered kinds b =
      let kept := b.dropWhile fun m => !kinds.contains m.kind
      (kept.head?, kept.tail) := by
  induction b with
  | nil => rfl
  | cons m rest ih =>
    rw [popFiltered, List.dropWhile_cons]
    cases h : kinds.contains m.kind
    · rw [ih]; rfl
    · rfl

/-- A bus with the ends that post on it and the ends that listen. -/
structure Bus where
  backlog : Backlog := []
  posters : Nat := 1
  listeners : Nat := 1
  deriving DecidableEq, Repr

namespace Bus

/-- Puts a message behind the others.  Without a listener it is lost, and without a posting end there
    is nobody to post it. -/
def post (b : Bus) (m : Message) : Bus :=
  if b.posters = 0 ∨ b.listeners = 0 then b else { b with backlog := b.backlog ++ [m] }

/-- Takes the first message of a wanted kind, if somebody listens; see `Backlog.popFiltered`. -/
def pop (b : Bus) (kinds : List MessageKind) : Option Message × Bus :=
  if b.listeners = 0 then (none, b)
  else
    let r := b.backlog.popFiltered kinds
    (r.1, { b with backlog := r.2 })

/-- Throws away every waiting message. -/
def flush (b : Bus) : Bus := { b with backlog := [] }

/-- Adds a posting end beside another one. -/
def addPoster (b : Bus) : Bus := if b.posters = 0 then b else { b with posters := b.posters + 1 }

/-- Takes a posting end away. -/
def dropPoster (b : Bus) : Bus := { b with posters := b.posters - 1 }

/-- Adds a listening end beside another one. -/
def addListener (b : Bus) : Bus :=
  if b.listeners = 0 then b else { b with listeners := b.listeners + 1 }

/-- Takes a listening end away; with the last one the waiting messages go too. -/
def dropListener (b : Bus) : Bus :=
  { b with
    listeners := b.listeners - 1
    backlog := if b.listeners ≤ 1 then [] else b.backlog }

end Bus

end MediaBridge
