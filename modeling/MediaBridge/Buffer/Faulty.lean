import MediaBridge.Buffer.Store

/-! # Faulty frames

Frames as a careless application hands them over: released, mapped, or locked by somebody else.  They
all hold the same four bytes.
-/

namespace MediaBridge

/-- What is wrong with a frame. -/
inductive Defect where
  | released
  /-- A view kept elsewhere maps it writable. -/
  | writeLocked
  /-- A view kept elsewhere maps it readable. -/
  | readLocked
  /-- It is a view whose owner is gone. -/
  | deadView
  /-- It is a view whose owner is kept elsewhere. -/
  | liveView
  | mappedRead
  | mappedWrite
  deriving DecidableEq, Repr, Inhabited

/-- Every defect. -/
def Defect.all : List Defect :=
  [.released, .writeLocked, .readLocked, .deadView, .liveView, .mappedRead, .mappedWrite]

/-- The name of a defect. -/
def Defect.name : Defect → String
  | released => "released"
  | writeLocked => "write_locked"
  | readLocked => "read_locked"
  | deadView => "dead_view"
  | liveView => "live_view"
  | mappedRead => "mapped_read"
  | mappedWrite => "mapped_write"

/-- A faulty frame, with the handles that are kept elsewhere for it. -/
structure Faulty where
  frame : HandleId
  kept : List HandleId := []
  deriving DecidableEq, Repr

namespace Store

/-- A view of a frame; where there is none, the frame itself. -/
private def viewOf (s : Store) (h : HandleId) : HandleId × Store :=
  match s.view h with
  | .error _ => (h, s)
  | .ok r => r

/-- Attaches an id, if there is one. -/
def setId? (s : Store) (h : HandleId) : Option Nat → Store
  | none => s
  | some id => (s.setId h id).toOption.getD s

/-- Locks a frame through a view that is kept elsewhere and maps it writable. -/
def lockElsewhere (s : Store) (h : HandleId) : Faulty × Store :=
  let (v, s) := s.viewOf h
  (⟨h, [v]⟩, (s.mapWrite v).2)

/-- Makes a faulty frame, with a correspondence id if one is given. -/
def newFaulty (s : Store) (d : Defect) (id : Option Nat) : Faulty × Store :=
  let (h, s) := s.newFrame ⟨#[1, 2, 3, 4]⟩
  let s := s.setId? h id
  match d with
  | .released => ({ frame := h }, s.release h)
  | .writeLocked => s.lockElsewhere h
  | .readLocked => let (v, s) := s.viewOf h; (⟨h, [v]⟩, (s.mapRead v).2)
  | .deadView => let (v, s) := s.viewOf h; ({ frame := v }, s.drop h)
  | .liveView => let (v, s) := s.viewOf h; (⟨v, [h]⟩, s)
  | .mappedRead => ({ frame := h }, (s.mapRead h).2)
  | .mappedWrite => ({ frame := h }, (s.mapWrite h).2)

end Store

end MediaBridge
