import MediaBridge.Boundary.Egress

/-! # Recorders

A receiver that looks at everything it gets, writes down what it saw, and always gives the same
answer.  It drops the samples it gets, or keeps them until it is told to let one go.
-/

namespace MediaBridge

/-- What there is to see of a frame: its mapping and info, and then its bytes. -/
structure Inspection where
  mapping : Mapping
  info : Except Error FrameInfo
  bytes : Except Error ByteArray

/-- Looks at a frame, which is left mapped. -/
def Store.inspect (s : Store) (h : HandleId) : Inspection × Store :=
  let (bytes, mapped) := s.mapRead h
  (⟨(s.handle h).mapping, s.info h, bytes⟩, mapped)

/-- What a recorder writes down. -/
inductive Record where
  | sample (frame : Except Error Inspection) (caps : Option Caps)
  | endOfStream

/-- A receiver that writes down what it gets. -/
structure Recorder where
  answer : Flow := .ok
  /-- Whether samples are kept. -/
  keeps : Bool := false
  /-- What was written down, oldest first. -/
  records : List Record := []
  /-- The frames of the samples kept, oldest first. -/
  kept : List HandleId := []

namespace Recorder

/-- Looks at a sample through a view of its frame. -/
def look (s : Store) (x : Sample) : Record × Store :=
  match s.view x.frame with
  | .error e => (.sample (.error e) x.caps, s)
  | .ok (v, s) =>
    let (seen, s) := s.inspect v
    (.sample (.ok seen) x.caps, s.drop v)

/-- Takes an item. -/
def receive (r : Recorder) (s : Store) : Item → Flow × Recorder × Store
  | .endOfStream => (r.answer, { r with records := r.records ++ [.endOfStream] }, s)
  | .sample x =>
    let (record, s) := look s x
    let r := { r with records := r.records ++ [record] }
    if r.keeps then (r.answer, { r with kept := r.kept ++ [x.frame] }, s)
    else (r.answer, r, s.drop x.frame)

/-- Lets the oldest sample kept go; none if there is none. -/
def letGo? (r : Recorder) (s : Store) : Option (Recorder × Store) :=
  match r.kept with
  | [] => none
  | h :: rest => some ({ r with kept := rest }, s.drop h)

end Recorder

namespace Egress

/-- Delivers an item to the receiver.  Without one the item is dropped, and accepted all the same. -/
def deliver (e : Egress Recorder) (s : Store) (item : Item) : Flow × Egress Recorder × Store :=
  let e := match item with
    | .sample _ => e.countSample
    | .endOfStream => e
  match e.receiver, item with
  | some r, item =>
    let (f, r, s) := r.receive s item
    (f, e.register r, s)
  | none, .sample x => (.ok, e, s.drop x.frame)
  | none, .endOfStream => (.ok, e, s)

end Egress

end MediaBridge
