import MediaBridge.Correspondence.Bridge
import MediaBridge.Boundary.Ingest

/-! # The relay

A bridge together with the buffers and the ingest it works on: the way of a frame from its
submission into the pipeline, and of its result from the pipeline to the output queue.

A submission is registered, measured for the ingest, and then accepted or refused; it may wait before
the last step.  A delivery copies the result, matches it, and publishes it; it too may wait before the
last step.  `submit` and `deliver` go as far as they can and say whether they wait; `resume?` and
`publish?` are the last steps.
-/

namespace MediaBridge

/-- A registered submission. -/
structure Ticket where
  id : Nat
  /-- The size of the frame when it was registered. -/
  size : Nat
  frame : HandleId
  deriving DecidableEq, Repr

/-- What registering a submission came to. -/
inductive Registration where
  | failed (cause : Error)
  /-- Too many frames are in flight. -/
  | turnedAway
  | registered (ticket : Ticket)
  deriving DecidableEq, Repr

/-- How far a submission got. -/
inductive Submission where
  | done (result : Except Error Bool)
  /-- The ingest is full. -/
  | waits (ticket : Ticket) (offer : Offer)

/-- How far a delivery got. -/
inductive Delivery (α : Type u) where
  | done (result : Except Error Unit)
  /-- The output queue is full. -/
  | waits (m : Matched α)

/-- Whether an error says that a frame could not be read. -/
def Error.isUnreadable : Error → Bool
  | .map .. | .bufferReleased => true
  | _ => false

namespace Store

/-- Copies the frame of a sample, with its id, and drops the sample.  The answer is none if the frame
    carries no id. -/
def takePayload (s : Store) (frame : HandleId) :
    Except Error (Option (HandleId × Nat)) × Store :=
  match s.view frame with
  | .error e => (.error e, s.drop frame)
  | .ok (v, s) =>
    match s.info v with
    | .error e => (.error e, (s.drop v).drop frame)
    | .ok info =>
      match info.id with
      | none => (.ok none, (s.drop v).drop frame)
      | some id =>
        match s.deepCopy v with
        | (.error e, s) => (.error e, (s.drop v).drop frame)
        -- the sample's payload goes back to its pool before anything may wait
        | (.ok copy, s) => (.ok (some (copy, id)), (s.drop v).drop frame)

end Store

/-- A bridge with the buffers and the ingest it works on. -/
structure Relay (α : Type u) where
  store : Store := {}
  ingest : Ingest
  bridge : Bridge α

namespace Relay

variable {α : Type u}

/-- A relay with nothing under way, its ingest closed. -/
def new (s : Settings) (ingestMax : Nat) : Relay α :=
  { ingest := { maxBytes := ingestMax }, bridge := .new s }

/-! ## Submitting -/

/-- Registers a frame: its size is taken, it gets an id and an entry.  A frame that is not registered
    is dropped. -/
def register (r : Relay α) (frame : HandleId) (user : α) : Registration × Relay α :=
  match r.store.size frame with
  | (.error e, s) => (.failed e, { r with store := s.drop frame })
  | (.ok size, s) =>
    let s := s.unmap frame
    match s.info frame with
    | .error e => (.failed e, { r with store := s.drop frame })
    | .ok info =>
      if r.bridge.isInputFull then
        (.turnedAway, { r with store := s.drop frame, bridge := r.bridge.reject })
      else
        let id := r.bridge.pending.nextId
        match s.updateInfo frame (·.stamped info.timing id) with
        | .error e => (.failed e, { r with store := s.drop frame })
        | .ok s =>
          -- registered before it is pushed: the result may come back at once
          (.registered ⟨id, size, frame⟩,
            { r with store := s, bridge := r.bridge.enter info.timing user })

/-- Prepares a registered frame for the ingest.  A frame that cannot be read any more is refused. -/
def measure (r : Relay α) (t : Ticket) : Option Offer × Relay α :=
  match r.store.measure t.frame with
  | (none, store) => (none, { r with store, bridge := r.bridge.withdraw t.id })
  | (some o, store) => (some o, { r with store })

/-- Ends a registered submission with the ingest's answer; none while the ingest is full. -/
def resume? (r : Relay α) (t : Ticket) (o : Offer) : Option (Bool × Relay α) :=
  (r.ingest.settle? r.store o).map fun
    | (.ok, ingest, store) =>
      (true, { r with store, ingest, bridge := r.bridge.confirm t.size })
    | (_, ingest, store) =>
      (false, { r with store, ingest, bridge := r.bridge.withdraw t.id })

/-- Submits a frame, as far as that goes without waiting. -/
def submit (r : Relay α) (frame : HandleId) (user : α) : Submission × Relay α :=
  match r.register frame user with
  | (.failed e, r) => (.done (.error e), r)
  | (.turnedAway, r) => (.done (.ok false), r)
  | (.registered t, r) =>
    match r.measure t with
    | (none, r) => (.done (.ok false), r)
    | (some o, r) =>
      match r.resume? t o with
      | none => (.waits t o, r)
      | some (accepted, r) => (.done (.ok accepted), r)

/-- The result of a submission; none while it waits. -/
def finishSubmission? (r : Relay α) : Submission → Option (Except Error Bool × Relay α)
  | .done result => some (result, r)
  | .waits t o => (r.resume? t o).map fun (accepted, r) => (.ok accepted, r)

/-! ## Delivering -/

/-- Publishes a matched frame, or drops it; none while the output queue is full. -/
def publish? (r : Relay α) (m : Matched α) : Option (Relay α) :=
  (r.bridge.publish? m).map fun
    | (true, bridge) => { r with bridge }
    | (false, bridge) => { r with store := r.store.drop m.frame, bridge }

/-- Publishes a matched frame, as far as that goes without waiting. -/
def publish (r : Relay α) (m : Matched α) : Delivery α × Relay α :=
  match r.publish? m with
  | none => (.waits m, r)
  | some r => (.done (.ok ()), r)

/-- Matches the copy of a result with its entry. -/
def matchCopy (r : Relay α) (copy : HandleId) (id : Nat) : Delivery α × Relay α :=
  match r.store.size copy with
  | (.error e, s) =>
    (.done (.ok ()), { r with store := s.drop copy, bridge := r.bridge.dropUnreadable e })
  | (.ok size, s) =>
    let s := s.unmap copy
    match r.bridge.resolve id size with
    | (.unmatched, bridge) =>
      (.done (.ok ()), { r with store := s.drop copy, bridge := bridge.dropUnmatched id })
    | (.outOfOrder oldest, bridge) =>
      (.done (.error (.orderingViolation id oldest)), { r with store := s.drop copy, bridge })
    | (.found entry, bridge) =>
      match s.setTiming copy entry.timing with
      | .error e =>
        (.done (.ok ()), { r with store := s.drop copy, bridge := bridge.dropUnreadable e })
      | .ok s => { r with store := s, bridge }.publish ⟨copy, entry.user⟩

/-- Handles what a pipeline delivers, as far as that goes without waiting.  Only a result out of
    order is an error; any other result that does not fit is counted and dropped. -/
def deliver (r : Relay α) : Item → Delivery α × Relay α
  | .endOfStream => (.done (.ok ()), r)
  | .sample sample =>
    match r.store.takePayload sample.frame with
    | (.error e, store) =>
      if e.isUnreadable then
        (.done (.ok ()), { r with store, bridge := r.bridge.dropUnreadable e })
      else (.done (.error e), { r with store })
    | (.ok none, store) =>
      (.done (.ok ()), { r with store, bridge := r.bridge.dropUncorrelated })
    | (.ok (some (copy, id)), store) => { r with store }.matchCopy copy id

/-- The result of a delivery; none while it waits. -/
def finishDelivery? (r : Relay α) : Delivery α → Option (Except Error Unit × Relay α)
  | .done result => some (result, r)
  | .waits m => (r.publish? m).map (.ok (), ·)

/-! ## Taking frames out -/

/-- Takes the oldest matched frame. -/
def pop? (r : Relay α) : Option (Matched α × Relay α) :=
  r.bridge.output.pop?.map fun (m, output) => (m, { r with bridge := { r.bridge with output } })

/-- Drops every matched frame. -/
def clear (r : Relay α) : Relay α :=
  { r with
    store := r.store.dropAll (r.bridge.output.items.map (·.frame))
    bridge := { r.bridge with output := r.bridge.output.clear } }

/-- Takes the oldest frame from the ingest. -/
def pull? (r : Relay α) : Option (HandleId × Relay α) :=
  (r.ingest.pull r.store).map fun (h, ingest, store) => (h, { r with ingest, store })

/-! ## Between runs -/

/-- Closes or opens the ingest. -/
def setFlushing (r : Relay α) (flushing : Bool) : Relay α :=
  let set := r.ingest.setFlushing r.store flushing
  { r with ingest := set.1, store := set.2 }

/-- Announces that no frames will follow. -/
def endStream (r : Relay α) : Relay α := { r with ingest := r.ingest.endStream }

/-- Lets waiting publications give up, or wait again. -/
def setDraining (r : Relay α) (draining : Bool) : Relay α :=
  { r with bridge := r.bridge.setDraining draining }

/-- Forgets every pending entry; the answer is how many there were. -/
def resetPending (r : Relay α) : Nat × Relay α :=
  let reset := r.bridge.resetPending
  (reset.1, { r with bridge := reset.2 })

/-- Adds a notice. -/
def note (r : Relay α) (n : Notice) : Relay α := { r with bridge := r.bridge.note n }

/-- Takes the notices out of the journal. -/
def takeJournal (r : Relay α) : List Notice × Relay α :=
  (r.bridge.journal, { r with bridge := { r.bridge with journal := [] } })

end Relay

end MediaBridge
