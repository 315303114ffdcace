import MediaBridge.Buffer.Store
import MediaBridge.Correspondence.Notice
import MediaBridge.Correspondence.Pending
import MediaBridge.Health
import MediaBridge.Queue
import MediaBridge.Settings.Basic
import MediaBridge.Throttle

/-! # The correspondence bridge

The part of a bridge that needs no access to buffers: pending entries, the output queue, the health
counters, and the notices with their throttles.  Each step of a submission and of a delivery is an
operation of its own, since other threads may act between them; `Relay` puts them together.

* `enter`                 registers a frame, giving up the oldest entry if too many wait;
* `withdraw`, `confirm`   end a submission that the ingest refused or accepted;
* `resolve`               takes the entry for a result;
* `publish?`              hands a matched frame over to the output queue.
-/

namespace MediaBridge

/-- A frame that came back, with what its submitter left for it. -/
structure Matched (α : Type u) where
  frame : HandleId
  user : α
  deriving DecidableEq, Repr

/-- A bridge between submissions and results. -/
structure Bridge (α : Type u) where
  policy : DiscardPolicy
  /-- Entries above which submissions are turned away, if the input gives way. -/
  maxInput : Nat
  /-- Entries above which the oldest one is given up. -/
  maxPending : Nat
  pending : Pending α := {}
  output : BoundedQueue (Matched α)
  health : Health := {}
  evictionReports : Throttle
  dropReports : Throttle
  missingIdReports : Throttle
  /-- The notices so far, oldest first. -/
  journal : List Notice := []

namespace Bridge

variable {α : Type u}

/-- A bridge with nothing under way. -/
def new (s : Settings) : Bridge α where
  policy := s.discardPolicy
  maxInput := s.maxInputQueue.toNat
  maxPending := s.maxPending.toNat
  output := { capacity := s.maxOutputQueue.toNat }
  evictionReports := .new s.frameDropReportRate.toNat
  dropReports := .new s.frameDropReportRate.toNat
  missingIdReports := .new s.correspondenceFailReportRate.toNat

/-- Adds a notice. -/
def note (b : Bridge α) (n : Notice) : Bridge α := { b with journal := b.journal ++ [n] }

/-- Adds a notice that is due. -/
def noteIf (b : Bridge α) (due : Bool) (n : Notice) : Bridge α := if due then b.note n else b

/-- Raises a counter by `n`. -/
def count (b : Bridge α) (c : Counter) (n : Nat) : Bridge α :=
  { b with health := b.health.add c n }

/-! ## Submissions -/

/-- Whether submissions are turned away. -/
def isInputFull (b : Bridge α) : Bool :=
  b.policy = .discardInput && b.maxInput ≤ b.pending.length

/-- Counts a submission that was turned away. -/
def reject (b : Bridge α) : Bridge α := b.count .rejections 1

/-- Gives the oldest entry up and counts it; one in so many is reported. -/
def evict (b : Bridge α) : Bridge α :=
  let hit := b.evictionReports.hit
  ({ b with pending := b.pending.evict, evictionReports := hit.1 }.count .evictions 1).noteIf
    hit.2 (.evicted hit.1.every)

/-- Registers a frame under the next id. -/
def enter (b : Bridge α) (timing : Timing) (user : α) : Bridge α :=
  let entered := { b with pending := b.pending.register timing user }
  if b.maxPending < entered.pending.length then entered.evict else entered

/-- Takes the registration of a frame that the ingest refused back. -/
def withdraw (b : Bridge α) (id : Nat) : Bridge α :=
  { b with pending := b.pending.withdraw id }.reject

/-- Counts a frame of `size` bytes that the ingest accepted. -/
def confirm (b : Bridge α) (size : Nat) : Bridge α :=
  { b with health := b.health.recordSubmit size }

/-! ## Results -/

/-- Counts a result that could not be read. -/
def dropUnreadable (b : Bridge α) (cause : Error) : Bridge α :=
  (b.count .unreadable 1).note (.unreadable cause)

/-- Counts a result without an id; one in so many is reported. -/
def dropUncorrelated (b : Bridge α) : Bridge α :=
  let hit := b.missingIdReports.hit
  ({ b with missingIdReports := hit.1 }.count .uncorrelated 1).noteIf hit.2 .noCorrespondence

/-- Takes the entry for a result of `size` bytes, and counts the entries passed over. -/
def resolve (b : Bridge α) (id size : Nat) : Match α × Bridge α :=
  let c := b.pending.resolve id
  (c.1.result, ({ b with pending := c.2 }.count .bytesOut size).count .stale c.1.stale)

/-- Counts a result for which nothing was pending. -/
def dropUnmatched (b : Bridge α) (id : Nat) : Bridge α :=
  (b.count .unmatched 1).note (.nothingPending id)

/-- Counts a matched frame that found no room; one in so many is reported. -/
def dropOutput (b : Bridge α) : Bridge α :=
  let hit := b.dropReports.hit
  ({ b with dropReports := hit.1 }.count .outputDrops 1).noteIf hit.2
    (.outputDropped hit.1.every)

/-- Hands a matched frame over to the output queue.  The flag says whether the queue took it; the
    answer is none while the bridge has to wait for room. -/
def publish? (b : Bridge α) (m : Matched α) : Option (Bool × Bridge α) :=
  match b.policy with
  | .discardOutput =>
    match b.output.tryPush m with
    | some output => some (true, { b with output }.count .delivered 1)
    | none => some (false, b.dropOutput)
  | .discardInput =>
    match b.output.push m with
    | .accepted output => some (true, { b with output }.count .delivered 1)
    | .refused => some (false, b.dropOutput)
    | .waits => none

/-- Whether a matched frame would have to wait for room. -/
def isBlocked (b : Bridge α) : Bool :=
  b.policy = .discardInput && b.output.isFull && !b.output.draining

/-! ## Between runs -/

/-- Lets waiting publications give up, or wait again. -/
def setDraining (b : Bridge α) (draining : Bool) : Bridge α :=
  { b with output := b.output.setDraining draining }

/-- Forgets every pending entry and counts them; the answer is how many there were. -/
def resetPending (b : Bridge α) : Nat × Bridge α :=
  let dropped := b.pending.length
  (dropped, { b with pending := b.pending.reset }.count .stale dropped)

/-! ## The pending entries after each step -/

@[simp] theorem pending_note (b : Bridge α) (n : Notice) : (b.note n).pending = b.pending := rfl

@[simp] theorem pending_count (b : Bridge α) (c : Counter) (n : Nat) :
    (b.count c n).pending = b.pending := rfl

@[simp] theorem pending_noteIf (b : Bridge α) (due : Bool) (n : Notice) :
    (b.noteIf due n).pending = b.pending := by cases due <;> rfl

@[simp] theorem pending_evict (b : Bridge α) : b.evict.pending = b.pending.evict :=
  pending_noteIf ..

@[simp] theorem pending_enter (b : Bridge α) (timing : Timing) (user : α) :
    (b.enter timing user).pending =
      if b.maxPending < (b.pending.register timing user).length then
        (b.pending.register timing user).evict
      else b.pending.register timing user := by
  rw [enter, apply_ite pending, pending_evict]

@[simp] theorem pending_withdraw (b : Bridge α) (id : Nat) :
    (b.withdraw id).pending = b.pending.withdraw id := rfl

@[simp] theorem pending_resolve (b : Bridge α) (id size : Nat) :
    (b.resolve id size).2.pending = (b.pending.resolve id).2 := rfl

@[simp] theorem pending_dropOutput (b : Bridge α) : b.dropOutput.pending = b.pending :=
  pending_noteIf ..

end Bridge

end MediaBridge
