import MediaBridge.Boundary.Basic

/-! # The ingest

Frames wait here in the order they were pushed until the pipeline pulls them.  An ingest that flushes
holds nothing and accepts nothing, one whose stream is over accepts nothing, and one that holds
`maxBytes` or more lets a push wait.

A push has two steps, because it may wait in between: `measure` takes the size of the frame and
leaves it unmapped, and `Ingest.answer?` answers the offer once it can.

* `answer?_eq_none_iff` a push waits exactly while the ingest is open and holds `maxBytes` or more;
* `settle?_cases`       what becomes of an offer that is answered;
* `pull_cases`          what a pull takes;
* `queue_accept`        an accepted frame comes last.
-/

namespace MediaBridge

/-- A frame offered to an ingest, with the size it had. -/
structure Offer where
  frame : HandleId
  size : Nat
  deriving DecidableEq, Repr, Inhabited

/-- Prepares a frame for a push.  A frame that cannot be read is dropped. -/
def Store.measure (s : Store) (h : HandleId) : Option Offer × Store :=
  match s.size h with
  | (.error _, s) => (none, s.drop h)
  | (.ok size, s) => (some ⟨h, size⟩, s.unmap h)

/-- The place where frames enter a pipeline. -/
structure Ingest where
  /-- Queued bytes at which a push has to wait. -/
  maxBytes : Nat
  /-- The queued frames, oldest first. -/
  queue : List HandleId := []
  /-- The bytes of the queued frames. -/
  queuedBytes : Nat := 0
  /-- The format of the frames. -/
  caps : Option Caps := none
  /-- Whether nothing is let in. -/
  flushing : Bool := true
  /-- Whether no frames will follow. -/
  ended : Bool := false
  /-- How many frames were ever accepted. -/
  totalPushed : Nat := 0
  deriving DecidableEq, Inhabited

namespace Ingest

/-- The answer to an offer at this moment; none while the push has to wait. -/
def answer? (p : Ingest) : Option Flow :=
  -- a closed ingest answers at once, however much it holds
  if p.flushing then some .flushing
  else if p.ended then some .ended
  else if p.maxBytes ≤ p.queuedBytes then none
  else some .ok

/-- Queues an offered frame. -/
def accept (p : Ingest) (o : Offer) : Ingest :=
  { p with
    queue := p.queue ++ [o.frame]
    queuedBytes := p.queuedBytes + o.size
    totalPushed := p.totalPushed + 1 }

/-- Answers an offer: the frame is queued or dropped.  None while the push has to wait. -/
def settle? (p : Ingest) (s : Store) (o : Offer) : Option (Flow × Ingest × Store) :=
  p.answer?.map fun
    | .ok => (.ok, p.accept o, s)
    | flow => (flow, p, s.drop o.frame)

/-- Takes the oldest frame, unmapped.  What it frees is measured now; a frame that cannot be read
    any more frees nothing. -/
def pull (p : Ingest) (s : Store) : Option (HandleId × Ingest × Store) :=
  match p.queue with
  | [] => none
  | h :: rest =>
    let (size, s) := s.size h
    -- the owner of a borrowed frame may have gone in the meantime
    let freed := size.toOption.getD 0
    some (h, { p with queue := rest, queuedBytes := p.queuedBytes - freed }, s.unmap h)

/-- Closes the ingest and drops what it holds. -/
def close (p : Ingest) (s : Store) : Ingest × Store :=
  ({ p with flushing := true, queue := [], queuedBytes := 0 }, s.dropAll p.queue)

/-- Opens the ingest for a new stream. -/
def reopen (p : Ingest) : Ingest := { p with flushing := false, ended := false }

/-- Closes or opens the ingest. -/
def setFlushing (p : Ingest) (s : Store) (flushing : Bool) : Ingest × Store :=
  if flushing then p.close s else (p.reopen, s)

/-- Announces that no frames will follow. -/
def endStream (p : Ingest) : Ingest := { p with ended := true }

/-- Records the format of the frames. -/
def setCaps (p : Ingest) (c : Caps) : Ingest := { p with caps := some c }

/-- Whether the stream is over and everything was pulled. -/
def isDrained (p : Ingest) : Bool := p.ended && p.queue.isEmpty

/-! ## The answer and the queue -/

theorem answer?_eq_none_iff {p : Ingest} :
    p.answer? = none ↔ p.flushing = false ∧ p.ended = false ∧ p.maxBytes ≤ p.queuedBytes := by
  unfold answer?
  repeat' split
  all_goals simp_all

theorem answer?_eq_ok_iff {p : Ingest} :
    p.answer? = some .ok ↔ p.flushing = false ∧ p.ended = false ∧ p.queuedBytes < p.maxBytes := by
  unfold answer?
  repeat' split
  all_goals simp_all

/-- The frame of an offer that is answered is queued if the answer is `ok`, and dropped otherwise. -/
theorem settle?_cases {p p' : Ingest} {s s' : Store} {o : Offer} {flow : Flow}
    (h : p.settle? s o = some (flow, p', s')) :
    flow = .ok ∧ p' = p.accept o ∧ s' = s ∨ flow ≠ .ok ∧ p' = p ∧ s' = s.drop o.frame := by
  unfold settle? at h
  cases ha : p.answer? with
  | none =>
    rw [ha] at h
    exact nomatch h
  | some answer =>
    rw [ha] at h
    cases answer with
    | ok =>
      cases h
      exact .inl ⟨rfl, rfl, rfl⟩
    | flushing | ended | error =>
      cases h
      exact .inr ⟨nofun, rfl, rfl⟩

/-- A pull takes the oldest frame off the queue, and off the count what the frame measures now. -/
theorem pull_cases {p p' : Ingest} {s s' : Store} {h : HandleId} (hpull : p.pull s = some (h, p', s')) :
    ∃ rest, p.queue = h :: rest ∧ s' = (s.size h).2.unmap h ∧
      p' = { p with
        queue := rest, queuedBytes := p.queuedBytes - (s.size h).1.toOption.getD 0 } := by
  unfold pull at hpull
  cases hqueue : p.queue with
  | nil =>
    rw [hqueue] at hpull
    exact nomatch hpull
  | cons oldest rest =>
    rw [hqueue] at hpull
    cases hpull
    exact ⟨rest, rfl, rfl, rfl⟩

@[simp] theorem queue_accept (p : Ingest) (o : Offer) :
    (p.accept o).queue = p.queue ++ [o.frame] := rfl

@[simp] theorem queue_close (p : Ingest) (s : Store) : (p.close s).1.queue = [] := rfl

@[simp] theorem queue_reopen (p : Ingest) : p.reopen.queue = p.queue := rfl

end Ingest

end MediaBridge
