import MediaBridge.Bus
import MediaBridge.Boundary.Ingest

/-! # The loopback worker

The worker of a loopback pipeline takes frames from the ingest one by one, copies each into a
payload from its own pool, and hands the copy on.  Faults can be turned on while it works: it then
loses frames, stands still, or forgets correspondence ids.

`step?` is one step of the worker, and `answered` is how it goes on after what it handed on was
answered.  A worker without a next step waits: for frames, for a payload, for an answer, or for the
end of a standstill.
-/

namespace MediaBridge

/-- A change of a frame's bytes that keeps their number. -/
structure Transform where
  apply : ByteArray → ByteArray
  size_apply : ∀ b, (apply b).size = b.size

namespace Transform

/-- Turns every byte into its complement. -/
def invert : Transform := ⟨Bytes.inverted, Bytes.size_inverted⟩

/-- Turns the order of the bytes round. -/
def reverse : Transform := ⟨Bytes.reversed, Bytes.size_reversed⟩

end Transform

/-- How a loopback pipeline is made. -/
structure LoopbackOptions where
  name : String := "loopback"
  /-- How many copies may be in use at a time. -/
  poolCapacity : Nat := 4
  transform : Option Transform := none

namespace LoopbackOptions

/-- The bytes that come out for the bytes that go in. -/
def transformed (o : LoopbackOptions) (bytes : ByteArray) : ByteArray :=
  match o.transform with
  | none => bytes
  | some t => t.apply bytes

@[simp] theorem size_transformed (o : LoopbackOptions) (bytes : ByteArray) :
    (o.transformed bytes).size = bytes.size := by
  unfold transformed
  split
  · rfl
  · exact Transform.size_apply ..

end LoopbackOptions

/-- The faults of a loopback pipeline. -/
structure Faults where
  /-- One in this many frames is lost; zero for none. -/
  dropEvery : Nat := 0
  /-- Whether no frames are taken. -/
  stalled : Bool := false
  /-- Whether results come without their correspondence ids. -/
  stripsIds : Bool := false
  /-- Whether the pipeline refuses to play. -/
  refusesPlaying : Bool := false
  deriving DecidableEq, Repr, Inhabited

/-- Whether the `n`th frame is lost. -/
def Faults.drops (f : Faults) (n : Nat) : Bool := f.dropEvery ≠ 0 && n % f.dropEvery = 0

/-- What goes from a frame's info to that of its copy: the timing, and the id unless ids are
    forgotten. -/
def Faults.attach (f : Faults) (input output : FrameInfo) : FrameInfo :=
  { timing := input.timing, id := if f.stripsIds then output.id else input.id.or output.id }

/-- What a worker is doing. -/
inductive Activity where
  /-- It looks for a frame. -/
  | polling
  /-- It holds a frame and needs a payload to copy it into. -/
  | holding (input : HandleId)
  /-- It handed a sample on and waits for the answer. -/
  | delivering
  /-- It handed the end of the stream on and waits for the answer. -/
  | ending
  /-- It does nothing any more. -/
  | finished
  deriving DecidableEq, Repr, Inhabited

/-- A loopback worker. -/
structure Worker where
  /-- How many frames it has taken. -/
  pulled : Nat := 0
  /-- The pool for frames of the size it saw last. -/
  pool : Option PoolId := none
  activity : Activity := .polling
  deriving DecidableEq, Repr, Inhabited

/-- A step of a worker, with what it hands on. -/
structure WorkerStep where
  worker : Worker
  store : Store
  ingest : Ingest
  item : Option Item := none

/-- Fills a copy of a frame: its transformed bytes, its timing, and its id unless ids are forgotten.
    Both are left unmapped. -/
def Store.copyInto (s : Store) (o : LoopbackOptions) (f : Faults) (input output : HandleId) :
    Except Error Unit × Store :=
  match s.info input with
  | .error e => (.error e, s)
  | .ok info =>
    match s.mapRead input with
    | (.error e, s) => (.error e, s)
    | (.ok bytes, s) =>
      match s.write output 0 (o.transformed bytes) with
      | (.error e, s) => (.error e, s)
      | (.ok _, s) =>
        let s := (s.unmap output).unmap input
        match s.updateInfo output (f.attach info) with
        | .error e => (.error e, s)
        | .ok s => (.ok (), s)

namespace Worker

/-- The pool for frames of a size.  A pool for another size is given up. -/
def fitPool (w : Worker) (o : LoopbackOptions) (s : Store) (size : Nat) : Worker × Store :=
  match w.pool with
  | none =>
    let (p, s) := s.newPool size o.poolCapacity
    ({ w with pool := some p }, s)
  | some old =>
    if (s.pools.get? old).any (·.size = size) then (w, s)
    else
      let (p, s) := s.newPool size o.poolCapacity
      ({ w with pool := some p }, s.dropPool old)

/-- Goes on with a frame just taken: it is lost, or it cannot be read, or it is held. -/
def take (w : Worker) (o : LoopbackOptions) (f : Faults) (s : Store) (input : HandleId) :
    Worker × Store :=
  let w := { w with pulled := w.pulled + 1 }
  if f.drops w.pulled then (w, s.drop input)
  else
    match s.size input with
    -- it was counted all the same, so the frames lost later do not shift
    | (.error _, s) => (w, s.drop input)
    | (.ok size, s) =>
      let (w, s) := w.fitPool o s size
      ({ w with activity := .holding input }, s)

/-- The worker's next step; none while it waits.  Samples get the format given.  The end of the stream
    is noticed at once if the ingest is closed, and otherwise only when the wait for a frame has run
    out, which `waited` says. -/
def step? (w : Worker) (o : LoopbackOptions) (f : Faults) (s : Store) (p : Ingest)
    (caps : Option Caps) (waited : Bool) : Option WorkerStep :=
  match w.activity with
  | .polling =>
    if f.stalled then none
    else
      match p.pull s with
      | none =>
        -- a wait for frames ends early only when the ingest closes
        if p.isDrained && (p.flushing || waited) then
          some { worker := { w with activity := .ending }, store := s, ingest := p
                 item := some .endOfStream }
        else none
      | some (input, ingest, s) =>
        let (worker, store) := w.take o f s input
        some { worker, store, ingest }
  | .holding input =>
    match w.pool.bind s.acquire with
    -- every payload is in use; the worker holds on to its frame
    | none => none
    | some (output, s) =>
      match s.copyInto o f input output with
      | (.error _, s) =>
        some { worker := { w with activity := .polling }, store := (s.drop output).drop input
               ingest := p }
      | (.ok _, s) =>
        some { worker := { w with activity := .delivering }, store := s.drop input, ingest := p
               item := some (.sample ⟨output, caps⟩) }
  | _ => none

/-- Goes on after the answer to what was handed on, with the messages posted then.  A failing receiver
    ends the work, and so does the end of the stream. -/
def answered (w : Worker) (o : LoopbackOptions) (answer : Flow) : Worker × List Message :=
  match w.activity with
  | .delivering =>
    match answer with
    | .error =>
      ({ w with activity := .finished },
        [.error (.element (o.name ++ "-sink")) "egress callback reported an error" none])
    | _ => ({ w with activity := .polling }, [])
  | .ending => ({ w with activity := .finished }, [.endOfStream])
  | _ => (w, [])

/-- Whether something handed on is not answered yet. -/
def awaitsAnswer (w : Worker) : Bool :=
  match w.activity with
  | .delivering | .ending => true
  | _ => false

/-- Ends the work: the frame held and the pool are given up. -/
def quit (w : Worker) (s : Store) : Store :=
  let s := match w.activity with
    | .holding input => s.drop input
    | _ => s
  (w.pool.map s.dropPool).getD s

end Worker

end MediaBridge
