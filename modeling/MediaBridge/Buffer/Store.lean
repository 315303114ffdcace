import MediaBridge.Buffer.Lock
import MediaBridge.Buffer.Pool
import MediaBridge.Error
import MediaBridge.Table
import MediaBridge.Timing

/-! # The buffer store

Frames live in buffers, and everybody who works with a buffer does so through a handle.  A store
holds all of them as one value:

* a *buffer* has bytes behind a lock, frame info, and a number of owners;
* a *handle* either owns its buffer or borrows it, and at any time maps it not at all, readable or
  writable; a handle that was released refers to nothing;
* a *reference* owns a buffer without giving access to its bytes;
* a *pool* lends the payloads of some buffers.

A buffer dies with its last owner: its payload goes back to the pool it came from, and borrowing
handles find nothing any more.  A handle that still maps the buffer at that moment keeps the lock and
the bytes for as long as the mapping lasts, and the pool gets a fresh payload instead.

Operations that can fail return their result with the store they leave behind; a failed operation
may have changed the store, as when a mapping was given up before a stronger one was refused.

* `mapRead_ok_iff`, `mapWrite_ok_iff` say when a mapping succeeds.
-/

namespace MediaBridge

abbrev BufferId := Nat
abbrev HandleId := Nat
abbrev ReferenceId := Nat
abbrev PoolId := Nat

/-- The storage of one frame. -/
structure Buffer where
  bytes : ByteArray
  lock : Lock := .free
  /-- How many handles and references own the buffer. -/
  owners : Nat := 1
  info : FrameInfo := {}
  /-- The pool that lent the payload. -/
  pool : Option PoolId := none

/-- What a handle refers to. -/
structure Target where
  buffer : BufferId
  /-- Whether the handle keeps the buffer alive. -/
  owning : Bool
  deriving DecidableEq, Repr

/-- Access to a buffer. -/
structure Handle where
  /-- The buffer; none once the handle is released. -/
  target : Option Target
  mapping : Mapping := .unmapped
  deriving DecidableEq, Repr

/-- Whether a handle keeps its buffer alive. -/
def Handle.owns (h : Handle) : Bool := h.target.any (·.owning)

/-- Whether a handle was released. -/
def Handle.isReleased (h : Handle) : Bool := h.target.isNone

/-- All buffers with those who work with them. -/
structure Store where
  buffers : Table Buffer := .empty
  handles : Table Handle := .empty
  references : Table BufferId := .empty
  pools : Table Pool := .empty
  deriving Inhabited

namespace Store

/-! ## Looking at a store -/

/-- A handle; one that is not in the store counts as released. -/
def handle (s : Store) (h : HandleId) : Handle := (s.handles.get? h).getD { target := none }

/-- Whether a buffer has an owner. -/
def isAlive (s : Store) (b : BufferId) : Bool := (s.buffers.get? b).any (0 < ·.owners)

/-- The buffer of a handle, as long as the handle is not released and the buffer is alive. -/
def live? (s : Store) (h : HandleId) : Option BufferId :=
  (s.handle h).target.bind fun t => if s.isAlive t.buffer then some t.buffer else none

/-- The bytes of a buffer. -/
def bytes (s : Store) (b : BufferId) : ByteArray := ((s.buffers.get? b).map (·.bytes)).getD .empty

/-! ## The end of a buffer -/

/-- Removes a buffer that has no owner and is not mapped. -/
def sweep (s : Store) (b : BufferId) : Store :=
  match s.buffers.get? b with
  | none => s
  | some x =>
    if x.owners = 0 ∧ x.lock = .free then { s with buffers := s.buffers.erase b } else s

/-- Gives a payload back to the pool it came from.  A payload that is still mapped cannot be taken
    away, so the pool gets an empty one to fill. -/
def recycle (s : Store) (x : Buffer) : Store :=
  match x.pool with
  | none => s
  | some p =>
    { s with pools := s.pools.update p (·.put (if x.lock = .free then x.bytes else .empty)) }

/-- Takes an owner from a buffer. -/
def disown (s : Store) (b : BufferId) : Store :=
  match s.buffers.get? b with
  | none => s
  | some x =>
    let left := { s with buffers := s.buffers.set b { x with owners := x.owners - 1 } }
    -- the last owner: what the pool lent goes home before the buffer is removed
    if x.owners ≤ 1 then (left.recycle x).sweep b else left

/-- Gives a buffer another owner. -/
def adopt (s : Store) (b : BufferId) : Store :=
  { s with buffers := s.buffers.update b fun x => { x with owners := x.owners + 1 } }

/-! ## Making frames -/

/-- Adds a handle. -/
def addHandle (s : Store) (h : Handle) : HandleId × Store :=
  let (id, handles) := s.handles.add h
  (id, { s with handles })

/-- A new buffer with one owner, and a handle that owns it. -/
def newBuffer (s : Store) (x : Buffer) : HandleId × Store :=
  let (b, buffers) := s.buffers.add x
  { s with buffers }.addHandle { target := some ⟨b, true⟩ }

/-- A new frame with a payload. -/
def newFrame (s : Store) (bytes : ByteArray) : HandleId × Store := s.newBuffer { bytes }

/-- A new frame with a payload, held by a reference. -/
def newReference (s : Store) (bytes : ByteArray) : ReferenceId × Store :=
  let (b, buffers) := s.buffers.add { bytes }
  let (r, references) := s.references.add b
  (r, { s with buffers, references })

/-- A handle that borrows a buffer. -/
def borrow (s : Store) (b : BufferId) : HandleId × Store :=
  s.addHandle { target := some ⟨b, false⟩ }

/-- A handle that owns a buffer together with its other owners. -/
def own (s : Store) (b : BufferId) : HandleId × Store :=
  (s.adopt b).addHandle { target := some ⟨b, true⟩ }

/-! ## Mapping -/

/-- Gives a handle's mapping up. -/
def unmap (s : Store) (h : HandleId) : Store :=
  let x := s.handle h
  match x.target with
  | none => s
  | some t =>
    if x.mapping = .unmapped then s
    else
      { s with
        handles := s.handles.set h { x with mapping := .unmapped }
        buffers := s.buffers.update t.buffer fun y => { y with lock := y.lock.leave x.mapping }
      }.sweep t.buffer

/-- Records that a handle now maps a buffer whose lock became `l`. -/
def mapped (s : Store) (h : HandleId) (b : BufferId) (m : Mapping) (l : Lock) : Store :=
  { s with
    handles := s.handles.update h fun x => { x with mapping := m }
    buffers := s.buffers.update b fun x => { x with lock := l } }

/-- The lock of a buffer. -/
def lock (s : Store) (b : BufferId) : Lock := ((s.buffers.get? b).map (·.lock)).getD .free

/-- The bytes that a mapped handle shows. -/
def mappedBytes (s : Store) (h : HandleId) : Except Error ByteArray :=
  match (s.handle h).target with
  | some t => .ok (s.bytes t.buffer)
  | none => .error .bufferReleased

/-- Maps a handle readable and shows its bytes.  A handle that maps its buffer already, readable or
    writable, stays as it is. -/
def mapRead (s : Store) (h : HandleId) : Except Error ByteArray × Store :=
  if (s.handle h).mapping = .unmapped then
    match s.live? h with
    | none => (.error (.map .read .gone), s)
    | some b =>
      match (s.lock b).tryRead with
      | none => (.error (.map .read .heldWritable), s)
      | some l => (.ok (s.bytes b), s.mapped h b .readable l)
  else (s.mappedBytes h, s)

/-- Maps a handle writable and shows its bytes.  A readable mapping is given up first, also if the
    writable one is then refused. -/
def mapWrite (s : Store) (h : HandleId) : Except Error ByteArray × Store :=
  if (s.handle h).mapping = .writable then (s.mappedBytes h, s)
  else
    -- a handle does not stand in its own way
    let s := s.unmap h
    match s.live? h with
    | none => (.error (.map .write .gone), s)
    | some b =>
      match (s.lock b).tryWrite with
      | none => (.error (.map .write .held), s)
      | some l => (.ok (s.bytes b), s.mapped h b .writable l)

/-- Maps a handle writable and overwrites its bytes from `start` on; shows the bytes after that. -/
def write (s : Store) (h : HandleId) (start : Nat) (new : ByteArray) :
    Except Error ByteArray × Store :=
  match s.mapWrite h with
  | (.error e, s) => (.error e, s)
  | (.ok old, s) =>
    match (s.handle h).target with
    | none => (.ok old, s)
    | some t =>
      let bytes := Bytes.patched old start new
      (.ok bytes, { s with buffers := s.buffers.update t.buffer fun x => { x with bytes } })

/-- The size of a handle's payload; an unmapped handle is mapped readable. -/
def size (s : Store) (h : HandleId) : Except Error Nat × Store :=
  match s.mapRead h with
  | (.error e, s) => (.error e, s)
  | (.ok bytes, s) => (.ok bytes.size, s)

/-! ## Letting go -/

/-- Gives up a handle's mapping and its buffer.  Doing so again changes nothing. -/
def release (s : Store) (h : HandleId) : Store :=
  let s := s.unmap h
  match (s.handle h).target with
  | none => s
  | some t =>
    -- the handle forgets its buffer before the buffer loses an owner
    let left := { s with handles := s.handles.set h { target := none } }
    if t.owning then left.disown t.buffer else left

/-- Releases a handle and forgets it. -/
def drop (s : Store) (h : HandleId) : Store :=
  let s := s.release h
  { s with handles := s.handles.erase h }

/-- Releases and forgets several handles, in order. -/
def dropAll (s : Store) (hs : List HandleId) : Store := hs.foldl drop s

/-- Forgets a reference. -/
def dropReference (s : Store) (r : ReferenceId) : Store :=
  match s.references.get? r with
  | none => s
  | some b => { s with references := s.references.erase r }.disown b

/-! ## Frame info -/

/-- The info of a buffer. -/
def infoOf (s : Store) (b : BufferId) : FrameInfo := ((s.buffers.get? b).map (·.info)).getD {}

/-- Changes the info of a buffer. -/
def setInfoOf (s : Store) (b : BufferId) (i : FrameInfo) : Store :=
  { s with buffers := s.buffers.update b fun x => { x with info := i } }

/-- The info of a handle's buffer. -/
def info (s : Store) (h : HandleId) : Except Error FrameInfo :=
  match s.live? h with
  | none => .error .bufferReleased
  | some b => .ok (s.infoOf b)

/-- Changes the info of a handle's buffer. -/
def updateInfo (s : Store) (h : HandleId) (f : FrameInfo → FrameInfo) : Except Error Store :=
  match s.live? h with
  | none => .error .bufferReleased
  | some b => .ok (s.setInfoOf b (f (s.infoOf b)))

/-- Overwrites the timing of a handle's buffer. -/
def setTiming (s : Store) (h : HandleId) (t : Timing) : Except Error Store :=
  s.updateInfo h (·.withTiming t)

/-- Attaches a correspondence id to a handle's buffer. -/
def setId (s : Store) (h : HandleId) (id : Nat) : Except Error Store := s.updateInfo h (·.withId id)

/-! ## Views and copies -/

/-- A handle that borrows what another handle refers to. -/
def view (s : Store) (h : HandleId) : Except Error (HandleId × Store) :=
  match s.live? h with
  | none => .error .bufferReleased
  | some b => .ok (s.borrow b)

/-- A reference to what a handle refers to. -/
def reference (s : Store) (h : HandleId) : Except Error (ReferenceId × Store) :=
  match s.live? h with
  | none => .error .bufferReleased
  | some b =>
    let s := s.adopt b
    let (r, references) := s.references.add b
    .ok (r, { s with references })

/-- Copies payload and info into a new buffer that no pool lends, and returns a handle that owns it.
    The handle copied from is mapped as before. -/
def deepCopy (s : Store) (h : HandleId) : Except Error HandleId × Store :=
  match s.info h with
  | .error e => (.error e, s)
  | .ok info =>
    let wasUnmapped := (s.handle h).mapping = .unmapped
    match s.mapRead h with
    | (.error e, s) => (.error e, s)
    | (.ok bytes, s) =>
      -- the copy is made while the bytes are mapped, so only now may the mapping go
      let s := if wasUnmapped then s.unmap h else s
      let (c, s) := s.newBuffer { bytes, info }
      (.ok c, s)

/-! ## Pools -/

/-- Adds a pool. -/
def newPool (s : Store) (size capacity : Nat) : PoolId × Store :=
  let (p, pools) := s.pools.add (.new size capacity)
  (p, { s with pools })

/-- A frame whose payload a pool lends, and a handle that owns it; none if all is lent. -/
def acquire (s : Store) (p : PoolId) : Option (HandleId × Store) :=
  match (s.pools.get? p).bind Pool.take? with
  | none => none
  | some (bytes, pool) =>
    some ({ s with pools := s.pools.set p pool }.newBuffer { bytes, pool := some p })

/-- Forgets a pool; what it lent stays with the borrowers. -/
def dropPool (s : Store) (p : PoolId) : Store := { s with pools := s.pools.erase p }

/-! ## When mapping succeeds -/

theorem mapRead_ok_iff {s : Store} {h : HandleId} (hu : (s.handle h).mapping = .unmapped) :
    (∃ bytes, (s.mapRead h).1 = .ok bytes) ↔ ∃ b, s.live? h = some b ∧ s.lock b ≠ .writer := by
  rw [mapRead, if_pos hu]
  cases hl : s.live? h with
  | none => simp
  | some b =>
    simp only [Option.some.injEq, exists_eq_left', ne_eq, ← Lock.tryRead_eq_none_iff]
    cases (s.lock b).tryRead <;> simp

theorem mapWrite_ok_iff {s : Store} {h : HandleId} (hw : (s.handle h).mapping ≠ .writable) :
    (∃ bytes, (s.mapWrite h).1 = .ok bytes) ↔
      ∃ b, (s.unmap h).live? h = some b ∧ (s.unmap h).lock b = .free := by
  simp only [mapWrite, if_neg hw]
  cases hl : (s.unmap h).live? h with
  | none => simp
  | some b =>
    have := @Lock.tryWrite_eq_none_iff ((s.unmap h).lock b)
    simp only [Option.some.injEq, exists_eq_left']
    cases hr : ((s.unmap h).lock b).tryWrite <;> simp_all

end Store

end MediaBridge
