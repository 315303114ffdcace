/-! # Reader and writer locks

The bytes of a buffer are guarded by a lock with any number of readers or one writer.  Taking the
lock never waits: it succeeds at once or not at all.

* `tryRead_eq_some_iff`   a reader gets in exactly when there is no writer;
* `tryWrite_eq_some_iff`  a writer gets in exactly when nobody is there.
-/

namespace MediaBridge

/-- How a handle maps its buffer. -/
inductive Mapping where
  | unmapped
  | readable
  | writable
  deriving DecidableEq, Repr, Inhabited

/-- The name of a mapping. -/
def Mapping.name : Mapping → String
  | unmapped => "Unmapped"
  | readable => "Readable"
  | writable => "Writable"

/-- Who holds a lock: a number of readers, or a writer.  It is free with no readers. -/
inductive Lock where
  | readers (n : Nat)
  | writer
  deriving DecidableEq, Repr, Inhabited

namespace Lock

/-- The lock that nobody holds. -/
def free : Lock := readers 0

/-- Lets a reader in, unless there is a writer. -/
def tryRead : Lock → Option Lock
  | readers n => some (readers (n + 1))
  | writer => none

/-- Lets a writer in, if nobody is there. -/
def tryWrite : Lock → Option Lock
  | readers 0 => some writer
  | _ => none

/-- The lock after a handle with a mapping gave it back. -/
def leave : Lock → Mapping → Lock
  | readers n, .readable => readers (n - 1)
  | _, .writable => free
  | l, _ => l

/-- A reader gets in exactly when there is no writer, and is one more. -/
theorem tryRead_eq_some_iff {l l' : Lock} :
    l.tryRead = some l' ↔ ∃ n, l = readers n ∧ l' = readers (n + 1) := by
  cases l <;> simp [tryRead, eq_comm]

/-- A writer gets in exactly when nobody is there. -/
theorem tryWrite_eq_some_iff {l l' : Lock} : l.tryWrite = some l' ↔ l = free ∧ l' = writer := by
  cases l with
  | readers n => cases n <;> simp [tryWrite, free, eq_comm]
  | writer => simp [tryWrite, free]

@[simp] theorem tryRead_eq_none_iff {l : Lock} : l.tryRead = none ↔ l = writer := by
  cases l <;> simp [tryRead]

@[simp] theorem tryWrite_eq_none_iff {l : Lock} : l.tryWrite = none ↔ l ≠ free := by
  cases l with
  | readers n => cases n <;> simp [tryWrite, free]
  | writer => simp [tryWrite, free]

end Lock

end MediaBridge
