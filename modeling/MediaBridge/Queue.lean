/-! # The bounded output queue

Matched frames wait in a queue of fixed capacity until they are popped.  There are two ways to push:
`tryPush` looks at the room only and never waits; `push` waits for room, unless the queue drains, in
which case the item is handed back.

A waiting push looks at the queue again and again.  One look has two parts, each with its own reading
of the drain flag: `mustWait` decides whether the wait goes on, and `settle` what happens after it.
`push` is a look in which both readings agree.

The view of a queue is its list of `items`, oldest first:

* `items_tryPush`, `items_push` an accepted item comes last, and nothing else changes;
* `items_pop?`                  a popped item was the first.
-/

namespace MediaBridge

/-- A queue of at most `capacity` items. -/
structure BoundedQueue (α : Type u) where
  capacity : Nat
  /-- The queued items, oldest first. -/
  items : List α := []
  /-- Whether waiting pushes give up. -/
  draining : Bool := false
  deriving DecidableEq, Repr, Inhabited

/-- What one look at a queue makes of a push that may wait. -/
inductive Attempt (α : Type u) where
  /-- The item is in the queue. -/
  | accepted (queue : BoundedQueue α)
  /-- The item is handed back. -/
  | refused
  /-- There is no room yet. -/
  | waits
  deriving DecidableEq, Repr

namespace BoundedQueue

variable {α : Type u}

/-- The number of queued items. -/
def length (q : BoundedQueue α) : Nat := q.items.length

/-- Whether nothing is queued. -/
def isEmpty (q : BoundedQueue α) : Bool := q.items.isEmpty

/-- Whether there is no room. -/
def isFull (q : BoundedQueue α) : Bool := q.capacity ≤ q.items.length

/-- The queue with an item behind the others, whether or not there is room. -/
def append (q : BoundedQueue α) (x : α) : BoundedQueue α := { q with items := q.items ++ [x] }

/-- Queues an item if there is room. -/
def tryPush (q : BoundedQueue α) (x : α) : Option (BoundedQueue α) :=
  if q.isFull then none else some (q.append x)

/-- Whether a push keeps waiting, with the drain flag as it was read. -/
def mustWait (q : BoundedQueue α) (draining : Bool) : Bool := q.isFull && !draining

/-- The end of a push whose wait is over, with the drain flag as it was read after that. -/
def settle (q : BoundedQueue α) (draining : Bool) (x : α) : Attempt α :=
  if draining then .refused else .accepted (q.append x)

/-- One look at the queue by a push that may wait. -/
def push (q : BoundedQueue α) (x : α) : Attempt α :=
  if q.mustWait q.draining then .waits else q.settle q.draining x

/-- Takes the oldest item. -/
def pop? (q : BoundedQueue α) : Option (α × BoundedQueue α) :=
  match q.items with
  | [] => none
  | x :: rest => some (x, { q with items := rest })

/-- Throws every queued item away. -/
def clear (q : BoundedQueue α) : BoundedQueue α := { q with items := [] }

/-- Turns draining on or off. -/
def setDraining (q : BoundedQueue α) (draining : Bool) : BoundedQueue α := { q with draining }

/-! ## The items after each operation -/

@[simp] theorem items_append (q : BoundedQueue α) (x : α) :
    (q.append x).items = q.items ++ [x] := rfl

@[simp] theorem items_clear (q : BoundedQueue α) : q.clear.items = [] := rfl

@[simp] theorem items_setDraining (q : BoundedQueue α) (b : Bool) :
    (q.setDraining b).items = q.items := rfl

@[simp] theorem capacity_setDraining (q : BoundedQueue α) (b : Bool) :
    (q.setDraining b).capacity = q.capacity := rfl

/-- There is no room when as many items are queued as the capacity allows, or more. -/
theorem isFull_iff {q : BoundedQueue α} : q.isFull ↔ q.capacity ≤ q.items.length := by
  simp [isFull]

/-- A push that does not wait succeeds exactly when there is room. -/
theorem tryPush_eq_some_iff {q q' : BoundedQueue α} {x : α} :
    q.tryPush x = some q' ↔ q.items.length < q.capacity ∧ q' = q.append x := by
  simp only [tryPush, isFull, decide_eq_true_eq]
  split
  · simp; omega
  · simp only [Option.some.injEq, eq_comm, iff_and_self]; omega

/-- A push that may wait succeeds exactly when there is room and the queue does not drain. -/
theorem push_eq_accepted_iff {q q' : BoundedQueue α} {x : α} :
    q.push x = .accepted q' ↔
      q.items.length < q.capacity ∧ q.draining = false ∧ q' = q.append x := by
  -- whether the queue drains, and whether there is room
  cases h : q.draining <;> by_cases hf : q.capacity ≤ q.items.length
  · simp [push, mustWait, h, isFull, hf, Nat.not_lt.2 hf]
  · simp [push, mustWait, settle, h, isFull, hf, Nat.not_le.1 hf, eq_comm]
  · simp [push, mustWait, settle, h, isFull, hf]
  · simp [push, mustWait, settle, h, isFull, hf]

/-- A push that may wait hands its item back exactly when the queue drains. -/
theorem push_eq_refused_iff {q : BoundedQueue α} {x : α} : q.push x = .refused ↔ q.draining := by
  cases h : q.draining <;> by_cases hf : q.capacity ≤ q.items.length <;>
    simp [push, mustWait, settle, isFull, h, hf]

/-- A push waits exactly when there is no room and the queue does not drain. -/
theorem push_eq_waits_iff {q : BoundedQueue α} {x : α} :
    q.push x = .waits ↔ q.capacity ≤ q.items.length ∧ q.draining = false := by
  cases h : q.draining <;> by_cases hf : q.capacity ≤ q.items.length <;>
    simp [push, mustWait, settle, isFull, h, hf]

/-- An item that was accepted at once comes last. -/
theorem items_tryPush {q q' : BoundedQueue α} {x : α} (h : q.tryPush x = some q') :
    q'.items = q.items ++ [x] := by
  rw [(tryPush_eq_some_iff.1 h).2, items_append]

/-- An item that was accepted comes last. -/
theorem items_push {q q' : BoundedQueue α} {x : α} (h : q.push x = .accepted q') :
    q'.items = q.items ++ [x] := by
  rw [(push_eq_accepted_iff.1 h).2.2, items_append]

/-- A popped item was the first. -/
theorem items_pop? {q q' : BoundedQueue α} {x : α} (h : q.pop? = some (x, q')) :
    q.items = x :: q'.items := by
  unfold pop? at h
  split at h
  · exact absurd h (by simp)
  · rename_i e; cases h; exact e

@[simp] theorem pop?_eq_none_iff {q : BoundedQueue α} : q.pop? = none ↔ q.items = [] := by
  unfold pop?; split <;> simp_all

end BoundedQueue

end MediaBridge
