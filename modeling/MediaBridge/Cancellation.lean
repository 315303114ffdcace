/-! # Stop signals

A stop signal is shared by all its copies: once one of them is raised, every copy is.  A
`Cancellation` holds the signals of a program and knows which of them are copies of one another.

* `isRaised_copy`  a copy is raised exactly when its model is;
* `isRaised_raise` raising reaches the copies and nothing else.
-/

namespace MediaBridge

/-- A set of stop signals, each known by its position. -/
structure Cancellation where
  /-- For each signal the group of copies it belongs to. -/
  groups : List Nat := []
  /-- The groups that were raised. -/
  raised : List Nat := []
  deriving DecidableEq, Repr, Inhabited

namespace Cancellation

/-- The number of signals. -/
def size (c : Cancellation) : Nat := c.groups.length

/-- Adds a signal of its own, not raised; its position is the old `size`. -/
def add (c : Cancellation) : Cancellation :=
  { c with groups := c.groups ++ [(c.groups.foldl max 0) + 1] }

/-- Adds a copy of signal `i`; its position is the old `size`. -/
def copy (c : Cancellation) (i : Nat) : Cancellation :=
  { c with groups := c.groups ++ [c.groups.getD i 0] }

/-- Raises signal `i` and all its copies. -/
def raise (c : Cancellation) (i : Nat) : Cancellation :=
  { c with raised := c.groups.getD i 0 :: c.raised }

/-- Whether signal `i` or a copy of it was raised. -/
def isRaised (c : Cancellation) (i : Nat) : Bool := c.raised.contains (c.groups.getD i 0)

/-- The state of every signal, in order. -/
def states (c : Cancellation) : List Bool := c.groups.map c.raised.contains

theorem isRaised_copy (c : Cancellation) {i : Nat} :
    (c.copy i).isRaised c.size = c.isRaised i := by
  simp [copy, isRaised, size]

theorem isRaised_raise (c : Cancellation) (i j : Nat) :
    (c.raise i).isRaised j = (c.groups.getD j 0 == c.groups.getD i 0 || c.isRaised j) := rfl

end Cancellation

end MediaBridge
