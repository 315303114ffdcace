import MediaBridge.Boundary.Basic

/-! # The egress

What a pipeline has processed leaves it here, for a receiver that the application registered.  A
delivery counts whether or not there is a receiver; without one the item is dropped and the answer is
that it was accepted.
-/

namespace MediaBridge

/-- The place where samples leave a pipeline, for receivers of type `ρ`. -/
structure Egress (ρ : Type u) where
  receiver : Option ρ := none
  /-- The format that was agreed on. -/
  caps : Option Caps := none
  /-- How many samples were delivered. -/
  delivered : Nat := 0
  deriving DecidableEq, Inhabited

namespace Egress

variable {ρ : Type u}

/-- Registers a receiver in place of any other. -/
def register (e : Egress ρ) (r : ρ) : Egress ρ := { e with receiver := some r }

/-- Records the format that was agreed on. -/
def setCaps (e : Egress ρ) (c : Caps) : Egress ρ := { e with caps := some c }

/-- Counts a sample on its way to the receiver. -/
def countSample (e : Egress ρ) : Egress ρ := { e with delivered := e.delivered + 1 }

/-- Changes the receiver, if there is one. -/
def modifyReceiver (e : Egress ρ) (f : ρ → ρ) : Egress ρ := { e with receiver := e.receiver.map f }

end Egress

end MediaBridge
