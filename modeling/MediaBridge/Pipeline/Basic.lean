import MediaBridge.Buffer.Store
import MediaBridge.Bus
import MediaBridge.Caps

/-! # Media pipelines

What a supervisor needs to know of a pipeline: its name, its clock, and how it answers the request
for a phase.  A pipeline reaches a distant phase in single moves and posts a message for each of them.

* `movesTo_chain`  the moves of a request follow one upon the other, from where the pipeline was;
* `movesTo_last`   they end in the phase requested.
-/

namespace MediaBridge

/-- A single move of a pipeline, on the way to `pending` if the request is not met yet. -/
structure Move where
  old : Phase
  new : Phase
  pending : Option Phase
  deriving DecidableEq, Repr

/-- The message that says a move was completed. -/
def Move.message (m : Move) (source : Source) : Message :=
  .phaseChanged source m.old m.new m.pending

/-- The moves of a pipeline that was asked for the phase `target`. -/
def Phase.movesTo (p target : Phase) : List Move :=
  let path := p.pathTo target
  (p :: path).zipWith (fun old new => ⟨old, new, if new = target then none else some target⟩) path

/-- What became of the request for a phase. -/
structure Transition (π : Type u) where
  pipeline : π
  store : Store
  /-- The messages posted meanwhile, oldest first. -/
  posted : List Message := []
  /-- The output format, if it was agreed on meanwhile. -/
  outputCaps : Option Caps := none
  result : Except Error Unit

/-- Types of media pipelines. -/
class MediaPipeline (π : Type u) where
  /-- The name shown to people. -/
  name : π → String
  /-- The reading of the pipeline's clock, some time after everything began. -/
  clockTime : π → Span → ClockTime
  /-- Asks for a phase.  The pipeline works on the buffers of the store, and the application's
      frames have the format given, if they have one. -/
  setPhase : π → Phase → Store → Option Caps → Transition π

/-! ## The moves of a request -/

@[simp] theorem Phase.movesTo_self (p : Phase) : p.movesTo p = [] := by cases p <;> rfl

/-- The first move starts where the pipeline was, and each other one where the one before ended. -/
theorem Phase.movesTo_chain (p target : Phase) :
    (p.movesTo target).map Move.old = ((p :: (p.movesTo target).map Move.new).take
      (p.movesTo target).length) := by
  cases p <;> cases target <;> rfl

/-- A request that moves the pipeline at all ends in the phase requested. -/
theorem Phase.movesTo_last (p target : Phase) :
    ((p.movesTo target).getLast?.map Move.new).getD p = target := by
  cases p <;> cases target <;> rfl

/-- Every move of a request goes to a neighbour. -/
theorem Phase.movesTo_canTransitionTo (p target : Phase) :
    ∀ m ∈ p.movesTo target, m.old.canTransitionTo m.new ∧ m.old ≠ m.new := by
  cases p <;> cases target <;> decide

end MediaBridge
