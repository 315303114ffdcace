import MediaBridge.Pipeline.Basic

/-! # Scripted pipelines

A pipeline without any processing, to try a supervisor out: it refuses the phases it is told to
refuse, records every request, and its clock shows what it was set to.
-/

namespace MediaBridge

/-- A request for a phase, as a scripted pipeline records it. -/
structure Request where
  target : Phase
  refused : Bool
  deriving DecidableEq, Repr

/-- The text of a request. -/
def Request.describe (r : Request) : String :=
  if r.refused then r.target.name ++ " refused" else r.target.name

/-- A pipeline that does what it is told. -/
structure Scripted where
  phase : Phase := .null
  /-- The phases it refuses to go to. -/
  refuses : List Phase := []
  /-- Whether it posts a message for each move. -/
  posts : Bool := true
  /-- The requests so far, oldest first. -/
  requests : List Request := []
  /-- What its clock shows. -/
  clock : ClockTime := .zero
  deriving DecidableEq, Repr, Inhabited

namespace Scripted

/-- Asks a scripted pipeline for a phase. -/
def setPhase (p : Scripted) (target : Phase) (store : Store) : Transition Scripted :=
  if target ∈ p.refuses then
    { pipeline := { p with requests := p.requests ++ [⟨target, true⟩] }, store
      result := .error (.phaseRefused target) }
  else
    { pipeline := { p with phase := target, requests := p.requests ++ [⟨target, false⟩] }, store
      posted := if p.posts then (p.phase.movesTo target).map (·.message .pipeline) else []
      result := .ok () }

instance : MediaPipeline Scripted where
  name _ := "scripted"
  clockTime p _ := p.clock
  setPhase p target store _ := p.setPhase target store

end Scripted

end MediaBridge
