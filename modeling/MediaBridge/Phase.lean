/-! # Pipeline phases

A media pipeline is always in one of four phases, ordered `null < ready < paused < playing`, and
moves one phase at a time.  A request for a distant phase walks through every phase in between.

* `canTransitionTo` says which single moves are allowed: to a neighbour, or staying put;
* `pathTo` lists the phases a walk enters, the start left out and the target included;
* `pathTo_steps` ties the two: every consecutive pair of a path is an allowed move.
-/

namespace MediaBridge

/-- The phase of a media pipeline. -/
inductive Phase where
  /-- Nothing is allocated. -/
  | null
  /-- Resources are allocated, nothing is processed. -/
  | ready
  /-- Prepared, with data flow held back. -/
  | paused
  /-- Frames are being processed. -/
  | playing
  deriving DecidableEq, Repr, Inhabited

namespace Phase

/-- Every phase, in ascending order. -/
def all : List Phase := [null, ready, paused, playing]

/-- Position in the order of phases. -/
def rank : Phase → Nat
  | null => 0
  | ready => 1
  | paused => 2
  | playing => 3

instance : Ord Phase := ⟨fun a b => compare a.rank b.rank⟩

/-- The name shown to people. -/
def name : Phase → String
  | null => "Null"
  | ready => "Ready"
  | paused => "Paused"
  | playing => "Playing"

instance : ToString Phase := ⟨name⟩

/-- Whether frames are processed in this phase. -/
def isPlaying (p : Phase) : Bool := p == playing

/-- Whether nothing is allocated in this phase. -/
def isIdle (p : Phase) : Bool := p == null

/-- Whether a single move from `p` to `q` is allowed: to itself or to a neighbour. -/
def canTransitionTo (p q : Phase) : Bool := p.rank ≤ q.rank + 1 && q.rank ≤ p.rank + 1

/-- The phases entered on the way from `p` to `target`, in order: `p` is left out, `target` comes
    last, and staying put enters nothing. -/
def pathTo (p target : Phase) : List Phase :=
  if p.rank ≤ target.rank then
    all.filter fun q => p.rank < q.rank && q.rank ≤ target.rank
  else
    all.reverse.filter fun q => target.rank ≤ q.rank && q.rank < p.rank

@[simp] theorem pathTo_self (p : Phase) : p.pathTo p = [] := by cases p <;> rfl

/-- Consecutive phases of a walk, its start included, are allowed moves. -/
theorem pathTo_steps (p target : Phase) :
    ((p :: p.pathTo target).zip (p.pathTo target)).all (fun m => m.1.canTransitionTo m.2) := by
  cases p <;> cases target <;> rfl

end Phase

end MediaBridge
