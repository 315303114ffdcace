/-! # Steps that have names

Where several parties work on one state, a step of one of them is named for what it means to the
others.  The names of the steps that were taken are a trail from one state to another.  What is said of
a trail is said of every way in which the work of the parties can interleave.

* `Trail.keeps`    what every step keeps holds wherever a trail leads;
* `Attains.trans`  what the parties can do one after the other.
-/

namespace MediaBridge

variable {σ : Type u} {ι : Type v}

/-- The names of the steps that lead from one state to another, oldest first. -/
inductive Trail (Step : σ → ι → σ → Prop) (s₀ : σ) : List ι → σ → Prop where
  | refl : Trail Step s₀ [] s₀
  | tail {names : List ι} {i : ι} {s s' : σ} (h : Trail Step s₀ names s) (hstep : Step s i s') :
    Trail Step s₀ (names ++ [i]) s'

variable {Step : σ → ι → σ → Prop} {s s' s'' : σ}

namespace Trail

/-- Another trail can begin wherever one leads. -/
theorem here {names : List ι} (_ : Trail Step s names s') : Trail Step s' [] s' := .refl

/-- One trail goes on where the other ends. -/
theorem trans {earlier later : List ι} (h : Trail Step s earlier s')
    (h' : Trail Step s' later s'') : Trail Step s (earlier ++ later) s'' := by
  induction h' with
  | refl =>
    rw [List.append_nil]
    exact h
  | tail _ hstep ih =>
    rw [← List.append_assoc]
    exact ih.tail hstep

/-- What every step keeps holds wherever a trail leads. -/
theorem keeps {P : σ → Prop} {names : List ι} (h : Trail Step s names s')
    (hstep : ∀ {s i s'}, P s → Step s i s' → P s') (hs : P s) : P s' := by
  induction h with
  | refl => exact hs
  | tail _ h ih => exact hstep ih h

end Trail

/-- Some trail leads from one state to another. -/
def Attains (Step : σ → ι → σ → Prop) (s s' : σ) : Prop := ∃ names, Trail Step s names s'

namespace Attains

/-- A state comes after itself. -/
theorem refl (s : σ) : Attains Step s s := ⟨[], .refl⟩

/-- A step leads on. -/
theorem one {i : ι} (hstep : Step s i s') : Attains Step s s' := ⟨_, .tail .refl hstep⟩

/-- A step leads on from wherever one got to. -/
theorem step {i : ι} (h : Attains Step s s') (hstep : Step s' i s'') : Attains Step s s'' := by
  obtain ⟨names, htrail⟩ := h
  exact ⟨_, htrail.tail hstep⟩

theorem trans (h : Attains Step s s') (h' : Attains Step s' s'') : Attains Step s s'' := by
  obtain ⟨earlier, hearlier⟩ := h
  obtain ⟨later, hlater⟩ := h'
  exact ⟨_, hearlier.trans hlater⟩

end Attains

end MediaBridge
