/-! # Throttled reports

Frequent warnings are reported once in so many occurrences.  `Throttle.hit` counts an occurrence and
says whether this one is reported; a rate of zero reports every occurrence, as a rate of one does.

* `count_hit_lt` between hits the count stays below the rate.
-/

namespace MediaBridge

/-- Lets one in every so many occurrences through. -/
structure Throttle where
  /-- One occurrence in this many is reported. -/
  every : Nat
  /-- Occurrences since the last reported one. -/
  count : Nat := 0
  deriving DecidableEq, Repr, Inhabited

namespace Throttle

/-- A throttle that reports one occurrence in `rate`. -/
def new (rate : Nat) : Throttle := { every := max 1 rate }

/-- Counts an occurrence; the flag says whether it is to be reported. -/
def hit (t : Throttle) : Throttle × Bool :=
  if t.count + 1 ≥ t.every then ({ t with count := 0 }, true)
  else ({ t with count := t.count + 1 }, false)

@[simp] theorem every_new (rate : Nat) : (new rate).every = max 1 rate := rfl

@[simp] theorem every_hit (t : Throttle) : t.hit.1.every = t.every := by
  rw [hit]; split <;> rfl

/-- At the beginning the count is below the rate. -/
theorem count_new_lt (rate : Nat) : (new rate).count < (new rate).every := by
  simp only [new]; omega

/-- A hit that does not report leaves the count below the rate, and one that does starts it anew. -/
theorem count_hit_lt {t : Throttle} (h : t.count < t.every) : t.hit.1.count < t.hit.1.every := by
  rw [hit]
  split
  · exact Nat.zero_lt_of_lt h
  · simpa using ‹¬t.count + 1 ≥ t.every›

end Throttle

end MediaBridge
