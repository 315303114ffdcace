import MediaBridge.Decimal.Padded

/-! # Spans and clock times

A `Span` is a length of time in whole nanoseconds, without an upper bound.  A `ClockTime` is a
reading of the pipeline clock: nanoseconds in a 64-bit word.  A span enters clock arithmetic by its
nanoseconds modulo `2 ^ 64`; sums stop at the largest reading and differences at zero.

* `toNat_add`   the sum is `min (t + d mod 2 ^ 64) (2 ^ 64 - 1)`;
* `nanos_since` the difference is truncated subtraction.
-/

namespace MediaBridge

/-- A length of time. -/
structure Span where
  /-- The length in nanoseconds. -/
  nanos : Nat
  deriving DecidableEq, Repr, Inhabited

namespace Span

/-- Nanoseconds in a second. -/
def perSecond : Nat := 1000000000

/-- The span of zero length. -/
def zero : Span := ⟨0⟩

/-- A number of whole seconds and a number of nanoseconds. -/
def ofParts (seconds nanos : Nat) : Span := ⟨seconds * perSecond + nanos⟩

/-- A number of milliseconds. -/
def ofMillis (ms : Nat) : Span := ⟨ms * 1000000⟩

/-- The whole seconds of a span. -/
def seconds (d : Span) : Nat := d.nanos / perSecond

/-- The nanoseconds beyond the whole seconds. -/
def subsecond (d : Span) : Nat := d.nanos % perSecond

/-- The whole microseconds of a span. -/
def micros (d : Span) : Nat := d.nanos / 1000

instance : LE Span := ⟨fun a b => a.nanos ≤ b.nanos⟩

instance (a b : Span) : Decidable (a ≤ b) := inferInstanceAs (Decidable (a.nanos ≤ b.nanos))

theorem ofParts_seconds_subsecond (d : Span) : ofParts d.seconds d.subsecond = d := by
  cases d with
  | mk n => simp only [ofParts, seconds, subsecond, mk.injEq]; rw [Nat.mul_comm]; exact Nat.div_add_mod n perSecond

/-- Drops the zeros at the end of a run of digits. -/
private def trimZeros (digits : List Char) : List Char :=
  (digits.reverse.dropWhile (· == '0')).reverse

/-- A whole number, then the fraction `rest / 10 ^ places` without trailing zeros, if any. -/
private def decimal (whole rest places : Nat) : String :=
  match trimZeros (Decimal.padded places rest) with
  | [] => toString whole
  | digits => toString whole ++ "." ++ String.ofList digits

/-- The span in the largest unit of seconds, milliseconds, microseconds and nanoseconds that
    leaves a whole part, with as many decimals as it has. -/
def describe (d : Span) : String :=
  if d.nanos ≥ perSecond then decimal d.seconds d.subsecond 9 ++ "s"
  else if d.nanos ≥ 1000000 then decimal (d.nanos / 1000000) (d.nanos % 1000000) 6 ++ "ms"
  else if d.nanos ≥ 1000 then decimal (d.nanos / 1000) (d.nanos % 1000) 3 ++ "µs"
  else toString d.nanos ++ "ns"

end Span

/-- A reading of the pipeline clock. -/
structure ClockTime where
  /-- Nanoseconds since the clock's origin. -/
  nanos : UInt64
  deriving DecidableEq, Repr, Inhabited

namespace ClockTime

/-- The largest reading. -/
def maxNanos : Nat := UInt64.size - 1

/-- The origin of the clock. -/
def zero : ClockTime := ⟨0⟩

/-- The reading a span after the origin, modulo `2 ^ 64` nanoseconds. -/
def ofSpan (d : Span) : ClockTime := ⟨UInt64.ofNat d.nanos⟩

/-- The span from the origin to this reading. -/
def toSpan (t : ClockTime) : Span := ⟨t.nanos.toNat⟩

/-- The reading `d` later, stopping at the largest one. -/
def add (t : ClockTime) (d : Span) : ClockTime :=
  ⟨UInt64.ofNat (min (t.nanos.toNat + d.nanos % UInt64.size) maxNanos)⟩

/-- The span from `earlier` to `t`, zero if `earlier` is the later one. -/
def since (t earlier : ClockTime) : Span := ⟨t.nanos.toNat - earlier.nanos.toNat⟩

theorem toNat_add (t : ClockTime) (d : Span) :
    (t.add d).nanos.toNat = min (t.nanos.toNat + d.nanos % UInt64.size) maxNanos := by
  simp only [add, UInt64.toNat_ofNat', maxNanos, UInt64.size]
  exact Nat.mod_eq_of_lt (by omega)

@[simp] theorem nanos_since (t earlier : ClockTime) :
    (t.since earlier).nanos = t.nanos.toNat - earlier.nanos.toNat := rfl

@[simp] theorem ofSpan_toSpan (t : ClockTime) : ofSpan t.toSpan = t := by
  cases t; simp [ofSpan, toSpan]

/-- Seconds with nine decimals. -/
def toString (t : ClockTime) : String :=
  let d := t.toSpan
  s!"{d.seconds}." ++ String.ofList (Decimal.padded 9 d.subsecond) ++ "s"

instance : ToString ClockTime := ⟨toString⟩

end ClockTime

end MediaBridge
