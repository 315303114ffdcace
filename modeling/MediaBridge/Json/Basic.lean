/-! # JSON values

The values of the JSON grammar as they are written: numbers keep the parts of their numeral, objects
keep their members in order with repetitions, and a string that escapes half of a surrogate pair,
which is no text, is kept as such.
-/

namespace MediaBridge

/-- A numeral by its parts. -/
structure Numeral where
  negative : Bool
  /-- The integer in front of the point. -/
  whole : Nat
  /-- The digits behind the point. -/
  fraction : Option (List Char)
  /-- The exponent with its sign. -/
  exponent : Option (List Char)
  deriving DecidableEq, Repr

/-- The number of a numeral that is written as a natural number. -/
def Numeral.natural? (n : Numeral) : Option Nat :=
  if n.negative || n.fraction.isSome || n.exponent.isSome then none else some n.whole

/-- A JSON value. -/
inductive Json where
  | null
  | bool (value : Bool)
  | number (numeral : Numeral)
  /-- A string; `none` if its escapes leave half of a surrogate pair. -/
  | string (text : Option (List Char))
  | array (elements : List Json)
  | object (members : List (Option (List Char) × Json))
  deriving Repr, Inhabited

end MediaBridge
