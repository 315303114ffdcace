import MediaBridge.Json.Basic

/-! # Reading JSON

A reader for the JSON grammar over lists of characters.  Each part takes what it needs from the front
and returns the rest; `Json.parse` wants the whole text.  Nesting may be of any depth.

The recursion of `value`, `elements` and `members` is bounded by a number of steps; a text of `n`
characters needs at most `2 * n + 2`, since of every two nested steps one takes a character.
-/

namespace MediaBridge.Json.Reader

/-- White space between tokens. -/
def isSpace (c : Char) : Bool := c == ' ' || c == '\n' || c == '\t' || c == '\r'

/-- The text behind leading white space. -/
def skipSpace (s : List Char) : List Char := s.dropWhile isSpace

/-- The value of a hexadecimal digit. -/
def hexValue (c : Char) : Option Nat :=
  if '0' ≤ c && c ≤ '9' then some (c.toNat - 48)
  else if 'a' ≤ c && c ≤ 'f' then some (c.toNat - 87)
  else if 'A' ≤ c && c ≤ 'F' then some (c.toNat - 55)
  else none

/-- Four hexadecimal digits. -/
def hex4 : List Char → Option (Nat × List Char)
  | a :: b :: c :: d :: r =>
    match hexValue a, hexValue b, hexValue c, hexValue d with
    | some a, some b, some c, some d => some (((a * 16 + b) * 16 + c) * 16 + d, r)
    | _, _, _, _ => none
  | _ => none

/-- A unit of a string: a character, or a code unit from an escape. -/
inductive StringUnit where
  | char (c : Char)
  | code (u : Nat)
  deriving DecidableEq, Repr

/-- The character of a one-letter escape. -/
def shortEscape : Char → Option Char
  | '"' => some '"'
  | '\\' => some '\\'
  | '/' => some '/'
  | 'b' => some '\x08'
  | 'f' => some '\x0c'
  | 'n' => some '\n'
  | 'r' => some '\r'
  | 't' => some '\t'
  | _ => none

/-- The rest of a string behind its opening quote, up to the closing one. -/
def stringUnits : List Char → Option (List StringUnit × List Char)
  | [] => none
  | '"' :: r => some ([], r)
  | '\\' :: 'u' :: a :: b :: c :: d :: r =>
    match hex4 [a, b, c, d] with
    | some (u, _) => (stringUnits r).map fun p => (.code u :: p.1, p.2)
    | none => none
  | '\\' :: e :: r =>
    match shortEscape e with
    | some c => (stringUnits r).map fun p => (.char c :: p.1, p.2)
    | none => none
  | c :: r =>
    if c.toNat < 0x20 || c = '\\' then none
    else (stringUnits r).map fun p => (.char c :: p.1, p.2)

/-- Whether a code unit is the first half of a surrogate pair. -/
def isHigh (u : Nat) : Bool := 0xd800 ≤ u && u ≤ 0xdbff

/-- Whether a code unit is the second half of a surrogate pair. -/
def isLow (u : Nat) : Bool := 0xdc00 ≤ u && u ≤ 0xdfff

/-- The text of a string's units; none if half of a surrogate pair stands alone. -/
def decodeUnits : List StringUnit → Option (List Char)
  | [] => some []
  | .char c :: r => (decodeUnits r).map (c :: ·)
  | .code u :: .code v :: r =>
    if isHigh u then
      -- the two halves of a character beyond the first plane
      if isLow v then
        (decodeUnits r).map (Char.ofNat (0x10000 + (u - 0xd800) * 0x400 + (v - 0xdc00)) :: ·)
      else none
    else if isLow u then none
    else (decodeUnits (.code v :: r)).map (Char.ofNat u :: ·)
  | .code u :: r =>
    if isHigh u || isLow u then none else (decodeUnits r).map (Char.ofNat u :: ·)

/-- A string behind its opening quote. -/
def string (s : List Char) : Option (Option (List Char) × List Char) :=
  (stringUnits s).map fun p => (decodeUnits p.1, p.2)

/-- A run of one or more digits. -/
def digits (s : List Char) : Option (List Char × List Char) :=
  match s.takeWhile Char.isDigit with
  | [] => none
  | ds => some (ds, s.dropWhile Char.isDigit)

/-- The number that decimal digits stand for. -/
def digitsValue (ds : List Char) : Nat := ds.foldl (fun n d => n * 10 + (d.toNat - 48)) 0

/-- The integer of a numeral: without zeros in front. -/
def whole (s : List Char) : Option (Nat × List Char) :=
  match digits s with
  -- a zero in front must stand alone
  | some ('0' :: _ :: _, _) => none
  | some (ds, r) => some (digitsValue ds, r)
  | none => none

/-- The fraction of a numeral, if there is one. -/
def fraction : List Char → Option (Option (List Char) × List Char)
  | '.' :: r => (digits r).map fun p => (some p.1, p.2)
  | r => some (none, r)

/-- The exponent of a numeral, if there is one. -/
def exponent (s : List Char) : Option (Option (List Char) × List Char) :=
  match s with
  | e :: r =>
    if e = 'e' || e = 'E' then
      match r with
      | '+' :: r => (digits r).map fun p => (some ('+' :: p.1), p.2)
      | '-' :: r => (digits r).map fun p => (some ('-' :: p.1), p.2)
      | r => (digits r).map fun p => (some p.1, p.2)
    else some (none, s)
  | [] => some (none, s)

/-- A numeral. -/
def numeral (s : List Char) : Option (Numeral × List Char) :=
  let (negative, s) := match s with
    | '-' :: r => (true, r)
    | _ => (false, s)
  match whole s with
  | none => none
  | some (w, s) =>
    match fraction s with
    | none => none
    | some (f, s) => (exponent s).map fun p => (⟨negative, w, f, p.1⟩, p.2)

mutual

/-- A value, white space in front of it left out. -/
def value : (steps : Nat) → List Char → Option (Json × List Char)
  | 0, _ => none
  | steps + 1, s =>
    match skipSpace s with
    | 'n' :: 'u' :: 'l' :: 'l' :: r => some (.null, r)
    | 't' :: 'r' :: 'u' :: 'e' :: r => some (.bool true, r)
    | 'f' :: 'a' :: 'l' :: 's' :: 'e' :: r => some (.bool false, r)
    | '"' :: r => (string r).map fun p => (.string p.1, p.2)
    | '[' :: r =>
      match skipSpace r with
      | ']' :: r => some (.array [], r)
      | r => (elements steps r).map fun p => (.array p.1, p.2)
    | '\x7b' :: r =>
      match skipSpace r with
      | '\x7d' :: r => some (.object [], r)
      | r => (members steps r).map fun p => (.object p.1, p.2)
    | r => (numeral r).map fun p => (.number p.1, p.2)

/-- The elements of an array up to its closing bracket, at least one. -/
def elements : (steps : Nat) → List Char → Option (List Json × List Char)
  | 0, _ => none
  | steps + 1, s =>
    match value steps s with
    | none => none
    | some (v, r) =>
      match skipSpace r with
      | ',' :: r => (elements steps r).map fun p => (v :: p.1, p.2)
      | ']' :: r => some ([v], r)
      | _ => none

/-- The members of an object up to its closing brace, at least one. -/
def members : (steps : Nat) → List Char → Option (List (Option (List Char) × Json) × List Char)
  | 0, _ => none
  | steps + 1, s =>
    match skipSpace s with
    | '"' :: r =>
      match string r with
      | none => none
      | some (key, r) =>
        match skipSpace r with
        | ':' :: r =>
          match value steps r with
          | none => none
          | some (v, r) =>
            match skipSpace r with
            | ',' :: r => (members steps r).map fun p => ((key, v) :: p.1, p.2)
            | '\x7d' :: r => some ([(key, v)], r)
            | _ => none
        | _ => none
    | _ => none

end

end MediaBridge.Json.Reader

namespace MediaBridge

/-- Reads a text that holds one value and white space around it. -/
def Json.parse (s : String) : Option Json :=
  let cs := s.toList
  match Json.Reader.value (2 * cs.length + 2) cs with
  | some (v, r) => if Json.Reader.skipSpace r = [] then some v else none
  | none => none

end MediaBridge
