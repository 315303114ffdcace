import MediaBridge.Text.Unprintable
import MediaBridge.Text.Extending

/-! # Quoted text

A text between double quotes in which every character can be seen: quotes and backslashes follow a
backslash, the common controls have a letter, and any other character without a visible form of its
own, or one that would change its neighbour, is written as its code point in hexadecimal.
-/

namespace MediaBridge.Text

/-- Lower-case hexadecimal digits without leading zeros. -/
def hexDigits (n : Nat) : List Char := Nat.toDigits 16 n

/-- A character as it stands inside quotes. -/
def quotedChar (c : Char) : List Char :=
  if c = '"' then ['\\', '"']
  else if c = '\\' then ['\\', '\\']
  else if c = '\n' then ['\\', 'n']
  else if c = '\r' then ['\\', 'r']
  else if c = '\t' then ['\\', 't']
  else if c.toNat = 0 then ['\\', '0']
  else if isExtending c || isUnprintable c then ['\\', 'u', '\x7b'] ++ hexDigits c.toNat ++ ['\x7d']
  else [c]

/-- A text between double quotes. -/
def quoted (s : String) : String :=
  "\"" ++ String.ofList (s.toList.flatMap quotedChar) ++ "\""

/-- A plain character stands for itself. -/
theorem quotedChar_plain {c : Char} (h : 0x20 ≤ c.toNat) (h' : c.toNat < 0x7f) (hq : c ≠ '"')
    (hb : c ≠ '\\') : quotedChar c = [c] := by
  have ne : ∀ d : Char, d.toNat < 0x20 → c ≠ d := fun d hd e => by subst e; omega
  simp only [quotedChar, hq, hb, ne '\n' (by decide), ne '\r' (by decide), ne '\t' (by decide),
    isExtending_lt (by omega : c.toNat < 0x300), isUnprintable_ascii h h', if_false, Bool.or_self,
    Bool.false_eq_true]
  rw [if_neg (by omega)]

/-- The text of an optional value, given the text of the value itself. -/
def optional (write : α → String) : Option α → String
  | none => "None"
  | some a => "Some(" ++ write a ++ ")"

/-- A name with named fields between braces. -/
def braced (name : String) (fields : List (String × String)) : String :=
  name ++ " \x7b " ++ String.intercalate ", " (fields.map fun f => f.1 ++ ": " ++ f.2) ++ " \x7d"

end MediaBridge.Text
