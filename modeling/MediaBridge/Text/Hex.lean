/-! # Hexadecimal text

Bytes as pairs of hexadecimal digits in lower case, and 64-bit words as sixteen of them, the most
significant digit first.

* `decode_encode` reading the digits of bytes gives the bytes back.
-/

namespace MediaBridge.Hex

/-- The value of a digit in lower case. -/
def value (c : Char) : Nat := if c.isDigit then c.toNat - '0'.toNat else c.toNat - 'a'.toNat + 10

/-- The two digits of each byte. -/
def encode (bytes : List UInt8) : List Char :=
  bytes.flatMap fun b => [Nat.digitChar (b.toNat / 16), Nat.digitChar (b.toNat % 16)]

/-- The bytes of pairs of digits. -/
def decode : List Char → List UInt8
  | high :: low :: rest => UInt8.ofNat (value high * 16 + value low) :: decode rest
  | _ => []

/-- The digits of a payload. -/
def ofBytes (b : ByteArray) : String := String.ofList (encode b.data.toList)

/-- The payload of a run of digits. -/
def toBytes (s : String) : ByteArray := ⟨(decode s.toList).toArray⟩

/-- The digits of a word. -/
def ofWord (w : UInt64) : String :=
  String.ofList ((List.range 16).reverse.map fun k => Nat.digitChar (w.toNat / Nat.pow 16 k % 16))

/-- The word of a run of digits. -/
def toWord (s : String) : UInt64 := UInt64.ofNat (s.toList.foldl (fun n c => n * 16 + value c) 0)

theorem value_digitChar : ∀ n < 16, value (Nat.digitChar n) = n := by decide

/-- Reading the digits of bytes gives the bytes back. -/
theorem decode_encode (bytes : List UInt8) : decode (encode bytes) = bytes := by
  induction bytes with
  | nil => rfl
  | cons b rest ih =>
    have h : b.toNat < 256 := b.toNat_lt
    rw [encode, List.flatMap_cons, ← encode]
    simp only [List.cons_append, List.nil_append, decode, ih,
      value_digitChar (b.toNat / 16) (by omega), value_digitChar (b.toNat % 16) (by omega)]
    rw [Nat.div_add_mod', UInt8.ofNat_toNat]

end MediaBridge.Hex
