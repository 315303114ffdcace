/-! # Digits padded to a width

Fractions are written with a fixed number of digits; a short one is filled up with zeros on the
left.  `length_padded` says that a number below `10 ^ width` takes exactly `width` digits.
-/

namespace MediaBridge.Decimal

/-- The last `width` decimal digits of `n`, most significant first. -/
def padded : (width : Nat) → (n : Nat) → List Char
  | 0, _ => []
  | width + 1, n => padded width (n / 10) ++ [Nat.digitChar (n % 10)]

@[simp] theorem length_padded (width n : Nat) : (padded width n).length = width := by
  induction width generalizing n with
  | zero => rfl
  | succ w ih => simp [padded, ih]

end MediaBridge.Decimal
