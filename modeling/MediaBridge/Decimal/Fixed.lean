import MediaBridge.Decimal.Padded

/-! # Binary fractions with a fixed number of decimals

A double is `m * 2 ^ e` exactly.  Its text with `p` decimals is the multiple of `10 ^ -p` nearest to
that exact value, and a value half way between two multiples goes to the even one.

* `divHalfEven` rounds an exact quotient to the nearest integer, ties to even;
* `divHalfEven_bounds` says that it is never off by more than half a unit.
-/

namespace MediaBridge.Decimal

/-- The integer nearest to `n / d`; of two nearest ones the even one. -/
def divHalfEven (n d : Nat) : Nat :=
  let q := n / d
  let r := n % d
  if 2 * r < d then q else if d < 2 * r then q + 1 else if q % 2 = 0 then q else q + 1

/-- Rounding moves a quotient by at most half a unit. -/
theorem divHalfEven_bounds (n d : Nat) (h : 0 < d) :
    2 * n ≤ 2 * (divHalfEven n d * d) + d ∧ 2 * (divHalfEven n d * d) ≤ 2 * n + d := by
  have hn : d * (n / d) + n % d = n := Nat.div_add_mod n d
  have hr : n % d < d := Nat.mod_lt n h
  have key : ∀ q, q = n / d ∨ q = n / d + 1 → q * d = d * (n / d) ∨ q * d = d * (n / d) + d := by
    rintro q (rfl | rfl)
    · exact .inl (Nat.mul_comm _ _)
    · right; rw [Nat.add_mul, Nat.one_mul, Nat.mul_comm]
  have e : d * (n / d) = n / d * d := Nat.mul_comm _ _
  simp only [divHalfEven]
  split
  · omega
  · split
    · rw [Nat.add_mul]; omega
    · split
      · omega
      · rw [Nat.add_mul]; omega

/-- The text of `n / 10 ^ places`. -/
def pointed (n places : Nat) : String :=
  if places = 0 then toString n
  else toString (n / Nat.pow 10 places) ++ "." ++ String.ofList (padded places n)

/-- How many fractions there are for one exponent. -/
def fractions : Nat := 1 <<< 52

/-- The magnitude of a finite double as `m * 2 ^ e / 2 ^ 1074`, read off its bits without the
    sign: the first component is `m`, the second `e`. -/
def magnitude (bits : Nat) : Nat × Nat :=
  let exponent := bits >>> 52 % 2048
  let fraction := bits % fractions
  if exponent = 0 then (fraction, 0) else (fraction + fractions, exponent - 1)

/-- A double with exactly `places` decimals, rounded half to even on its exact value.  The sign
    is kept also on a zero; what is no number is `NaN`, what is too large is `inf`. -/
def fixed (places : Nat) (x : Float) : String :=
  let bits := x.toBits.toNat
  let sign := if bits >>> 63 = 1 then "-" else ""
  if bits >>> 52 % 2048 = 2047 then
    if bits % fractions = 0 then sign ++ "inf" else "NaN"
  else
    let (m, e) := magnitude bits
    sign ++ pointed (divHalfEven (m * Nat.pow 10 places <<< e) (1 <<< 1074)) places

end MediaBridge.Decimal
