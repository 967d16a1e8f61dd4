import ODataQuery.Numeric.Binary

/-!
# Shortest decimal digits

The shortest decimal number that rounds to a given binary one, and among several of that
length the one nearest to it.

## Main definitions

- `ShortDecimal` — digits together with a power of ten
- `TieRule` — the choice between two decimals that are equally near
- `BinaryFormat.shortest` — the shortest decimal of a positive finite bit pattern

## Design notes

All numbers that round to a given value form an interval around it, whose ends belong to it
exactly when the significand is even. A decimal grid meets the interval only if one of the
two grid points around the value does, so it is enough to try these two on ever finer grids.
The first grid with a hit has the fewest digits.

A value may lie exactly halfway between two grid points of which both round to it, as
`719.57781982421875` does between `719.5778198242187` and `719.5778198242188`. Nothing in the
value prefers one of them, so the tie rule is a parameter.
-/

namespace ODataQuery

/-- The positive number `digits * 10 ^ exponent`. -/
structure ShortDecimal where
  digits : Nat
  exponent : Int
deriving DecidableEq

namespace ShortDecimal

/-- Moves the zeros at the end of the digits into the exponent, at most `fuel` of them. -/
def stripZeros : Nat → ShortDecimal → ShortDecimal
  | 0, s => s
  | fuel + 1, s =>
    if s.digits % 10 = 0 && s.digits != 0 then stripZeros fuel ⟨s.digits / 10, s.exponent + 1⟩
    else s

end ShortDecimal

/-- Which of two equally near decimals is taken: the one with the even last digit, or the
larger one. -/
inductive TieRule
  | even
  | upward
deriving DecidableEq

namespace TieRule

/-- Whether the part `remainder / step` above the grid point `q` rounds down to it. -/
def staysBelow (tie : TieRule) (q remainder step : Nat) : Bool :=
  if 2 * remainder = step then
    match tie with
    | even => q % 2 = 0
    | upward => false
  else 2 * remainder < step

end TieRule

namespace BinaryFormat

/-- `n / d` divided by `10 ^ g`, as a quotient of natural numbers. -/
def overPowerOfTen (n d : Nat) (g : Int) : Nat × Nat :=
  if g < 0 then (n * tenTo (-g).toNat, d) else (n, d * tenTo g.toNat)

/-- The exponent `k` with `10 ^ k ≤ n / d < 10 ^ (k + 1)`, for a positive quotient of at
least `10 ^ (-400)`. -/
def log10Ratio (n d : Nat) : Int :=
  ((Nat.toDigits 10 (n * tenTo 400 / d)).length : Int) - 401

/-- The interval of the numbers that round to `m * 2 ^ e`, scaled by four, as lower end,
value and upper end over a common denominator. -/
def roundingInterval (f : BinaryFormat) (m : Nat) (e : Int) : Nat × Nat × Nat × Nat :=
  let below := if m = twoTo f.fractionBits && f.minExponent < e then 1 else 2
  let scale (x : Nat) : Nat := (scaleRatio x 1 (e - 2)).1
  (scale (4 * m - below), scale (4 * m), scale (4 * m + 2), (scaleRatio 1 1 (e - 2)).2)

/-- The point of the grid with step `10 ^ g` that is nearest to the value and inside its
rounding interval. -/
def gridPoint (f : BinaryFormat) (tie : TieRule) (m : Nat) (e g : Int) : Option ShortDecimal :=
  let (lo, v, hi, d) := roundingInterval f m e
  let (a, b) := overPowerOfTen v d g
  let (l, _) := overPowerOfTen lo d g
  let (h, _) := overPowerOfTen hi d g
  let closed := m % 2 = 0
  let inside (x : Nat) : Bool :=
    if closed then l ≤ x * b && x * b ≤ h else l < x * b && x * b < h
  let q := a / b
  let below := inside q && q != 0
  let above := inside (q + 1)
  if below && above then
    some ⟨if tie.staysBelow q (a % b) b then q else q + 1, g⟩
  else if below then some ⟨q, g⟩
  else if above then some ⟨q + 1, g⟩
  else none

/-- The shortest decimal that rounds to the positive finite value with these bits. -/
def shortest (f : BinaryFormat) (tie : TieRule) (bits : Nat) : ShortDecimal :=
  let (m, e) := f.decode bits
  let (n, d) := scaleRatio m 1 e
  let k := log10Ratio n d
  let grids := (List.range 18).map fun (i : Nat) => k - i
  match grids.findSome? (gridPoint f tie m e) with
  | some s => s.stripZeros 20
  | none => ⟨0, 0⟩

end BinaryFormat

end ODataQuery
