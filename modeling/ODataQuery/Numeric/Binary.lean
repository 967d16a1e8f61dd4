import ODataQuery.Numeric.Power
import ODataQuery.Numeric.Rounding

/-!
# Binary floating point formats

The two interchange formats with 64 and 32 bits, seen through their bit patterns. Reading a
number is exact: a rational number is rounded once, to the nearest representable value with
ties to even, and beyond the largest finite value to infinity.

## Main definitions

- `BinaryFormat` — the widths of the two fields of a format
- `BinaryFormat.nearest` — the bit pattern nearest to a positive quotient
- `BinaryFormat.decode` — significand and exponent of a finite bit pattern
- `Double.ofRatio`, `Double.ofNat`, `Double.ofInt` — correctly rounded conversions
- `Double.remainder` — the remainder that has the sign of the dividend

## Design notes

The significand of a format with `p` fraction bits is kept as a natural number below
`2 ^ (p + 1)`, and its exponent as the power of two that scales this number. The bit pattern
without the sign is then the significand plus the scaled exponent field, for normal and
subnormal numbers alike: a carry out of the significand moves to the next binade by itself.
-/

namespace ODataQuery

/-- The widths of the fraction and the exponent field. -/
structure BinaryFormat where
  fractionBits : Nat
  exponentBits : Nat

namespace BinaryFormat

/-- The 64-bit format. -/
def double : BinaryFormat := ⟨52, 11⟩

/-- The 32-bit format. -/
def single : BinaryFormat := ⟨23, 8⟩

variable (f : BinaryFormat)

/-- The power of two that scales the significand of the subnormal numbers. -/
def minExponent : Int := 2 - (twoTo (f.exponentBits - 1) : Int) - f.fractionBits

/-- The bit pattern of positive infinity. -/
def infinity : Nat := (twoTo f.exponentBits - 1) * twoTo f.fractionBits

/-- The bit that holds the sign. -/
def signBit : Nat := twoTo (f.fractionBits + f.exponentBits)

/-- `n / d` times `2 ^ e`, as a quotient of natural numbers. -/
def scaleRatio (n d : Nat) (e : Int) : Nat × Nat :=
  if e < 0 then (n, d * twoTo (-e).toNat) else (n * twoTo e.toNat, d)

/-- The exponent `k` with `2 ^ k ≤ n / d < 2 ^ (k + 1)`, for positive `n` and `d`. -/
def logRatio (n d : Nat) : Int :=
  let k : Int := n.log2 - d.log2
  let (a, b) := scaleRatio n d (-k)
  if a < b then k - 1 else k

/-- The bit pattern, without sign, of the value nearest to `n / d`. -/
def nearest (n d : Nat) : Nat :=
  if n = 0 then 0
  else
    let e := max f.minExponent (logRatio n d - f.fractionBits)
    let (a, b) := scaleRatio n d (-e)
    let bits := RoundedQuotient.nearestEven a b + (e - f.minExponent).toNat * twoTo f.fractionBits
    min bits f.infinity

/-- Significand and exponent of a finite bit pattern without sign. -/
def decode (bits : Nat) : Nat × Int :=
  let field := bits / twoTo f.fractionBits
  let fraction := bits % twoTo f.fractionBits
  if field = 0 then (fraction, f.minExponent)
  else (fraction + twoTo f.fractionBits, f.minExponent + (field - 1 : Nat))

end BinaryFormat

namespace Double

/-- The bit pattern without its sign. -/
def magnitudeBits (x : Float) : Nat := x.toBits.toNat % BinaryFormat.double.signBit

/-- Whether the sign bit is set; true of negative zero. -/
def isNegative (x : Float) : Bool := BinaryFormat.double.signBit ≤ x.toBits.toNat

/-- Neither an infinity nor a NaN. -/
def isFinite (x : Float) : Bool := magnitudeBits x < BinaryFormat.double.infinity

/-- The value with the given sign and bit pattern. -/
def ofMagnitude (negative : Bool) (bits : Nat) : Float :=
  let x := Float.ofBits (UInt64.ofNat bits)
  if negative then -x else x

/-- The value nearest to plus or minus `n / d`. -/
def ofRatio (negative : Bool) (n d : Nat) : Float :=
  ofMagnitude negative (BinaryFormat.double.nearest n d)

/-- The value nearest to a natural number. -/
def ofNat (n : Nat) : Float := ofRatio false n 1

/-- The value nearest to an integer. -/
def ofInt (n : Int) : Float := ofRatio (n < 0) n.natAbs 1

/-- The remainder of the division truncated toward zero, which is exact. It keeps the sign
of the dividend; a finite dividend is its own remainder modulo an infinity, and every other
operand that is not finite gives NaN, as does a zero divisor. -/
def remainder (x y : Float) : Float :=
  if !isFinite x || y.isNaN || y == 0 then 0 / 0
  else if !isFinite y then x
  else
    let (m, e) := BinaryFormat.double.decode (magnitudeBits x)
    let (n, k) := BinaryFormat.double.decode (magnitudeBits y)
    let low := min e k
    let r := (m * twoTo (e - low).toNat) % (n * twoTo (k - low).toNat)
    let (a, b) := BinaryFormat.scaleRatio r 1 low
    ofRatio (isNegative x) a b

end Double

namespace Single

/-- The bit pattern without its sign. -/
def magnitudeBits (x : Float32) : Nat := x.toBits.toNat % BinaryFormat.single.signBit

/-- Whether the sign bit is set; true of negative zero. -/
def isNegative (x : Float32) : Bool := BinaryFormat.single.signBit ≤ x.toBits.toNat

/-- Neither an infinity nor a NaN. -/
def isFinite (x : Float32) : Bool := magnitudeBits x < BinaryFormat.single.infinity

end Single

end ODataQuery
