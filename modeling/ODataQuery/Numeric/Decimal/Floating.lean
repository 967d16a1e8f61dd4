import ODataQuery.Numeric.Binary
import ODataQuery.Numeric.Decimal.Basic

/-!
# Decimals and binary floating point

Conversions between decimals and the two binary formats. Neither direction is a single
correct rounding; each follows a fixed sequence of operations.

## Main definitions

- `Decimal.toDouble` — adds the two parts in floating point and rounds at the scale
- `Decimal.ofDouble?`, `Decimal.ofSingle?` — about 15 and 7 significant digits
-/

namespace ODataQuery.Decimal

/-- The 64-bit number for a decimal. Whole numbers are rounded once. Otherwise the part
before and the part after the point are converted, added, and rounded in floating point to
the scale of the decimal. -/
def toDouble (d : Decimal) : Float :=
  if d.scale = 0 then Double.ofInt d.signed
  else
    let unit := tenTo d.scale
    let whole := Double.ofNat (d.coefficient / unit)
    let fraction := Double.ofNat (d.coefficient % unit) / Double.ofNat unit
    let magnitude :=
      if fraction == 0 then whole
      else ((whole + fraction) * Double.ofNat unit).round / Double.ofNat unit
    if d.negative then -magnitude else magnitude

/-- Turns a factor `2 ^ (-steps)` into tenths: an even significand is halved, an odd one is
multiplied by five as long as 96 bits hold it, and cut otherwise. -/
def halve : Nat → Nat × Int → Nat × Int
  | 0, p => p
  | steps + 1, (m, e) =>
    if m % 2 = 0 then halve steps (m / 2, e + 1)
    else if m * 5 < twoTo 96 then halve steps (m * 5, e)
    else halve steps (m / 2, e + 1)

/-- Turns a factor `2 ^ steps` into tens: the significand is doubled as long as 96 bits hold
it, and divided by five otherwise. -/
def double : Nat → Nat × Int → Nat × Int
  | 0, p => p
  | steps + 1, (m, e) =>
    if m < twoTo 95 then double steps (m * 2, e - 1) else double steps (m / 5, e)

/-- Multiplies by ten until the exponent is used up; fails beyond 96 bits. -/
def raise? : Nat → Nat → Option Nat
  | 0, m => some m
  | exponent + 1, m => if m * 10 < twoTo 96 then raise? exponent (m * 10) else none

/-- Divides by ten, a remainder of five or more rounding upwards. -/
def tenth (m : Nat) : Nat := if 5 ≤ m % 10 then m / 10 + 1 else m / 10

/-- Brings a scale down to the largest one; a significand that vanishes on the way leaves
the scale zero. -/
def lowerScale : Nat → Nat × Nat → Nat × Nat
  | 0, p => p
  | fuel + 1, (m, scale) =>
    if scale ≤ maxScale then (m, scale)
    else if m / 10 = 0 then (0, 0)
    else lowerScale fuel (tenth m, scale - 1)

/-- Drops digits until the significand is below `bound`. -/
def limitDigits (bound : Nat) : Nat → Nat → Nat × Nat
  | m, 0 => (m, 0)
  | m, scale + 1 => if m < bound then (m, scale + 1) else limitDigits bound (tenth m) scale

/-- The decimal for `m * 2 ^ e`, with a significand below `bound` if the scale allows it. -/
def ofBinary? (negative : Bool) (m : Nat) (e : Int) (bound : Nat) : Option Decimal := do
  let (m, exponent) := if e < 0 then halve (-e).toNat (m, e) else double e.toNat (m, e)
  if 0 < exponent then
    let m ← raise? exponent.toNat m
    ofSignedParts? negative m 0
  else
    let scale := (-exponent).toNat
    let (m, scale) := lowerScale scale (m, scale)
    let (m, scale) := limitDigits bound m scale
    let (m, scale) := trimZeros m scale
    ofSignedParts? negative m scale

/-- The decimal for a finite 64-bit number that is small enough. -/
def ofDouble? (x : Float) : Option Decimal :=
  if Double.isFinite x then
    let (m, e) := BinaryFormat.double.decode (Double.magnitudeBits x)
    if m = 0 then some { zero with negative := Double.isNegative x }
    else ofBinary? (Double.isNegative x) m e (twoTo 52)
  else none

/-- The decimal for a finite 32-bit number that is small enough. -/
def ofSingle? (x : Float32) : Option Decimal :=
  if Single.isFinite x then
    let (m, e) := BinaryFormat.single.decode (Single.magnitudeBits x)
    if m = 0 then some { zero with negative := Single.isNegative x }
    else ofBinary? (Single.isNegative x) m e (twoTo 24)
  else none

end ODataQuery.Decimal
