import ODataQuery.Value.Basic

/-!
# Reading numbers

What a numeric text denotes as a number of a given kind, and which kind it has when none is
given.

## Main definitions

- `Value.ofNumber?` — reads a text as a given numeric kind
- `Value.inferNumber?` — chooses the kind by the text

## Design notes

`Byte` and `SByte` keep the lowest eight bits of a whole number; the wider integers refuse a
number out of range. Whole numbers are read through 128 bits first. A floating point number
must neither overflow to infinity nor vanish to zero.
-/

namespace ODataQuery.Value

/-- The whole number of a text without fraction and exponent, if 128 bits hold it. -/
def wideInteger? (cs : List Char) : Option Int := do
  let t ← NumberText.read? cs
  if t.isInteger then
    let n := t.wholeValue
    if FitsBits 128 n then some n else none
  else none

/-- The 64-bit number nearest to a numeric text, if it is finite and does not vanish. -/
def finiteDouble? (t : NumberText) : Option Float :=
  if t.hasNonzeroDigit then
    let digits := t.whole ++ t.fractionDigits
    let significant := digits.dropWhile (· == '0')
    let exponent := t.exponentValue - t.fractionDigits.length
    let magnitude := exponent + significant.length
    if 310 < magnitude ∨ magnitude < -330 then none
    else
      let n := Text.naturalOf significant
      let x :=
        if exponent < 0 then Double.ofRatio t.negative n (tenTo (-exponent).toNat)
        else Double.ofRatio t.negative (n * tenTo exponent.toNat) 1
      if Double.isFinite x && x != 0 then some x else none
  else some (Double.ofRatio t.negative 0 1)

/-- Reads a 64-bit number, the names of the infinities and of NaN included. -/
def double? (cs : List Char) : Option Float :=
  if cs = ['I', 'N', 'F'] then some (1 / 0)
  else if cs = ['-', 'I', 'N', 'F'] then some (-1 / 0)
  else if cs = ['N', 'a', 'N'] then some (0 / 0)
  else (NumberText.read? cs).bind finiteDouble?

/-- Reads a 32-bit number by narrowing a 64-bit one. -/
def single? (cs : List Char) : Option Float32 := do
  let wide ← double? cs
  let narrow := wide.toFloat32
  if (Double.isFinite wide && !Single.isFinite narrow) || (wide != 0 && narrow == 0) then none
  else some narrow

/-- Reads a decimal. -/
def decimal? (cs : List Char) : Option Decimal := do
  let t ← NumberText.read? cs
  if t.isScientific then Decimal.ofScientific? t else Decimal.ofText? t

/-- The whole number of a text, if a signed number with so many bits can be it. -/
def signed? (bits : Nat) (cs : List Char) : Option Int :=
  (wideInteger? cs).filter fun n => FitsBits bits n

/-- Reads a numeric text as the given numeric kind. -/
def ofNumber? (kind : Kind) (cs : List Char) : Option Value :=
  match kind with
  | .byte => (wideInteger? cs).map fun n => byte (UInt8.ofNat (n % 256).toNat)
  | .sbyte => (wideInteger? cs).map fun n => sbyte (Int8.ofInt n)
  | .int16 => (signed? 16 cs).map fun n => int16 (Int16.ofInt n)
  | .int32 => (signed? 32 cs).map fun n => int32 (Int32.ofInt n)
  | .int64 => (signed? 64 cs).map fun n => int64 (Int64.ofInt n)
  | .single => (single? cs).map single
  | .double => (double? cs).map double
  | .decimal => (decimal? cs).map decimal
  | _ => none

/-- Reads a numeric text as the narrowest of its kinds: a whole number as `int32`, then
`int64`, then `decimal`; a fraction as `decimal`; an exponent or a name as `double`. -/
def inferNumber? (cs : List Char) : Option Value :=
  match NumberText.read? cs with
  | some t =>
    if t.isInteger then
      (ofNumber? .int32 cs).or ((ofNumber? .int64 cs).or (ofNumber? .decimal cs))
    else if t.isDecimal then ofNumber? .decimal cs
    else ofNumber? .double cs
  | none => ofNumber? .double cs

end ODataQuery.Value
