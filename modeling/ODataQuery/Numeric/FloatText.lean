import ODataQuery.Numeric.Shortest

/-!
# Texts of floating point numbers

Both notations print the shortest digits that read back; they differ in the exponents that
are written positionally, in the sign of a positive exponent and in the choice between two
such decimals that are equally near.

## Main definitions

- `FloatNotation` — the choices a notation makes
- `FloatNotation.url` — the notation of URL literals
- `FloatNotation.json` — the notation of JSON numbers
- `FloatNotation.double`, `FloatNotation.single` — the text of a finite number
-/

namespace ODataQuery

/-- Which decimal exponents are written positionally, whether a positive exponent has a sign,
and which of two equally near decimals is printed. -/
structure FloatNotation where
  positionalFrom : Int
  positionalTo : Int
  plusSign : Bool
  tie : TieRule

namespace FloatNotation

/-- URL literals are positional from `0.0001` up to below `1e16`. -/
def url : FloatNotation := ⟨-4, 15, false, .upward⟩

/-- JSON numbers are positional from `0.00001` up to below `1e+16`. -/
def json : FloatNotation := ⟨-5, 15, true, .even⟩

/-- Digits with a point after the first `whole` of them, and at least one digit on either
side of the point. -/
def positional (digits : List Char) (whole : Int) : List Char :=
  if whole ≤ 0 then
    '0' :: '.' :: (List.replicate (-whole).toNat '0' ++ digits)
  else
    let n := whole.toNat
    let padded := digits ++ List.replicate (n - digits.length) '0'
    let rest := padded.drop n
    padded.take n ++ '.' :: (if rest.isEmpty then ['0'] else rest)

/-- One digit before the point, the others after it, and the exponent. -/
def scientific (plusSign : Bool) (digits : List Char) (exponent : Int) : List Char :=
  let significand := match digits with
    | [] => ['0']
    | [d] => [d]
    | d :: ds => d :: '.' :: ds
  let sign := if exponent < 0 then ['-'] else if plusSign then ['+'] else []
  significand ++ 'e' :: (sign ++ Nat.toDigits 10 exponent.natAbs)

/-- The text of the number without sign. -/
def magnitude (style : FloatNotation) (s : ShortDecimal) : List Char :=
  let digits := Nat.toDigits 10 s.digits
  let exponent : Int := s.exponent + (digits.length - 1 : Nat)
  if style.positionalFrom ≤ exponent && exponent ≤ style.positionalTo then
    positional digits (exponent + 1)
  else scientific style.plusSign digits exponent

/-- The text of a sign and a finite bit pattern. -/
def ofBits (style : FloatNotation) (f : BinaryFormat) (negative : Bool) (bits : Nat) : String :=
  let body := if bits = 0 then ['0', '.', '0'] else style.magnitude (f.shortest style.tie bits)
  String.ofList (if negative then '-' :: body else body)

/-- The text of a finite 64-bit number. -/
def double (style : FloatNotation) (x : Float) : String :=
  style.ofBits .double (Double.isNegative x) (Double.magnitudeBits x)

/-- The text of a finite 32-bit number. -/
def single (style : FloatNotation) (x : Float32) : String :=
  style.ofBits .single (Single.isNegative x) (Single.magnitudeBits x)

end FloatNotation

end ODataQuery
