import ODataQuery.Text.Letter

/-!
# Numeric texts

The texts of numbers: an optional sign, digits, an optional fraction, and an optional
exponent. What a text denotes is decided by the kind that it is read as; this file only
takes it apart.

## Main definitions

- `NumberText` — the parts of a numeric text
- `NumberText.read?` — takes a text apart, if it is numeric
- `NumberText.isInteger`, `NumberText.isDecimal`, `NumberText.isScientific` — the three
  shapes: no fraction and no exponent, a fraction but no exponent, an exponent
- `Text.naturalOf`, `Text.digitsOf` — digits and their value

## Design notes

The three shapes exclude each other and cover everything that `read?` accepts.
-/

namespace ODataQuery

namespace Text

/-- The number written by a list of decimal digits; no digits write zero. -/
def naturalOf (digits : List Char) : Nat := Nat.ofDigitChars 10 digits 0

/-- The decimal digits of a number. -/
def digitsOf (n : Nat) : List Char := Nat.toDigits 10 n

/-- The decimal text of an integer. -/
def integerText (n : Int) : String :=
  String.ofList (if n < 0 then '-' :: digitsOf n.natAbs else digitsOf n.natAbs)

/-- The decimal digits of a number with zeros in front up to the given width. -/
def paddedDigits (width n : Nat) : List Char :=
  let digits := digitsOf n
  List.replicate (width - digits.length) '0' ++ digits

end Text

/-- The parts of a numeric text. -/
structure NumberText where
  negative : Bool
  /-- Digits before the point. -/
  whole : List Char
  /-- Digits after the point, if there is one. -/
  fraction : Option (List Char)
  /-- Sign and digits of the exponent, if there is one. -/
  exponent : Option (Bool × List Char)
deriving DecidableEq

namespace NumberText

/-- Takes off an optional sign; the flag tells whether it is a minus. -/
def takeSign : List Char → Bool × List Char
  | '-' :: cs => (true, cs)
  | '+' :: cs => (false, cs)
  | cs => (false, cs)

/-- A nonempty run of ASCII digits and what follows it. -/
def takeDigits? (cs : List Char) : Option (List Char × List Char) :=
  match cs.takeWhile Text.isAsciiDigit with
  | [] => none
  | ds => some (ds, cs.dropWhile Text.isAsciiDigit)

/-- Takes off an optional fraction; a point must be followed by a digit. -/
def takeFraction? : List Char → Option (Option (List Char) × List Char)
  | '.' :: cs => (takeDigits? cs).map fun (ds, rest) => (some ds, rest)
  | cs => some (none, cs)

/-- Takes an optional exponent that ends the text. -/
def finalExponent? : List Char → Option (Option (Bool × List Char))
  | [] => some none
  | c :: cs =>
    if c = 'e' || c = 'E' then
      let (negative, ds) := takeSign cs
      match takeDigits? ds with
      | some (digits, []) => some (some (negative, digits))
      | _ => none
    else none

/-- Takes a numeric text apart. -/
def read? (cs : List Char) : Option NumberText := do
  let (negative, cs) := takeSign cs
  let (whole, cs) ← takeDigits? cs
  let (fraction, cs) ← takeFraction? cs
  let exponent ← finalExponent? cs
  return ⟨negative, whole, fraction, exponent⟩

/-- Digits only. -/
def isInteger (t : NumberText) : Bool := t.fraction.isNone && t.exponent.isNone

/-- A fraction and no exponent. -/
def isDecimal (t : NumberText) : Bool := t.fraction.isSome && t.exponent.isNone

/-- An exponent. -/
def isScientific (t : NumberText) : Bool := t.exponent.isSome

/-- The digits after the point, none if there is no point. -/
def fractionDigits (t : NumberText) : List Char := t.fraction.getD []

/-- The integer written by sign and digits before the point. -/
def wholeValue (t : NumberText) : Int :=
  if t.negative then -(Text.naturalOf t.whole : Int) else Text.naturalOf t.whole

/-- Whether a digit other than zero stands before the exponent. -/
def hasNonzeroDigit (t : NumberText) : Bool :=
  (t.whole ++ t.fractionDigits).any (· != '0')

/-- The exponent as an integer, zero if there is none. -/
def exponentValue (t : NumberText) : Int :=
  match t.exponent with
  | none => 0
  | some (true, ds) => -(Text.naturalOf ds : Int)
  | some (false, ds) => Text.naturalOf ds

end NumberText

end ODataQuery
