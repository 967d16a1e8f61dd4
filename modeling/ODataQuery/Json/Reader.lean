import ODataQuery.Json.Basic

/-!
# Reading JSON

A reader for complete JSON texts.

## Main definitions

- `Json.readNumber?` — a number at the start of a text
- `Json.readString?` — the rest of a string after its opening quote
- `Json.read?` — a complete text, members of objects as they are written
- `Json.ofText?` — a complete text, keys of objects in order

## Design notes

Arrays and objects nest at most 127 deep. A number without fraction and exponent is an integer
if 64 bits hold it. Every other number is a 64-bit float made from its first digits, as many
as an unsigned 64-bit integer holds, scaled by powers of ten in floating point; a text whose
number is too large is refused.
-/

namespace ODataQuery.Json

/-- The four characters between tokens. -/
def isSpace (c : Char) : Bool := c == ' ' || c == '\n' || c == '\t' || c == '\r'

/-- The text without white space at its start. -/
def skipSpace (cs : List Char) : List Char := cs.dropWhile isSpace

-- ════════════════════════════════════════════════════════════════════════
-- Numbers
-- ════════════════════════════════════════════════════════════════════════

/-- Appends digits to a significand as long as 64 bits hold it. Gives the significand, how
many digits were appended, and the digits that were not. -/
def appendDigits (significand appended : Nat) : List Char → Nat × Nat × List Char
  | [] => (significand, appended, [])
  | d :: ds =>
    let next := significand * 10 + Text.naturalOf [d]
    if next < twoTo 64 then appendDigits next (appended + 1) ds
    else (significand, appended, d :: ds)

/-- `x * 10 ^ exponent` in floating point; none if it is too large. Exponents below the
smallest power of ten are worked off in steps. -/
def scaleFloat? : Nat → Float → Int → Option Float
  | 0, x, _ => some x
  | steps + 1, x, exponent =>
    if exponent.natAbs ≤ 308 then
      let power := Double.ofNat (tenTo exponent.natAbs)
      if exponent < 0 then some (x / power)
      else
        let y := x * power
        if Double.isFinite y then some y else none
    else if x == 0 then some x
    else if 0 ≤ exponent then none
    else scaleFloat? steps (x / Double.ofNat (tenTo 308)) (exponent + 308)

/-- The float with the digits of a number, signed. -/
def floatOf? (t : NumberText) : Option Float := do
  let (significand, _, left) := appendDigits 0 0 t.whole
  let exponent : Int := left.length
  let (significand, appended, _) := appendDigits significand 0 t.fractionDigits
  let exponent := exponent - appended
  let x ← scaleFloat? 4 (Double.ofNat significand) (exponent + t.exponentValue)
  return if t.negative then -x else x

/-- A number without fraction and exponent: an integer if 64 bits hold it. -/
def wholeNumber? (t : NumberText) : Option Json :=
  let n := Text.naturalOf t.whole
  if t.negative then
    if n = 0 then some (float (-0.0))
    else if n ≤ twoTo 63 then some (integer (-n))
    else (floatOf? t).map float
  else if n < twoTo 64 then some (integer n)
  else (floatOf? t).map float

/-- Takes an optional exponent. -/
def takeExponent? : List Char → Option (Option (Bool × List Char) × List Char)
  | [] => some (none, [])
  | c :: cs =>
    if c = 'e' || c = 'E' then
      let (negative, ds) := NumberText.takeSign cs
      (NumberText.takeDigits? ds).map fun (digits, rest) => (some (negative, digits), rest)
    else some (none, c :: cs)

/-- Takes an optional minus. -/
def takeMinus : List Char → Bool × List Char
  | '-' :: cs => (true, cs)
  | cs => (false, cs)

/-- A number at the start of a text. Its digits do not start with a superfluous zero. -/
def readNumber? (cs : List Char) : Option (Json × List Char) := do
  let (negative, cs) := takeMinus cs
  let (whole, cs) ← NumberText.takeDigits? cs
  if whole.head? = some '0' && whole.length != 1 then none
  else
    let (fraction, cs) ← NumberText.takeFraction? cs
    let (exponent, cs) ← takeExponent? cs
    let t : NumberText := ⟨negative, whole, fraction, exponent⟩
    let j ← if t.isInteger then wholeNumber? t else (floatOf? t).map float
    return (j, cs)

-- ════════════════════════════════════════════════════════════════════════
-- Strings
-- ════════════════════════════════════════════════════════════════════════

/-- The value of a hexadecimal digit. -/
def hexDigit? (c : Char) : Option Nat :=
  if '0' ≤ c ∧ c ≤ '9' then some (c.toNat - 48)
  else if 'a' ≤ c ∧ c ≤ 'f' then some (c.toNat - 87)
  else if 'A' ≤ c ∧ c ≤ 'F' then some (c.toNat - 55)
  else none

/-- The number written by four hexadecimal digits. -/
def hexUnit? (a b c d : Char) : Option Nat := do
  return (((← hexDigit? a) * 16 + (← hexDigit? b)) * 16 + (← hexDigit? c)) * 16 + (← hexDigit? d)

/-- The character of a single-letter escape. -/
def simpleEscape? (c : Char) : Option Char :=
  if c = '"' ∨ c = '\\' ∨ c = '/' then some c
  else if c = 'n' then some '\n'
  else if c = 't' then some '\t'
  else if c = 'r' then some '\r'
  else if c = 'b' then some (Char.ofNat 8)
  else if c = 'f' then some (Char.ofNat 12)
  else none

/-- The rest of a string after its opening quote, and what follows it. Two escapes that form
a surrogate pair are one character, and no other escape may name a surrogate. -/
def readString? : List Char → Option (List Char × List Char)
  | [] => none
  | '"' :: cs => some ([], cs)
  | '\\' :: 'u' :: a :: b :: c :: d :: cs => do
    let unit ← hexUnit? a b c d
    if unit < 0xD800 ∨ 0xE000 ≤ unit then
      let (s, rest) ← readString? cs
      return (Char.ofNat unit :: s, rest)
    else if 0xDC00 ≤ unit then none
    else match cs with
      | '\\' :: 'u' :: e :: f :: g :: h :: cs => do
        let low ← hexUnit? e f g h
        if 0xDC00 ≤ low ∧ low < 0xE000 then
          let (s, rest) ← readString? cs
          return (Char.ofNat (0x10000 + (unit - 0xD800) * 0x400 + (low - 0xDC00)) :: s, rest)
        else none
      | _ => none
  | '\\' :: c :: cs => do
    let e ← simpleEscape? c
    let (s, rest) ← readString? cs
    return (e :: s, rest)
  | c :: cs =>
    if c = '\\' ∨ c.toNat < 32 then none
    else do
      let (s, rest) ← readString? cs
      return (c :: s, rest)

/-- A string with its opening quote, and what follows it. -/
def readQuoted? : List Char → Option (String × List Char)
  | '"' :: cs => do
    let (s, rest) ← readString? cs
    return (String.ofList s, rest)
  | _ => none

-- ════════════════════════════════════════════════════════════════════════
-- Values
-- ════════════════════════════════════════════════════════════════════════

/-- A reader of one value at the start of a text. -/
abbrev ValueReader := List Char → Option (Json × List Char)

/-- The items after the first one, up to the closing bracket. Each takes a comma, so a text of
`n` characters has at most `n` of them. -/
def readItems? (value : ValueReader) : Nat → List Char → Option (List Json × List Char)
  | 0, _ => none
  | n + 1, cs =>
    match skipSpace cs with
    | ']' :: rest => some ([], rest)
    | ',' :: rest => do
      let (j, rest) ← value (skipSpace rest)
      let (js, rest) ← readItems? value n rest
      return (j :: js, rest)
    | _ => none

/-- A key, a colon and a value. -/
def readMember? (value : ValueReader) (cs : List Char) : Option ((String × Json) × List Char) := do
  let (key, rest) ← readQuoted? cs
  match skipSpace rest with
  | ':' :: rest => do
    let (j, rest) ← value (skipSpace rest)
    return ((key, j), rest)
  | _ => none

/-- The members after the first one, up to the closing brace. -/
def readMembers? (value : ValueReader) : Nat → List Char →
    Option (List (String × Json) × List Char)
  | 0, _ => none
  | n + 1, cs =>
    match skipSpace cs with
    | '\x7d' :: rest => some ([], rest)
    | ',' :: rest => do
      let (m, rest) ← readMember? value (skipSpace rest)
      let (ms, rest) ← readMembers? value n rest
      return (m :: ms, rest)
    | _ => none

/-- A value at the start of a text that does not start with white space, nested less than
`depth` deep. -/
def readValue? : Nat → ValueReader
  | 0, _ => none
  | depth + 1, cs =>
    match cs with
    | 'n' :: 'u' :: 'l' :: 'l' :: rest => some (null, rest)
    | 't' :: 'r' :: 'u' :: 'e' :: rest => some (bool true, rest)
    | 'f' :: 'a' :: 'l' :: 's' :: 'e' :: rest => some (bool false, rest)
    | '"' :: rest => do
      let (s, rest) ← readString? rest
      return (string (String.ofList s), rest)
    | '[' :: rest =>
      if depth = 0 then none
      else match skipSpace rest with
        | ']' :: rest => some (array [], rest)
        | rest => do
          let (j, rest) ← readValue? depth rest
          let (js, rest) ← readItems? (readValue? depth) (rest.length + 1) rest
          return (array (j :: js), rest)
    | '\x7b' :: rest =>
      if depth = 0 then none
      else match skipSpace rest with
        | '\x7d' :: rest => some (object [], rest)
        | rest => do
          let (m, rest) ← readMember? (readValue? depth) rest
          let (ms, rest) ← readMembers? (readValue? depth) (rest.length + 1) rest
          return (object (m :: ms), rest)
    | _ => readNumber? cs

/-- Reads a complete text. -/
def read? (cs : List Char) : Option Json := do
  let (j, rest) ← readValue? 128 (skipSpace cs)
  if (skipSpace rest).isEmpty then some j else none

/-- Reads a complete text; the keys of every object are put in order. -/
def ofText? (s : String) : Option Json := (read? s.toList).map sorted

end ODataQuery.Json
