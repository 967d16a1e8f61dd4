/-!
# Base64

Bytes as texts over 64 characters: with the URL-safe alphabet and without padding, and with
the standard alphabet and padding.

## Main definitions

- `Base64.encodeUrl` — URL-safe, no padding
- `Base64.encodeStandard` — standard alphabet, padded
- `Base64.decode?` — reads either alphabet, padded or not

## Design notes

Three bytes make four characters. A text that stops within a group must leave the unused
bits of its last character zero, so that every sequence of bytes has one text per alphabet.
-/

namespace ODataQuery.Base64

/-- The character for six bits, given the characters for 62 and 63. -/
def character (c₆₂ c₆₃ : Char) (n : Nat) : Char :=
  if n < 26 then Char.ofNat (65 + n)
  else if n < 52 then Char.ofNat (71 + n)
  else if n < 62 then Char.ofNat (n - 4)
  else if n = 62 then c₆₂ else c₆₃

/-- The six bits of a character of either alphabet. -/
def value? (c : Char) : Option Nat :=
  if 'A' ≤ c ∧ c ≤ 'Z' then some (c.toNat - 65)
  else if 'a' ≤ c ∧ c ≤ 'z' then some (c.toNat - 71)
  else if '0' ≤ c ∧ c ≤ '9' then some (c.toNat + 4)
  else if c = '-' ∨ c = '+' then some 62
  else if c = '_' ∨ c = '/' then some 63
  else none

/-- The characters of a sequence of bytes; `padding` is what completes a last group that
lacks one character. -/
def encodeWith (c₆₂ c₆₃ : Char) (padding : List Char) : List UInt8 → List Char
  | a :: b :: c :: rest =>
    let n := (a.toNat * 256 + b.toNat) * 256 + c.toNat
    let char := character c₆₂ c₆₃
    char (n / 262144) :: char (n / 4096 % 64) :: char (n / 64 % 64) :: char (n % 64) ::
      encodeWith c₆₂ c₆₃ padding rest
  | [a, b] =>
    let n := (a.toNat * 256 + b.toNat) * 4
    let char := character c₆₂ c₆₃
    char (n / 4096) :: char (n / 64 % 64) :: char (n % 64) :: padding
  | [a] =>
    let n := a.toNat * 16
    let char := character c₆₂ c₆₃
    char (n / 64) :: char (n % 64) :: (padding ++ padding)
  | [] => []

/-- URL-safe text without padding. -/
def encodeUrl (bytes : List UInt8) : String :=
  String.ofList (encodeWith '-' '_' [] bytes)

/-- Text over the standard alphabet with padding. -/
def encodeStandard (bytes : List UInt8) : String :=
  String.ofList (encodeWith '+' '/' ['='] bytes)

/-- The bytes written by groups of six bits. -/
def bytesOf? : List Nat → Option (List UInt8)
  | a :: b :: c :: d :: rest => do
    let n := ((a * 64 + b) * 64 + c) * 64 + d
    let bytes ← bytesOf? rest
    return UInt8.ofNat (n / 65536) :: UInt8.ofNat (n / 256 % 256) :: UInt8.ofNat (n % 256) :: bytes
  | [a, b, c] =>
    let n := (a * 64 + b) * 64 + c
    if n % 4 = 0 then some [UInt8.ofNat (n / 1024), UInt8.ofNat (n / 4 % 256)] else none
  | [a, b] =>
    let n := a * 64 + b
    if n % 16 = 0 then some [UInt8.ofNat (n / 16)] else none
  | [_] => none
  | [] => some []

/-- Reads either alphabet. Any number of `=` may stand at the end. -/
def decode? (text : List Char) : Option (List UInt8) := do
  let sextets ← ((text.reverse.dropWhile (· == '=')).reverse).mapM value?
  bytesOf? sextets

end ODataQuery.Base64
