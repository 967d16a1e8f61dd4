import ODataQuery.Literal.Shape
import ODataQuery.Token.Basic

/-!
# Lexemes

Which characters at the start of a text form its first token.

## Main definitions

- `LexFault` — why there is no token
- `Lexeme.ofText` — the kind of the first token and where it ends

## Design notes

A lexeme is described by the number of its characters after the first one, so that every
lexeme has a character. Names extend as far as they can; so do numbers, dates and times, which
are told apart only when the literal is read.
-/

namespace ODataQuery

/-- Why there is no token at a place. -/
inductive LexFault where
  | unexpectedCharacter (c : Char)
  | unterminatedLiteral
deriving DecidableEq

namespace LexFault

/-- The fault in words. -/
def message : LexFault → String
  | unexpectedCharacter c => "unexpected character '" ++ String.ofList [c] ++ "'"
  | unterminatedLiteral => "unterminated quoted literal"

end LexFault

/-- The token at the start of a text. -/
structure Lexeme where
  kind : TokenKind
  /-- The number of characters after the first one. -/
  more : Nat
deriving DecidableEq

namespace Lexeme

/-- A letter or digit of any script, or an underscore. -/
def isWordCharacter (c : Char) : Bool := Text.isAlphanumeric c || c == '_'

/-- A character inside a name. Names may be qualified. -/
def isNameCharacter (c : Char) : Bool := isWordCharacter c || c == '.'

/-- A character that starts a name. -/
def opensName (c : Char) : Bool := Text.isAlphabetic c || c == '_' || c == '$'

/-- A character inside a number, a date or a time. -/
def isNumericCharacter (c : Char) : Bool :=
  Text.isAsciiAlphanumeric c || c == '.' || c == ':' || c == '+' || c == '-'

/-- Whether no letter, digit or underscore continues a word. -/
def endsWord (rest : List Char) : Bool := !rest.head?.any isWordCharacter

/-- Whether a text starts with a digit. -/
def startsWithDigit (cs : List Char) : Bool := cs.head?.any Text.isAsciiDigit

/-- The number of characters up to the closing quote and with it, after an opening quote. A
doubled quote does not close. -/
def quotedLength? : List Char → Option Nat
  | [] => none
  | '\'' :: '\'' :: cs => (quotedLength? cs).map (· + 2)
  | '\'' :: _ => some 1
  | _ :: cs => (quotedLength? cs).map (· + 1)

/-- The number of characters of a name that starts a text. -/
def nameLength (cs : List Char) : Nat := (cs.takeWhile isNameCharacter).length

/-- The number of characters of a number, date or time that starts a text. -/
def numericLength (cs : List Char) : Nat := (cs.takeWhile isNumericCharacter).length

/-- Whether a text starts with a guid that no letter, digit or underscore continues. -/
def startsWithGuid (cs : List Char) : Bool :=
  (Guid.ofText? (cs.take 36)).isSome && endsWord (cs.drop 36)

/-- The token that a minus starts. It belongs to the literal in `-INF`, in front of a digit
and in front of a duration. -/
def ofMinus (cs : List Char) : Lexeme :=
  if "INF".toList.isPrefixOf cs && endsWord (cs.drop 3) then ⟨.literal, 3⟩
  else if startsWithDigit cs then ⟨.literal, numericLength cs⟩
  else if cs.head? = some 'P' && (DurationText.read? ('-' :: cs.takeWhile isNameCharacter)).isSome
  then ⟨.literal, nameLength cs⟩
  else ⟨.minus, 0⟩

/-- The token that a name starts, given its first character and the text after that one. A
quote or a parenthesis directly after the name decides what it is. Otherwise the name itself
may be a literal. -/
def ofName (c : Char) (cs : List Char) : Except (LexFault × Nat) Lexeme :=
  let n := nameLength cs
  match cs.drop n with
  | '\'' :: rest =>
    match quotedLength? rest with
    | some m => .ok ⟨.literal, n + 1 + m⟩
    | none => .error (.unterminatedLiteral, n + 1)
  | '(' :: _ => .ok ⟨.functionName, n⟩
  | _ =>
    if (Shape.ofText? (c :: cs.take n)).isSome then .ok ⟨.literal, n⟩ else .ok ⟨.identifier, n⟩

/-- The token at the start of a text, given by its first character and the rest. A fault comes
with the number of characters in front of the place where it is. -/
def ofText (c : Char) (cs : List Char) : Except (LexFault × Nat) Lexeme :=
  match c with
  | '(' => .ok ⟨.leftParen, 0⟩
  | ')' => .ok ⟨.rightParen, 0⟩
  | ',' => .ok ⟨.comma, 0⟩
  | ':' => .ok ⟨.colon, 0⟩
  | '/' => .ok ⟨.slash, 0⟩
  | '-' => .ok (ofMinus cs)
  | '\'' =>
    match quotedLength? cs with
    | some m => .ok ⟨.literal, m⟩
    | none => .error (.unterminatedLiteral, 0)
  | c =>
    if startsWithGuid (c :: cs) then .ok ⟨.literal, 35⟩
    else if Text.isAsciiDigit c || (c == '+' && startsWithDigit cs) then
      .ok ⟨.literal, numericLength cs⟩
    else if opensName c then ofName c cs
    else .error (.unexpectedCharacter c, 0)

end Lexeme

end ODataQuery
