/-!
# Tokens

The words of an expression, with the text they were read from.

## Main definitions

- `TokenKind` — what a token is
- `Token` — a token with its place in the text
- `Token.isWord` — an identifier or function name spelled in a given way
- `Token.describe` — how an error message calls a token
-/

namespace ODataQuery

/-- What a token is. Operators with a keyword are identifiers: whether `eq` is an operator
depends on where it stands. -/
inductive TokenKind where
  | identifier
  /-- An identifier directly in front of a parenthesis. -/
  | functionName
  /-- A literal of any shape, which is read later. -/
  | literal
  | leftParen
  | rightParen
  | comma
  | colon
  | slash
  /-- A minus that does not start a literal. -/
  | minus
  | endOfText
deriving DecidableEq

/-- A token with its place in the text. -/
structure Token where
  kind : TokenKind
  text : String
  /-- The offset of the first character. -/
  offset : Nat
  /-- Whether white space stands in front of the token. -/
  leadingSpace : Bool
deriving DecidableEq

namespace Token

/-- Whether the token is an identifier or the name of a function. -/
def isName (t : Token) : Bool := t.kind == .identifier || t.kind == .functionName

/-- Whether the token is an identifier or function name spelled in this way. -/
def isWord (t : Token) (word : String) : Bool := t.isName && t.text == word

/-- How an error message calls the token. -/
def describe (t : Token) : String :=
  if t.kind = .endOfText then "end of input" else "'" ++ t.text ++ "'"

end Token

end ODataQuery
