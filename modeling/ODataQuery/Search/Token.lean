import ODataQuery.Expr.Fault
import ODataQuery.Text.Blank

/-!
# Tokens of a search

A search has a grammar of its own: bare words, phrases in double quotes, parentheses, and the
operators `AND`, `OR` and `NOT` in capitals.

## Main definitions

- `SearchToken` — what stands in a search
- `SearchToken.phrase` — reads a phrase
- `SearchCursor` — a token with those that follow it
-/

namespace ODataQuery

/-- What stands in a search. -/
inductive SearchToken where
  | word (text : String)
  | phrase (text : String)
  | and
  | or
  | not
  | leftParen
  | rightParen
  | endOfText
deriving DecidableEq

namespace SearchToken

/-- How an error message calls a token. -/
def describe : SearchToken → String
  | word _ => "Word"
  | phrase _ => "Phrase"
  | and => "And"
  | or => "Or"
  | not => "Not"
  | leftParen => "LParen"
  | rightParen => "RParen"
  | endOfText => "Eof"

/-- Whether the token starts an operand. -/
def startsOperand : SearchToken → Bool
  | word _ | phrase _ | not | leftParen => true
  | _ => false

/-- Whether a character ends a bare word. -/
def endsWord (c : Char) : Bool := Text.isBlank c || c == '(' || c == ')' || c == '"'

/-- The token that a bare word is. -/
def ofWord (text : String) : SearchToken :=
  if text = "AND" then and
  else if text = "OR" then or
  else if text = "NOT" then not
  else word text

/-- Reads a phrase behind its opening quote: its content and the number of its characters, the
closing quote included. A backslash stands only in front of a quote or another backslash; a
fault comes with the number of characters in front of it. -/
def readPhrase (taken : Nat) : List Char → Except (ParseFault × Nat) (List Char × Nat)
  | [] => .error (.lex .unterminatedLiteral, 0)
  | '"' :: _ => .ok ([], taken + 1)
  | '\\' :: c :: cs =>
    if c = '"' ∨ c = '\\' then
      (readPhrase (taken + 2) cs).map fun (body, n) => (c :: body, n)
    else .error (.invalidLiteral "search phrase" "\\", taken + 1)
  | '\\' :: [] => .error (.invalidLiteral "search phrase" "\\", taken + 1)
  | c :: cs => (readPhrase (taken + 1) cs).map fun (body, n) => (c :: body, n)

/-- The token at the start of a text that does not start with white space, and the number of
its characters after the first one. A fault comes with the number of characters in front of
it. -/
def ofText (c : Char) (cs : List Char) : Except (ParseFault × Nat) (SearchToken × Nat) :=
  if c = '(' then .ok (leftParen, 0)
  else if c = ')' then .ok (rightParen, 0)
  else if c = '"' then
    (readPhrase 0 cs).map fun (body, n) => (phrase (String.ofList body), n)
  else
    let more := cs.takeWhile fun c => !endsWord c
    .ok (ofWord (String.ofList (c :: more)), more.length)

end SearchToken

/-- The tokens of a search with their offsets, and the fault that ends them if there is one. -/
structure SearchTokens where
  tokens : List (SearchToken × Nat)
  fault : Option ParseError
deriving DecidableEq

namespace SearchTokens

/-- The tokens from an offset on, at most `limit` of them. -/
def scanFrom (text : List Char) : (limit offset : Nat) → List Char → SearchTokens
  | 0, _, _ => ⟨[], none⟩
  | limit + 1, offset, cs =>
    let start := offset + (cs.takeWhile Text.isBlank).length
    match cs.dropWhile Text.isBlank with
    | [] => ⟨[(.endOfText, start)], none⟩
    | c :: cs =>
      match SearchToken.ofText c cs with
      | .error (fault, n) => ⟨[], some (.within text fault (start + n))⟩
      | .ok (token, more) =>
        let rest := scanFrom text limit (start + 1 + more) (cs.drop more)
        ⟨(token, start) :: rest.tokens, rest.fault⟩

/-- The tokens of a text. Every token but the one at the end has a character, which bounds
their number. -/
def ofText (text : List Char) : SearchTokens := scanFrom text (text.length + 1) 0 text

end SearchTokens

/-- A token of a search with its offset and those that follow it. -/
structure SearchCursor where
  current : SearchToken
  offset : Nat
  rest : SearchTokens
deriving DecidableEq

namespace SearchCursor

/-- The cursor at the first of some tokens; without tokens, at an end at the given offset. -/
def ofTokens (offset : Nat) (ts : SearchTokens) : Except ParseError SearchCursor :=
  match ts.tokens, ts.fault with
  | (t, place) :: rest, fault => .ok ⟨t, place, ⟨rest, fault⟩⟩
  | [], some e => .error e
  | [], none => .ok ⟨.endOfText, offset, ts⟩

/-- The cursor at the next token. -/
def advance (c : SearchCursor) : Except ParseError SearchCursor := ofTokens c.offset c.rest

end SearchCursor

end ODataQuery
