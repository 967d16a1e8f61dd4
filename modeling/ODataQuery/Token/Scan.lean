import ODataQuery.Text.Blank
import ODataQuery.Text.Located
import ODataQuery.Token.Lexeme

/-!
# Scanning

The tokens of a text.

## Main definitions

- `Scan` — what stands next in a text, and the text after it
- `Scan.next` — skips white space and takes a token
- `tokensOf` — every token of a text
- `Cursor` — a token with those that follow it
- `Cursor.advance` — moves to the next token
- `Scanner` — a place in a text that is scanned token by token

## Design notes

A text whose scan fails somewhere has a cursor all the same: the fault is raised when the
cursor moves to the place where it is.
-/

namespace ODataQuery

/-- What stands next in a text, and the text after it. -/
structure Scan where
  outcome : Except (LexFault × Nat) Token
  /-- The offset where the scan stopped. -/
  offset : Nat
  /-- The text from there on. -/
  rest : List Char

/-- An error found by scanning a text. -/
abbrev LexError := Located LexFault

namespace Scan

/-- Takes the token at the start of a text that does not start with white space. After an
unterminated literal nothing is left; an unexpected character is not taken. -/
def token (leadingSpace : Bool) (offset : Nat) : List Char → Scan
  | [] => ⟨.ok ⟨.endOfText, "", offset, leadingSpace⟩, offset, []⟩
  | c :: cs =>
    match Lexeme.ofText c cs with
    | .ok l =>
      ⟨.ok ⟨l.kind, String.ofList (c :: cs.take l.more), offset, leadingSpace⟩,
        offset + 1 + l.more, cs.drop l.more⟩
    | .error (.unterminatedLiteral, n) =>
      ⟨.error (.unterminatedLiteral, offset + n), offset + 1 + cs.length, []⟩
    | .error (fault, n) => ⟨.error (fault, offset + n), offset, c :: cs⟩

/-- Skips white space and takes a token. -/
def next (offset : Nat) (cs : List Char) : Scan :=
  let skipped := (cs.takeWhile Text.isBlank).length
  token (0 < skipped) (offset + skipped) (cs.dropWhile Text.isBlank)

/-- The tokens from an offset on, at most `limit` of them, and the fault that ends them if
there is one. -/
def tokensFrom (text : List Char) : Nat → Nat → List Char → List Token × Option LexError
  | 0, _, _ => ([], none)
  | limit + 1, offset, cs =>
    let scan := next offset cs
    match scan.outcome with
    | .error (fault, place) => ([], some (.within text fault place))
    | .ok t =>
      if t.kind = .endOfText then ([t], none)
      else
        let (ts, e) := tokensFrom text limit scan.offset scan.rest
        (t :: ts, e)

end Scan

/-- The tokens of a text up to its end or its first fault. Every token but the one at the end
has a character, which bounds their number. -/
def scanText (text : List Char) : List Token × Option LexError :=
  Scan.tokensFrom text (text.length + 1) 0 text

/-- Every token of a text, the end of the text included. -/
def tokensOf (text : List Char) : Except LexError (List Token) :=
  match scanText text with
  | (ts, none) => .ok ts
  | (_, some e) => .error e

-- ════════════════════════════════════════════════════════════════════════
-- Moving through the tokens
-- ════════════════════════════════════════════════════════════════════════

/-- A token of a text with those that follow it. -/
structure Cursor where
  current : Token
  rest : List Token
  /-- The fault that ends the tokens. -/
  fault : Option LexError
deriving DecidableEq

namespace Cursor

/-- The cursor at the first of some tokens. -/
def ofScan : List Token × Option LexError → Except LexError Cursor
  | (t :: ts, fault) => .ok ⟨t, ts, fault⟩
  | ([], some e) => .error e
  | ([], none) => .ok ⟨⟨.endOfText, "", 0, false⟩, [], none⟩

/-- The cursor at the first token of a text. -/
def ofText (text : List Char) : Except LexError Cursor := ofScan (scanText text)

/-- The cursor at the next token. Behind the end of the text there is only the end. -/
def advance (c : Cursor) : Except LexError Cursor :=
  match c.rest, c.fault with
  | t :: ts, fault => .ok ⟨t, ts, fault⟩
  | [], some e => .error e
  | [], none => .ok c

/-- The next token. -/
def peek (c : Cursor) : Except LexError Token := c.advance.map Cursor.current

end Cursor

-- ════════════════════════════════════════════════════════════════════════
-- Scanning token by token
-- ════════════════════════════════════════════════════════════════════════

/-- A place in a text. -/
structure Scanner where
  text : List Char
  /-- The offset of the next character. -/
  position : Nat

namespace Scanner

/-- The start of a text. -/
def ofText (text : List Char) : Scanner := ⟨text, 0⟩

/-- The next token, and the place where the scan stopped. -/
def next (s : Scanner) : Except LexError Token × Scanner :=
  let scan := Scan.next s.position (s.text.drop s.position)
  let outcome := match scan.outcome with
    | .ok t => .ok t
    | .error (fault, place) => .error (.within s.text fault place)
  (outcome, ⟨s.text, scan.offset⟩)

/-- The next token, with the place put back to where it was. -/
def lookAhead (s : Scanner) : Except LexError Token × Scanner :=
  let (outcome, moved) := s.next
  (outcome, { moved with position := s.position })

end Scanner

end ODataQuery
