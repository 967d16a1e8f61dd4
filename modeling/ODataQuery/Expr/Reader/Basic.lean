import ODataQuery.Expr.Basic
import ODataQuery.Expr.Fault
import ODataQuery.Metadata.AllowList

/-!
# The setting of a reader

What the readers of expressions know, and the steps they have in common.

## Main definitions

- `Setting` — the text, the entity type, the allow-list and the bound on nesting
- `Frame` — a lambda variable in scope
- `Reading` — reads a part of the text
- `Reading.current`, `Reading.advance`, `Reading.nextToken` — looking at tokens and moving on
- `Setting.expect` — moves over a token of a given kind
-/

namespace ODataQuery

/-- What the readers of an expression know. -/
structure Setting where
  /-- The whole text, which error messages quote. -/
  text : List Char
  entity : EntityType
  allowed : AllowList
  maxDepth : Nat

/-- A lambda variable in scope. -/
structure Frame where
  name : String
  /-- The type of the elements that the variable ranges over. -/
  entity : EntityType
  /-- The path of the navigation that the variable ranges over. -/
  path : String

/-- The innermost variable of this name. -/
def Frame.find? (scope : List Frame) (name : String) : Option Frame :=
  scope.find? (·.name == name)

/-- Reads a part of the text: from a cursor to what was read and the cursor behind it. -/
abbrev Reading := StateT Cursor (Except ParseError)

namespace Reading

/-- The current token. -/
def current : Reading Token := fun c => .ok (c.current, c)

/-- What was read without looking at the text, or a fault. -/
def outcome {α : Type} (result : Except ParseError α) : Reading α := fun c =>
  result.map fun a => (a, c)

/-- The number of tokens behind the current one. -/
def remaining : Reading Nat := fun c => .ok (c.rest.length, c)

/-- Moves to the next token, and gives the one just left. -/
def advance : Reading Token := fun c =>
  match c.advance with
  | .ok next => .ok (c.current, next)
  | .error e => .error (e.map .lex)

/-- The token behind the current one. -/
def nextToken : Reading Token := fun c =>
  match c.peek with
  | .ok t => .ok (t, c)
  | .error e => .error (e.map .lex)

end Reading

namespace Setting

/-- A fault at an offset of the text. -/
def fail {α : Type} (setting : Setting) (fault : ParseFault) (offset : Nat) : Reading α :=
  fun _ => .error (.within setting.text fault offset)

/-- The fault of finding another token than the expected one. -/
def unexpected {α : Type} (setting : Setting) (expected : String) : Reading α := do
  let t ← Reading.current
  if t.kind = .endOfText then setting.fail (.unexpectedEnd expected) t.offset
  else setting.fail (.unexpectedToken expected t.describe) t.offset

/-- The fault of types that do not fit. -/
def mismatch {α : Type} (setting : Setting) (m : Mismatch) (offset : Nat) : Reading α :=
  setting.fail (.typeMismatch m) offset

/-- Moves over a token of a kind. -/
def expect (setting : Setting) (kind : TokenKind) (expected : String) : Reading Token := do
  let t ← Reading.current
  if t.kind = kind then Reading.advance else setting.unexpected expected

/-- Accepts the end of the text only. -/
def expectEnd (setting : Setting) : Reading Unit := do
  let t ← Reading.current
  match t.kind with
  | .endOfText => return
  | .rightParen => setting.fail .unbalancedParenthesis t.offset
  | _ => setting.unexpected "an operator or end of input"

end Setting

end ODataQuery
