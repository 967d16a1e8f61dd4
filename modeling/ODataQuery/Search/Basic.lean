import ODataQuery.Search.Token

/-!
# Searches

Terms combined by `NOT`, `AND` and `OR`, from tight to loose. Terms next to each other are
combined by `AND`.

## Main definitions

- `Search` — a search
- `Search.ofText` — reads a search
-/

namespace ODataQuery

/-- A search. -/
inductive Search where
  /-- A word or a phrase to be found inside a text. -/
  | term (text : String)
  | not (operand : Search)
  | and (left right : Search)
  | or (left right : Search)
deriving DecidableEq

/-- Reads a part of a search: from a cursor to what was read and the cursor behind it. -/
abbrev SearchReading := StateT SearchCursor (Except ParseError)

namespace SearchReading

/-- The current token. -/
def current : SearchReading SearchToken := fun c => .ok (c.current, c)

/-- The number of tokens behind the current one. -/
def remaining : SearchReading Nat := fun c => .ok (c.rest.tokens.length, c)

/-- Moves to the next token, and gives the offset of the one just left. -/
def advance : SearchReading Nat := fun c => c.advance.map fun next => (c.offset, next)

/-- A fault at an offset of the text. -/
def failAt {α : Type} (text : List Char) (fault : ParseFault) (offset : Nat) :
    SearchReading α :=
  fun _ => .error (.within text fault offset)

/-- A fault at the current token. -/
def fail {α : Type} (text : List Char) (fault : ParseFault) : SearchReading α := fun c =>
  .error (.within text fault c.offset)

/-- The fault of finding another token than the expected one. -/
def unexpected {α : Type} (text : List Char) (expected : String) : SearchReading α := do
  let t ← current
  if t = .endOfText then fail text (.unexpectedEnd expected)
  else fail text (.unexpectedToken expected t.describe)

end SearchReading

namespace Search

open SearchReading

/-- Reads at most `limit` operands behind another one, with or without `AND` in front. -/
def conjuncts (operand : SearchReading Search) : (limit : Nat) → Search → SearchReading Search
  | 0, left => return left
  | limit + 1, left => do
    let t ← current
    if t = .and then
      let _ ← advance
      let right ← operand
      conjuncts operand limit (.and left right)
    else if t.startsOperand then
      let right ← operand
      conjuncts operand limit (.and left right)
    else return left

/-- Reads operands combined by `AND`. -/
def conjunction (operand : SearchReading Search) : SearchReading Search := do
  let left ← operand
  let remaining ← remaining
  conjuncts operand (remaining + 1) left

/-- Reads at most `limit` conjunctions behind another one. -/
def disjuncts (operand : SearchReading Search) : (limit : Nat) → Search → SearchReading Search
  | 0, left => return left
  | limit + 1, left => do
    let t ← current
    if t = .or then
      let _ ← advance
      let right ← conjunction operand
      disjuncts operand limit (.or left right)
    else return left

/-- Reads operands combined by `AND` and `OR`. -/
def disjunction (operand : SearchReading Search) : SearchReading Search := do
  let left ← conjunction operand
  let remaining ← remaining
  disjuncts operand (remaining + 1) left

/-- Reads the parenthesis that closes a group opened at an offset. -/
def closing (text : List Char) (opened : Nat) : SearchReading Unit := do
  let t ← current
  if t = .rightParen then
    let _ ← advance
  else if t = .endOfText then failAt text .unbalancedParenthesis opened
  else unexpected text "')'"

/-- Reads an operand, given the readers for what `NOT` negates and for what parentheses
hold. -/
def operandWith (text : List Char) (negated grouped : SearchReading Search) :
    SearchReading Search := do
  match ← current with
  | .word text | .phrase text =>
    let _ ← advance
    return .term text
  | .not =>
    let operand ← negated
    return .not operand
  | .leftParen =>
    let opened ← advance
    let search ← grouped
    closing text opened
    return search
  | _ => unexpected text "a search term"

/-- Reads an operand that nests at most `levels` deep. A negation and a group each take a
level. -/
def operand (text : List Char) (maxDepth : Nat) : (levels : Nat) → SearchReading Search
  | 0 =>
    let tooDeep := fail text (.depthExceeded maxDepth)
    operandWith text tooDeep tooDeep
  | levels + 1 =>
    let deeper := operand text maxDepth levels
    let negated := do
      let _ ← advance
      deeper
    operandWith text negated (disjunction deeper)

/-- Reads a search that nests at most `maxDepth` deep. -/
def nested (text : List Char) (maxDepth : Nat) : SearchReading Search :=
  match maxDepth with
  | 0 => fail text (.depthExceeded maxDepth)
  | levels + 1 => disjunction (operand text maxDepth levels)

/-- Reads a complete search. -/
def complete (text : List Char) (maxDepth : Nat) : SearchReading Search := do
  if (← current) = .endOfText then failAt text .empty 0
  else
    let search ← nested text maxDepth
    match ← current with
    | .endOfText => return search
    | .rightParen => fail text .unbalancedParenthesis
    | _ => unexpected text "a search term or end of input"

/-- Reads the text of a search. -/
def ofText (text : String) (maxDepth : Nat) : Except ParseError Search := do
  let c ← SearchCursor.ofTokens 0 (SearchTokens.ofText text.toList)
  let (search, _) ← complete text.toList maxDepth c
  return search

end Search

end ODataQuery
