import ODataQuery.Expr.Reader.Operand

/-!
# Reading operations

Operators between operands are read from left to right, as long as they bind tight enough.

## Main definitions

- `Setting.operator` — the operator at the current token, if it is one there
- `Setting.combine` — makes a binary operation of operands whose types fit
- `Setting.membership` — reads the list behind `in`
- `Setting.climb` — reads the operations behind an operand
- `Setting.expression` — reads an expression
-/

namespace ODataQuery

namespace Setting

open Reading

/-- The operator at the current token. A keyword is one only with white space in front of it,
and with white space, a parenthesis or the end of the text behind it. -/
def operator : Reading (Option Operator) := do
  let t ← current
  if t.isName && t.leadingSpace then
    match Operator.ofKeyword? t.text with
    | none => return none
    | some op =>
      if t.kind = .identifier then
        let next ← nextToken
        return if next.leadingSpace || next.kind == .endOfText then some op else none
      else return some op
  else return none

/-- A literal operand fitted to the type of the other one, and the static type that the
operand then has. -/
def settle (setting : Setting) (e : Expr) (other : StaticType) (offset : Nat) :
    Reading (Expr × StaticType) :=
  match e with
  | .literal v =>
    match v.coerce? other with
    | some w => return (.literal w, w.typeAgainst (some other))
    | none => setting.mismatch (.member v other) offset
  | e => return (e, e.type)

/-- Whether a binary operator accepts operands of these types. -/
def acceptsOperands (op : BinaryOp) (left right : StaticType) : Bool :=
  if op.isLogical then left.isBoolean && right.isBoolean
  else if op.isEquality then left.isComparableWith right
  else if op.isRelational then left.isOrderableWith right
  else left.isNumeric && right.isNumeric

/-- Makes a binary operation of operands whose types fit. -/
def combine (setting : Setting) (op : BinaryOp) (left right : Expr) (offset : Nat) :
    Reading Expr := do
  let (left, leftType) ← setting.settle left right.type offset
  let (right, rightType) ← setting.settle right leftType offset
  if acceptsOperands op leftType rightType then return .binary op left right
  else setting.mismatch (.operands op leftType rightType) offset

/-- Reads an item of a list, which has to be a literal that can equal the operand. -/
def item (setting : Setting) (type : StaticType) : Reading Value := do
  let t ← current
  let v ← setting.literalValue (some type)
  if v.isNull then setting.fail .nullInList t.offset
  else
    let found := v.typeAgainst (some type)
    if type.isComparableWith found then
      let _ ← advance
      return v
    else setting.mismatch (.item type found) t.offset

/-- Reads at most `limit` items with commas between them. -/
def items (setting : Setting) (type : StaticType) : (limit : Nat) → Reading (List Value)
  | 0 => return []
  | limit + 1 => do
    let v ← setting.item type
    let t ← current
    if t.kind = .comma then
      let _ ← advance
      let vs ← items setting type limit
      return v :: vs
    else return [v]

/-- Reads the list behind `in`. -/
def membership (setting : Setting) (operand : Expr) : Reading Expr := do
  let _ ← setting.expect .leftParen "'(' after 'in'"
  let t ← current
  if t.kind = .rightParen then setting.fail .emptyList t.offset
  else
    let remaining ← remaining
    let list ← setting.items operand.type (remaining + 1)
    let _ ← setting.expect .rightParen "',' or ')'"
    return .membership operand list

/-- Reads the right side of an operator and makes the operation. The right operand of a
comparison is read at the type of the left one. -/
def operation (setting : Setting) (subreader : Subreader) (scope : List Frame) (op : Operator)
    (left : Expr) : Reading Expr := do
  let token ← advance
  match op with
  | .membership => setting.membership left
  | .binary op =>
    let expected := if op.isComparison then some left.type else none
    let right ← subreader (op.precedence + 1) scope expected
    setting.combine op left right token.offset
  | .unary _ => setting.unexpected "a binary operator"

/-- Reads at most `limit` operations behind an operand, as long as their operators bind at
least as tight as `minimum`. -/
def climb (setting : Setting) (subreader : Subreader) (minimum : Nat) (scope : List Frame) :
    (limit : Nat) → Expr → Reading Expr
  | 0, left => return left
  | limit + 1, left => do
    match ← operator with
    | none => return left
    | some op =>
      if op.precedence < minimum then return left
      else
        let e ← setting.operation subreader scope op left
        climb setting subreader minimum scope limit e

/-- Reads an expression that nests at most `levels` deep. Every operator takes a token, which
bounds their number. -/
def expression (setting : Setting) : (levels : Nat) → Subreader
  | 0 => fun _ _ _ => do
    let t ← current
    setting.fail (.depthExceeded setting.maxDepth) t.offset
  | levels + 1 => fun minimum scope expected => do
    let left ← setting.operand (setting.expression levels) scope expected
    let remaining ← remaining
    setting.climb (setting.expression levels) minimum scope (remaining + 1) left

end Setting

end ODataQuery
