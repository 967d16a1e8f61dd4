import ODataQuery.Expr.Reader.Reference

/-!
# Reading operands

## Main definitions

- `Setting.call` — reads a function call
- `Setting.primary` — reads a group, a literal, a call or a reference
- `Setting.operand` — reads an operand with the prefix operators in front of it
-/

namespace ODataQuery

namespace Setting

open Reading

/-- Reads at most `limit` arguments with commas between them. -/
def arguments (subreader : Subreader) (scope : List Frame) : (limit : Nat) → Reading (List Expr)
  | 0 => return []
  | limit + 1 => do
    let e ← subreader 0 scope none
    let t ← current
    if t.kind = .comma then
      let _ ← advance
      let es ← arguments subreader scope limit
      return e :: es
    else return [e]

/-- A call of a function, if its arguments fit. -/
def checkedCall (setting : Setting) (function : Function) (arguments : List Expr)
    (offset : Nat) : Reading Expr :=
  match function.check (Expr.types arguments) with
  | .ok _ => return .call function arguments
  | .error (.arity expected found) => setting.fail (.arity function expected found) offset
  | .error (.argument index expected found) =>
    setting.mismatch (.argument index function expected found) offset

/-- Reads a function call. -/
def call (setting : Setting) (subreader : Subreader) (scope : List Frame) : Reading Expr := do
  let name ← advance
  match Function.ofName? name.text with
  | none => setting.fail (.unknownFunction name.text) name.offset
  | some function =>
    let _ ← setting.expect .leftParen "'('"
    let t ← current
    let remaining ← remaining
    let es ← if t.kind = .rightParen then pure [] else arguments subreader scope (remaining + 1)
    let _ ← setting.expect .rightParen "',' or ')'"
    setting.checkedCall function es name.offset

/-- Reads an expression in parentheses. -/
def group (setting : Setting) (subreader : Subreader) (scope : List Frame)
    (expected : Option StaticType) : Reading Expr := do
  let opening ← advance
  let e ← subreader 0 scope expected
  let t ← current
  if t.kind = .endOfText then setting.fail .unbalancedParenthesis opening.offset
  else
    let _ ← setting.expect .rightParen "')'"
    return e

/-- Reads the current token as a literal, without moving on. -/
def literalValue (setting : Setting) (expected : Option StaticType) : Reading Value := do
  let t ← current
  match ← outcome (t.literal? expected) with
  | some v => return v
  | none => setting.unexpected "a literal"

/-- Reads a literal. -/
def literal (setting : Setting) (expected : Option StaticType) : Reading Expr := do
  let v ← setting.literalValue expected
  let _ ← advance
  return .literal v

/-- Reads a group, a literal, a call or a reference. -/
def primary (setting : Setting) (subreader : Subreader) (scope : List Frame)
    (expected : Option StaticType) : Reading Expr := do
  let t ← current
  match t.kind with
  | .leftParen => setting.group subreader scope expected
  | .literal => setting.literal expected
  | .functionName => setting.call subreader scope
  | .identifier => setting.reference subreader scope
  | _ => setting.unexpected "an operand"

/-- Whether the current token is the operator `not`. In front of a parenthesis it is;
otherwise white space and an operand have to follow. -/
def isNot : Reading Bool := do
  let t ← current
  if t.isWord "not" then
    if t.kind = .functionName then return true
    else
      let next ← nextToken
      return next.leadingSpace && next.kind != .endOfText
  else return false

/-- Whether a prefix operator accepts an operand of the type. -/
def acceptsOperand : UnaryOp → StaticType → Bool
  | .not, t => t.isBoolean
  | .negate, t => t.isNumeric

/-- Reads a prefix operator and its operand. -/
def prefixed (setting : Setting) (subreader : Subreader) (scope : List Frame) (op : UnaryOp) :
    Reading Expr := do
  let token ← advance
  let operand ← subreader Operator.membershipPrecedence scope none
  if acceptsOperand op operand.type then return .unary op operand
  else setting.mismatch (.operand op operand.type) token.offset

/-- Reads an operand with the prefix operators in front of it. -/
def operand (setting : Setting) (subreader : Subreader) (scope : List Frame)
    (expected : Option StaticType) : Reading Expr := do
  let t ← current
  if t.kind = .minus then setting.prefixed subreader scope .negate
  else if ← isNot then setting.prefixed subreader scope .not
  else setting.primary subreader scope expected

end Setting

end ODataQuery
