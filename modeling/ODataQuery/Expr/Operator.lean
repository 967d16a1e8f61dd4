/-!
# Operators

The operators of expressions with their keywords and binding strengths.

## Main definitions

- `BinaryOp` — operators between two operands
- `UnaryOp` — operators in front of an operand
- `Operator` — any operator, membership included
- `Operator.precedence` — a higher precedence binds tighter
- `BinaryOp.flipped`, `BinaryOp.negated` — comparisons with sides swapped or outcome reversed

## Design notes

From tight to loose: `in`, the prefix operators, `mul div divby mod`, `add sub`, `gt ge lt le`,
`eq ne`, `and`, `or`. Operators of equal strength associate to the left.
-/

namespace ODataQuery

/-- Operators between two operands. -/
inductive BinaryOp where
  | add
  | sub
  | mul
  /-- Division that truncates when both operands are integers. -/
  | div
  /-- Division that never truncates. -/
  | divby
  | mod
  | eq
  | ne
  | gt
  | ge
  | lt
  | le
  | and
  | or
deriving DecidableEq

namespace BinaryOp

/-- The keyword of an operator. -/
def keyword : BinaryOp → String
  | add => "add"
  | sub => "sub"
  | mul => "mul"
  | div => "div"
  | divby => "divby"
  | mod => "mod"
  | eq => "eq"
  | ne => "ne"
  | gt => "gt"
  | ge => "ge"
  | lt => "lt"
  | le => "le"
  | and => "and"
  | or => "or"

/-- All binary operators. -/
def all : List BinaryOp :=
  [add, sub, mul, div, divby, mod, eq, ne, gt, ge, lt, le, and, or]

/-- The operator with this keyword. -/
def ofKeyword? (word : String) : Option BinaryOp := all.find? (·.keyword == word)

/-- Binding strength; a higher number binds tighter. -/
def precedence : BinaryOp → Nat
  | mul | div | divby | mod => 6
  | add | sub => 5
  | gt | ge | lt | le => 4
  | eq | ne => 3
  | and => 2
  | or => 1

/-- Whether the operator computes a number. -/
def isArithmetic : BinaryOp → Bool
  | add | sub | mul | div | divby | mod => true
  | _ => false

/-- Whether the operator tests equality. -/
def isEquality : BinaryOp → Bool
  | eq | ne => true
  | _ => false

/-- Whether the operator tests the order. -/
def isRelational : BinaryOp → Bool
  | gt | ge | lt | le => true
  | _ => false

/-- Whether the operator compares two values. -/
def isComparison (op : BinaryOp) : Bool := op.isEquality || op.isRelational

/-- Whether the operator combines truth values. -/
def isLogical : BinaryOp → Bool
  | and | or => true
  | _ => false

/-- Whether the operator divides. -/
def isDivision : BinaryOp → Bool
  | div | divby | mod => true
  | _ => false

/-- The comparison that holds when the operands change sides. -/
def flipped : BinaryOp → BinaryOp
  | gt => lt
  | ge => le
  | lt => gt
  | le => ge
  | op => op

/-- The comparison that holds exactly when this one fails on operands that are not `null`. -/
def negated : BinaryOp → BinaryOp
  | eq => ne
  | ne => eq
  | gt => le
  | ge => lt
  | lt => ge
  | le => gt
  | op => op

end BinaryOp

/-- Operators in front of an operand. -/
inductive UnaryOp where
  /-- Logical negation. -/
  | not
  /-- Change of sign. -/
  | negate
deriving DecidableEq

namespace UnaryOp

/-- How the operator is written. -/
def symbol : UnaryOp → String
  | not => "not"
  | negate => "-"

end UnaryOp

/-- Any operator. -/
inductive Operator where
  | binary (op : BinaryOp)
  | unary (op : UnaryOp)
  /-- Membership in a list of literals. -/
  | membership
deriving DecidableEq

namespace Operator

/-- The binding strength of the prefix operators. -/
def unaryPrecedence : Nat := 7

/-- The binding strength of membership, the tightest operator. -/
def membershipPrecedence : Nat := 8

/-- Binding strength; a higher number binds tighter. -/
def precedence : Operator → Nat
  | binary op => op.precedence
  | unary _ => unaryPrecedence
  | membership => membershipPrecedence

/-- How the operator is written. -/
def symbol : Operator → String
  | binary op => op.keyword
  | unary op => op.symbol
  | membership => "in"

/-- The operator between operands with this keyword. -/
def ofKeyword? (word : String) : Option Operator :=
  match BinaryOp.ofKeyword? word with
  | some op => some (binary op)
  | none => if word == "in" then some membership else none

end Operator

end ODataQuery
