import ODataQuery.Expr.Function
import ODataQuery.Expr.Operator
import ODataQuery.Metadata.Entity

/-!
# Expressions

The tree of a checked expression. References are resolved: a field carries its storage key
and type, a navigation its target and link.

## Main definitions

- `Field`, `Navigation` — resolved references
- `Quantifier`, `Binder` — what a lambda does with a collection
- `Expr` — expressions
- `Expr.type` — the static type
- `Expr.precedence?` — the binding strength of an operator node
- `ComputeItem` — an expression with the name of its result
-/

namespace ODataQuery

/-- A scalar property of the root entity or of a lambda variable. -/
structure Field where
  /-- The name in the expression. -/
  name : String
  /-- The storage key. -/
  source : String
  /-- The lambda variable that the path starts at; none for the root entity. -/
  origin : Option String
  type : StaticType
deriving DecidableEq

/-- A collection that a lambda ranges over. -/
structure Navigation where
  /-- The name in the expression. -/
  name : String
  /-- The storage key. -/
  source : String
  /-- The lambda variable that the path starts at; none for the root entity. -/
  origin : Option String
  target : EntityType
  link : Link

/-- Whether some element or every element has to satisfy the body of a lambda. -/
inductive Quantifier where
  | any
  | all
deriving DecidableEq

namespace Quantifier

/-- How the quantifier is written. -/
def keyword : Quantifier → String
  | any => "any"
  | all => "all"

end Quantifier

/-- The head of a lambda. -/
structure Binder where
  navigation : Navigation
  quantifier : Quantifier
  /-- The variable that the body can refer to; empty if there is no body. -/
  bound : String

/-- A checked expression. -/
inductive Expr where
  | literal (v : Value)
  | field (f : Field)
  | binary (op : BinaryOp) (left right : Expr)
  | unary (op : UnaryOp) (operand : Expr)
  /-- Membership in a list of literals. -/
  | membership (operand : Expr) (list : List Value)
  | call (function : Function) (arguments : List Expr)
  /-- A quantified predicate over a collection. -/
  | lambda (binder : Binder) (body : Expr)
  /-- A quantifier without a body: `any()` tests that the collection is not empty. -/
  | bare (binder : Binder)

/-- How deep expressions nest if no other bound is asked for. -/
def defaultMaxDepth : Nat := 50

namespace Expr

/-- The binding strength of an operator node; other nodes have none. -/
def precedence? : Expr → Option Nat
  | binary op _ _ => some op.precedence
  | unary _ _ => some Operator.unaryPrecedence
  | membership _ _ => some Operator.membershipPrecedence
  | _ => none

/-- The type of an arithmetic operation on numbers of the given types. -/
def arithmeticType (op : BinaryOp) (left right : StaticType) : StaticType :=
  match left.kind?, right.kind? with
  | some a, some b =>
    let promoted := a.promote b
    .primitive (if op = .divby && promoted = .int64 then .decimal else promoted)
  | some kind, none | none, some kind => .primitive kind
  | none, none => .null

mutual

/-- The static type of an expression. -/
def type : Expr → StaticType
  | literal v => .ofValue v
  | field f => f.type
  | binary op left right =>
    if op.isArithmetic then arithmeticType op left.type right.type else .boolean
  | unary .not _ => .boolean
  | unary .negate operand => operand.type
  | membership _ _ | lambda _ _ | bare _ => .boolean
  | call function arguments =>
    match function.check (types arguments) with
    | .ok t => t
    | .error _ => .null

/-- The static types of a list of expressions. -/
def types : List Expr → List StaticType
  | [] => []
  | e :: es => e.type :: types es

end

end Expr

/-- An item of a compute option: an expression and the name of its result. -/
structure ComputeItem where
  expr : Expr
  resultName : String

end ODataQuery
