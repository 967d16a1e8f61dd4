import ODataQuery.Event.Basic
import ODataQuery.Sql.Clause

/-!
# Clauses by recursion over the expression

A clause is written event by event, with left operands found again behind the operators of a frame.
Here it is a recursion over the tree instead.

## Main definitions

- `SqlPiece.operation`, `SqlPiece.ofCall`, `SqlPiece.ofLambda` — the pieces of a node, made of those
  of its parts
- `Expr.render` — the pieces of an expression
-/

namespace ODataQuery

-- ════════════════════════════════════════════════════════════════════════
-- The pieces of nodes
-- ════════════════════════════════════════════════════════════════════════

namespace SqlPiece

/-- Pieces in parentheses if they are grouped. -/
def grouped (group : Bool) (ps : List SqlPiece) : List SqlPiece :=
  if group then SqlWriter.parenthesized ps else ps

/-- The remainder of SQLite, made of a dividend and a divisor. -/
def modulo (l r : List SqlPiece) : List SqlPiece :=
  .text "(" :: (l ++ .text " - " :: (r ++ .text " * CAST(" :: (l ++ .text " / NULLIF(" ::
    (r ++ [.text ", 0) AS INTEGER))"]))))

/-- An operation, given whether its left operand is an equality test without parentheses. -/
def operation (dialect : Dialect) (op : BinaryOp) (chained : Bool) (l r : List SqlPiece) :
    List SqlPiece :=
  if dialect = .sqlite ∧ op = .mod then modulo l r
  else if op.isDivision then l ++ .text (dialect.operator op) :: (r ++ [.text ", 0)"])
  else if dialect = .postgres ∧ op.isEquality ∧ chained then
    SqlWriter.parenthesized l ++ .text (dialect.operator op) :: r
  else l ++ .text (dialect.operator op) :: r

/-- The text of a prefix operator. -/
def ofPrefix : UnaryOp → SqlPiece
  | .not => .text "NOT "
  | .negate => .text "-"

/-- The list behind `IN`. -/
def ofItems (list : List Value) : List SqlPiece :=
  SqlWriter.parenthesized ((list.map SqlWriter.literal).intersperse (.text ", "))

/-- A call with rendered arguments. -/
def ofCall (dialect : Dialect) (function : Function) (args : List (List SqlPiece)) :
    Except CompileError (List SqlPiece) :=
  match function with
  | .minDateTime => .ok [.param (.timestamp .earliest)]
  | .maxDateTime => .ok [.param (.timestamp .latest)]
  | function => SqlWriter.ofTemplate dialect function args.length args

/-- A lambda with the head of its subquery and its rendered body. -/
def ofLambda (quantifier : Quantifier) (head : String) (body : List SqlPiece) : List SqlPiece :=
  match quantifier with
  | .any => .text ("EXISTS (" ++ head ++ " AND (") :: (body ++ [.text "))"])
  | .all =>
    .text ("NOT EXISTS (" ++ head ++ " AND (CASE WHEN (") ::
      (body ++ [.text ") THEN 1 ELSE 0 END) = 0)"])

/-- A quantifier without a body, with the head of its subquery. -/
def ofBare (quantifier : Quantifier) (head : String) : List SqlPiece :=
  match quantifier with
  | .any => [.text ("EXISTS (" ++ head ++ ")")]
  | .all => [.text "(1 = 1)"]

end SqlPiece

theorem BinaryOp.isEquality_eq (op : BinaryOp) :
    op.isEquality = (op.precedence == BinaryOp.eq.precedence) := by
  cases op <;> rfl

namespace Expr

/-- Whether the expression is an equality test. -/
def isEquality : Expr → Bool
  | binary op _ _ => op.isEquality
  | _ => false

mutual

/-- The pieces of an expression, made of those of its parts. Parentheses stand where its events have
groups. -/
def render (dialect : Dialect) (rootAlias : String) : Expr → Except CompileError (List SqlPiece)
  | literal v => .ok [SqlWriter.literal v]
  | field f => .ok [.text ((SqlWriter.start dialect rootAlias).column f)]
  | binary op left right => do
    let groupLeft := needsGroup (binary op left right) left .left
    let groupRight := needsGroup (binary op left right) right .right
    let l ← left.render dialect rootAlias
    let r ← right.render dialect rootAlias
    return SqlPiece.operation dialect op (left.isEquality && !groupLeft)
      (SqlPiece.grouped groupLeft l) (SqlPiece.grouped groupRight r)
  | unary op operand => do
    let ps ← operand.render dialect rootAlias
    return .ofPrefix op ::
      SqlPiece.grouped (needsGroup (unary op operand) operand .right) ps
  | membership operand list => do
    let ps ← operand.render dialect rootAlias
    return SqlPiece.grouped (needsGroup (membership operand list) operand .left) ps ++
      .text " IN " :: SqlPiece.ofItems list
  | call function arguments => do
    let args ← renderAll dialect rootAlias arguments
    SqlPiece.ofCall dialect function args
  | lambda binder body => do
    let ps ← body.render dialect rootAlias
    return SqlPiece.ofLambda binder.quantifier
      ((SqlWriter.start dialect rootAlias).subqueryHead binder) ps
  | bare binder =>
    .ok (SqlPiece.ofBare binder.quantifier
      ((SqlWriter.start dialect rootAlias).subqueryHead binder))

/-- The pieces of arguments. -/
def renderAll (dialect : Dialect) (rootAlias : String) :
    List Expr → Except CompileError (List (List SqlPiece))
  | [] => .ok []
  | e :: es => do
    let ps ← e.render dialect rootAlias
    let pss ← renderAll dialect rootAlias es
    return ps :: pss

end

end Expr

end ODataQuery
