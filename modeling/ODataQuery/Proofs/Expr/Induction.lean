import ODataQuery.Event.Basic

/-!
# Induction over expressions

Arguments of a call are a list of expressions, so the recursor of `Expr` speaks of lists as
well. The principle here gives a call one hypothesis for every argument instead.

## Main definitions

- `Expr.inductionOn` — induction over expressions, also as the default of `induction`
- `Expr.strength` — the binding strength of any expression
- `Expr.deepest` — the deepest level of a node of an expression
-/

namespace ODataQuery

namespace Expr

/-- Induction over expressions: a call may use the hypothesis for every argument. -/
@[elab_as_elim, induction_eliminator]
theorem inductionOn {motive : Expr → Prop}
    (literal : ∀ v, motive (literal v))
    (field : ∀ f, motive (field f))
    (binary : ∀ op left right, motive left → motive right → motive (binary op left right))
    (unary : ∀ op operand, motive operand → motive (unary op operand))
    (membership : ∀ operand list, motive operand → motive (membership operand list))
    (call : ∀ function arguments, (∀ e ∈ arguments, motive e) →
      motive (call function arguments))
    (lambda : ∀ binder body, motive body → motive (lambda binder body))
    (bare : ∀ binder, motive (bare binder)) (e : Expr) : motive e :=
  @Expr.rec motive (fun es => ∀ e ∈ es, motive e)
    literal field binary unary membership call lambda bare
    (fun _ h => absurd h List.not_mem_nil)
    (fun _ _ head tail _ h => (List.mem_cons.mp h).elim (fun same => same ▸ head) (tail _))
    e

/-- The binding strength of an expression. Nodes that are no operators bind tighter than any
operator. -/
def strength (e : Expr) : Nat := e.precedence?.getD (Operator.membershipPrecedence + 1)

mutual

/-- The deepest level of a node of an expression that stands at a level. -/
def deepest (level : Nat) : Expr → Nat
  | literal _ | field _ | bare _ => level
  | binary op left right =>
    let groupLeft := needsGroup (binary op left right) left .left
    let groupRight := needsGroup (binary op left right) right .right
    max level (max (left.deepest (operandLevel level groupLeft .left))
      (right.deepest (operandLevel level groupRight .right)))
  | unary op operand =>
    let grouped := needsGroup (unary op operand) operand .right
    max level (operand.deepest (operandLevel level grouped .right))
  | membership operand list =>
    let grouped := needsGroup (membership operand list) operand .left
    max level (operand.deepest (operandLevel level grouped .left))
  | call _ arguments => max level (deepestOf (level + 1) arguments)
  | lambda _ body => max level (body.deepest (level + 1))

/-- The deepest level of a node of some arguments. -/
def deepestOf (level : Nat) : List Expr → Nat
  | [] => 0
  | e :: es => max (e.deepest level) (deepestOf level es)

end

end Expr

end ODataQuery
