import ODataQuery.Expr.Operator
import ODataQuery.Value.Basic

/-!
# Logic of values

Truth values are `true`, `false` and `null`, which stands for an unknown one.

## Main definitions

- `Value.truth?` — the truth value of a predicate's result
- `Value.conj`, `Value.disj`, `Value.negation` — Kleene's connectives
- `Value.test` — the comparison operators
- `Value.isIn` — membership in a list

## Design notes

Equality is never unknown. The order and membership are unknown for `null`.
-/

namespace ODataQuery.Value

/-- The truth value of a predicate's result. -/
def truth? : Value → Option Bool
  | boolean b => some b
  | _ => none

/-- The value for a truth value. -/
def ofTruth : Option Bool → Value
  | some b => boolean b
  | none => null

/-- False if an operand is false, true if both are true, and else unknown. -/
def conj (a b : Value) : Value :=
  match a.truth?, b.truth? with
  | some false, _ | _, some false => boolean false
  | some true, some true => boolean true
  | _, _ => null

/-- True if an operand is true, false if both are false, and else unknown. -/
def disj (a b : Value) : Value :=
  match a.truth?, b.truth? with
  | some true, _ | _, some true => boolean true
  | some false, some false => boolean false
  | _, _ => null

/-- The opposite truth value. -/
def negation (v : Value) : Value := ofTruth (v.truth?.map not)

/-- Whether an order satisfies a relational operator. -/
def accepts (op : BinaryOp) (o : Ordering) : Option Bool :=
  match op with
  | .gt => some o.isGT
  | .ge => some o.isGE
  | .lt => some o.isLT
  | .le => some o.isLE
  | _ => none

/-- Applies a comparison operator. -/
def test (op : BinaryOp) (a b : Value) : Value :=
  match op with
  | .eq => boolean (a.equals b)
  | .ne => boolean (!a.equals b)
  | op => ofTruth ((a.compare b).bind (accepts op))

/-- Whether a list has an item equal to the value; unknown for `null`. -/
def isIn (v : Value) (list : List Value) : Value :=
  if v.isNull then null else boolean (list.any v.equals)

end ODataQuery.Value
