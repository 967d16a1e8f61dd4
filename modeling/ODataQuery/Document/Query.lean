import ODataQuery.Document.Filter
import ODataQuery.Event.Assembly
import ODataQuery.Value.Call

/-!
# Queries of document collections

A document query tests fields against constants. Parts of an expression that consist of
literals only are evaluated while the query is built; what is left must have the form of such
tests.

## Main definitions

- `DocumentNode` — a part of an expression: a field, a constant, or a predicate
- `DocumentNode.builder` — the nodes of a tree
- `DocumentQuery.ofExpr` — the query of a predicate
- `DocumentQuery.ofItems` — the projection of compute items
-/

namespace ODataQuery

/-- A part of an expression over documents. -/
inductive DocumentNode where
  | field (path : String) (type : StaticType)
  | literal (v : Value)
  | filter (f : DocumentFilter)

namespace DocumentNode

/-- The variables of the enclosing lambdas, the innermost first. -/
abbrev Scope := List String

/-- A construct that queries cannot express. -/
def unsupported {α : Type} (what : String) : Building Scope α := fun _ =>
  .error (.unsupported "document" what)

/-- The path of a source key. Paths start at the innermost element, so nothing outside it can
be reached. -/
def path (origin : Option String) (source : String) : Building Scope String := fun scope =>
  if origin = scope.head? then .ok (source, scope)
  else unsupported ("reference to '" ++ source ++ "' outside the innermost lambda") scope

/-- A node as a predicate. -/
def predicate : DocumentNode → Except CompileError DocumentFilter
  | filter f => .ok f
  | literal v => .ok (.constant v.truth?)
  | field path type =>
    if type.isBoolean then .ok (.isTrue path) else .error (.malformed .nonBooleanPredicate)

/-- The test of a field against a constant. The order relative to `null` is unknown. -/
def compareField (path : String) (op : BinaryOp) (v : Value) : DocumentFilter :=
  if v.isNull && op.isRelational then .constant none else .compare path op v

/-- The predicate that equals a truth value. -/
def equalTo (f : DocumentFilter) (b : Bool) : DocumentFilter := if b then f else .not f

/-- The predicate of a comparison. -/
def compare (op : BinaryOp) (left right : DocumentNode) : Building Scope DocumentNode :=
  match left, right with
  | literal a, literal b => return filter (.constant (Value.test op a b).truth?)
  | field path _, literal v => return filter (compareField path op v)
  | literal v, field path _ => return filter (compareField path op.flipped v)
  | filter f, literal (.boolean b) | literal (.boolean b), filter f =>
    if op = .eq then return filter (equalTo f b)
    else unsupported ("'" ++ op.keyword ++ "' between these operands")
  | _, _ => unsupported ("'" ++ op.keyword ++ "' between these operands")

/-- The items of a conjunction or disjunction; a predicate of the same form gives its own. -/
def itemsOf (op : BinaryOp) (f : DocumentFilter) : List DocumentFilter :=
  match op, f with
  | .and, .and items | .or, .or items => items
  | _, f => [f]

/-- The conjunction or disjunction of two predicates. -/
def join (op : BinaryOp) (left right : DocumentFilter) : DocumentFilter :=
  let items := itemsOf op left ++ itemsOf op right
  if op = .and then .and items else .or items

/-- The node of a binary operation. -/
def binary (op : BinaryOp) (left right : DocumentNode) : Building Scope DocumentNode :=
  if op.isLogical then do
    let l ← left.predicate
    let r ← right.predicate
    return filter (join op l r)
  else if op.isComparison then compare op left right
  else match left, right with
    | literal a, literal b => return literal (Value.arithmetic op a b)
    | _, _ => unsupported ("arithmetic '" ++ op.keyword ++ "' on fields")

/-- The node of a prefix operation. -/
def unary (op : UnaryOp) (operand : DocumentNode) : Building Scope DocumentNode :=
  match op, operand with
  | .not, node => do return filter (.not (← node.predicate))
  | .negate, literal v => return literal v.opposite
  | .negate, _ => unsupported "negation of a field"

/-- The node of a membership test. -/
def membership (operand : DocumentNode) (list : List Value) : Building Scope DocumentNode :=
  match operand with
  | field path _ => return filter (.isIn path list)
  | literal v => return filter (.constant (v.isIn list).truth?)
  | filter _ => unsupported "'in' over a computed value"

/-- The constant of a node. -/
def literal? : DocumentNode → Option Value
  | literal v => some v
  | _ => none

/-- The pattern by which a function of two texts searches, given its second argument. -/
def patternOf? (function : Function) (argument : List Char) : Option (List Char) :=
  match function with
  | .contains => some (Pattern.quote argument)
  | .startsWith => some ('^' :: Pattern.quote argument)
  | .endsWith => some (Pattern.quote argument ++ ['$'])
  | .matchesPattern => some argument
  | _ => none

/-- The node of a function call. -/
def call (now : Instant) (function : Function) (arguments : List DocumentNode) :
    Building Scope DocumentNode :=
  match arguments.mapM literal? with
  | some vs => return literal (Value.apply now function vs)
  | none =>
    let refused := unsupported (function.name ++ "() over these arguments")
    match arguments with
    | [field path _, literal v] =>
      match patternOf? function (v.chars?.getD []) with
      | none => refused
      | some pattern =>
        if v.chars?.isSome then return filter (.hasPattern path (String.ofList pattern))
        else return filter (.constant none)
    | _ => refused

/-- Remembers the variable of a lambda over a collection that can be reached. -/
def enter (navigation : Navigation) (bound : String) : Building Scope Unit := do
  let _ ← path navigation.origin navigation.source
  modify (bound :: ·)

/-- The predicate of a lambda. -/
def lambda (binder : Binder) (body : Option DocumentNode) : Building Scope DocumentNode := do
  let body ← body.mapM fun node => (node.predicate : Building Scope DocumentFilter)
  modify List.tail
  let path ← path binder.navigation.origin binder.navigation.source
  match body with
  | some f => return filter (.elements path binder.quantifier f)
  | none => return filter (.bare path binder.quantifier)

/-- The nodes of a tree, given the present instant. -/
def builder (now : Instant) : TreeBuilder Scope DocumentNode where
  literal v := return literal v
  field f := do return field (← path f.origin f.source) f.type
  binary := binary
  unary := unary
  membership := membership
  call := call now
  enterLambda := enter
  lambda := lambda

/-- The node of an expression. -/
def ofExpr (now : Instant) (e : Expr) : Except CompileError DocumentNode :=
  e.listen ((builder now).listener []) defaultMaxDepth

end DocumentNode

namespace DocumentQuery

/-- The query of a predicate. -/
def ofExpr (now : Instant) (e : Expr) : Except CompileError Json := do
  let node ← DocumentNode.ofExpr now e
  let f ← node.predicate
  return f.render false

/-- The projection of a compute item. Only fields and constants can be projected. -/
def ofItem (now : Instant) (item : ComputeItem) : Except CompileError Json := do
  match ← DocumentNode.ofExpr now item.expr with
  | .field path _ => return .string ("$" ++ path)
  | .literal v => return .object [("$literal", v.toDocument)]
  | .filter _ => throw (.unsupported "document" ("computed value '" ++ item.resultName ++ "'"))

/-- The projection of compute items. -/
def ofItems (now : Instant) (items : List ComputeItem) : Except CompileError Json := do
  let members ← items.mapM fun item => do return (item.resultName, ← ofItem now item)
  return Json.ofFields members

end DocumentQuery

end ODataQuery
