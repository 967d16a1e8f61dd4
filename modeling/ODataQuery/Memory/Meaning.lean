import ODataQuery.Event.Assembly
import ODataQuery.Value.Call
import ODataQuery.Value.Record

/-!
# Meanings over records

What an expression evaluates to on records in memory. This is the meaning that the query
languages are expected to keep.

## Main definitions

- `Surroundings` — the record that is examined, with those around it
- `Meaning` — a value in given surroundings
- `Meaning.builder` — the meanings of the nodes of a tree

## Design notes

A variable is resolved once, to the number of lambdas between its use and its binding. Lambdas
are two-valued: a body that is `null` counts as false.
-/

namespace ODataQuery

/-- The records that an expression is evaluated on. -/
structure Surroundings where
  /-- The present instant. -/
  now : Instant
  /-- The record of the innermost lambda first, the root record last. -/
  records : List Record

/-- A value in given surroundings. -/
abbrev Meaning := Surroundings → Value

namespace Surroundings

/-- Adds the record of a lambda. -/
def enter (s : Surroundings) (record : Record) : Surroundings :=
  { s with records := record :: s.records }

/-- The value under a key of the record so many lambdas outside. -/
def value (s : Surroundings) (hops : Nat) (key : String) : Value :=
  match s.records[hops]? with
  | some record => record.value key
  | none => .null

/-- The related records under a key of the record so many lambdas outside. -/
def related (s : Surroundings) (hops : Nat) (key : String) : List Record :=
  match s.records[hops]? with
  | some record => record.related key
  | none => []

end Surroundings

namespace Meaning

/-- The variables of the enclosing lambdas, the innermost first. -/
abbrev Scope := List String

/-- The number of lambdas between a use and the record it refers to. -/
def hops (origin : Option String) : Building Scope Nat := fun scope =>
  match origin with
  | none => .ok (scope.length, scope)
  | some name =>
    match scope.findIdx? (· == name) with
    | some n => .ok (n, scope)
    | none => .error (.malformed .unboundVariable)

/-- Whether a body is true of a related record. -/
def holdsFor (body : Meaning) (s : Surroundings) (record : Record) : Bool :=
  (body (s.enter record)).truth? == some true

/-- Whether a body is true of some or of all records. -/
def quantified (quantifier : Quantifier) (records : List Record) (test : Record → Bool) : Bool :=
  match quantifier with
  | .any => records.any test
  | .all => records.all test

/-- The meaning of a lambda over the records under a key; without a body, whether there are
any. -/
def ofLambda (quantifier : Quantifier) (hops : Nat) (key : String) : Option Meaning → Meaning
  | some body => fun s =>
    .boolean (quantified quantifier (s.related hops key) (holdsFor body s))
  | none => fun s => .boolean (quantifier == .all || !(s.related hops key).isEmpty)

/-- Remembers the variable of a lambda. -/
def enter (name : String) : Building Scope Unit := fun scope => .ok ((), name :: scope)

/-- Forgets the variable of the innermost lambda. -/
def leave : Building Scope Unit := fun scope => .ok ((), scope.tail)

/-- The meanings of the nodes of a tree. -/
def builder : TreeBuilder Scope Meaning where
  literal v := return fun _ => v
  field f := do
    let n ← hops f.origin
    return fun s => s.value n f.source
  binary op left right := return fun s => (left s).applyBinary op (right s)
  unary op operand := return fun s => (operand s).applyUnary op
  membership operand list := return fun s => (operand s).isIn list
  call function arguments := return fun s => Value.apply s.now function (arguments.map (· s))
  enterLambda _ bound := enter bound
  lambda binder body := do
    leave
    let n ← hops binder.navigation.origin
    return ofLambda binder.quantifier n binder.navigation.source body

/-- The meaning of an expression. -/
def ofExpr (e : Expr) : Except CompileError Meaning :=
  e.listen (builder.listener []) defaultMaxDepth

end Meaning

end ODataQuery
