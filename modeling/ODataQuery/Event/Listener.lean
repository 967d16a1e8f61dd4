import ODataQuery.Event.Basic

/-!
# Listeners

Backends take the events of an expression one by one.

## Main definitions

- `StreamFault` — how a sequence of events can be the events of no expression
- `CompileError` — why an expression is not compiled
- `Listener` — a way to build a result from events
- `Expr.walk` — the events of an expression up to a bound on its levels
- `Expr.listen` — the result that a listener builds from an expression
-/

namespace ODataQuery

/-- How a sequence of events can be the events of no expression. -/
inductive StreamFault where
  | closeWithoutOpen
  | functionCloseWithoutOpen
  | groupCloseWithoutOpen
  | listCloseWithoutOpen
  | lambdaCloseWithoutOpen
  | missingOperand
  | missingLeftOperand
  | danglingOperand
  | unclosed
  | emptyExpression
  | emptyGroup
  | emptyArgument
  | separatorOutsideCall
  | membershipWithoutList
  | membershipWithoutOperand
  | listWithoutMembership
  | unboundVariable
  | nonBooleanPredicate
  | slotWithoutArgument
deriving DecidableEq

namespace StreamFault

/-- The fault in words. -/
def message : StreamFault → String
  | closeWithoutOpen => "close without open"
  | functionCloseWithoutOpen => "function close without open"
  | groupCloseWithoutOpen => "group close without open"
  | listCloseWithoutOpen => "list close without open"
  | lambdaCloseWithoutOpen => "lambda close without open"
  | missingOperand => "missing operand"
  | missingLeftOperand => "missing left operand"
  | danglingOperand => "dangling operand"
  | unclosed => "unclosed frame"
  | emptyExpression => "empty expression"
  | emptyGroup => "empty group"
  | emptyArgument => "empty argument"
  | separatorOutsideCall => "separator outside a call"
  | membershipWithoutList => "'in' without a list"
  | membershipWithoutOperand => "'in' without operand"
  | listWithoutMembership => "list without 'in'"
  | unboundVariable => "unbound lambda variable"
  | nonBooleanPredicate => "non-boolean field used as a predicate"
  | slotWithoutArgument => "template slot without argument"

end StreamFault

/-- Why an expression is not compiled. -/
inductive CompileError where
  /-- The backend has no way to express a construct. -/
  | unsupported (backend what : String)
  /-- A listener does not take the event of this name. -/
  | unhandled (event : String)
  | depthExceeded (limit : Nat)
  /-- The events are those of no expression. -/
  | malformed (fault : StreamFault)
deriving DecidableEq

namespace CompileError

/-- The error in words. -/
def message : CompileError → String
  | unsupported backend what => backend ++ " backend cannot express " ++ what
  | unhandled event => "listener did not handle " ++ event
  | depthExceeded limit => "expression nesting exceeds " ++ toString limit ++ " levels"
  | malformed fault => "malformed event stream: " ++ fault.message

end CompileError

/-- A way to build a result from events. -/
structure Listener (State Result : Type) where
  start : State
  handle : State → Event → Except CompileError State
  finish : State → Except CompileError Result

namespace Step

/-- The events of some steps up to the first level above the bound, and whether there is
one. -/
def upTo (limit : Nat) : List Step → List Event × Option CompileError
  | [] => ([], none)
  | level n :: rest =>
    if limit < n then ([], some (.depthExceeded limit)) else upTo limit rest
  | event e :: rest =>
    let (es, error) := upTo limit rest
    (e :: es, error)

end Step

/-- The events of an expression up to the first level above the bound, and whether there is
one. -/
def Expr.walk (e : Expr) (limit : Nat) : List Event × Option CompileError :=
  Step.upTo limit (e.steps 1)

namespace Listener

variable {State Result : Type}

/-- Takes events one by one. -/
def feed (l : Listener State Result) : State → List Event → Except CompileError State
  | s, [] => .ok s
  | s, e :: es => do
    let s ← l.handle s e
    feed l s es

end Listener

/-- The result that a listener builds from an expression. -/
def Expr.listen {State Result : Type} (e : Expr) (l : Listener State Result)
    (limit : Nat) : Except CompileError Result := do
  let (es, error) := e.walk limit
  let s ← l.feed l.start es
  match error with
  | some error => .error error
  | none => l.finish s

end ODataQuery
