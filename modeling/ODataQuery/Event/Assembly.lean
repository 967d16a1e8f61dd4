import ODataQuery.Event.Listener

/-!
# Assembling trees

A listener that rebuilds the tree of an expression from its events, with nodes of any kind.

## Main definitions

- `TreeBuilder` — how to make the nodes of a tree
- `Assembly` — the frames of a tree that is being built
- `TreeBuilder.handle`, `TreeBuilder.finish` — taking an event, and the finished node
- `TreeBuilder.listener` — the two as a listener

## Design notes

Each open group, call, list or lambda has a frame of its own with operands and operators that
wait for what follows. An operator first applies those before it that bind at least as tight.
The frame at the bottom is never closed, so there always is a current frame.
-/

namespace ODataQuery

/-- A step that builds a part of a tree; it may keep a state and may fail. -/
abbrev Building (State : Type) := StateT State (Except CompileError)

/-- How to make the nodes of a tree. -/
structure TreeBuilder (State Node : Type) where
  literal : Value → Building State Node
  field : Field → Building State Node
  binary : BinaryOp → Node → Node → Building State Node
  unary : UnaryOp → Node → Building State Node
  membership : Node → List Value → Building State Node
  call : Function → List Node → Building State Node
  /-- Called in front of the body of a lambda. -/
  enterLambda : Navigation → (bound : String) → Building State Unit
  /-- Called behind the body of a lambda, which may be missing. -/
  lambda : Binder → Option Node → Building State Node

/-- What a frame stands for. -/
inductive AssemblyScope where
  | root
  | group
  | call (function : Function)
  /-- A list with its items so far. -/
  | list (items : List Value)
  | lambda (binder : Binder)

/-- A part of a tree that is being built. -/
structure AssemblyFrame (Node : Type) where
  scope : AssemblyScope
  /-- Operands that no operator has taken, the last one first. -/
  operands : List Node
  /-- Operators that are not applied yet, the last one first. -/
  operators : List Operator
  /-- Finished arguments of a call. -/
  arguments : List Node

namespace AssemblyFrame

variable {Node : Type}

/-- A frame without content. -/
def opened (scope : AssemblyScope) : AssemblyFrame Node := ⟨scope, [], [], []⟩

/-- Adds an operand. -/
def push (frame : AssemblyFrame Node) (node : Node) : AssemblyFrame Node :=
  { frame with operands := node :: frame.operands }

end AssemblyFrame

/-- The frames of a tree that is being built. -/
structure Assembly (State Node : Type) where
  /-- The state of the builder. -/
  state : State
  current : AssemblyFrame Node
  /-- The frames around the current one, the innermost first. -/
  outer : List (AssemblyFrame Node)

namespace TreeBuilder

variable {State Node : Type}

/-- A fault of the sequence of events. -/
def malformed {α : Type} (fault : StreamFault) : Building State α := fun _ =>
  .error (.malformed fault)

/-- Applies an operator to the last operands. -/
def apply (b : TreeBuilder State Node) (op : Operator) (operands : List Node) :
    Building State (List Node) :=
  match op, operands with
  | _, [] => malformed .missingOperand
  | .unary op, operand :: rest => do return (← b.unary op operand) :: rest
  | .binary op, right :: left :: rest => do return (← b.binary op left right) :: rest
  | .binary _, [_] => malformed .missingLeftOperand
  | .membership, _ :: _ => malformed .membershipWithoutList

/-- Applies operators from the last one on, as long as they satisfy a test. -/
def applyWhile (b : TreeBuilder State Node) (test : Operator → Bool) :
    (operators : List Operator) → (operands : List Node) →
    Building State (List Operator × List Node)
  | [], operands => return ([], operands)
  | op :: ops, operands =>
    if test op then do
      let operands ← b.apply op operands
      applyWhile b test ops operands
    else return (op :: ops, operands)

/-- Applies all operators of a frame; at most one operand is left. -/
def reduce (b : TreeBuilder State Node) (frame : AssemblyFrame Node) :
    Building State (Option Node) := do
  let (_, operands) ← b.applyWhile (fun _ => true) frame.operators frame.operands
  match operands with
  | [] => return none
  | [node] => return some node
  | _ => malformed .danglingOperand

/-- Applies all operators of a frame; an operand must be left. -/
def reduceSome (b : TreeBuilder State Node) (frame : AssemblyFrame Node) (fault : StreamFault) :
    Building State Node := do
  match ← b.reduce frame with
  | some node => return node
  | none => malformed fault

/-- Whether an operator that binds with the given precedence applies `op` first. -/
def appliesBefore (precedence : Nat) (op : Operator) : Bool :=
  op != .membership && precedence ≤ op.precedence

/-- A step that only touches the current frame. -/
def withFrame (run : AssemblyFrame Node → Building State (AssemblyFrame Node))
    (a : Assembly State Node) : Except CompileError (Assembly State Node) := do
  let (frame, state) ← run a.current a.state
  return { a with state, current := frame }

/-- A step that closes the current frame and adds its node to the one around it. -/
def closeFrame (run : (inner outer : AssemblyFrame Node) → Building State (AssemblyFrame Node))
    (a : Assembly State Node) : Except CompileError (Assembly State Node) :=
  match a.outer with
  | [] => .error (.malformed .closeWithoutOpen)
  | frame :: outer => do
    let (frame, state) ← run a.current frame a.state
    return ⟨state, frame, outer⟩

/-- A step that applies the operators of the current frame before it closes the frame. -/
def reduceAndClose (b : TreeBuilder State Node)
    (run : Option Node → (inner outer : AssemblyFrame Node) →
      Building State (AssemblyFrame Node))
    (a : Assembly State Node) : Except CompileError (Assembly State Node) := do
  let (node, state) ← b.reduce a.current a.state
  closeFrame (run node) { a with state }

/-- Opens a frame. -/
def openFrame (scope : AssemblyScope) (a : Assembly State Node) : Assembly State Node :=
  ⟨a.state, .opened scope, a.current :: a.outer⟩

/-- Takes an operator. -/
def takeOperator (b : TreeBuilder State Node) (op : Operator) (frame : AssemblyFrame Node) :
    Building State (AssemblyFrame Node) :=
  match op with
  | .unary _ => return { frame with operators := op :: frame.operators }
  | _ => do
    let (operators, operands) ←
      b.applyWhile (appliesBefore op.precedence) frame.operators frame.operands
    return { frame with operators := op :: operators, operands }

/-- Takes a literal, which in a list is an item. -/
def takeLiteral (b : TreeBuilder State Node) (v : Value) (frame : AssemblyFrame Node) :
    Building State (AssemblyFrame Node) :=
  match frame.scope with
  | .list items => return { frame with scope := .list (items ++ [v]) }
  | _ => do return frame.push (← b.literal v)

/-- Takes a separator, which ends an argument of a call. -/
def takeSeparator (b : TreeBuilder State Node) (frame : AssemblyFrame Node) :
    Building State (AssemblyFrame Node) :=
  match frame.scope with
  | .list _ => return frame
  | scope => do
    let node ← b.reduceSome frame .emptyArgument
    match scope with
    | .call _ => return ⟨scope, [], [], frame.arguments ++ [node]⟩
    | _ => malformed .separatorOutsideCall

/-- Makes the node of a call that is closed. -/
def closeCall (b : TreeBuilder State Node) (last : Option Node)
    (inner outer : AssemblyFrame Node) : Building State (AssemblyFrame Node) :=
  match inner.scope with
  | .call function => do return outer.push (← b.call function (inner.arguments ++ last.toList))
  | _ => malformed .functionCloseWithoutOpen

/-- Makes the node of a membership whose list is closed. -/
def closeList (b : TreeBuilder State Node) (inner outer : AssemblyFrame Node) :
    Building State (AssemblyFrame Node) :=
  match inner.scope with
  | .list items =>
    match outer.operators, outer.operands with
    | .membership :: ops, operand :: rest => do
      let node ← b.membership operand items
      return { outer with operators := ops, operands := node :: rest }
    | .membership :: _, [] => malformed .membershipWithoutOperand
    | _, _ => malformed .listWithoutMembership
  | _ => malformed .listCloseWithoutOpen

/-- Makes the node of a lambda that is closed. -/
def closeLambda (b : TreeBuilder State Node) (body : Option Node)
    (inner outer : AssemblyFrame Node) : Building State (AssemblyFrame Node) :=
  match inner.scope with
  | .lambda binder => do return outer.push (← b.lambda binder body)
  | _ => malformed .lambdaCloseWithoutOpen

/-- Closes a group, which must have a node. -/
def closeGroup (b : TreeBuilder State Node) (a : Assembly State Node) :
    Except CompileError (Assembly State Node) := do
  let (node, state) ← b.reduceSome a.current .emptyGroup a.state
  closeFrame (fun _ outer => return outer.push node) { a with state }

/-- Takes an event. -/
def handle (b : TreeBuilder State Node) (a : Assembly State Node) :
    Event → Except CompileError (Assembly State Node)
  | .groupOpen => .ok (openFrame .group a)
  | .groupClose => b.closeGroup a
  | .operator op => withFrame (b.takeOperator op) a
  | .literal v => withFrame (b.takeLiteral v) a
  | .field f => withFrame (fun frame => do return frame.push (← b.field f)) a
  | .functionOpen function _ => .ok (openFrame (.call function) a)
  | .separator => withFrame b.takeSeparator a
  | .functionClose => b.reduceAndClose b.closeCall a
  | .listOpen => .ok (openFrame (.list []) a)
  | .listClose => closeFrame b.closeList a
  | .lambdaOpen binder _ => do
    let (_, state) ← b.enterLambda binder.navigation binder.bound a.state
    return openFrame (.lambda binder) { a with state }
  | .lambdaClose => b.reduceAndClose b.closeLambda a

/-- The node of all events, and the last state of the builder. -/
def finish (b : TreeBuilder State Node) (a : Assembly State Node) :
    Except CompileError (Node × State) :=
  match a.outer with
  | [] => b.reduceSome a.current .emptyExpression a.state
  | _ => .error (.malformed .unclosed)

/-- The listener that builds a tree, given the first state of the builder. -/
def listener (b : TreeBuilder State Node) (start : State) :
    Listener (Assembly State Node) Node where
  start := ⟨start, .opened .root, []⟩
  handle := b.handle
  finish a := (b.finish a).map Prod.fst

end TreeBuilder

end ODataQuery
