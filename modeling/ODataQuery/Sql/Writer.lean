import ODataQuery.Event.Listener
import ODataQuery.Sql.Template

/-!
# Writing SQL

A listener that writes the condition of a clause piece by piece.

## Main definitions

- `SqlFrame` — an open group, call, list or lambda with what is written in it
- `SqlWriter` — the frames of a clause that is being written
- `SqlWriter.handle`, `SqlWriter.pieces` — taking an event, and the finished clause
- `SqlWriter.listener` — the two as a listener

## Design notes

Operators are written where they stand, since the order of precedence is mostly that of SQL. A
frame remembers where its operators are, to find the left operand of an operator again when
that has to be wrapped: for the remainder in SQLite, and for a null-safe comparison in
PostgreSQL, which does not chain.
-/

namespace ODataQuery

/-- What a frame stands for. -/
inductive SqlScope where
  | root
  | group
  | call (function : Function) (arity : Nat)
  | list
  /-- A lambda with the head of its subquery. -/
  | lambda (quantifier : Quantifier) (head : String) (hasBody : Bool)
deriving DecidableEq

/-- An operator in the pieces of a frame. -/
structure PlacedOperator where
  precedence : Nat
  /-- The number of pieces up to the operator and with it. -/
  behind : Nat
deriving DecidableEq

/-- A part of a clause that is being written. -/
structure SqlFrame where
  scope : SqlScope
  pieces : List SqlPiece
  /-- Finished arguments of a call. -/
  arguments : List (List SqlPiece)
  /-- Whether the next operand is a divisor, behind which `NULLIF` is closed. -/
  isDivisor : Bool
  /-- The dividend of a remainder that waits for its divisor. -/
  dividend : Option (List SqlPiece)
  /-- The operators in the pieces, the last one first. -/
  operators : List PlacedOperator
deriving DecidableEq

namespace SqlFrame

/-- A frame without content. -/
def opened (scope : SqlScope) : SqlFrame := ⟨scope, [], [], false, none, []⟩

/-- Writes pieces at the end. -/
def write (frame : SqlFrame) (pieces : List SqlPiece) : SqlFrame :=
  { frame with pieces := frame.pieces ++ pieces }

/-- The number of pieces in front of the left operand of an operator that binds with the given
precedence: those up to the last operator that binds looser. -/
def operandStart (frame : SqlFrame) (precedence : Nat) : Nat :=
  match frame.operators.find? (·.precedence < precedence) with
  | some o => o.behind
  | none => 0

/-- Forgets the operators inside the operand that starts behind so many pieces. -/
def forgetBehind (frame : SqlFrame) (start : Nat) : SqlFrame :=
  { frame with operators := frame.operators.filter (·.behind ≤ start) }

/-- Closes `NULLIF` behind a divisor. -/
def closeDivisor (frame : SqlFrame) : SqlFrame :=
  if frame.isDivisor then { frame.write [.text ", 0)"] with isDivisor := false } else frame

/-- Writes a complete operand. -/
def operand (frame : SqlFrame) (pieces : List SqlPiece) : Except CompileError SqlFrame :=
  match frame.dividend with
  | none => .ok (frame.write pieces).closeDivisor
  | some dividend =>
    match SqlTemplate.sqliteModulo.expand? [dividend, pieces] with
    | some expanded => .ok ({ frame with dividend := none }.write expanded).closeDivisor
    | none => .error (.malformed .slotWithoutArgument)

/-- Takes the left operand of a remainder out of the pieces. -/
def takeDividend (frame : SqlFrame) (start : Nat) : SqlFrame :=
  { frame.forgetBehind start with
    pieces := frame.pieces.take start
    dividend := some (frame.pieces.drop start) }

/-- Whether the operand that starts behind so many pieces is itself an equality test. -/
def hasEquality (frame : SqlFrame) (start : Nat) : Bool :=
  frame.operators.any fun o => start < o.behind && o.precedence == BinaryOp.eq.precedence

/-- Puts the operand that starts behind so many pieces into parentheses. -/
def wrap (frame : SqlFrame) (start : Nat) : SqlFrame :=
  { frame.forgetBehind start with
    pieces :=
      frame.pieces.take start ++ .text "(" :: (frame.pieces.drop start ++ [.text ")"]) }

/-- Writes an operator and remembers where it is. -/
def placeOperator (frame : SqlFrame) (dialect : Dialect) (op : BinaryOp) : SqlFrame :=
  let frame := frame.write [.text (dialect.operator op)]
  { frame with
    operators := ⟨op.precedence, frame.pieces.length⟩ :: frame.operators
    isDivisor := frame.isDivisor || op.isDivision }

/-- Writes an operator between operands. -/
def binary (frame : SqlFrame) (dialect : Dialect) (op : BinaryOp) : SqlFrame :=
  let start := frame.operandStart op.precedence
  if dialect = .sqlite ∧ op = .mod then frame.takeDividend start
  else if dialect = .postgres ∧ op.isEquality ∧ frame.hasEquality start then
    (frame.wrap start).placeOperator dialect op
  else frame.placeOperator dialect op

end SqlFrame

/-- A clause that is being written. -/
structure SqlWriter where
  dialect : Dialect
  /-- The alias of the table of the root entity. -/
  rootAlias : String
  current : SqlFrame
  /-- The frames around the current one, the innermost first. -/
  outer : List SqlFrame
deriving DecidableEq

namespace SqlWriter

/-- An identifier in double quotes, quotes in it doubled. -/
def quote (identifier : String) : String :=
  String.ofList ('"' ::
    (identifier.toList.flatMap (fun c => if c = '"' then [c, c] else [c]) ++ ['"']))

/-- A clause without content. -/
def start (dialect : Dialect) (rootAlias : String) : SqlWriter :=
  ⟨dialect, rootAlias, .opened .root, []⟩

/-- Opens a frame. -/
def openFrame (w : SqlWriter) (scope : SqlScope) : SqlWriter :=
  { w with current := .opened scope, outer := w.current :: w.outer }

/-- Writes in the current frame. -/
def write (w : SqlWriter) (pieces : List SqlPiece) : SqlWriter :=
  { w with current := w.current.write pieces }

/-- Writes a complete operand in the current frame. -/
def operand (w : SqlWriter) (pieces : List SqlPiece) : Except CompileError SqlWriter := do
  return { w with current := ← w.current.operand pieces }

/-- Closes the current frame and writes an operand that is made of it. -/
def close (w : SqlWriter) (run : SqlFrame → Except CompileError (List SqlPiece)) :
    Except CompileError SqlWriter :=
  match w.outer with
  | [] => .error (.malformed .closeWithoutOpen)
  | frame :: outer => do
    let pieces ← run w.current
    operand { w with current := frame, outer } pieces

/-- Pieces in parentheses. -/
def parenthesized (pieces : List SqlPiece) : List SqlPiece :=
  .text "(" :: (pieces ++ [.text ")"])

/-- The operand of a group. -/
def ofGroup (frame : SqlFrame) : Except CompileError (List SqlPiece) :=
  match frame.scope with
  | .group => .ok (parenthesized frame.pieces)
  | _ => .error (.malformed .groupCloseWithoutOpen)

/-- The list behind `IN`. -/
def ofList (frame : SqlFrame) : Except CompileError (List SqlPiece) :=
  match frame.scope with
  | .list => .ok (parenthesized frame.pieces)
  | _ => .error (.malformed .listCloseWithoutOpen)

/-- A call that is written by a template. -/
def ofTemplate (dialect : Dialect) (function : Function) (arity : Nat)
    (arguments : List (List SqlPiece)) : Except CompileError (List SqlPiece) :=
  match dialect.template? function arity with
  | none => .error (.unsupported "sql" (dialect.unsupportedCall function))
  | some template =>
    match template.expand? arguments with
    | some pieces => .ok pieces
    | none => .error (.malformed .slotWithoutArgument)

/-- The operand of a call. The bounds of instants are parameters. -/
def ofCall (dialect : Dialect) (frame : SqlFrame) : Except CompileError (List SqlPiece) :=
  match frame.scope with
  | .call function arity =>
    let arguments := if arity = 0 then frame.arguments else frame.arguments ++ [frame.pieces]
    match function with
    | .minDateTime => .ok [.param (.timestamp .earliest)]
    | .maxDateTime => .ok [.param (.timestamp .latest)]
    | function => ofTemplate dialect function arity arguments
  | _ => .error (.malformed .functionCloseWithoutOpen)

/-- The operand of a lambda: a subquery that must have a row, or must not have one. A row counts
against `all` unless the body is true of it. -/
def ofLambda (frame : SqlFrame) : Except CompileError (List SqlPiece) :=
  match frame.scope with
  | .lambda .any head false => .ok [.text ("EXISTS (" ++ head ++ ")")]
  | .lambda .all _ false => .ok [.text "(1 = 1)"]
  | .lambda .any head true =>
    .ok (.text ("EXISTS (" ++ head ++ " AND (") :: (frame.pieces ++ [.text "))"]))
  | .lambda .all head true =>
    .ok (.text ("NOT EXISTS (" ++ head ++ " AND (CASE WHEN (") ::
      (frame.pieces ++ [.text ") THEN 1 ELSE 0 END) = 0)"]))
  | _ => .error (.malformed .lambdaCloseWithoutOpen)

/-- The alias of a variable, or of the root entity. -/
def aliasOf (w : SqlWriter) (origin : Option String) : String := origin.getD w.rootAlias

/-- The column of a field. -/
def column (w : SqlWriter) (f : Field) : String :=
  quote (w.aliasOf f.origin) ++ "." ++ quote f.source

/-- The head of the subquery of a lambda. Its alias is the variable, or the navigation if no
variable is bound. -/
def subqueryHead (w : SqlWriter) (binder : Binder) : String :=
  let n := binder.navigation
  let inner := quote (if binder.bound = "" then n.name else binder.bound)
  "SELECT 1 FROM " ++ quote n.target.source ++ " AS " ++ inner ++ " WHERE " ++ inner ++ "." ++
    quote n.link.targetKey ++ " = " ++ quote (w.aliasOf n.origin) ++ "." ++ quote n.link.sourceKey

/-- The piece of a literal. Only `null` is part of the text. -/
def literal (v : Value) : SqlPiece := if v.isNull then .text "NULL" else .param v.toSql

/-- Takes a separator, which ends an argument of a call. -/
def separator (w : SqlWriter) : Except CompileError SqlWriter :=
  match w.current.scope with
  | .list => .ok (w.write [.text ", "])
  | .call _ _ =>
    .ok { w with
      current := { w.current with
        pieces := []
        arguments := w.current.arguments ++ [w.current.pieces]
        operators := [] } }
  | _ => .error (.malformed .separatorOutsideCall)

/-- Takes an event. -/
def handle (w : SqlWriter) : Event → Except CompileError SqlWriter
  | .groupOpen => .ok (w.openFrame .group)
  | .groupClose => w.close ofGroup
  | .operator (.binary op) => .ok { w with current := w.current.binary w.dialect op }
  | .operator (.unary .not) => .ok (w.write [.text "NOT "])
  | .operator (.unary .negate) => .ok (w.write [.text "-"])
  | .operator .membership => .ok (w.write [.text " IN "])
  | .literal v =>
    if w.current.scope = .list then .ok (w.write [literal v]) else w.operand [literal v]
  | .field f => w.operand [.text (w.column f)]
  | .functionOpen function arity => .ok (w.openFrame (.call function arity))
  | .separator => w.separator
  | .functionClose => w.close (ofCall w.dialect)
  | .listOpen => .ok (w.openFrame .list)
  | .listClose => w.close ofList
  | .lambdaOpen binder hasBody =>
    .ok (w.openFrame (.lambda binder.quantifier (w.subqueryHead binder) hasBody))
  | .lambdaClose => w.close ofLambda

/-- The pieces of a finished clause. -/
def pieces (w : SqlWriter) : Except CompileError (List SqlPiece) :=
  if !w.outer.isEmpty then .error (.malformed .unclosed)
  else if w.current.pieces.isEmpty then .error (.malformed .emptyExpression)
  else .ok w.current.pieces

/-- The listener that writes a clause. -/
def listener (dialect : Dialect) (rootAlias : String) : Listener SqlWriter (List SqlPiece) where
  start := start dialect rootAlias
  handle := handle
  finish := pieces

end SqlWriter

end ODataQuery
