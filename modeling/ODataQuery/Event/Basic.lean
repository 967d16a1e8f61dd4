import ODataQuery.Expr.Basic

/-!
# Events

An expression as a flat sequence of events, depth first, from which every backend builds its
output.

## Main definitions

- `Event` — a step of the sequence
- `Expr.needsGroup` — where the sequence has parentheses
- `Expr.steps` — the sequence, with the level of every node
- `Expr.events` — the sequence without levels
- `Expr.text` — the text of an expression, made of those of its events

## Design notes

Groups stand exactly where operators in the given order would otherwise associate in another
way: around an operand that binds looser than its operator, around a right operand that binds
as tight, around every operation under a prefix operator, and around a prefix operation under
an operator between operands.
-/

namespace ODataQuery

/-- A step of the sequence that stands for an expression. -/
inductive Event where
  | groupOpen
  | groupClose
  | operator (op : Operator)
  | literal (v : Value)
  | field (f : Field)
  | functionOpen (function : Function) (arity : Nat)
  /-- Between arguments, and between items of a list. -/
  | separator
  | functionClose
  | listOpen
  | listClose
  | lambdaOpen (binder : Binder) (hasBody : Bool)
  | lambdaClose

namespace Event

/-- The name of the event. -/
def name : Event → String
  | groupOpen => "group-open"
  | groupClose => "group-close"
  | operator _ => "operator"
  | literal _ => "literal"
  | field _ => "field"
  | functionOpen _ _ => "function-open"
  | separator => "argument-separator"
  | functionClose => "function-close"
  | listOpen => "list-open"
  | listClose => "list-close"
  | lambdaOpen _ _ => "lambda-open"
  | lambdaClose => "lambda-close"

end Event

/-- An event, or the level of the node whose events follow. -/
inductive Step where
  | level (n : Nat)
  | event (e : Event)

namespace Step

/-- The event of a step. -/
def event? : Step → Option Event
  | event e => some e
  | level _ => none

end Step

/-- Whether an operand stands at the right of its operator. The operand of a prefix operator
does. -/
inductive Side where
  | left
  | right
deriving DecidableEq

namespace Expr

/-- Whether the expression is a prefix operation. -/
def isPrefixed : Expr → Bool
  | unary _ _ => true
  | _ => false

/-- Whether an operand stands in parentheses under its operator. -/
def needsGroup (parent operand : Expr) (side : Side) : Bool :=
  match parent.precedence?, operand.precedence? with
  | some p, some q =>
    parent.isPrefixed || operand.isPrefixed || q < p || (side == .right && q == p)
  | _, _ => false

/-- The level of an operand of a node. A left operand without parentheses shares the level of
the node, so that chains of operators stay shallow. -/
def operandLevel (level : Nat) (grouped : Bool) (side : Side) : Nat :=
  if side = .left ∧ ¬grouped then level else level + 1

/-- The steps of an operand, in parentheses if it is grouped. -/
def groupSteps (grouped : Bool) (steps : List Step) : List Step :=
  if grouped then .event .groupOpen :: (steps ++ [.event .groupClose]) else steps

/-- The steps of the items of a list, with separators between them. -/
def itemSteps : List Value → List Step
  | [] => []
  | [v] => [.event (.literal v)]
  | v :: vs => .event (.literal v) :: .event .separator :: itemSteps vs

mutual

/-- The steps of an expression at a level. -/
def steps (level : Nat) : Expr → List Step
  | literal v => [.level level, .event (.literal v)]
  | field f => [.level level, .event (.field f)]
  | binary op left right =>
    let groupLeft := needsGroup (binary op left right) left .left
    let groupRight := needsGroup (binary op left right) right .right
    .level level ::
      (groupSteps groupLeft (left.steps (operandLevel level groupLeft .left)) ++
        .event (.operator (.binary op)) ::
          groupSteps groupRight (right.steps (operandLevel level groupRight .right)))
  | unary op operand =>
    let grouped := needsGroup (unary op operand) operand .right
    .level level :: .event (.operator (.unary op)) ::
      groupSteps grouped (operand.steps (operandLevel level grouped .right))
  | membership operand list =>
    let grouped := needsGroup (membership operand list) operand .left
    .level level ::
      (groupSteps grouped (operand.steps (operandLevel level grouped .left)) ++
        .event (.operator .membership) :: .event .listOpen ::
          (itemSteps list ++ [.event .listClose]))
  | call function arguments =>
    .level level :: .event (.functionOpen function arguments.length) ::
      (argumentSteps (level + 1) arguments ++ [.event .functionClose])
  | lambda binder body =>
    .level level :: .event (.lambdaOpen binder true) ::
      (body.steps (level + 1) ++ [.event .lambdaClose])
  | bare binder => [.level level, .event (.lambdaOpen binder false), .event .lambdaClose]

/-- The steps of arguments, with separators between them. -/
def argumentSteps (level : Nat) : List Expr → List Step
  | [] => []
  | [e] => e.steps level
  | e :: es => e.steps level ++ .event .separator :: argumentSteps level es

end

/-- The events of an expression. -/
def events (e : Expr) : List Event := (e.steps 1).filterMap Step.event?

end Expr

-- ════════════════════════════════════════════════════════════════════════
-- Text
-- ════════════════════════════════════════════════════════════════════════

/-- A name below the variable that its path starts at. -/
def qualifiedName (origin : Option String) (name : String) : String :=
  match origin with
  | some root => root ++ "/" ++ name
  | none => name

/-- The text of an event in an expression. -/
def Event.text : Event → String
  | groupOpen | listOpen => "("
  | groupClose | listClose | functionClose | lambdaClose => ")"
  | operator (.unary .not) => "not "
  | operator (.unary .negate) => "-"
  | operator op => " " ++ op.symbol ++ " "
  | literal v => v.text
  | field f => qualifiedName f.origin f.name
  | functionOpen function _ => function.name ++ "("
  | separator => ", "
  | lambdaOpen binder hasBody =>
    qualifiedName binder.navigation.origin binder.navigation.name ++ "/" ++
      binder.quantifier.keyword ++ "(" ++ if hasBody then binder.bound ++ ":" else ""

/-- The text of an expression, with no more parentheses than its events have. -/
def Expr.text (e : Expr) : String := String.join (e.events.map Event.text)

end ODataQuery
