import ODataQuery.Expr.Function
import ODataQuery.Expr.Operator
import ODataQuery.Literal.Reader
import ODataQuery.Token.Scan

/-!
# Faults of expressions

Why a text is no expression over an entity type.

## Main definitions

- `Mismatch` — how the parts of an expression do not fit together
- `ParseFault` — syntax, resolution, type and authorization faults
- `ParseError` — a fault with its place in the text
- `Token.literal?` — reads a literal token
-/

namespace ODataQuery

/-- How the parts of an expression do not fit together. -/
inductive Mismatch where
  /-- A filter that is not a predicate. -/
  | filter (found : StaticType)
  /-- The body of a lambda that is not a predicate. -/
  | body (found : StaticType)
  /-- The operand of a prefix operator. -/
  | operand (op : UnaryOp) (found : StaticType)
  /-- The operands of a binary operator. -/
  | operands (op : BinaryOp) (left right : StaticType)
  /-- An argument of a function, counted from zero. -/
  | argument (index : Nat) (function : Function) (expected : String) (found : StaticType)
  /-- An item of a list that cannot equal the operand of `in`. -/
  | item (wanted found : StaticType)
  /-- A literal that is no member of an enumeration type. -/
  | member (literal : Value) (type : StaticType)
  /-- A lambda variable without a property. -/
  | bareVariable (name : String)
  /-- A collection outside a lambda. -/
  | bareCollection (path : String)
deriving DecidableEq

namespace Mismatch

/-- The mismatch in words. -/
def message : Mismatch → String
  | filter found => "a filter must be Edm.Boolean, found " ++ found.text
  | body found => "a lambda body must be Edm.Boolean, found " ++ found.text
  | operand .negate found => "'-' needs a number, found " ++ found.text
  | operand .not found => "'not' needs Edm.Boolean, found " ++ found.text
  | operands op left right =>
    "'" ++ op.keyword ++ "' cannot combine " ++ left.text ++ " and " ++ right.text
  | argument index function expected found =>
    "argument " ++ toString (index + 1) ++ " of '" ++ function.name ++ "' must be " ++ expected
      ++ ", found " ++ found.text
  | item wanted found =>
    "cannot test " ++ wanted.text ++ " for membership among " ++ found.text ++ " values"
  | member literal type => literal.text ++ " is not a member of " ++ type.text
  | bareVariable name => "'" ++ name ++ "' must be followed by '/' and a property"
  | bareCollection path => "collection '" ++ path ++ "' can only be used with any or all"

end Mismatch

/-- Why a text is no expression over an entity type. -/
inductive ParseFault where
  | lex (fault : LexFault)
  | empty
  | unexpectedToken (expected found : String)
  | unexpectedEnd (expected : String)
  | unbalancedParenthesis
  | unknownFunction (name : String)
  | arity (function : Function) (expected : String) (found : Nat)
  | unknownProperty (name : String)
  /-- The property exists, but the request may not refer to it. -/
  | notAllowed (path : String)
  | unknownVariable (name : String)
  | variableInUse (name : String)
  | typeMismatch (mismatch : Mismatch)
  | invalidLiteral (what text : String)
  | emptyList
  | nullInList
  | duplicateAlias (name : String)
  | depthExceeded (limit : Nat)
deriving DecidableEq

namespace ParseFault

/-- The fault in words. -/
def message : ParseFault → String
  | lex fault => fault.message
  | empty => "empty expression"
  | unexpectedToken expected found => "expected " ++ expected ++ ", found " ++ found
  | unexpectedEnd expected => "expected " ++ expected ++ ", found end of input"
  | unbalancedParenthesis => "unbalanced parenthesis"
  | unknownFunction name => "unknown function '" ++ name ++ "'"
  | arity function expected found =>
    "function '" ++ function.name ++ "' takes " ++ expected ++ " argument(s), found "
      ++ toString found
  | unknownProperty name => "unknown property '" ++ name ++ "'"
  | notAllowed path => "property '" ++ path ++ "' is not allowed"
  | unknownVariable name => "lambda variable '" ++ name ++ "' is not in scope"
  | variableInUse name => "lambda variable '" ++ name ++ "' is already in use"
  | typeMismatch mismatch => "type mismatch: " ++ mismatch.message
  | invalidLiteral what text => "invalid " ++ what ++ " literal " ++ text
  | emptyList => "'in' requires a non-empty list"
  | nullInList => "'in' lists cannot contain null"
  | duplicateAlias name => "compute alias '" ++ name ++ "' is already in use"
  | depthExceeded limit => "expression nesting exceeds " ++ toString limit ++ " levels"

/-- Whether a request referred to a property outside its allow-list. -/
def isAuthorization : ParseFault → Bool
  | notAllowed _ => true
  | _ => false

end ParseFault

/-- A fault of an expression with its place. -/
abbrev ParseError := Located ParseFault

/-- Reads a literal token; other tokens are no literals. A fault shows the token alone. -/
def Token.literal? (t : Token) (expected : Option StaticType) : Except ParseError (Option Value) :=
  if t.kind = .literal then
    match Value.ofLiteral expected t.text.toList with
    | .ok v => .ok (some v)
    | .error fault => .error ⟨.invalidLiteral fault.describe t.text, t.offset, t.text⟩
  else .ok none

/-- A token is read as a literal exactly if it is one and its text denotes the value. -/
theorem Token.literal?_eq_ok {t : Token} {expected : Option StaticType} {v : Value} :
    t.literal? expected = .ok (some v) ↔
      t.kind = .literal ∧ Value.ofLiteral expected t.text.toList = .ok v := by
  unfold literal?
  by_cases hkind : t.kind = .literal
  · cases h : Value.ofLiteral expected t.text.toList <;> simp [hkind]
  · simp [hkind]

end ODataQuery
