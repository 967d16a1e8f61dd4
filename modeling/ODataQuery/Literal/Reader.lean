import ODataQuery.Expr.StaticType
import ODataQuery.Literal.Typed

/-!
# Reading literals in an expression

A literal of an expression shows its kind by its shape. The type that its place expects only
chooses among the kinds of numbers and turns texts into enumeration members.

## Main definitions

- `LiteralFault` — why a text is no literal
- `Value.ofLiteral` — reads a literal
- `Value.coerce?` — fits a literal to a type that is learned afterwards
- `Value.typeAgainst` — the static type of a literal at a place of a given type
-/

namespace ODataQuery

/-- Why a text is no literal. -/
inductive LiteralFault where
  /-- The text has the shape of no literal. -/
  | shapeless
  /-- The text has a shape but denotes nothing. -/
  | malformed (shape : Shape)
  /-- The text names something that the enumeration type does not declare. -/
  | notMember
deriving DecidableEq

namespace LiteralFault

/-- What the text was taken for. -/
def describe : LiteralFault → String
  | shapeless => "literal"
  | malformed shape => shape.describe
  | notMember => "enumeration member"

end LiteralFault

namespace Value

/-- A value that must exist, or else a fault. -/
def orFault {α : Type} (fault : LiteralFault) : Option α → Except LiteralFault α
  | some a => .ok a
  | none => .error fault

/-- Reads a string, or the members of an enumeration type if one is expected. -/
def ofStringLiteral (expected : Option StaticType) (cs : List Char) :
    Except LiteralFault Value := do
  let body ← orFault (.malformed .string) (Quoted.string? cs)
  match expected with
  | some (.enumeration type) =>
    orFault .notMember ((Quoted.members? body).bind type.value?)
  | _ => return string (String.ofList body)

/-- Reads a qualified enumeration literal. Its members are checked against the expected type
if that has the same name. -/
def ofEnumLiteral (expected : Option StaticType) (cs : List Char) : Except LiteralFault Value := do
  let p ← orFault (.malformed .enumeration) (Quoted.prefixed? cs)
  let names ← orFault (.malformed .enumeration) (Quoted.members? p.body)
  let word := String.ofList p.word
  match expected with
  | some (.enumeration type) =>
    if type.name = word then orFault .notMember (type.value? names)
    else return enumeration ⟨word, names⟩
  | _ => return enumeration ⟨word, names⟩

/-- Reads a number as the expected kind, or else as the kind that its text suggests. -/
def ofNumberLiteral? (expected : Option StaticType) (cs : List Char) : Option Value :=
  let wanted := (expected.bind StaticType.kind?).filter Kind.isNumeric
  (wanted.bind fun kind => ofNumber? kind cs).or (inferNumber? cs)

/-- Reads the text of a literal at a place of the expected type. -/
def ofLiteral (expected : Option StaticType) (cs : List Char) : Except LiteralFault Value :=
  match Shape.ofText? cs with
  | none => .error .shapeless
  | some shape =>
    match shape with
    | .null => .ok null
    | .boolean => .ok (boolean (cs == "true".toList))
    | .string => ofStringLiteral expected cs
    | .enumeration => ofEnumLiteral expected cs
    | .guid => orFault (.malformed shape) ((Guid.ofText? cs).map guid)
    | .binary =>
      orFault (.malformed shape)
        ((Quoted.prefixed? cs).bind fun p => (Base64.decode? p.body).map binary)
    | .prefixedDuration =>
      orFault (.malformed shape)
        ((Quoted.prefixed? cs).bind fun p => (Duration.ofText? p.body).map duration)
    | .date => orFault (.malformed shape) ((Date.ofText? cs).map date)
    | .dateTimeOffset => orFault (.malformed shape) ((Instant.ofText? cs).map dateTimeOffset)
    | .timeOfDay => orFault (.malformed shape) ((TimeOfDay.ofText? cs).map timeOfDay)
    | .duration => orFault (.malformed shape) ((Duration.ofText? cs).map duration)
    | .integer | .decimal | .double | .nonFinite =>
      orFault (.malformed shape) (ofNumberLiteral? expected cs)

/-- Fits a literal to a type learned after it was read. Strings and members of the same type
become checked members of an enumeration type; other values stay as they are. -/
def coerce? (v : Value) (expected : StaticType) : Option Value :=
  match expected, v with
  | .enumeration type, string s => (Quoted.members? s.toList).bind type.value?
  | .enumeration type, enumeration e =>
    if e.typeName = type.name then type.value? e.members else some v
  | _, _ => some v

/-- The static type of a literal that was read at a place of the expected type. -/
def typeAgainst (v : Value) (expected : Option StaticType) : StaticType :=
  match v, expected with
  | enumeration e, some (.enumeration type) =>
    if e.typeName = type.name then .enumeration type else .primitive .enumeration
  | v, _ => .ofValue v

end Value

end ODataQuery
