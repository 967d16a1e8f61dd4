import ODataQuery.Metadata.EnumType

/-!
# Static types

The types that expressions have before they are evaluated.

## Main definitions

- `StaticType` — `null`, a primitive kind, or an enumeration type
- `StaticType.isComparableWith`, `StaticType.isOrderableWith` — what comparisons accept
- `StaticType.text` — how error messages show a type

## Design notes

`null` fits everywhere. A qualified enumeration literal whose type is not known from metadata
has the primitive kind of enumerations, and is comparable with `null` only.
-/

namespace ODataQuery

/-- The type of an expression. -/
inductive StaticType where
  /-- The type of `null`. -/
  | null
  | primitive (kind : Kind)
  | enumeration (type : EnumType)
deriving DecidableEq

namespace StaticType

/-- The type of predicates. -/
def boolean : StaticType := primitive .boolean

/-- The type of texts. -/
def string : StaticType := primitive .string

/-- The type of a value without regard to metadata. -/
def ofValue (v : Value) : StaticType :=
  match v.kind? with
  | none => null
  | some kind => primitive kind

/-- The kind of the values of the type; `null` has none. -/
def kind? : StaticType → Option Kind
  | null => none
  | primitive kind => some kind
  | enumeration _ => some .enumeration

/-- Whether the type is that of `null`. -/
def isNull (t : StaticType) : Bool := t == null

/-- Boolean, or `null` in its place. -/
def isBoolean (t : StaticType) : Bool := t == null || t == boolean

/-- Numeric, or `null` in its place. -/
def isNumeric (t : StaticType) : Bool := t == null || t.kind?.any Kind.isNumeric

/-- String, or `null` in its place. -/
def isString (t : StaticType) : Bool := t == null || t == string

/-- Ordered, or `null` in its place. -/
def isOrdered (t : StaticType) : Bool := t == null || t.kind?.any Kind.isOrdered

/-- Whether `eq` and `ne` accept the two types. -/
def isComparableWith : StaticType → StaticType → Bool
  | null, _ | _, null => true
  | enumeration a, enumeration b => a.name == b.name
  | primitive a, primitive b =>
    a != .enumeration && b != .enumeration && a.isComparableWith b
  | _, _ => false

/-- Whether `gt`, `ge`, `lt` and `le` accept the two types. -/
def isOrderableWith (a b : StaticType) : Bool :=
  a.isComparableWith b && a.isOrdered && b.isOrdered

/-- How error messages show the type. -/
def text : StaticType → String
  | null => "null"
  | primitive kind => kind.edmName
  | enumeration type => type.name

end StaticType

end ODataQuery
