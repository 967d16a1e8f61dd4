/-!
# Kinds of values

The primitive types of the protocol. All enumeration types share one kind; the concrete type
travels with the value or with the metadata.

## Main definitions

- `Kind` — the primitive types
- `Kind.edmName`, `Kind.ofEdmName?` — their qualified names
- `Kind.isInteger`, `Kind.isNumeric`, `Kind.isOrdered`, `Kind.isComparableWith`
- `Kind.promote` — the kind in which two numbers are compared and combined
-/

namespace ODataQuery

/-- The primitive types. -/
inductive Kind where
  | boolean
  /-- Unsigned, 8 bits. -/
  | byte
  /-- Signed, 8 bits. -/
  | sbyte
  | int16
  | int32
  | int64
  | single
  | double
  | decimal
  | string
  | binary
  | date
  | timeOfDay
  | dateTimeOffset
  | duration
  | guid
  | enumeration
deriving DecidableEq

namespace Kind

/-- The name without its namespace. -/
def name : Kind → String
  | boolean => "Boolean"
  | byte => "Byte"
  | sbyte => "SByte"
  | int16 => "Int16"
  | int32 => "Int32"
  | int64 => "Int64"
  | single => "Single"
  | double => "Double"
  | decimal => "Decimal"
  | string => "String"
  | binary => "Binary"
  | date => "Date"
  | timeOfDay => "TimeOfDay"
  | dateTimeOffset => "DateTimeOffset"
  | duration => "Duration"
  | guid => "Guid"
  | enumeration => "Enum"

/-- The qualified name. -/
def edmName (k : Kind) : String := "Edm." ++ k.name

/-- The kinds that metadata can name; an enumeration has a name of its own. -/
def named : List Kind :=
  [boolean, byte, sbyte, int16, int32, int64, single, double, decimal, string, binary, date,
    timeOfDay, dateTimeOffset, duration, guid]

/-- The kind with this name, qualified or not. -/
def ofEdmName? (s : String) : Option Kind :=
  match named.find? (·.edmName == s) with
  | some k => some k
  | none => named.find? (·.name == s)

/-- Whole numbers of fixed width. -/
def isInteger : Kind → Bool
  | byte | sbyte | int16 | int32 | int64 => true
  | _ => false

/-- Binary floating point. -/
def isFloating : Kind → Bool
  | single | double => true
  | _ => false

/-- Numbers. -/
def isNumeric (k : Kind) : Bool := k.isInteger || k.isFloating || k == decimal

/-- Kinds that the relational operators accept. -/
def isOrdered (k : Kind) : Bool :=
  k.isNumeric || match k with
    | string | date | timeOfDay | dateTimeOffset | duration => true
    | _ => false

/-- Kinds meet in a comparison when they are the same or both numeric. -/
def isComparableWith (a b : Kind) : Bool := a == b || (a.isNumeric && b.isNumeric)

/-- The kind in which two numbers meet: integers as `int64`, two `single` numbers as
`single`, any other pair with a floating point number as `double`, and the rest as
`decimal`. -/
def promote (a b : Kind) : Kind :=
  if a.isInteger && b.isInteger then int64
  else if a == single && b == single then single
  else if a.isFloating || b.isFloating then double
  else decimal

end Kind

end ODataQuery
