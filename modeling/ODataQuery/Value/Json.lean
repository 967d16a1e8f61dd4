import ODataQuery.Json.Basic
import ODataQuery.Literal.Number

/-!
# Values in JSON

The JSON format of the protocol: numbers as JSON numbers, everything else that is not a
Boolean as a string.

## Main definitions

- `JsonOptions` — whether long numbers are written as strings
- `Value.toJson` — the JSON form of a value
- `Value.ofJson?` — reads a value of a given kind
-/

namespace ODataQuery

/-- Choices of the JSON format. -/
structure JsonOptions where
  /-- Write `Int64` and `Decimal` as strings, which no reader can round. -/
  ieee754Compatible : Bool := false

namespace Value

/-- A number as JSON; infinities and NaN are strings. -/
def floatJson (x : Float) : Json :=
  if Double.isFinite x then .float x else .string (doubleText x)

/-- The JSON form of a value. -/
def toJson (options : JsonOptions) : Value → Json
  | null => .null
  | boolean b => .bool b
  | byte n => .integer n.toNat
  | sbyte n => .integer n.toInt
  | int16 n => .integer n.toInt
  | int32 n => .integer n.toInt
  | int64 n =>
    if options.ieee754Compatible then .string (Text.integerText n.toInt) else .integer n.toInt
  | single x => floatJson x.toFloat
  | double x => floatJson x
  | decimal d =>
    if options.ieee754Compatible then .string d.text else .float d.toDouble
  | string s => .string s
  | binary bytes => .string (Base64.encodeUrl bytes)
  | date d => .string d.text
  | timeOfDay t => .string t.text
  | dateTimeOffset i => .string i.text
  | duration d => .string d.text
  | guid g => .string g.text
  | enumeration e => .string (membersText e.members)

/-- Reads the text of a JSON string as a value that is not a number. -/
def ofJsonText? (kind : Kind) (s : String) : Option Value :=
  match kind with
  | .string => some (string s)
  | .binary => (Base64.decode? s.toList).map binary
  | .date => (Date.ofText? s.toList).map date
  | .timeOfDay => (TimeOfDay.ofText? s.toList).map timeOfDay
  | .dateTimeOffset => (Instant.ofText? s.toList).map dateTimeOffset
  | .duration => (Duration.ofText? s.toList).map duration
  | .guid => (Guid.ofText? s.toList).map guid
  | _ => none

/-- Reads a value of a kind that is not an enumeration. Numbers may be JSON numbers or
strings; `null` is a value of every kind. -/
def ofJson? (kind : Kind) : Json → Option Value
  | .null => some null
  | .bool b => if kind = .boolean then some (boolean b) else none
  | .string s => if kind.isNumeric then ofNumber? kind s.toList else ofJsonText? kind s
  | .integer n => if kind.isNumeric then ofNumber? kind (Json.integer n).compact.toList else none
  | .float x => if kind.isNumeric then ofNumber? kind (Json.float x).compact.toList else none
  | .array _ | .object _ => none

end Value

end ODataQuery
