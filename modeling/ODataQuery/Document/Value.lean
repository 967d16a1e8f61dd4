import ODataQuery.Json.Basic
import ODataQuery.Value.Basic

/-!
# Values in documents

How a document collection stores values.

## Main definitions

- `Value.toDocument` — the stored form of a value

## Design notes

Dates and times of day are texts in the order of their values. Instants have milliseconds in
universal time, and durations are numbers of seconds.
-/

namespace ODataQuery

namespace Value

/-- An object with one member. -/
def tagged (tag : String) (content : Json) : Json := .object [(tag, content)]

/-- The stored form of a floating point number. -/
def documentFloat (x : Float) : Json :=
  if Double.isFinite x then .float x
  else
    let name := if x.isNaN then "NaN" else if x > 0 then "Infinity" else "-Infinity"
    tagged "$numberDouble" (.string name)

/-- The stored form of a value. -/
def toDocument : Value → Json
  | null => .null
  | boolean b => .bool b
  | byte n => .integer n.toNat
  | sbyte n => .integer n.toInt
  | int16 n => .integer n.toInt
  | int32 n => .integer n.toInt
  | int64 n => .integer n.toInt
  | single x => documentFloat x.toFloat
  | double x => documentFloat x
  | decimal d => tagged "$numberDecimal" (.string d.text)
  | string s => .string s
  | binary bytes =>
    tagged "$binary"
      (.object [("base64", .string (Base64.encodeStandard bytes)), ("subType", .string "00")])
  | date d => .string d.text
  | timeOfDay t => .string t.text
  | dateTimeOffset i => tagged "$date" (.string i.millisecondText)
  | duration d => documentFloat d.seconds
  | guid g => tagged "$uuid" (.string g.text)
  | enumeration e => .string (membersText e.members)

end Value

end ODataQuery
