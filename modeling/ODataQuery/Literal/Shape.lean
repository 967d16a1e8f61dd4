import ODataQuery.Literal.Quoted
import ODataQuery.Value.Basic

/-!
# Shapes of literals

Which kind of literal a text looks like, before its content is examined. Shapes overlap, so
they are tried in a fixed order.

## Main definitions

- `Shape` — the shapes
- `Shape.ofText?` — the first shape that fits a text
- `Shape.describe` — how an error message calls a literal of the shape
-/

namespace ODataQuery

/-- The shapes of literals, in the order in which they are tried, except that the names of
non-finite numbers are tried early. -/
inductive Shape where
  | null
  | boolean
  | guid
  | string
  | binary
  | prefixedDuration
  | enumeration
  | date
  | dateTimeOffset
  | timeOfDay
  | duration
  | integer
  | decimal
  | double
  /-- `INF`, `-INF` or `NaN`. -/
  | nonFinite
deriving DecidableEq

namespace Shape

/-- How an error message calls a literal of the shape. -/
def describe : Shape → String
  | null => "null"
  | boolean => "boolean"
  | guid => "guid"
  | string => "string"
  | binary => "binary"
  | prefixedDuration | duration => "duration"
  | enumeration => "enumeration"
  | date => "date"
  | dateTimeOffset => "date-time-offset"
  | timeOfDay => "time-of-day"
  | integer => "integer"
  | decimal => "decimal"
  | double | nonFinite => "double"

/-- Equality up to the case of ASCII letters. -/
def sameWord (a b : List Char) : Bool := a.map Char.toLower == b.map Char.toLower

/-- Whether the word announces binary data. -/
def isBinaryWord (word : List Char) : Bool := sameWord word "binary".toList || word == ['X']

/-- Whether the word announces a duration. -/
def isDurationWord (word : List Char) : Bool := sameWord word "duration".toList

/-- The shape that the word in front of a quoted text announces. -/
def ofWord? (word : List Char) : Option Shape :=
  if isBinaryWord word then some binary
  else if isDurationWord word then some prefixedDuration
  else if word.contains '.' then some enumeration
  else none

/-- The shape of a text without quotes and words. -/
def ofPlain? (cs : List Char) : Option Shape :=
  if Date.hasForm cs then some date
  else if Instant.hasForm cs then some dateTimeOffset
  else if TimeOfDay.hasForm cs then some timeOfDay
  else if (DurationText.read? cs).isSome then some duration
  else match NumberText.read? cs with
    | some t =>
      some (if t.isInteger then integer else if t.isDecimal then decimal else double)
    | none => none

/-- The first shape that fits a text. -/
def ofText? (cs : List Char) : Option Shape :=
  if cs = "null".toList then some null
  else if cs = "true".toList ∨ cs = "false".toList then some boolean
  else if cs = "INF".toList ∨ cs = "-INF".toList ∨ cs = "NaN".toList then some nonFinite
  else if (Guid.ofText? cs).isSome then some guid
  else if cs.head? = some '\'' then some string
  else match Quoted.prefixed? cs with
    | some p => ofWord? p.word
    | none => ofPlain? cs

end Shape

end ODataQuery
