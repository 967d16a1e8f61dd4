import ODataQuery.Expr.StaticType

/-!
# Canonical functions

The functions that expressions can call, and what they accept.

## Main definitions

- `Function` — the functions
- `Function.name`, `Function.ofName?` — how they are called
- `Parameter` — what an argument position accepts
- `Function.arity` — how many arguments a function takes
- `Function.check` — the result type of a call, or why it does not fit
-/

namespace ODataQuery

/-- The canonical functions. -/
inductive Function where
  | contains
  | startsWith
  | endsWith
  | length
  | indexOf
  | substring
  | toLower
  | toUpper
  | trim
  | concat
  | matchesPattern
  | year
  | month
  | day
  | hour
  | minute
  | second
  | fractionalSeconds
  | date
  | time
  | totalOffsetMinutes
  | totalSeconds
  | now
  | minDateTime
  | maxDateTime
  | round
  | floor
  | ceiling
deriving DecidableEq

/-- What an argument position accepts. `null` is accepted everywhere. -/
inductive Parameter where
  | string
  | integer
  | numeric
  /-- A date or an instant. -/
  | dateLike
  /-- A time of day or an instant. -/
  | timeLike
  | instant
  | duration
deriving DecidableEq

namespace Parameter

/-- Whether a value of the kind can be an argument. -/
def acceptsKind : Parameter → Kind → Bool
  | string, k => k == .string
  | integer, k => k.isInteger
  | numeric, k => k.isNumeric
  | dateLike, k => k == .date || k == .dateTimeOffset
  | timeLike, k => k == .timeOfDay || k == .dateTimeOffset
  | instant, k => k == .dateTimeOffset
  | duration, k => k == .duration

/-- Whether an expression of the type can be an argument. -/
def accepts (p : Parameter) (t : StaticType) : Bool := t.kind?.all p.acceptsKind

/-- What an error message asks for. -/
def describe : Parameter → String
  | string => "Edm.String"
  | integer => "an integer"
  | numeric => "a number"
  | dateLike => "Edm.Date or Edm.DateTimeOffset"
  | timeLike => "Edm.TimeOfDay or Edm.DateTimeOffset"
  | instant => "Edm.DateTimeOffset"
  | duration => "Edm.Duration"

end Parameter

/-- Why a call does not fit its function. -/
inductive SignatureError where
  | arity (expected : String) (found : Nat)
  /-- The argument at a position, counted from zero, has a wrong type. -/
  | argument (index : Nat) (expected : String) (found : StaticType)
deriving DecidableEq

/-- How many arguments a function takes: at least a number, and at most another if there is
a bound. -/
structure Arity where
  least : Nat
  most : Option Nat

namespace Arity

/-- Whether so many arguments are accepted. -/
def accepts (a : Arity) (n : Nat) : Bool := a.least ≤ n && a.most.all (n ≤ ·)

/-- How error messages show the arity. -/
def describe (a : Arity) : String :=
  let least := Text.integerText a.least
  match a.most with
  | some most => if most = a.least then least else least ++ " to " ++ Text.integerText most
  | none => "at least " ++ least

end Arity

namespace Function

/-- The name by which a function is called. -/
def name : Function → String
  | contains => "contains"
  | startsWith => "startswith"
  | endsWith => "endswith"
  | length => "length"
  | indexOf => "indexof"
  | substring => "substring"
  | toLower => "tolower"
  | toUpper => "toupper"
  | trim => "trim"
  | concat => "concat"
  | matchesPattern => "matchesPattern"
  | year => "year"
  | month => "month"
  | day => "day"
  | hour => "hour"
  | minute => "minute"
  | second => "second"
  | fractionalSeconds => "fractionalseconds"
  | date => "date"
  | time => "time"
  | totalOffsetMinutes => "totaloffsetminutes"
  | totalSeconds => "totalseconds"
  | now => "now"
  | minDateTime => "mindatetime"
  | maxDateTime => "maxdatetime"
  | round => "round"
  | floor => "floor"
  | ceiling => "ceiling"

/-- All functions. -/
def all : List Function :=
  [contains, startsWith, endsWith, length, indexOf, substring, toLower, toUpper, trim, concat,
    matchesPattern, year, month, day, hour, minute, second, fractionalSeconds, date, time,
    totalOffsetMinutes, totalSeconds, now, minDateTime, maxDateTime, round, floor, ceiling]

/-- The function called by this name. -/
def ofName? (name : String) : Option Function := all.find? (·.name == name)

/-- The parameters of a function. -/
def parameters : Function → List Parameter
  | contains | startsWith | endsWith | indexOf | matchesPattern | concat => [.string, .string]
  | length | toLower | toUpper | trim => [.string]
  | substring => [.string, .integer, .integer]
  | year | month | day => [.dateLike]
  | hour | minute | second | fractionalSeconds => [.timeLike]
  | date | time | totalOffsetMinutes => [.instant]
  | totalSeconds => [.duration]
  | now | minDateTime | maxDateTime => []
  | round | floor | ceiling => [.numeric]

/-- How many arguments a function takes. Concatenation takes any number from two on, and the
length of a substring can be left out. -/
def arity : Function → Arity
  | concat => ⟨2, none⟩
  | substring => ⟨2, some 3⟩
  | f => ⟨f.parameters.length, some f.parameters.length⟩

/-- The type of the result, given the types of the arguments. Rounding keeps the type of its
argument. -/
def resultType (f : Function) (arguments : List StaticType) : StaticType :=
  match f with
  | contains | startsWith | endsWith | matchesPattern => .boolean
  | length | indexOf | year | month | day | hour | minute | second | totalOffsetMinutes =>
    .primitive .int32
  | substring | toLower | toUpper | trim | concat => .string
  | fractionalSeconds | totalSeconds => .primitive .decimal
  | date => .primitive .date
  | time => .primitive .timeOfDay
  | now | minDateTime | maxDateTime => .primitive .dateTimeOffset
  | round | floor | ceiling => arguments.headD .null

/-- The first argument that its parameter does not accept. Arguments beyond the parameters
are held against the last one. -/
def firstMismatch (index : Nat) : List Parameter → List StaticType → Option SignatureError
  | [p], t :: ts =>
    if p.accepts t then firstMismatch (index + 1) [p] ts
    else some (.argument index p.describe t)
  | p :: q :: ps, t :: ts =>
    if p.accepts t then firstMismatch (index + 1) (q :: ps) ts
    else some (.argument index p.describe t)
  | _, _ => none

/-- The type of a call, or why it does not fit. -/
def check (f : Function) (arguments : List StaticType) : Except SignatureError StaticType :=
  if f.arity.accepts arguments.length then
    match firstMismatch 0 f.parameters arguments with
    | some e => .error e
    | none => .ok (f.resultType arguments)
  else .error (.arity f.arity.describe arguments.length)

end Function

end ODataQuery
