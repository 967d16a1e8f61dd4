import ODataQuery.Expr.Operator
import ODataQuery.Text.LetterCase
import ODataQuery.Value.Json

/-!
# Parameters of SQL

The values that a clause is executed with, and the dialects of SQL.

## Main definitions

- `SqlValue` — a parameter
- `Value.toSql` — the parameter for a value
- `SqlValue.toJson` — how a parameter is shown
- `Dialect` — the dialects
- `Dialect.bind` — the form in which a dialect stores and compares a parameter

## Design notes

SQLite has no storage of its own for truth values, decimals and times. There truth values are
integers, decimals and durations floating point numbers, and times texts of fixed width, instants
in universal time, so that the order of the texts is that of the values.
-/

namespace ODataQuery

/-- A parameter of a clause. -/
inductive SqlValue where
  | null
  | boolean (b : Bool)
  | integer (n : Int64)
  | real (x : Float)
  | decimal (d : Decimal)
  | text (s : String)
  | blob (bytes : List UInt8)
  | date (d : Date)
  | time (t : TimeOfDay)
  | timestamp (i : Instant)
  | interval (d : Duration)
  | uuid (g : Guid)
deriving DecidableEq

/-- The parameter for a value. -/
def Value.toSql : Value → SqlValue
  | null => .null
  | boolean b => .boolean b
  | byte n => .integer (Int64.ofNat n.toNat)
  | sbyte n => .integer (Int64.ofInt n.toInt)
  | int16 n => .integer (Int64.ofInt n.toInt)
  | int32 n => .integer (Int64.ofInt n.toInt)
  | int64 n => .integer n
  | single x => .real x.toFloat
  | double x => .real x
  | decimal d => .decimal d
  | string s => .text s
  | binary bytes => .blob bytes
  | date d => .date d
  | timeOfDay t => .time t
  | dateTimeOffset i => .timestamp i
  | duration d => .interval d
  | guid g => .uuid g
  | enumeration e => .text (membersText e.members)

namespace SqlValue

/-- How a parameter is shown. -/
def toJson : SqlValue → Json
  | null => .null
  | boolean b => .bool b
  | integer n => .integer n.toInt
  | real x => Value.floatJson x
  | decimal d => .string d.text
  | text s => .string s
  | blob bytes => .string (Base64.encodeUrl bytes)
  | date d => .string d.text
  | time t => .string t.text
  | timestamp i => .string i.text
  | interval d => .string d.text
  | uuid g => .string g.text

end SqlValue

/-- The dialects of SQL. -/
inductive Dialect where
  | sqlite
  | postgres
deriving DecidableEq

namespace Dialect

/-- The name of the dialect. -/
def name : Dialect → String
  | sqlite => "sqlite"
  | postgres => "postgres"

/-- The dialect of a name, in any letter case. -/
def ofName? (s : String) : Option Dialect :=
  match Text.toAsciiLower s with
  | "sqlite" => some sqlite
  | "postgres" | "postgresql" => some postgres
  | _ => none

/-- The form in which SQLite stores a parameter. -/
def bindSqlite : SqlValue → SqlValue
  | .boolean b => .integer (if b then 1 else 0)
  | .decimal d => .real d.toDouble
  | .date d => .text d.text
  | .time t => .text (String.ofList t.microsecondChars)
  | .timestamp i => .text i.microsecondText
  | .interval d => .real d.seconds
  | .uuid g => .text g.text
  | v => v

/-- The form in which a dialect stores and compares a parameter. PostgreSQL keeps every type. -/
def bind (dialect : Dialect) (v : SqlValue) : SqlValue :=
  match dialect with
  | sqlite => bindSqlite v
  | postgres => v

/-- The placeholder of a parameter, counted from one. -/
def placeholder (dialect : Dialect) (index : Nat) : String :=
  match dialect with
  | sqlite => "?"
  | postgres => "$" ++ toString index

/-- How an operator between operands is written. Divisors follow inside `NULLIF`, which makes a
division by zero null. -/
def operator (dialect : Dialect) (op : BinaryOp) : String :=
  match op with
  | .eq =>
    match dialect with
    | sqlite => " IS "
    | postgres => " IS NOT DISTINCT FROM "
  | .ne =>
    match dialect with
    | sqlite => " IS NOT "
    | postgres => " IS DISTINCT FROM "
  | .gt => " > "
  | .ge => " >= "
  | .lt => " < "
  | .le => " <= "
  | .and => " AND "
  | .or => " OR "
  | .add => " + "
  | .sub => " - "
  | .mul => " * "
  | .div => " / NULLIF("
  | .divby => " * 1.0 / NULLIF("
  | .mod => " % NULLIF("

end Dialect

end ODataQuery
