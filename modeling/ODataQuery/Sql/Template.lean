import ODataQuery.Expr.Function
import ODataQuery.Sql.Value

/-!
# Templates of function calls

How the canonical functions are written in SQL.

## Main definitions

- `SqlPiece` — a piece of a clause: text or a parameter
- `SqlTemplate` — text with slots for arguments
- `SqlTemplate.expand?` — fills the slots
- `Dialect.template` — the template of a function

## Design notes

Values are never part of the text. A slot can occur several times; the argument is then
repeated with its parameters.
-/

namespace ODataQuery

/-- A piece of a clause. -/
inductive SqlPiece where
  | text (s : String)
  | param (v : SqlValue)
deriving DecidableEq

/-- A part of a template: text, or a slot for the argument at a position. -/
inductive TemplatePart where
  | text (s : String)
  | slot (index : Nat)
deriving DecidableEq

/-- Text with slots for arguments. -/
abbrev SqlTemplate := List TemplatePart

namespace SqlTemplate

/-- The pieces of a part of a template; none if the slot has no argument. -/
def expandPart? (arguments : List (List SqlPiece)) : TemplatePart → Option (List SqlPiece)
  | .text s => some [.text s]
  | .slot index => arguments[index]?

/-- Fills the slots; none if one of them has no argument. -/
def expand? (template : SqlTemplate) (arguments : List (List SqlPiece)) :
    Option (List SqlPiece) :=
  (template.mapM (expandPart? arguments)).map List.flatten

/-- The remainder of the truncated division, since the operator of SQLite is one of integers. -/
def sqliteModulo : SqlTemplate :=
  [.text "(", .slot 0, .text " - ", .slot 1, .text " * CAST(", .slot 0, .text " / NULLIF(", .slot 1,
    .text ", 0) AS INTEGER))"]

/-- A function of the first argument, given the text in front of it and behind it. -/
def around (before behind : String) : SqlTemplate := [.text before, .slot 0, .text behind]

/-- A function of two arguments, given the text in front of, between and behind them. -/
def around₂ (before between behind : String) : SqlTemplate :=
  [.text before, .slot 0, .text between, .slot 1, .text behind]

/-- A function of three arguments, given the text around and between them. -/
def around₃ (before first second behind : String) : SqlTemplate :=
  [.text before, .slot 0, .text first, .slot 1, .text second, .slot 2, .text behind]

/-- A part of a time in SQLite, given its letter. -/
def sqlitePart (letter : String) : SqlTemplate :=
  around ("CAST(strftime('%" ++ letter ++ "', ") ") AS INTEGER)"

/-- A part of a time in PostgreSQL, given its name. -/
def postgresPart (name : String) : SqlTemplate :=
  around ("CAST(EXTRACT(" ++ name ++ " FROM ") ") AS INTEGER)"

/-- A whole number next to a number in SQLite, which only truncates: the truncated number, or
its neighbour if the number lies beyond it. -/
def sqliteWhole (comparison neighbour : String) : SqlTemplate :=
  [.text "(CASE WHEN ", .slot 0, .text (" " ++ comparison ++ " CAST("), .slot 0,
    .text " AS INTEGER) THEN CAST(", .slot 0, .text (" AS INTEGER) " ++ neighbour ++ " ELSE CAST("),
    .slot 0, .text " AS INTEGER) END)"]

/-- So many arguments with the operator of concatenation between them. -/
def concatenated (arity : Nat) : SqlTemplate :=
  .text "(" ::
    (((List.range arity).map TemplatePart.slot).intersperse (.text " || ") ++ [.text ")"])

/-- The template of a function in SQLite; none if there is none. -/
def sqlite? (function : Function) (arity : Nat) : Option SqlTemplate :=
  match function with
  | .contains => some (around₂ "(instr(" ", " ") > 0)")
  | .startsWith => some (around₂ "(instr(" ", " ") = 1)")
  | .endsWith =>
    some [.text "(substr(", .slot 0, .text ", length(", .slot 0, .text ") - length(", .slot 1,
      .text ") + 1) = ", .slot 1, .text ")"]
  | .indexOf => some (around₂ "(instr(" ", " ") - 1)")
  | .length => some (around "length(" ")")
  | .substring =>
    some (if arity = 3 then around₃ "substr(" ", max(" ", 0) + 1, max(" ", 0))"
      else around₂ "substr(" ", max(" ", 0) + 1)")
  | .toLower => some (around "lower(" ")")
  | .toUpper => some (around "upper(" ")")
  | .trim => some (around "trim(" ")")
  | .concat => some (concatenated arity)
  | .year => some (sqlitePart "Y")
  | .month => some (sqlitePart "m")
  | .day => some (sqlitePart "d")
  | .hour => some (sqlitePart "H")
  | .minute => some (sqlitePart "M")
  | .second => some (sqlitePart "S")
  | .fractionalSeconds =>
    some [.text "(CAST(strftime('%f', ", .slot 0, .text ") AS REAL) - CAST(strftime('%S', ", .slot 0,
      .text ") AS INTEGER))"]
  | .date => some (around "date(" ")")
  | .time => some (around "(strftime('%H:%M:%f', " ") || '000')")
  | .totalSeconds => some (around "(" ")")
  | .now => some [.text "strftime('%Y-%m-%dT%H:%M:%f000Z', 'now')"]
  | .round => some (around "round(" ")")
  | .floor => some (sqliteWhole "<" "- 1")
  | .ceiling => some (sqliteWhole ">" "+ 1")
  | .matchesPattern | .totalOffsetMinutes | .minDateTime | .maxDateTime => none

/-- The template of a function in PostgreSQL; none if there is none. -/
def postgres? (function : Function) (arity : Nat) : Option SqlTemplate :=
  match function with
  | .contains => some (around₂ "(strpos(" ", " ") > 0)")
  | .startsWith => some (around₂ "starts_with(" ", " ")")
  | .endsWith =>
    some [.text "(right(", .slot 0, .text ", length(", .slot 1, .text ")) = ", .slot 1, .text ")"]
  | .indexOf => some (around₂ "(strpos(" ", " ") - 1)")
  | .length => some (around "length(" ")")
  | .substring =>
    some (if arity = 3 then around₃ "substr(" ", greatest(" ", 0) + 1, greatest(" ", 0))"
      else around₂ "substr(" ", greatest(" ", 0) + 1)")
  | .toLower => some (around "lower(" ")")
  | .toUpper => some (around "upper(" ")")
  | .trim => some (around "trim(" ")")
  | .concat => some (concatenated arity)
  | .matchesPattern => some (around₂ "(" " ~ " ")")
  | .year => some (postgresPart "YEAR")
  | .month => some (postgresPart "MONTH")
  | .day => some (postgresPart "DAY")
  | .hour => some (postgresPart "HOUR")
  | .minute => some (postgresPart "MINUTE")
  | .second => some (around "CAST(FLOOR(EXTRACT(SECOND FROM " ")) AS INTEGER)")
  | .fractionalSeconds =>
    some [.text "(EXTRACT(SECOND FROM ", .slot 0, .text ") - FLOOR(EXTRACT(SECOND FROM ", .slot 0,
      .text ")))"]
  | .date => some (around "CAST(" " AT TIME ZONE 'UTC' AS DATE)")
  | .time => some (around "CAST(" " AT TIME ZONE 'UTC' AS TIME)")
  | .totalSeconds => some (around "EXTRACT(EPOCH FROM " ")")
  | .now => some [.text "now()"]
  | .round => some (around "round(" ")")
  | .floor => some (around "floor(" ")")
  | .ceiling => some (around "ceiling(" ")")
  | .totalOffsetMinutes | .minDateTime | .maxDateTime => none

end SqlTemplate

namespace Dialect

/-- The template of a function; none if there is none. -/
def template? (dialect : Dialect) (function : Function) (arity : Nat) : Option SqlTemplate :=
  match dialect with
  | sqlite => SqlTemplate.sqlite? function arity
  | postgres => SqlTemplate.postgres? function arity

/-- What an error message calls a function without a template. -/
def unsupportedCall (dialect : Dialect) (function : Function) : String :=
  if function = .totalOffsetMinutes then "totaloffsetminutes: stored timestamps carry no offset"
  else function.name ++ " on " ++ dialect.name

end Dialect

end ODataQuery
