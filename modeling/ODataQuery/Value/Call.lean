import ODataQuery.Expr.Function
import ODataQuery.Pattern.Search
import ODataQuery.Text.LetterCase
import ODataQuery.Text.Split
import ODataQuery.Value.Arithmetic
import ODataQuery.Value.Logic

/-!
# Applying operators and functions to values

## Main definitions

- `Value.applyUnary`, `Value.applyBinary` — the result of an operator
- `Value.apply` — the result of a canonical function

## Design notes

A function of `null` is `null`, and so is a function of arguments that it does not accept.
Positions in texts count characters from zero. Dates and times of day of an instant are those
of universal time.
-/

namespace ODataQuery.Value

/-- The result of an operator in front of an operand. -/
def applyUnary : UnaryOp → Value → Value
  | .not, v => v.negation
  | .negate, v => v.opposite

/-- The result of an operator between operands. -/
def applyBinary (op : BinaryOp) (a b : Value) : Value :=
  match op with
  | .and => conj a b
  | .or => disj a b
  | op => if op.isComparison then test op a b else arithmetic op a b

/-- A count as a 32-bit integer, cut to the largest one. -/
def ofCount (n : Nat) : Value := int32 (Int32.ofNat (min n (twoTo 31 - 1)))

/-- A small number as a 32-bit integer. -/
def ofSmall (n : Int) : Value := int32 (Int32.ofInt n)

/-- The text of a string value. -/
def chars? (v : Value) : Option (List Char) := v.toString?.map String.toList

/-- The value of a text. -/
def ofChars (cs : List Char) : Value := string (String.ofList cs)

/-- Whether `needle` occurs in `text`. -/
def occursIn (needle text : List Char) : Bool := (Text.indexOf? needle text).isSome

/-- The position of the first occurrence of a text in another one, `-1` if there is none. -/
def position (needle text : List Char) : Value :=
  match Text.indexOf? needle text with
  | some n => ofCount n
  | none => ofSmall (-1)

/-- A function of two texts. -/
def applyTexts (function : Function) (s t : List Char) : Value :=
  match function with
  | .contains => boolean (occursIn t s)
  | .startsWith => boolean (t.isPrefixOf s)
  | .endsWith => boolean (t.isSuffixOf s)
  | .indexOf => position t s
  | .matchesPattern => ofTruth (Pattern.occursIn? t s)
  | _ => null

/-- A function of one text. -/
def applyText (function : Function) (s : String) : Value :=
  match function with
  | .length => ofCount s.length
  | .toLower => string (Text.toLower s)
  | .toUpper => string (Text.toUpper s)
  | .trim => ofChars (Text.trim s.toList)
  | _ => null

/-- The characters from a position on, at most a given number of them. Negative numbers count
as zero. -/
def substring (cs : List Char) (start : Int) : Option Value → Value
  | none => ofChars (cs.drop start.toNat)
  | some v =>
    match v.toInt? with
    | some n => ofChars ((cs.drop start.toNat).take n.toNat)
    | none => null

/-- The texts one after another. -/
def concat (arguments : List Value) : Value :=
  match arguments.mapM chars? with
  | some parts => ofChars parts.flatten
  | none => null

/-- The date of a date or an instant. -/
def datePart? : Value → Option Date
  | date d => some d
  | dateTimeOffset i => some i.utcDate
  | _ => none

/-- The time of day of a time or an instant. -/
def timePart? : Value → Option TimeOfDay
  | timeOfDay t => some t
  | dateTimeOffset i => some i.utcTime
  | _ => none

/-- A part of a date. -/
def applyDate (function : Function) (d : Date) : Value :=
  match function with
  | .year => ofSmall d.year
  | .month => ofSmall d.month
  | .day => ofSmall d.day
  | _ => null

/-- A number of nanoseconds as decimal seconds. -/
def ofNanoseconds (n : Int) : Value := ofDecimal (Decimal.ofParts? (n < 0) n.natAbs 9)

/-- A part of a time of day. -/
def applyTime (function : Function) (t : TimeOfDay) : Value :=
  match function with
  | .hour => ofSmall t.hour
  | .minute => ofSmall t.minute
  | .second => ofSmall t.second
  | .fractionalSeconds => ofNanoseconds t.nanosecond
  | _ => null

/-- A part of an instant. -/
def applyInstant (function : Function) (i : Instant) : Value :=
  match function with
  | .date => date i.utcDate
  | .time => timeOfDay i.utcTime
  | .totalOffsetMinutes => ofSmall i.offset
  | _ => null

/-- A whole number next to a number, in the kind of that number. -/
def applyRounding (function : Function) (v : Value) : Value :=
  match function, v with
  | .round, decimal d => decimal d.round
  | .floor, decimal d => decimal d.floor
  | .ceiling, decimal d => decimal d.ceiling
  | .round, double x => double x.round
  | .floor, double x => double x.floor
  | .ceiling, double x => double x.ceil
  | .round, single x => single x.round
  | .floor, single x => single x.floor
  | .ceiling, single x => single x.ceil
  | _, v => if v.toInt?.isSome then v else null

/-- A function of arguments none of which is `null`, given the first argument and the rest. -/
def applyFunction (function : Function) (first : Value) (rest : List Value) : Value :=
  match function with
  | .contains | .startsWith | .endsWith | .indexOf | .matchesPattern =>
    match first.chars?, rest.head?.bind chars? with
    | some s, some t => applyTexts function s t
    | _, _ => null
  | .length | .toLower | .toUpper | .trim => (first.toString?.map (applyText function)).getD null
  | .substring =>
    match first.chars?, rest.head?.bind toInt? with
    | some cs, some start => substring cs start rest[1]?
    | _, _ => null
  | .concat => concat (first :: rest)
  | .year | .month | .day => (first.datePart?.map (applyDate function)).getD null
  | .hour | .minute | .second | .fractionalSeconds =>
    (first.timePart?.map (applyTime function)).getD null
  | .date | .time | .totalOffsetMinutes =>
    match first with
    | dateTimeOffset i => applyInstant function i
    | _ => null
  | .totalSeconds =>
    match first with
    | duration d => ofNanoseconds d.nanoseconds
    | _ => null
  | .round | .floor | .ceiling => applyRounding function first
  | .now | .minDateTime | .maxDateTime => null

/-- The result of a function, given the present instant. -/
def apply (now : Instant) (function : Function) (arguments : List Value) : Value :=
  match function with
  | .now => dateTimeOffset now
  | .minDateTime => dateTimeOffset .earliest
  | .maxDateTime => dateTimeOffset .latest
  | function =>
    match arguments with
    | [] => null
    | first :: rest =>
      if (first :: rest).any isNull then null else applyFunction function first rest

end ODataQuery.Value
