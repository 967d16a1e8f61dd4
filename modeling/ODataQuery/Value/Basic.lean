import ODataQuery.Calendar.Instant
import ODataQuery.Calendar.Duration
import ODataQuery.Numeric.Decimal.Floating
import ODataQuery.Numeric.FloatText
import ODataQuery.Text.Base64
import ODataQuery.Value.Guid
import ODataQuery.Value.Kind

/-!
# Primitive values

Typed values of the protocol, with `null` as a value of its own.

## Main definitions

- `EnumValue` — members of an enumeration type
- `Value` — a primitive value
- `Value.kind?` — its kind, none for `null`
- `Value.toInt?`, `Value.toDouble?`, `Value.toDecimal?` — numbers in another representation
- `Value.compare` — the order of comparable values
- `Value.equals` — equality in which `null` equals `null` only
- `Value.text` — the text of a URL literal
-/

namespace ODataQuery

/-- A member of an enumeration type, or a combination of members. -/
structure EnumValue where
  /-- The qualified name of the type. -/
  typeName : String
  members : List String
deriving DecidableEq

/-- A primitive value. -/
inductive Value where
  | null
  | boolean (b : Bool)
  | byte (n : UInt8)
  | sbyte (n : Int8)
  | int16 (n : Int16)
  | int32 (n : Int32)
  | int64 (n : Int64)
  | single (x : Float32)
  | double (x : Float)
  | decimal (d : Decimal)
  | string (s : String)
  | binary (bytes : List UInt8)
  | date (d : Date)
  | timeOfDay (t : TimeOfDay)
  | dateTimeOffset (i : Instant)
  | duration (d : Duration)
  | guid (g : Guid)
  | enumeration (e : EnumValue)
deriving DecidableEq

namespace Value

/-- The kind of a value; `null` has none. -/
def kind? : Value → Option Kind
  | null => none
  | boolean _ => some .boolean
  | byte _ => some .byte
  | sbyte _ => some .sbyte
  | int16 _ => some .int16
  | int32 _ => some .int32
  | int64 _ => some .int64
  | single _ => some .single
  | double _ => some .double
  | decimal _ => some .decimal
  | string _ => some .string
  | binary _ => some .binary
  | date _ => some .date
  | timeOfDay _ => some .timeOfDay
  | dateTimeOffset _ => some .dateTimeOffset
  | duration _ => some .duration
  | guid _ => some .guid
  | enumeration _ => some .enumeration

/-- Whether the value is `null`. -/
def isNull : Value → Bool
  | null => true
  | _ => false

/-- The truth value of a Boolean. -/
def toBool? : Value → Option Bool
  | boolean b => some b
  | _ => none

/-- The text of a string. -/
def toString? : Value → Option String
  | string s => some s
  | _ => none

/-- The number of an integer kind. -/
def toInt? : Value → Option Int
  | byte n => some n.toNat
  | sbyte n => some n.toInt
  | int16 n => some n.toInt
  | int32 n => some n.toInt
  | int64 n => some n.toInt
  | _ => none

/-- A number of any numeric kind in 64-bit floating point. -/
def toDouble? : Value → Option Float
  | single x => some x.toFloat
  | double x => some x
  | decimal d => some d.toDouble
  | v => v.toInt?.map Double.ofInt

/-- A number of any numeric kind as a decimal, if it is finite and small enough. -/
def toDecimal? : Value → Option Decimal
  | decimal d => some d
  | single x => Decimal.ofSingle? x
  | double x => Decimal.ofDouble? x
  | v => v.toInt?.bind Decimal.ofInt?

-- ════════════════════════════════════════════════════════════════════════
-- Order and equality
-- ════════════════════════════════════════════════════════════════════════

/-- The order of two floating point numbers; there is none with a NaN. -/
def compareDoubles (x y : Float) : Option Ordering :=
  if x < y then some .lt else if y < x then some .gt else if x == y then some .eq else none

/-- Compares two numbers in the kind that they promote to. -/
def compareNumbers (a b : Value) (ka kb : Kind) : Option Ordering :=
  match ka.promote kb with
  | .int64 => do return Ord.compare (← a.toInt?) (← b.toInt?)
  | .decimal => do return Decimal.compare (← a.toDecimal?) (← b.toDecimal?)
  | _ => do compareDoubles (← a.toDouble?) (← b.toDouble?)

/-- The order of two values. There is none with `null`, between kinds that are not
comparable, with a NaN, or between different members of an enumeration. -/
def compare : Value → Value → Option Ordering
  | string a, string b => some (Ord.compare a b)
  | boolean a, boolean b => some (Ord.compare a b)
  | date a, date b => some (a.compare b)
  | timeOfDay a, timeOfDay b => some (a.compare b)
  | dateTimeOffset a, dateTimeOffset b => some (a.compare b)
  | duration a, duration b => some (a.compare b)
  | guid a, guid b => some (a.compare b)
  | binary a, binary b => some (Ord.compare a b)
  | enumeration a, enumeration b => if a = b then some .eq else none
  | a, b =>
    match a.kind?, b.kind? with
    | some ka, some kb =>
      if ka.isNumeric && kb.isNumeric then compareNumbers a b ka kb else none
    | _, _ => none

/-- Equality that is never undecided: `null` equals `null` only, and values without an order
are different. -/
def equals : Value → Value → Bool
  | null, null => true
  | a, b => a.compare b == some .eq

/-- Values of the same kind and content. Decimals and instants are compared by value, zeros
of either sign are the same, and a NaN differs from itself. -/
def same : Value → Value → Bool
  | null, null => true
  | byte a, byte b => a == b
  | sbyte a, sbyte b => a == b
  | int16 a, int16 b => a == b
  | int32 a, int32 b => a == b
  | int64 a, int64 b => a == b
  | single a, single b => a == b
  | double a, double b => a == b
  | decimal a, decimal b => a.compare b == .eq
  | a, b => a.kind? == b.kind? && !(a.kind?.any Kind.isNumeric) && a.compare b == some .eq

-- ════════════════════════════════════════════════════════════════════════
-- Text
-- ════════════════════════════════════════════════════════════════════════

/-- The text inside single quotes, quotes in it doubled. -/
def quoted (s : String) : String :=
  String.ofList ('\'' :: (s.toList.flatMap (fun c => if c = '\'' then [c, c] else [c]) ++ ['\'']))

/-- Members with commas between them. -/
def membersText (members : List String) : String := ",".intercalate members

/-- The text of a 64-bit number in a URL. -/
def doubleText (x : Float) : String :=
  if x.isNaN then "NaN"
  else if Double.isFinite x then FloatNotation.url.double x
  else if Double.isNegative x then "-INF" else "INF"

/-- The text of a 32-bit number in a URL. -/
def singleText (x : Float32) : String :=
  if x.isNaN then "NaN"
  else if Single.isFinite x then FloatNotation.url.single x
  else if Single.isNegative x then "-INF" else "INF"

/-- The text of the value as a URL literal. -/
def text : Value → String
  | null => "null"
  | boolean b => if b then "true" else "false"
  | byte n => Text.integerText n.toNat
  | sbyte n => Text.integerText n.toInt
  | int16 n => Text.integerText n.toInt
  | int32 n => Text.integerText n.toInt
  | int64 n => Text.integerText n.toInt
  | single x => singleText x
  | double x => doubleText x
  | decimal d => d.text
  | string s => quoted s
  | binary bytes => "binary'" ++ Base64.encodeUrl bytes ++ "'"
  | date d => d.text
  | timeOfDay t => t.text
  | dateTimeOffset i => i.text
  | duration d => "duration'" ++ d.text ++ "'"
  | guid g => g.text
  | enumeration e => e.typeName ++ "'" ++ membersText e.members ++ "'"

end Value

end ODataQuery
