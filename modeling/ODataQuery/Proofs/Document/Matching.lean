import ODataQuery.Json.Basic
import ODataQuery.Proofs.Numeric.NumberText
import ODataQuery.Proofs.Pattern.Literal

/-!
# How documents match queries

The part of the matching rules of document collections that queries of this library rely on.

## Main definitions

- `ExactNumber` — a number as an integer and a scale
- `Json.order`, `Json.equals` — how stored values compare with constants
- `Json.at?` — the value at a path
- `Json.selects` — whether a query selects a document
- `Json.satisfies` — whether a value at a path satisfies a condition

## Design notes

Integers and decimals are compared exactly, whatever their representation. Floating point numbers
are outside these rules. A query that the rules do not know selects nothing.
-/

namespace ODataQuery

/-- The number `coefficient * 10 ^ (-scale)`. -/
structure ExactNumber where
  coefficient : Int
  scale : Nat
deriving DecidableEq

namespace ExactNumber

/-- The coefficient that the number has when its scale is raised to `scale`. -/
def coefficientAt (x : ExactNumber) (scale : Nat) : Int :=
  x.coefficient * tenTo (scale - x.scale)

/-- The order of the numbers; the scales do not matter. -/
def compare (x y : ExactNumber) : Ordering :=
  let scale := max x.scale y.scale
  Ord.compare (x.coefficientAt scale) (y.coefficientAt scale)

/-- The number that a plain decimal text denotes. -/
def ofText? (s : String) : Option ExactNumber := do
  let t ← NumberText.read? s.toList
  if t.exponent.isSome then none
  else
    let n := Text.naturalOf (t.whole ++ t.fractionDigits)
    return ⟨if t.negative then -(n : Int) else n, t.fractionDigits.length⟩

end ExactNumber

namespace Json

-- ════════════════════════════════════════════════════════════════════════
-- Comparing values
-- ════════════════════════════════════════════════════════════════════════

/-- The number that a value denotes: an integer, or the text of a decimal under its tag. -/
def number? : Json → Option ExactNumber
  | integer n => some ⟨n, 0⟩
  | object members =>
    match members.lookup "$numberDecimal" with
    | some (string s) => ExactNumber.ofText? s
    | _ => none
  | _ => none

/-- The tag and the text of a value that is a text under a tag. -/
def tagged? : Json → Option (String × String)
  | object ((tag, string s) :: _) => some (tag, s)
  | _ => none

/-- The order of two values. There is none between values of different kinds. -/
def order : Json → Json → Option Ordering
  | string a, string b => some (compare a b)
  | bool a, bool b => some (compare a b)
  | a, b =>
    match a.number?, b.number? with
    | some x, some y => some (x.compare y)
    | _, _ =>
      match a.tagged?, b.tagged? with
      | some (tag, s), some (tag', t) => if tag = tag' then some (compare s t) else none
      | _, _ => none

/-- Whether the value is `null`. -/
def isNull : Json → Bool
  | null => true
  | _ => false

/-- Whether a value, which may be missing, equals a constant. A missing value equals `null`. -/
def equals (value : Option Json) (constant : Json) : Bool :=
  match value with
  | none => constant.isNull
  | some v =>
    if v.isNull then constant.isNull
    else !constant.isNull && v.order constant == some .eq

/-- Whether a value has an order relative to a constant that satisfies a test. -/
def ordered (test : Ordering → Bool) (value : Option Json) (constant : Json) : Bool :=
  (value.bind (·.order constant)).any test

/-- The items of an array. -/
def items : Json → List Json
  | array items => items
  | _ => []

/-- Whether a value is a text in which a literal pattern occurs. -/
def hasPattern (value : Option Json) (pattern : Json) : Bool :=
  match value, pattern with
  | some (string s), string p =>
    (LiteralPattern.ofChars? p.toList).any (·.occursIn s.toList)
  | _, _ => false

-- ════════════════════════════════════════════════════════════════════════
-- Paths
-- ════════════════════════════════════════════════════════════════════════

/-- The place in an array that a part of a path names. -/
def place? (part : List Char) : Option Nat :=
  if !part.isEmpty && part.all Text.isAsciiDigit then some (Text.naturalOf part) else none

/-- The value that a part of a path leads to. -/
def child? (j : Json) (part : List Char) : Option Json :=
  match j with
  | object members => members.lookup (String.ofList part)
  | array items => (place? part).bind (items[·]?)
  | _ => none

/-- The value at a path whose parts are separated by points. -/
def at? (doc : Json) (path : String) : Option Json :=
  (Text.splitOn '.' path.toList).foldlM child? doc

-- ════════════════════════════════════════════════════════════════════════
-- Queries
-- ════════════════════════════════════════════════════════════════════════

/-- Whether a key of a query combines queries. -/
def isLogical (key : String) : Bool := key == "$and" || key == "$or" || key == "$nor"

/-- Whether a value satisfies an operator with an argument. The argument may also be a condition
that the value satisfies, or a query that selects items. -/
def operatorHolds (name : String) (argument : Json) (satisfied : Bool) (selected : Json → Bool)
    (value : Option Json) : Bool :=
  match name with
  | "$eq" => equals value argument
  | "$ne" => !equals value argument
  | "$gt" => ordered Ordering.isGT value argument
  | "$gte" => ordered Ordering.isGE value argument
  | "$lt" => ordered Ordering.isLT value argument
  | "$lte" => ordered Ordering.isLE value argument
  | "$in" => argument.items.any (equals value)
  | "$nin" => !argument.items.any (equals value)
  | "$regex" => hasPattern value argument
  | "$not" => !satisfied
  | "$exists" =>
    match argument with
    | bool present => value.isSome == present
    | _ => false
  | "$elemMatch" =>
    match value with
    | some (array items) => items.any selected
    | _ => false
  | _ => false

mutual

/-- Whether a query selects a document. -/
def selects : (query : Json) → (doc : Json) → Bool
  | object members, doc => membersHold members doc
  | _, _ => false
termination_by structural query => query

/-- Whether all members of a query hold for a document. -/
def membersHold : List (String × Json) → (doc : Json) → Bool
  | [], _ => true
  | (key, condition) :: rest, doc => memberHolds key condition doc && membersHold rest doc
termination_by structural members => members

/-- Whether a member of a query holds for a document. -/
def memberHolds (key : String) : (condition : Json) → (doc : Json) → Bool
  | array queries, doc =>
    if key = "$and" then allSelect queries doc
    else if key = "$or" then anySelects queries doc
    else if key = "$nor" then !anySelects queries doc
    else false
  | object operators, doc => !isLogical key && operatorsHold operators (doc.at? key)
  | _, _ => false
termination_by structural condition => condition

/-- Whether all queries select a document. -/
def allSelect : List Json → (doc : Json) → Bool
  | [], _ => true
  | query :: rest, doc => query.selects doc && allSelect rest doc
termination_by structural queries => queries

/-- Whether some query selects a document. -/
def anySelects : List Json → (doc : Json) → Bool
  | [], _ => false
  | query :: rest, doc => query.selects doc || anySelects rest doc
termination_by structural queries => queries

/-- Whether a value, which may be missing, satisfies a condition. -/
def satisfies : (condition : Json) → Option Json → Bool
  | object operators, value => operatorsHold operators value
  | _, _ => false
termination_by structural condition => condition

/-- Whether a value satisfies all operators of a condition. -/
def operatorsHold : List (String × Json) → Option Json → Bool
  | [], _ => true
  | (name, argument) :: rest, value =>
    operatorHolds name argument (argument.satisfies value) argument.selects value &&
      operatorsHold rest value
termination_by structural operators => operators

end

end Json

end ODataQuery
