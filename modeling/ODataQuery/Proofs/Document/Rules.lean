import ODataQuery.Literal.Number
import ODataQuery.Pattern.Search
import ODataQuery.Proofs.Document.Matching

/-!
# Matching rules with other numbers and patterns

Collections differ in how they read and compare numbers and in the patterns that they know. The
rest of the rules by which a query selects documents is the same.

## Main definitions

- `MatchingRules` — the numbers and the patterns of a collection
- `MatchingRules.exact` — exact numbers and literal patterns
- `MatchingRules.floating` — 64-bit floating point numbers and all patterns
- `MatchingRules.order`, `MatchingRules.equals` — how stored values compare with constants
- `MatchingRules.selects` — whether a query selects a document

## Main statements

- `MatchingRules.selects_exact` — the exact rules are those of `Json.selects`

## Design notes

As with `Json.selects`, a query that the rules do not know selects nothing, and a text that is not
a pattern occurs nowhere.
-/

namespace ODataQuery

/-- The 64-bit number nearest to a numeric text: an infinity if it is too large, and zero if it is
too small. -/
def NumberText.toDouble (t : NumberText) : Float :=
  let n := Text.naturalOf (t.whole ++ t.fractionDigits)
  let exponent := t.exponentValue - t.fractionDigits.length
  if exponent < 0 then Double.ofRatio t.negative n (tenTo (-exponent).toNat)
  else Double.ofRatio t.negative (n * tenTo exponent.toNat) 1

/-- How a collection reads and compares numbers, and where it finds patterns. -/
structure MatchingRules where
  Number : Type
  ofInteger : Int → Number
  ofFloat? : Float → Option Number
  /-- The number that the text of a decimal denotes. -/
  ofText? : String → Option Number
  /-- The order of two numbers, if there is one. -/
  compare : Number → Number → Option Ordering
  /-- Whether a pattern occurs in a text. -/
  occurs : (pattern text : List Char) → Bool

namespace MatchingRules

/-- Exact numbers without floating point numbers, and literal patterns. -/
def exact : MatchingRules where
  Number := ExactNumber
  ofInteger n := ⟨n, 0⟩
  ofFloat? _ := none
  ofText? := ExactNumber.ofText?
  compare x y := some (x.compare y)
  occurs pattern text := (LiteralPattern.ofChars? pattern).any (·.occursIn text)

/-- Every number is the nearest floating point number, and a NaN has no order. -/
def floating : MatchingRules where
  Number := Float
  ofInteger := Double.ofInt
  ofFloat? x := some x
  ofText? s := (NumberText.read? s.toList).map NumberText.toDouble
  compare := Value.compareDoubles
  occurs pattern text := (Pattern.occursIn? pattern text).getD false

variable (rules : MatchingRules)

-- ════════════════════════════════════════════════════════════════════════
-- Comparing values
-- ════════════════════════════════════════════════════════════════════════

/-- The number that a value denotes: a number, or the text of a decimal under its tag. -/
def number? : Json → Option rules.Number
  | .integer n => some (rules.ofInteger n)
  | .float x => rules.ofFloat? x
  | .object members =>
    match members.lookup "$numberDecimal" with
    | some (.string s) => rules.ofText? s
    | _ => none
  | _ => none

/-- The order of two values. There is none between values of different kinds. -/
def order : Json → Json → Option Ordering
  | .string a, .string b => some (Ord.compare a b)
  | .bool a, .bool b => some (Ord.compare a b)
  | a, b =>
    match rules.number? a, rules.number? b with
    | some x, some y => rules.compare x y
    | _, _ =>
      match a.tagged?, b.tagged? with
      | some (tag, s), some (tag', t) => if tag = tag' then some (Ord.compare s t) else none
      | _, _ => none

/-- Whether a value, which may be missing, equals a constant. A missing value equals `null`. -/
def equals (value : Option Json) (constant : Json) : Bool :=
  match value with
  | none => constant.isNull
  | some v =>
    if v.isNull then constant.isNull
    else !constant.isNull && rules.order v constant == some .eq

/-- Whether a value has an order relative to a constant that satisfies a test. -/
def ordered (test : Ordering → Bool) (value : Option Json) (constant : Json) : Bool :=
  (value.bind (rules.order · constant)).any test

/-- Whether a value is a text in which a pattern occurs. -/
def hasPattern (value : Option Json) (pattern : Json) : Bool :=
  match value, pattern with
  | some (.string s), .string p => rules.occurs p.toList s.toList
  | _, _ => false

/-- `null` has no order. -/
theorem order_null_left (j : Json) : rules.order .null j = none := by
  cases j <;> rfl

/-- Only a truth value has an order relative to one. -/
theorem order_bool (j : Json) (b : Bool) :
    rules.order j (.bool b) =
      match j with
      | .bool a => some (Ord.compare a b)
      | _ => none := by
  cases j with
  | object members =>
    simp only [order, number?]
    split
    · next h => cases h
    · split
      · next h => cases h
      · rfl
  | float x =>
    simp only [order, number?]
    split
    · next h => cases h
    · rfl
  | _ => rfl

-- ════════════════════════════════════════════════════════════════════════
-- Queries
-- ════════════════════════════════════════════════════════════════════════

/-- Whether a value satisfies an operator with an argument. The argument may also be a condition
that the value satisfies, or a query that selects items. -/
def operatorHolds (name : String) (argument : Json) (satisfied : Bool) (selected : Json → Bool)
    (value : Option Json) : Bool :=
  match name with
  | "$eq" => rules.equals value argument
  | "$ne" => !rules.equals value argument
  | "$gt" => rules.ordered Ordering.isGT value argument
  | "$gte" => rules.ordered Ordering.isGE value argument
  | "$lt" => rules.ordered Ordering.isLT value argument
  | "$lte" => rules.ordered Ordering.isLE value argument
  | "$in" => argument.items.any (rules.equals value)
  | "$nin" => !argument.items.any (rules.equals value)
  | "$regex" => rules.hasPattern value argument
  | "$not" => !satisfied
  | "$exists" =>
    match argument with
    | .bool present => value.isSome == present
    | _ => false
  | "$elemMatch" =>
    match value with
    | some (.array items) => items.any selected
    | _ => false
  | _ => false

mutual

/-- Whether a query selects a document. -/
def selects : (query : Json) → (doc : Json) → Bool
  | .object members, doc => membersHold members doc
  | _, _ => false
termination_by structural query => query

/-- Whether all members of a query hold for a document. -/
def membersHold : List (String × Json) → (doc : Json) → Bool
  | [], _ => true
  | (key, condition) :: rest, doc => memberHolds key condition doc && membersHold rest doc
termination_by structural members => members

/-- Whether a member of a query holds for a document. -/
def memberHolds (key : String) : (condition : Json) → (doc : Json) → Bool
  | .array queries, doc =>
    if key = "$and" then allSelect queries doc
    else if key = "$or" then anySelects queries doc
    else if key = "$nor" then !anySelects queries doc
    else false
  | .object operators, doc => !Json.isLogical key && operatorsHold operators (doc.at? key)
  | _, _ => false
termination_by structural condition => condition

/-- Whether all queries select a document. -/
def allSelect : List Json → (doc : Json) → Bool
  | [], _ => true
  | query :: rest, doc => selects query doc && allSelect rest doc
termination_by structural queries => queries

/-- Whether some query selects a document. -/
def anySelects : List Json → (doc : Json) → Bool
  | [], _ => false
  | query :: rest, doc => selects query doc || anySelects rest doc
termination_by structural queries => queries

/-- Whether a value, which may be missing, satisfies a condition. -/
def satisfies : (condition : Json) → Option Json → Bool
  | .object operators, value => operatorsHold operators value
  | _, _ => false
termination_by structural condition => condition

/-- Whether a value satisfies all operators of a condition. -/
def operatorsHold : List (String × Json) → Option Json → Bool
  | [], _ => true
  | (name, argument) :: rest, value =>
    rules.operatorHolds name argument (satisfies argument value) (selects argument) value &&
      operatorsHold rest value
termination_by structural operators => operators

end

-- ════════════════════════════════════════════════════════════════════════
-- The exact rules
-- ════════════════════════════════════════════════════════════════════════

theorem number?_exact (j : Json) : exact.number? j = j.number? := by
  cases j <;> rfl

theorem order_exact (v w : Json) : exact.order v w = v.order w := by
  unfold order
  split
  · rfl
  · rfl
  · next hstring hbool =>
    rw [Json.order, number?_exact, number?_exact]
    · cases v.number? <;> cases w.number? <;> rfl
    · exact hstring
    · exact hbool

theorem equals_exact (value : Option Json) : exact.equals value = Json.equals value := by
  funext constant
  cases value with
  | none => rfl
  | some v => simp only [equals, Json.equals, order_exact]

theorem ordered_exact (test : Ordering → Bool) (value : Option Json) (constant : Json) :
    exact.ordered test value constant = Json.ordered test value constant := by
  simp only [ordered, Json.ordered, order_exact]

theorem operatorHolds_exact (name : String) (argument : Json) (satisfied : Bool)
    (selected : Json → Bool) (value : Option Json) :
    exact.operatorHolds name argument satisfied selected value =
      Json.operatorHolds name argument satisfied selected value := by
  unfold operatorHolds Json.operatorHolds
  simp only [equals_exact, ordered_exact]
  rfl

mutual

/-- The exact rules are those of `Json.selects`. -/
theorem selects_exact (query doc : Json) : exact.selects query doc = query.selects doc := by
  cases query with
  | object members => exact membersHold_exact members doc
  | _ => rfl
termination_by structural query

theorem membersHold_exact (members : List (String × Json)) (doc : Json) :
    exact.membersHold members doc = Json.membersHold members doc := by
  cases members with
  | nil => rfl
  | cons member rest =>
    obtain ⟨key, condition⟩ := member
    rw [membersHold, Json.membersHold, memberHolds_exact key condition, membersHold_exact rest]
termination_by structural members

theorem memberHolds_exact (key : String) (condition doc : Json) :
    exact.memberHolds key condition doc = Json.memberHolds key condition doc := by
  cases condition with
  | array queries =>
    rw [memberHolds, Json.memberHolds, allSelect_exact queries, anySelects_exact queries]
  | object operators => rw [memberHolds, Json.memberHolds, operatorsHold_exact operators]
  | _ => rfl
termination_by structural condition

theorem allSelect_exact (queries : List Json) (doc : Json) :
    exact.allSelect queries doc = Json.allSelect queries doc := by
  cases queries with
  | nil => rfl
  | cons query rest => rw [allSelect, Json.allSelect, selects_exact query, allSelect_exact rest]
termination_by structural queries

theorem anySelects_exact (queries : List Json) (doc : Json) :
    exact.anySelects queries doc = Json.anySelects queries doc := by
  cases queries with
  | nil => rfl
  | cons query rest =>
    rw [anySelects, Json.anySelects, selects_exact query, anySelects_exact rest]
termination_by structural queries

theorem satisfies_exact (condition : Json) (value : Option Json) :
    exact.satisfies condition value = condition.satisfies value := by
  cases condition with
  | object operators => exact operatorsHold_exact operators value
  | _ => rfl
termination_by structural condition

theorem operatorsHold_exact (operators : List (String × Json)) (value : Option Json) :
    exact.operatorsHold operators value = Json.operatorsHold operators value := by
  cases operators with
  | nil => rfl
  | cons operator rest =>
    obtain ⟨name, argument⟩ := operator
    have hselects : exact.selects argument = argument.selects :=
      funext fun doc => selects_exact argument doc
    rw [operatorsHold, Json.operatorsHold, operatorHolds_exact, satisfies_exact argument, hselects,
      operatorsHold_exact rest]
termination_by structural operators

end

end MatchingRules

end ODataQuery
