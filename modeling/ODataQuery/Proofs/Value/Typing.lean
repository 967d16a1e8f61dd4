import ODataQuery.Expr.Basic
import ODataQuery.Value.Call

/-!
# Types of results

Operators and functions give values of the types that are computed for them without evaluating
anything. Numbers of any kind may stand for each other.

## Main definitions

- `StaticType.Covers` — the values that an expression of a type can have

## Main statements

- `StaticType.covers_arithmetic` — results of arithmetic
- `StaticType.covers_apply` — results of functions
-/

namespace ODataQuery

theorem Kind.isComparableWith_self (k : Kind) : k.isComparableWith k = true := by
  simp [isComparableWith]

theorem Kind.isComparableWith_comm (j k : Kind) : j.isComparableWith k = k.isComparableWith j := by
  simp only [isComparableWith, Bool.and_comm, Bool.beq_comm]

/-- The value is `null`, or of a kind that can be compared with that of the type. Only literals have
values of enumeration types, and they do not know the type. -/
def StaticType.Covers : StaticType → Value → Prop
  | null, v => v = .null
  | primitive kind, v => ∀ k ∈ v.kind?, kind.isComparableWith k = true
  | enumeration _, _ => False

namespace Value

/-- The value is `null` or of a kind. -/
def IsOfKind (kind : Kind) (v : Value) : Prop := ∀ k ∈ v.kind?, k = kind

/-- The value is `null` or a number. -/
def IsNumber (v : Value) : Prop := ∀ k ∈ v.kind?, k.isNumeric = true

theorem isOfKind_null (kind : Kind) : IsOfKind kind null := nofun

theorem isOfKind_of_kind? {kind : Kind} {v : Value} (h : v.kind? = some kind) :
    IsOfKind kind v := by
  intro k hk
  rw [h] at hk
  exact (Option.some.inj hk).symm

theorem isNumber_null : IsNumber null := nofun

theorem IsOfKind.isNumber {kind : Kind} {v : Value} (h : IsOfKind kind v)
    (hkind : kind.isNumeric = true) : IsNumber v := by
  intro k hk
  rw [h k hk]
  exact hkind

theorem isNumber_of_kind? {kind : Kind} {v : Value} (h : v.kind? = some kind)
    (hkind : kind.isNumeric = true) : IsNumber v :=
  (isOfKind_of_kind? h).isNumber hkind

theorem eq_null_of_kind? {v : Value} (h : v.kind? = none) : v = null := by
  cases v <;> first | rfl | cases h

-- ════════════════════════════════════════════════════════════════════════
-- Arithmetic
-- ════════════════════════════════════════════════════════════════════════

theorem isOfKind_ofInt64 (n : Int) : IsOfKind .int64 (ofInt64 n) := by
  unfold ofInt64
  split
  · exact isOfKind_of_kind? rfl
  · exact isOfKind_null _

theorem isOfKind_ofDecimal (d : Option Decimal) : IsOfKind .decimal (ofDecimal d) := by
  cases d with
  | none => exact isOfKind_null _
  | some d => exact isOfKind_of_kind? rfl

/-- The kind of the results of an operator between numbers that meet in the given kind. -/
def arithmeticKind (op : BinaryOp) (promoted : Kind) : Kind :=
  if op = .divby && promoted = .int64 then .decimal else promoted

theorem isOfKind_decimalArithmetic (op : BinaryOp) (x y : Decimal) :
    IsOfKind .decimal (decimalArithmetic op x y) := by
  cases op <;> first
    | exact isOfKind_null _
    | exact isOfKind_ofDecimal _

theorem isNumeric_arithmeticKind (op : BinaryOp) : (arithmeticKind op .int64).isNumeric = true := by
  unfold arithmeticKind
  split <;> rfl

theorem isOfKind_integerArithmetic (op : BinaryOp) (x y : Int) :
    IsOfKind (arithmeticKind op .int64) (integerArithmetic op x y) := by
  cases op with
  | add | sub | mul => exact isOfKind_ofInt64 _
  | div | mod =>
    simp only [integerArithmetic]
    split
    · exact isOfKind_null _
    · exact isOfKind_ofInt64 _
  | divby =>
    simp only [integerArithmetic]
    split
    · exact isOfKind_decimalArithmetic _ _ _
    · exact isOfKind_null _
  | _ => exact isOfKind_null _

theorem isOfKind_floatArithmetic (op : BinaryOp) (x y : Float) :
    IsOfKind .double (floatArithmetic op x y) := by
  have hdouble (z : Float) : IsOfKind .double (double z) := isOfKind_of_kind? rfl
  unfold floatArithmetic
  split
  · exact isOfKind_null _
  · cases op <;> first
      | exact isOfKind_null _
      | exact hdouble _

/-- Results of arithmetic are numbers. -/
theorem isNumber_arithmetic (op : BinaryOp) (a b : Value) : IsNumber (arithmetic op a b) := by
  unfold arithmetic
  split
  · split
    · split
      · split
        · exact (isOfKind_integerArithmetic _ _ _).isNumber (isNumeric_arithmeticKind _)
        · exact isNumber_null
      · split
        · exact (isOfKind_decimalArithmetic _ _ _).isNumber rfl
        · exact isNumber_null
      · split
        · exact (isOfKind_floatArithmetic _ _ _).isNumber rfl
        · exact isNumber_null
    · exact isNumber_null
  · exact isNumber_null

theorem arithmetic_null_left (op : BinaryOp) (b : Value) : arithmetic op null b = null := rfl

theorem arithmetic_null_right (op : BinaryOp) (a : Value) : arithmetic op a null = null := by
  unfold arithmetic
  split
  · next h => cases h
  · rfl

/-- Opposites are numbers. -/
theorem isNumber_opposite (v : Value) : IsNumber v.opposite := by
  unfold opposite
  split
  · exact isNumber_of_kind? rfl rfl
  · exact isNumber_of_kind? rfl rfl
  · exact isNumber_of_kind? rfl rfl
  · split
    · exact (isOfKind_ofInt64 _).isNumber rfl
    · exact isNumber_null

-- ════════════════════════════════════════════════════════════════════════
-- Functions
-- ════════════════════════════════════════════════════════════════════════

theorem isOfKind_ofTruth (b : Option Bool) : IsOfKind .boolean (ofTruth b) := by
  cases b with
  | none => exact isOfKind_null _
  | some b => exact isOfKind_of_kind? rfl

theorem isOfKind_getD {α : Type} {kind : Kind} {x : Option α} {f : α → Value}
    (h : ∀ a, IsOfKind kind (f a)) : IsOfKind kind ((x.map f).getD null) := by
  cases x with
  | none => exact isOfKind_null _
  | some a => exact h a

/-- The kind of the results of a function, unless it is that of its argument. -/
def resultKind? : Function → Option Kind
  | .contains | .startsWith | .endsWith | .matchesPattern => some .boolean
  | .length | .indexOf | .year | .month | .day | .hour | .minute | .second
  | .totalOffsetMinutes => some .int32
  | .substring | .toLower | .toUpper | .trim | .concat => some .string
  | .fractionalSeconds | .totalSeconds => some .decimal
  | .date => some .date
  | .time => some .timeOfDay
  | .now | .minDateTime | .maxDateTime => some .dateTimeOffset
  | .round | .floor | .ceiling => none

theorem resultType_of_resultKind? {function : Function} {kind : Kind}
    (h : resultKind? function = some kind) (arguments : List StaticType) :
    function.resultType arguments = .primitive kind := by
  cases function <;> cases h <;> rfl

theorem isOfKind_applyTexts {function : Function} {kind : Kind}
    (h : resultKind? function = some kind) (s t : List Char)
    (htexts : function = .contains ∨ function = .startsWith ∨ function = .endsWith ∨
      function = .indexOf ∨ function = .matchesPattern) :
    IsOfKind kind (applyTexts function s t) := by
  obtain rfl | rfl | rfl | rfl | rfl := htexts
  · exact isOfKind_of_kind? h
  · exact isOfKind_of_kind? h
  · exact isOfKind_of_kind? h
  · cases h
    simp only [applyTexts, position]
    split <;> exact isOfKind_of_kind? rfl
  · cases h
    exact isOfKind_ofTruth _

theorem isOfKind_substring (cs : List Char) (start : Int) (length : Option Value) :
    IsOfKind .string (substring cs start length) := by
  cases length with
  | none => exact isOfKind_of_kind? rfl
  | some v =>
    simp only [substring]
    split
    · exact isOfKind_of_kind? rfl
    · exact isOfKind_null _

/-- The results of a function are of its kind. -/
theorem isOfKind_applyFunction {function : Function} {kind : Kind}
    (h : resultKind? function = some kind) (first : Value) (rest : List Value) :
    IsOfKind kind (applyFunction function first rest) := by
  cases function with
  | contains | startsWith | endsWith | indexOf | matchesPattern =>
    simp only [applyFunction]
    split
    · exact isOfKind_applyTexts h _ _ (by simp)
    · exact isOfKind_null _
  | length | toLower | toUpper | trim =>
    cases h
    exact isOfKind_getD fun _ => isOfKind_of_kind? rfl
  | substring =>
    cases h
    simp only [applyFunction]
    split
    · exact isOfKind_substring _ _ _
    · exact isOfKind_null _
  | concat =>
    cases h
    simp only [applyFunction, concat]
    split
    · exact isOfKind_of_kind? rfl
    · exact isOfKind_null _
  | year | month | day | hour | minute | second =>
    cases h
    exact isOfKind_getD fun _ => isOfKind_of_kind? rfl
  | fractionalSeconds =>
    cases h
    exact isOfKind_getD fun _ => isOfKind_ofDecimal _
  | date | time | totalOffsetMinutes =>
    cases h
    simp only [applyFunction]
    split
    · exact isOfKind_of_kind? rfl
    · exact isOfKind_null _
  | totalSeconds =>
    cases h
    simp only [applyFunction]
    split
    · exact isOfKind_ofDecimal _
    · exact isOfKind_null _
  | now | minDateTime | maxDateTime => exact isOfKind_null _
  | round | floor | ceiling => cases h

theorem isOfKind_apply {function : Function} {kind : Kind} (h : resultKind? function = some kind)
    (now : Instant) (arguments : List Value) : IsOfKind kind (apply now function arguments) := by
  unfold apply
  split
  · cases h
    exact isOfKind_of_kind? rfl
  · cases h
    exact isOfKind_of_kind? rfl
  · cases h
    exact isOfKind_of_kind? rfl
  · split
    · exact isOfKind_null _
    · split
      · exact isOfKind_null _
      · exact isOfKind_applyFunction h _ _

/-- Functions that round give numbers, and `null` without a number. -/
theorem isNumber_apply_of_rounding {function : Function} (h : resultKind? function = none)
    (now : Instant) (arguments : List Value) : IsNumber (apply now function arguments) := by
  have hrounding (v : Value) : IsNumber (applyRounding function v) := by
    unfold applyRounding
    split
    all_goals
      first
      | exact isNumber_of_kind? rfl rfl
      | skip
    split
    · next hint =>
      intro k hk
      cases v with
      | byte | sbyte | int16 | int32 | int64 =>
        cases hk
        rfl
      | _ => cases hint
    · exact isNumber_null
  unfold apply
  split
  · cases h
  · cases h
  · cases h
  · split
    · exact isNumber_null
    · split
      · exact isNumber_null
      · cases function with
        | round | floor | ceiling => exact hrounding _
        | _ => cases h

end Value

-- ════════════════════════════════════════════════════════════════════════
-- Results and their types
-- ════════════════════════════════════════════════════════════════════════

namespace StaticType

theorem covers_of_isOfKind {kind : Kind} {v : Value} (h : Value.IsOfKind kind v) :
    (primitive kind).Covers v := by
  intro k hk
  rw [h k hk]
  simp [Kind.isComparableWith]

theorem covers_of_isNumber {kind : Kind} (hkind : kind.isNumeric = true) {v : Value}
    (h : v.IsNumber) : (primitive kind).Covers v := by
  intro k hk
  simp [Kind.isComparableWith, hkind, h k hk]

/-- The type of a value covers it. -/
theorem covers_ofValue (v : Value) : (ofValue v).Covers v := by
  unfold ofValue
  split
  · next h => exact Value.eq_null_of_kind? h
  · next h => exact covers_of_isOfKind (Value.isOfKind_of_kind? h)

theorem isNumeric_promote (j k : Kind) : (j.promote k).isNumeric = true := by
  unfold Kind.promote
  split
  · rfl
  · split
    · rfl
    · split <;> rfl

/-- A numeric type has a numeric kind, or it is that of `null`. -/
theorem isNumeric_cases {type : StaticType} (h : type.isNumeric = true) :
    type = null ∨ ∃ kind, type = primitive kind ∧ kind.isNumeric = true := by
  cases type with
  | null => exact .inl rfl
  | primitive kind => exact .inr ⟨kind, rfl, by simpa [isNumeric, kind?] using h⟩
  | enumeration type =>
    simp [isNumeric, kind?, Kind.isNumeric, Kind.isInteger, Kind.isFloating] at h

/-- Results of arithmetic are covered by the computed type. -/
theorem covers_arithmetic {op : BinaryOp} {s t : StaticType} {a b : Value}
    (hs : s.isNumeric = true) (ht : t.isNumeric = true) (ha : s.Covers a) (hb : t.Covers b) :
    (Expr.arithmeticType op s t).Covers (Value.arithmetic op a b) := by
  have hnumber := Value.isNumber_arithmetic op a b
  obtain rfl | ⟨j, rfl, hj⟩ := isNumeric_cases hs
  · obtain rfl | ⟨k, rfl, hk⟩ := isNumeric_cases ht
    · cases ha
      exact Value.arithmetic_null_left op b
    · exact covers_of_isNumber hk hnumber
  · obtain rfl | ⟨k, rfl, hk⟩ := isNumeric_cases ht
    · exact covers_of_isNumber hj hnumber
    · refine covers_of_isNumber ?_ hnumber
      split
      · rfl
      · exact isNumeric_promote j k

/-- Opposites are covered by the type of the number. -/
theorem covers_opposite {type : StaticType} {v : Value} (htype : type.isNumeric = true)
    (h : type.Covers v) : type.Covers v.opposite := by
  obtain rfl | ⟨kind, rfl, hkind⟩ := isNumeric_cases htype
  · cases h
    rfl
  · exact covers_of_isNumber hkind (Value.isNumber_opposite v)

/-- The first argument of a function that rounds is a number. -/
theorem isNumeric_of_check {function : Function} {t type : StaticType} {types : List StaticType}
    (h : Value.resultKind? function = none) (hcheck : function.check (t :: types) = .ok type) :
    type = t ∧ t.isNumeric = true := by
  have hparameters : function.parameters = [.numeric] := by cases function <;> first | rfl | cases h
  have hresult : function.resultType (t :: types) = t := by cases function <;> first | rfl | cases h
  simp only [Function.check, hparameters, hresult] at hcheck
  split at hcheck
  · simp only [Function.firstMismatch] at hcheck
    split at hcheck
    · cases hcheck
    · next hmismatch =>
      split at hmismatch
      · next haccepts =>
        cases hcheck
        refine ⟨rfl, ?_⟩
        cases t with
        | null => rfl
        | primitive kind => simpa [Parameter.accepts, Parameter.acceptsKind, kind?, isNumeric]
            using haccepts
        | enumeration type => simp [Parameter.accepts, Parameter.acceptsKind, kind?,
            Kind.isNumeric, Kind.isInteger, Kind.isFloating] at haccepts
      · cases hmismatch
  · cases hcheck

/-- Results of functions are covered by the computed type. -/
theorem covers_apply {function : Function} {types : List StaticType} {type : StaticType}
    (hcheck : function.check types = .ok type) {arguments : List Value}
    (harguments : ∀ t ∈ types.head?, ∀ v ∈ arguments.head?, t.Covers v) (now : Instant) :
    type.Covers (Value.apply now function arguments) := by
  cases hkind : Value.resultKind? function with
  | some kind =>
    have htype : type = .primitive kind := by
      unfold Function.check at hcheck
      split at hcheck
      · split at hcheck
        · cases hcheck
        · cases hcheck
          exact Value.resultType_of_resultKind? hkind types
      · cases hcheck
    rw [htype]
    exact covers_of_isOfKind (Value.isOfKind_apply hkind now arguments)
  | none =>
    have hnumber := Value.isNumber_apply_of_rounding hkind now arguments
    cases types with
    | nil =>
      cases function with
      | round | floor | ceiling => cases hcheck
      | _ => cases hkind
    | cons t types =>
      obtain ⟨rfl, hnumeric⟩ := isNumeric_of_check hkind hcheck
      obtain rfl | ⟨kind, rfl, hkind'⟩ := isNumeric_cases hnumeric
      · cases arguments with
        | nil =>
          cases function with
          | round | floor | ceiling => rfl
          | _ => cases hkind
        | cons v arguments =>
          cases harguments _ rfl v rfl
          cases function with
          | round | floor | ceiling => rfl
          | _ => cases hkind
      · exact covers_of_isNumber hkind' hnumber

end StaticType

end ODataQuery
