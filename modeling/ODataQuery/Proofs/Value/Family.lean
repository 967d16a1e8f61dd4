import ODataQuery.Proofs.Expr.Operands
import ODataQuery.Proofs.Value.Typing

/-!
# Families of kinds

Operators and functions keep the families of numbers apart: whole numbers of any width, floating
point numbers of either width, and decimals. A static type foretells the family of the result.

## Main definitions

- `Kind.family` — the kind that stands for a family
- `StaticType.Admits` — the values of the family of a type

## Main statements

- `StaticType.admits_arithmetic`, `StaticType.admits_opposite` — results of arithmetic
- `StaticType.admits_apply` — results of functions
-/

namespace ODataQuery

-- ════════════════════════════════════════════════════════════════════════
-- Families
-- ════════════════════════════════════════════════════════════════════════

namespace Kind

/-- The kind that stands for a family: whole numbers together, floating point numbers together, and
every other kind alone. -/
def family (k : Kind) : Kind :=
  if k.isInteger then int64 else if k.isFloating then double else k

theorem family_family (k : Kind) : k.family.family = k.family := by
  cases k <;> rfl

theorem isNumeric_family (k : Kind) : k.family.isNumeric = k.isNumeric := by
  cases k <;> rfl

theorem isOrdered_family (k : Kind) : k.family.isOrdered = k.isOrdered := by
  cases k <;> rfl

theorem isComparableWith_family (j k : Kind) :
    j.family.isComparableWith k.family = j.isComparableWith k := by
  cases j <;> cases k <;> rfl

theorem acceptsKind_family (p : Parameter) (k : Kind) : p.acceptsKind k.family = p.acceptsKind k := by
  cases p <;> cases k <;> rfl

theorem family_promote (j k : Kind) : (j.promote k).family = j.family.promote k.family := by
  cases j <;> cases k <;> rfl

/-- Only whole numbers are promoted to whole numbers. -/
theorem promote_family_eq_int64 (j k : Kind) :
    j.family.promote k.family = int64 ↔ j.promote k = int64 := by
  cases j <;> cases k <;> decide

end Kind

namespace Value

/-- The value is `null` or of the family of a kind. -/
def IsOfFamily (kind : Kind) (v : Value) : Prop := ∀ k ∈ v.kind?, k.family = kind.family

theorem IsOfKind.isOfFamily {kind : Kind} {v : Value} (h : IsOfKind kind v) : IsOfFamily kind v :=
  fun k hk => congrArg Kind.family (h k hk)

theorem isOfFamily_null (kind : Kind) : IsOfFamily kind null := nofun

end Value

/-- The value is `null` or of the family of the type. -/
def StaticType.Admits : StaticType → Value → Prop
  | null, v => v = .null
  | primitive kind, v => v.IsOfFamily kind
  | enumeration type, v => v = .null ∨ ∃ members, v = .enumeration ⟨type.name, members⟩

-- ════════════════════════════════════════════════════════════════════════
-- Arithmetic
-- ════════════════════════════════════════════════════════════════════════

namespace Value

theorem arithmeticKind_of_ne {op : BinaryOp} {promoted : Kind} (h : promoted ≠ .int64) :
    arithmeticKind op promoted = promoted := by
  simp [arithmeticKind, h]

/-- Two numbers are promoted to `int64`, `decimal`, or a floating point kind. -/
theorem promote_cases (j k : Kind) :
    j.promote k = .int64 ∨ j.promote k = .decimal ∨ j.promote k = .single ∨
      j.promote k = .double := by
  unfold Kind.promote
  split
  · exact .inl rfl
  · split
    · exact .inr (.inr (.inl rfl))
    · split
      · exact .inr (.inr (.inr rfl))
      · exact .inr (.inl rfl)

/-- Results of arithmetic are of the family that the operands are promoted to. -/
theorem isOfFamily_arithmetic (op : BinaryOp) {a b : Value} {j k : Kind} (ha : a.kind? = some j)
    (hb : b.kind? = some k) :
    IsOfFamily (arithmeticKind op (j.promote k)) (arithmetic op a b) := by
  have hkind {promoted : Kind} (h : promoted ≠ .int64) : arithmeticKind op promoted = promoted :=
    arithmeticKind_of_ne h
  have hfloat (kind : Kind) (h : kind.family = .double) (x y : Float) :
      IsOfFamily kind (floatArithmetic op x y) := by
    intro l hl
    rw [isOfKind_floatArithmetic op x y l hl, h]
    rfl
  simp only [arithmetic, ha, hb]
  split
  · obtain hpromote | hpromote | hpromote | hpromote := promote_cases j k
    · simp only [hpromote]
      split
      · exact (isOfKind_integerArithmetic _ _ _).isOfFamily
      · exact isOfFamily_null _
    · simp only [hpromote, hkind (show Kind.decimal ≠ .int64 from nofun)]
      split
      · exact (isOfKind_decimalArithmetic _ _ _).isOfFamily
      · exact isOfFamily_null _
    · simp only [hpromote, hkind (show Kind.single ≠ .int64 from nofun)]
      split
      · exact hfloat .single rfl _ _
      · exact isOfFamily_null _
    · simp only [hpromote, hkind (show Kind.double ≠ .int64 from nofun)]
      split
      · exact hfloat .double rfl _ _
      · exact isOfFamily_null _
  · exact isOfFamily_null _

theorem family_arithmeticKind (op : BinaryOp) (j k : Kind) :
    (arithmeticKind op (j.promote k)).family =
      (arithmeticKind op (j.family.promote k.family)).family := by
  have hinteger := Kind.promote_family_eq_int64 j k
  by_cases h : j.promote k = .int64
  · rw [h, hinteger.mpr h]
  · rw [arithmeticKind_of_ne h, arithmeticKind_of_ne (mt hinteger.mp h), ← Kind.family_promote]
    obtain hpromote | hpromote | hpromote | hpromote := promote_cases j k <;> rw [hpromote] <;> rfl

/-- The opposite of a number is of its family. -/
theorem isOfFamily_opposite {kind : Kind} {v : Value} (h : IsOfFamily kind v) :
    IsOfFamily kind v.opposite := by
  cases v with
  | single x | double x | decimal d => exact h
  | byte n | sbyte n | int16 n | int32 n | int64 n =>
    have hfamily : kind.family = .int64 := (h _ rfl).symm
    intro k hk
    rw [isOfKind_ofInt64 _ k hk, hfamily]
    rfl
  | _ => exact isOfFamily_null _

/-- A rounded number has the kind of the number. -/
theorem kind?_of_applyRounding {function : Function} {v : Value} {k : Kind}
    (h : (applyRounding function v).kind? = some k) : v.kind? = some k := by
  unfold applyRounding at h
  split at h <;> try exact h
  split at h
  · exact h
  · cases h

end Value

-- ════════════════════════════════════════════════════════════════════════
-- Types and their values
-- ════════════════════════════════════════════════════════════════════════

namespace StaticType

variable {s t : StaticType} {a b v : Value}

theorem admits_null (t : StaticType) : t.Admits .null := by
  cases t with
  | null => rfl
  | primitive kind => exact Value.isOfFamily_null kind
  | enumeration type => exact .inl rfl

/-- The type of a value admits it. -/
theorem admits_ofValue (v : Value) : (ofValue v).Admits v := by
  unfold ofValue
  split
  · next h => exact Value.eq_null_of_kind? h
  · next h => exact (Value.isOfKind_of_kind? h).isOfFamily

/-- The kind of a value is of the family of the kind of its type. -/
theorem Admits.exists_kind? (h : t.Admits v) {k : Kind} (hk : v.kind? = some k) :
    ∃ kind ∈ t.kind?, k.family = kind.family := by
  cases t with
  | null =>
    rw [h] at hk
    cases hk
  | primitive kind => exact ⟨kind, rfl, h k hk⟩
  | enumeration type =>
    obtain rfl | ⟨members, rfl⟩ := h
    · cases hk
    · cases hk
      exact ⟨_, rfl, rfl⟩

/-- What holds of the kind of a type, for its whole family, holds of the kinds of its values. -/
theorem Admits.forall_kind? {P : Kind → Prop} (hP : ∀ k : Kind, P k.family ↔ P k)
    (h : t.Admits v) (ht : ∀ k ∈ t.kind?, P k) : ∀ k ∈ v.kind?, P k := by
  intro k hk
  obtain ⟨kind, hkind, hfamily⟩ := h.exists_kind? hk
  rw [← hP, hfamily, hP]
  exact ht kind hkind

/-- Values of a Boolean type are truth values. -/
theorem Admits.isOfKind_boolean (h : t.Admits v) (ht : t.isBoolean = true) :
    v.IsOfKind .boolean := by
  refine h.forall_kind? (fun k => ?_) (isBoolean_iff_kind?.mp ht)
  cases k <;> decide

/-- Values of a numeric type are numbers. -/
theorem Admits.isNumber (h : t.Admits v) (ht : t.isNumeric = true) : v.IsNumber :=
  h.forall_kind? (fun k => by rw [Kind.isNumeric_family]) (isNumeric_iff_kind?.mp ht)

theorem admits_boolean (h : v.IsOfKind .boolean) : boolean.Admits v := h.isOfFamily

/-- Results of arithmetic are of the family of the computed type. -/
theorem admits_arithmetic {op : BinaryOp} (ha : s.Admits a) (hb : t.Admits b) :
    (Expr.arithmeticType op s t).Admits (Value.arithmetic op a b) := by
  cases hj : a.kind? with
  | none =>
    rw [Value.eq_null_of_kind? hj, Value.arithmetic_null_left]
    exact admits_null _
  | some j =>
    cases hk : b.kind? with
    | none =>
      rw [Value.eq_null_of_kind? hk, Value.arithmetic_null_right]
      exact admits_null _
    | some k =>
      obtain ⟨j', hj', hjfamily⟩ := ha.exists_kind? hj
      obtain ⟨k', hk', hkfamily⟩ := hb.exists_kind? hk
      have htype : Expr.arithmeticType op s t =
          primitive (Value.arithmeticKind op (j'.promote k')) := by
        rw [Expr.arithmeticType, hj', hk']
        rfl
      rw [htype]
      intro l hl
      calc l.family = (Value.arithmeticKind op (j.promote k)).family :=
            Value.isOfFamily_arithmetic op hj hk l hl
        _ = (Value.arithmeticKind op (j'.family.promote k'.family)).family := by
            rw [Value.family_arithmeticKind, hjfamily, hkfamily]
        _ = (Value.arithmeticKind op (j'.promote k')).family :=
            (Value.family_arithmeticKind op j' k').symm

/-- Opposites are of the family of the number. -/
theorem admits_opposite (ht : t.isNumeric = true) (h : t.Admits v) : t.Admits v.opposite := by
  obtain rfl | ⟨kind, rfl, _⟩ := isNumeric_cases ht
  · cases h
    rfl
  · exact Value.isOfFamily_opposite h

/-- Results of functions that round are of the family of their argument. -/
theorem admits_rounding {function : Function} (hfunction : Value.resultKind? function = none)
    (h : t.Admits v) (ht : t.isNumeric = true) (now : Instant) :
    t.Admits (Value.apply now function [v]) := by
  have hrounding : t.Admits (Value.applyRounding function v) := by
    obtain rfl | ⟨kind, rfl, _⟩ := isNumeric_cases ht
    · cases h
      cases function with
      | round | floor | ceiling => rfl
      | _ => cases hfunction
    · exact fun k hk => h k (Value.kind?_of_applyRounding hk)
  have happly : Value.apply now function [v] = .null ∨
      Value.apply now function [v] = Value.applyRounding function v := by
    cases function with
    | round | floor | ceiling =>
      simp only [Value.apply]
      split
      · exact .inl rfl
      · exact .inr rfl
    | _ => cases hfunction
  obtain happly | happly := happly
  · rw [happly]
    exact admits_null t
  · rw [happly]
    exact hrounding

/-- Functions that round take one number. -/
theorem exists_eq_singleton_of_rounding {function : Function} {ts : List StaticType}
    {type : StaticType} (hfunction : Value.resultKind? function = none)
    (hcheck : function.check ts = .ok type) : ∃ t, ts = [t] ∧ type = t ∧ t.isNumeric = true := by
  cases ts with
  | nil =>
    cases function with
    | round | floor | ceiling => cases hcheck
    | _ => cases hfunction
  | cons t ts =>
    obtain ⟨rfl, hnumeric⟩ := isNumeric_of_check hfunction hcheck
    have hlength : (type :: ts).length = function.parameters.length := by
      refine Function.eq_length_of_accepts ?_ ?_ (Function.check_eq_ok.mp hcheck).1
      · rintro rfl
        cases hfunction
      · rintro rfl
        cases hfunction
    have hone : function.parameters.length = 1 := by
      cases function with
      | round | floor | ceiling => rfl
      | _ => cases hfunction
    rw [hone] at hlength
    obtain rfl := List.eq_nil_of_length_eq_zero (Nat.succ.inj hlength)
    exact ⟨type, rfl, rfl, hnumeric⟩

/-- Results of functions are of the family of the computed type. -/
theorem admits_apply {function : Function} {ts : List StaticType} {type : StaticType}
    (hcheck : function.check ts = .ok type) {vs : List Value} (hvs : List.Forall₂ Admits ts vs)
    (now : Instant) : type.Admits (Value.apply now function vs) := by
  cases hkind : Value.resultKind? function with
  | some kind =>
    obtain ⟨_, _, rfl⟩ := Function.check_eq_ok.mp hcheck
    rw [Value.resultType_of_resultKind? hkind]
    exact (Value.isOfKind_apply hkind now vs).isOfFamily
  | none =>
    obtain ⟨t, rfl, rfl, hnumeric⟩ := exists_eq_singleton_of_rounding hkind hcheck
    obtain ⟨v, _, hv, hnil, rfl⟩ := List.forall₂_cons_left_iff.mp hvs
    cases hnil
    exact admits_rounding hkind hv hnumeric now

end StaticType

end ODataQuery
