import ODataQuery.Document.Value
import ODataQuery.Proofs.Calendar.Date
import ODataQuery.Proofs.Calendar.TimeOfDay
import ODataQuery.Proofs.Document.Matching
import ODataQuery.Proofs.Literal.Quoted
import ODataQuery.Proofs.Numeric.Reading
import ODataQuery.Proofs.Value.Order

/-!
# Comparing stored values

Stored values of one kind compare like the values, for the kinds whose stored form keeps all that
a comparison looks at.

## Main definitions

- `Value.exactNumber?` — the number of an integer or a decimal
- `Value.Alike` — two values whose stored forms compare like the values

## Main statements

- `Value.Alike.order` — stored values are ordered like the values
- `Value.Alike.order_eq_iff` — stored values are equal exactly if the values are
-/

namespace ODataQuery

namespace Value

-- ════════════════════════════════════════════════════════════════════════
-- Numbers
-- ════════════════════════════════════════════════════════════════════════

/-- The number of an integer or a decimal. -/
def exactNumber? : Value → Option ExactNumber
  | decimal d => some ⟨d.signed, d.scale⟩
  | v => v.toInt?.map fun n => ⟨n, 0⟩

/-- A number with an exact value is a decimal or an integer of one of the integer kinds. -/
theorem exactNumber?_cases {v : Value} {x : ExactNumber} (h : v.exactNumber? = some x) :
    (∃ d, v = decimal d ∧ x = ⟨d.signed, d.scale⟩) ∨
      ∃ n kind, v.toInt? = some n ∧ x = ⟨n, 0⟩ ∧ v.kind? = some kind ∧ kind.isInteger = true := by
  cases v with
  | decimal d => exact .inl ⟨d, rfl, (Option.some.inj h).symm⟩
  | byte n => exact .inr ⟨_, .byte, rfl, (Option.some.inj h).symm, rfl, rfl⟩
  | sbyte n => exact .inr ⟨_, .sbyte, rfl, (Option.some.inj h).symm, rfl, rfl⟩
  | int16 n => exact .inr ⟨_, .int16, rfl, (Option.some.inj h).symm, rfl, rfl⟩
  | int32 n => exact .inr ⟨_, .int32, rfl, (Option.some.inj h).symm, rfl, rfl⟩
  | int64 n => exact .inr ⟨_, .int64, rfl, (Option.some.inj h).symm, rfl, rfl⟩
  | _ => cases h

/-- An integer is the decimal of scale zero with the same value. -/
theorem toDecimal?_of_toInt? {v : Value} {n : Int} (h : v.toInt? = some n) :
    ∃ d, v.toDecimal? = some d ∧ d.signed = n ∧ d.scale = 0 := by
  have hfits := fitsBits_64.mp (fitsBits_of_toInt? h)
  have hlt : n.natAbs < twoTo 96 :=
    Nat.lt_of_le_of_lt (m := 9223372036854775808) (by omega) (by decide)
  have hdecimal : v.toDecimal? = Decimal.ofInt? n := by
    cases v <;> cases h <;> rfl
  refine ⟨⟨decide (n < 0) && n.natAbs != 0, n.natAbs, 0, hlt, Nat.zero_le _⟩, ?_, ?_, rfl⟩
  · rw [hdecimal, Decimal.ofInt?, Decimal.ofParts?, Decimal.ofSignedParts?]
    exact dif_pos ⟨hlt, Nat.zero_le _⟩
  · by_cases hn : n < 0
    · have hne : n.natAbs ≠ 0 := by omega
      simp only [Decimal.signed, hn, decide_true, Bool.true_and, bne_iff_ne, hne, ne_eq,
        not_false_eq_true, if_true]
      omega
    · simp only [Decimal.signed, hn, decide_false, Bool.false_and, Bool.false_eq_true, if_false]
      omega

/-- Numbers are compared as the numbers that their kinds promote to. -/
theorem compare_of_isNumeric {v w : Value} {j k : Kind} (hv : v.kind? = some j)
    (hw : w.kind? = some k) (hj : j.isNumeric = true) (hk : k.isNumeric = true) :
    v.compare w = compareNumbers v w j k := by
  have hnumeric : (j.isNumeric && k.isNumeric) = true := by rw [hj, hk, Bool.and_self]
  rw [compare.eq_def]
  split
  all_goals
    first
    | cases hv
      cases hj
    | simp only [hv, hw, hnumeric, if_true]

theorem isNumeric_of_isInteger {k : Kind} (h : k.isInteger = true) : k.isNumeric = true := by
  simp [Kind.isNumeric, h]

theorem compare_decimals (x y : Decimal) :
    x.compare y = ExactNumber.compare ⟨x.signed, x.scale⟩ ⟨y.signed, y.scale⟩ := rfl

/-- Exact numbers are ordered by their values, whatever their kinds. -/
theorem compare_of_exactNumber? {v w : Value} {x y : ExactNumber} (hv : v.exactNumber? = some x)
    (hw : w.exactNumber? = some y) : v.compare w = some (x.compare y) := by
  obtain ⟨c, rfl, rfl⟩ | ⟨n, j, hn, rfl, hj, hinteger⟩ := exactNumber?_cases hv
  · obtain ⟨d, rfl, rfl⟩ | ⟨m, k, hm, rfl, hk, hinteger'⟩ := exactNumber?_cases hw
    · rfl
    · obtain ⟨d, hd, hsigned, hscale⟩ := toDecimal?_of_toInt? hm
      rw [compare_of_isNumeric rfl hk rfl (isNumeric_of_isInteger hinteger'), compareNumbers,
        show Kind.decimal.promote k = .decimal by cases k <;> first | rfl | cases hinteger']
      have hc : (decimal c).toDecimal? = some c := rfl
      simp only [hc, hd, Option.bind_eq_bind, Option.bind_some, compare_decimals, hsigned, hscale]
      rfl
  · obtain ⟨d, rfl, rfl⟩ | ⟨m, k, hm, rfl, hk, hinteger'⟩ := exactNumber?_cases hw
    · obtain ⟨c, hc, hsigned, hscale⟩ := toDecimal?_of_toInt? hn
      rw [compare_of_isNumeric hj rfl (isNumeric_of_isInteger hinteger) rfl, compareNumbers,
        show j.promote .decimal = .decimal by cases j <;> first | rfl | cases hinteger]
      have hd : (decimal d).toDecimal? = some d := rfl
      simp only [hc, hd, Option.bind_eq_bind, Option.bind_some, compare_decimals, hsigned, hscale]
      rfl
    · have hpromote : j.promote k = .int64 := by simp [Kind.promote, hinteger, hinteger']
      rw [compare_of_isNumeric hj hk (isNumeric_of_isInteger hinteger)
        (isNumeric_of_isInteger hinteger'), compareNumbers, hpromote]
      simp only [hn, hm, Option.bind_eq_bind, Option.bind_some, ExactNumber.compare,
        ExactNumber.coefficientAt, Nat.max_self, Nat.sub_self]
      show some (Ord.compare n m) = some (Ord.compare (n * 1) (m * 1))
      rw [Int.mul_one, Int.mul_one]

/-- The text of a decimal denotes its number. -/
theorem ofText?_decimalText (d : Decimal) :
    ExactNumber.ofText? d.text = some ⟨d.signed, d.scale⟩ := by
  have hexponent : d.numberText.exponent = none := rfl
  have hnegative : d.numberText.negative = d.negative := rfl
  simp only [ExactNumber.ofText?, d.read?_text, Option.bind_eq_bind, Option.bind_some, hexponent,
    Option.isSome_none, Bool.false_eq_true, if_false, hnegative, d.naturalOf_numberText,
    d.length_fractionDigits]
  rfl

/-- A stored number denotes the number of the value. -/
theorem number?_toDocument {v : Value} {x : ExactNumber} (h : v.exactNumber? = some x) :
    v.toDocument.number? = some x := by
  cases v with
  | decimal d =>
    cases h
    exact ofText?_decimalText d
  | byte n | sbyte n | int16 n | int32 n | int64 n =>
    cases h
    rfl
  | _ => cases h

-- ════════════════════════════════════════════════════════════════════════
-- Values whose stored forms compare like the values
-- ════════════════════════════════════════════════════════════════════════

/-- Two values whose stored forms compare like the values, by order if `ordered` is set and else
for equality. Texts of dates keep their order only among four-digit years, times of day must not
lie in a leap second, and members of enumerations must not contain the comma that stands between
them. -/
inductive Alike (ordered : Bool) : Value → Value → Prop
  | boolean {a b} (h : ordered = false) : Alike ordered (boolean a) (boolean b)
  | number {v w x y} (hv : v.exactNumber? = some x) (hw : w.exactNumber? = some y) :
      Alike ordered v w
  | string {a b} : Alike ordered (string a) (string b)
  | date {a b} (h : ordered = true → a.HasFourDigitYear ∧ b.HasFourDigitYear) :
      Alike ordered (date a) (date b)
  | timeOfDay {a b} (ha : a.IsRegular) (hb : b.IsRegular) :
      Alike ordered (timeOfDay a) (timeOfDay b)
  | guid {a b} (h : ordered = false) : Alike ordered (guid a) (guid b)
  | enumeration {a b} (h : ordered = false) (htype : a.typeName = b.typeName)
      (ha : a.members ≠ [] ∧ ∀ m ∈ a.members, ',' ∉ m.toList)
      (hb : b.members ≠ [] ∧ ∀ m ∈ b.members, ',' ∉ m.toList) :
      Alike ordered (enumeration a) (enumeration b)

/-- Lists of names without commas are told apart by their texts. -/
theorem membersText_injective {ms ns : List String} (hms : ms ≠ [] ∧ ∀ m ∈ ms, ',' ∉ m.toList)
    (hns : ns ≠ [] ∧ ∀ m ∈ ns, ',' ∉ m.toList) (h : membersText ms = membersText ns) : ms = ns := by
  have hmap : ms.map String.toList = ns.map String.toList := by
    rw [← Quoted.splitOn_membersText hms.1 hms.2, h, Quoted.splitOn_membersText hns.1 hns.2]
  exact (List.map_inj_right fun _ _ => String.toList_inj.mp).mp hmap

namespace Alike

variable {ordered : Bool} {v w : Value}

theorem order_numbers {x y : ExactNumber} (hv : v.exactNumber? = some x)
    (hw : w.exactNumber? = some y) :
    v.toDocument.order w.toDocument = some (x.compare y) := by
  have hx := number?_toDocument hv
  have hy := number?_toDocument hw
  rw [Json.order.eq_def]
  split
  · next hstring _ =>
    rw [hstring] at hx
    cases hx
  · next hbool _ =>
    rw [hbool] at hx
    cases hx
  · simp only [hx, hy]

/-- Stored values are ordered like the values. -/
theorem order (h : Alike true v w) : v.toDocument.order w.toDocument = v.compare w := by
  cases h with
  | number hv hw => rw [order_numbers hv hw, compare_of_exactNumber? hv hw]
  | string => rfl
  | date h =>
    obtain ⟨ha, hb⟩ := h rfl
    exact congrArg some (Date.compare_text ha hb)
  | timeOfDay ha hb => exact congrArg some (TimeOfDay.compare_text ha hb)
  | boolean h | guid h | enumeration h => cases h

theorem some_eq_iff {α : Type} {cmp : α → α → Ordering} [Std.LawfulEqCmp cmp]
    {text : α → String} (htext : Function.Injective text) (a b : α) :
    some (Ord.compare (text a) (text b)) = some .eq ↔ some (cmp a b) = some .eq := by
  rw [Option.some_inj, Option.some_inj, Std.compare_eq_iff_eq, Std.LawfulEqCmp.compare_eq_iff_eq]
  exact htext.eq_iff

/-- Stored values are equal exactly if the values are. -/
theorem order_eq_iff (h : Alike ordered v w) :
    v.toDocument.order w.toDocument = some .eq ↔ v.compare w = some .eq := by
  cases h with
  | number hv hw => rw [order_numbers hv hw, compare_of_exactNumber? hv hw]
  | boolean | string => exact Iff.rfl
  | date => exact some_eq_iff Date.text_injective _ _
  | timeOfDay ha hb => rw [order (.timeOfDay ha hb)]
  | guid => exact some_eq_iff Guid.text_injective _ _
  | @enumeration a b _ htype ha hb =>
    show some (Ord.compare (membersText a.members) (membersText b.members)) = some .eq ↔ _
    rw [Option.some_inj, Std.compare_eq_iff_eq, compare_enumerations]
    constructor
    · intro htext
      obtain ⟨typeName, members⟩ := a
      obtain ⟨typeName', members'⟩ := b
      cases htype
      cases membersText_injective ha hb htext
      exact if_pos rfl
    · intro heq
      split at heq
      · next hab => rw [hab]
      · cases heq

/-- Neither of the values is `null`. -/
theorem isNull (h : Alike ordered v w) : v.isNull = false ∧ w.isNull = false := by
  cases h with
  | number hv hw =>
    constructor
    · cases v <;> first | rfl | cases hv
    · cases w <;> first | rfl | cases hw
  | _ => exact ⟨rfl, rfl⟩

end Alike

-- ════════════════════════════════════════════════════════════════════════
-- Operators on stored values
-- ════════════════════════════════════════════════════════════════════════

theorem isNull_documentFloat (x : Float) : (documentFloat x).isNull = false := by
  unfold documentFloat
  split <;> rfl

/-- Only `null` is stored as `null`. -/
theorem isNull_toDocument (v : Value) : v.toDocument.isNull = v.isNull := by
  cases v with
  | single x | double x | duration x => exact isNull_documentFloat _
  | _ => rfl

/-- Equality of stored values is that of the values, if both are alike or one is `null`. -/
theorem equals_toDocument {ordered : Bool} {v w : Value}
    (h : v.isNull = true ∨ w.isNull = true ∨ Alike ordered v w) :
    Json.equals (some v.toDocument) w.toDocument = v.equals w := by
  simp only [Json.equals, isNull_toDocument]
  obtain h | h | h := h
  · cases eq_null_of_isNull h
    cases w <;> rfl
  · cases eq_null_of_isNull h
    cases v <;> rfl
  · obtain ⟨hv, hw⟩ := h.isNull
    rw [equals_of_not_isNull (.inl hv), hv, hw]
    simp only [Bool.false_eq_true, if_false, Bool.not_false, Bool.true_and]
    rw [Bool.eq_iff_iff, beq_iff_eq, beq_iff_eq]
    exact h.order_eq_iff

end Value

end ODataQuery
