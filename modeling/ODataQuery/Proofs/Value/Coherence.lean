import ODataQuery.Proofs.Document.Comparison
import ODataQuery.Proofs.Value.Typing

/-!
# Coherent comparisons

Without floating point numbers, comparisons are total orders: those of all whole numbers and
decimals together, and those of each other kind with an order. Whole numbers are compared as such
among themselves and as decimals with decimals; the two ways agree, since both compare exact
numbers. Equality is an equivalence relation over all kinds.

## Main definitions

- `Value.IsExact` — `null` and the values that are no floating point numbers
- `Value.MeetsExactly` — the exact values that are compared with the values of a kind
- `Value.TotallyOrdered` — a comparison is a total order up to equality

## Main statements

- `Value.totallyOrdered_of_kind` — exact values that are comparable are totally ordered
- `Value.equals_trans` — equality of exact values is transitive
- `Value.comparison_coherent` — comparisons and the operators that test them
-/

namespace ODataQuery

-- ════════════════════════════════════════════════════════════════════════
-- Exact numbers
-- ════════════════════════════════════════════════════════════════════════

/-- Exact numbers can be compared at every scale that both have reached. -/
theorem ExactNumber.compare_at {x y : ExactNumber} {scale : Nat} (hx : x.scale ≤ scale)
    (hy : y.scale ≤ scale) :
    x.compare y = Ord.compare (x.coefficientAt scale) (y.coefficientAt scale) := by
  have hmax : max x.scale y.scale ≤ scale := Nat.max_le.mpr ⟨hx, hy⟩
  have hraise {z : ExactNumber} (hz : z.scale ≤ max x.scale y.scale) : z.coefficientAt scale =
      z.coefficientAt (max x.scale y.scale) * tenTo (scale - max x.scale y.scale) := by
    rw [coefficientAt, coefficientAt, Int.mul_assoc, ← Int.natCast_mul, ← tenTo_add]
    congr 3
    omega
  rw [hraise (Nat.le_max_left ..), hraise (Nat.le_max_right ..),
    Comparison.compare_mul (Int.natCast_pos.mpr (tenTo_pos _))]
  rfl

instance : Std.TransCmp ExactNumber.compare where
  eq_swap {x y} := by
    rw [ExactNumber.compare_at (Nat.le_max_right y.scale x.scale) (Nat.le_max_left y.scale x.scale)]
    exact Std.OrientedOrd.eq_swap
  isLE_trans {x y z} hxy hyz := by
    have hx : x.scale ≤ max x.scale (max y.scale z.scale) := Nat.le_max_left ..
    have hy : y.scale ≤ max x.scale (max y.scale z.scale) := by omega
    have hz : z.scale ≤ max x.scale (max y.scale z.scale) := by omega
    rw [ExactNumber.compare_at hx hy] at hxy
    rw [ExactNumber.compare_at hy hz] at hyz
    rw [ExactNumber.compare_at hx hz]
    exact Std.TransOrd.isLE_trans hxy hyz

namespace Value

variable {u v w : Value}

-- ════════════════════════════════════════════════════════════════════════
-- Total orders
-- ════════════════════════════════════════════════════════════════════════

/-- The value is `null` or no floating point number. -/
def IsExact (v : Value) : Prop := ∀ k ∈ v.kind?, k.isFloating = false

/-- The exact values that are compared with the values of a kind. -/
def MeetsExactly (kind : Kind) (v : Value) : Prop :=
  v.IsExact ∧ ∃ k ∈ v.kind?, k.isComparableWith kind = true

/-- The value is equal to another one or before it. -/
def NotAfter (v w : Value) : Prop := (v.compare w).any Ordering.isLE = true

instance (v w : Value) : Decidable (v.NotAfter w) := inferInstanceAs (Decidable (_ = true))

/-- The comparison is a total order of these values, up to equality. -/
structure TotallyOrdered (P : Value → Prop) : Prop where
  refl : ∀ v, P v → v.compare v = some .eq
  total : ∀ v w, P v → P w → ∃ o, v.compare w = some o ∧ w.compare v = some o.swap
  trans : ∀ u v w, P u → P v → P w → u.NotAfter v → v.NotAfter w → u.NotAfter w
  eq_iff_equals : ∀ v w, P v → P w → (v.compare w = some .eq ↔ v.equals w = true)

theorem isNull_of_compare {o : Ordering} (h : v.compare w = some o) :
    v.isNull = false ∧ w.isNull = false := by
  constructor
  · cases v <;> first | rfl | simp [compare_null_left] at h
  · cases w <;> first | rfl | simp [compare_null_right] at h

/-- Values that are compared are equal exactly if the comparison says so. -/
theorem equals_iff_of_compare {o : Ordering} (h : v.compare w = some o) :
    v.equals w = true ↔ o = .eq := by
  rw [equals_of_not_isNull (.inl (isNull_of_compare h).1), h, beq_iff_eq, Option.some_inj]

/-- Values that stand for the members of a total order are totally ordered. -/
theorem TotallyOrdered.of_standsFor {α : Type} {cmp : α → α → Ordering} [Std.TransCmp cmp]
    {P : Value → Prop} (StandsFor : Value → α → Prop) (hP : ∀ v, P v → ∃ x, StandsFor v x)
    (hcompare : ∀ v w x y, StandsFor v x → StandsFor w y → v.compare w = some (cmp x y)) :
    TotallyOrdered P where
  refl v hv := by
    obtain ⟨x, hx⟩ := hP v hv
    rw [hcompare v v x x hx hx, show cmp x x = .eq from Std.ReflCmp.compare_self]
  total v w hv hw := by
    obtain ⟨x, hx⟩ := hP v hv
    obtain ⟨y, hy⟩ := hP w hw
    refine ⟨cmp x y, hcompare v w x y hx hy, ?_⟩
    rw [hcompare w v y x hy hx]
    exact congrArg some Std.OrientedCmp.eq_swap
  trans u v w hu hv hw huv hvw := by
    obtain ⟨x, hx⟩ := hP u hu
    obtain ⟨y, hy⟩ := hP v hv
    obtain ⟨z, hz⟩ := hP w hw
    rw [NotAfter, hcompare u v x y hx hy] at huv
    rw [NotAfter, hcompare v w y z hy hz] at hvw
    rw [NotAfter, hcompare u w x z hx hz]
    exact Std.TransCmp.isLE_trans (show (cmp x y).isLE = true from huv) hvw
  eq_iff_equals v w hv hw := by
    obtain ⟨x, hx⟩ := hP v hv
    obtain ⟨y, hy⟩ := hP w hw
    have h := hcompare v w x y hx hy
    rw [equals_iff_of_compare h, h, Option.some_inj]

/-- Values of one constructor are ordered like their contents. -/
theorem TotallyOrdered.of_constructor {α : Type} {cmp : α → α → Ordering} [Std.TransCmp cmp]
    {P : Value → Prop} (f : α → Value) (hP : ∀ v, P v → ∃ x, v = f x)
    (hcompare : ∀ x y, (f x).compare (f y) = some (cmp x y)) : TotallyOrdered P :=
  .of_standsFor (fun v x => v = f x) hP fun _ _ x y hx hy => hx ▸ hy ▸ hcompare x y

/-- The numbers of exact kinds have exact values. -/
theorem IsExact.exists_exactNumber? (h : v.IsExact) {k : Kind} (hk : v.kind? = some k)
    (hnumeric : k.isNumeric = true) : ∃ x, v.exactNumber? = some x := by
  have hfloating := h k hk
  cases v with
  | byte | sbyte | int16 | int32 | int64 | decimal => exact ⟨_, rfl⟩
  | single | double =>
    cases hk
    cases hfloating
  | _ => cases hk <;> cases hnumeric

/-- Exact values that are compared with the values of a kind are totally ordered, except members of
enumerations. -/
theorem totallyOrdered_of_kind {kind : Kind} (hkind : kind ≠ .enumeration) :
    TotallyOrdered (MeetsExactly kind) := by
  by_cases hnumeric : kind.isNumeric = true
  · refine .of_standsFor (fun v x => v.exactNumber? = some x) ?_
      fun v w x y hx hy => compare_of_exactNumber? hx hy
    rintro v ⟨hexact, k, hk, hcomparable⟩
    refine hexact.exists_exactNumber? hk ?_
    simp only [Kind.isComparableWith, Bool.or_eq_true, beq_iff_eq, Bool.and_eq_true] at hcomparable
    obtain rfl | ⟨hk, _⟩ := hcomparable
    · exact hnumeric
    · exact hk
  · -- Such a kind is compared with itself only.
    rw [Bool.not_eq_true] at hnumeric
    have hof {α : Type} {cmp : α → α → Ordering} [Std.TransCmp cmp] (f : α → Value)
        (hf : ∀ v : Value, v.kind? = some kind → ∃ x, v = f x)
        (hcompare : ∀ x y, (f x).compare (f y) = some (cmp x y)) :
        TotallyOrdered (MeetsExactly kind) := by
      refine .of_constructor f ?_ hcompare
      rintro v ⟨_, k, hk, hcomparable⟩
      rw [Kind.isComparableWith, hnumeric, Bool.and_false, Bool.or_false, beq_iff_eq] at hcomparable
      exact hf v (hcomparable ▸ hk)
    cases kind with
    | boolean => exact hof boolean (by rintro ⟨⟩ ⟨⟩; exact ⟨_, rfl⟩) fun _ _ => rfl
    | string => exact hof string (by rintro ⟨⟩ ⟨⟩; exact ⟨_, rfl⟩) fun _ _ => rfl
    | binary => exact hof binary (by rintro ⟨⟩ ⟨⟩; exact ⟨_, rfl⟩) fun _ _ => rfl
    | date => exact hof date (by rintro ⟨⟩ ⟨⟩; exact ⟨_, rfl⟩) fun _ _ => rfl
    | timeOfDay => exact hof timeOfDay (by rintro ⟨⟩ ⟨⟩; exact ⟨_, rfl⟩) fun _ _ => rfl
    | dateTimeOffset => exact hof dateTimeOffset (by rintro ⟨⟩ ⟨⟩; exact ⟨_, rfl⟩) fun _ _ => rfl
    | duration => exact hof duration (by rintro ⟨⟩ ⟨⟩; exact ⟨_, rfl⟩) fun _ _ => rfl
    | guid => exact hof guid (by rintro ⟨⟩ ⟨⟩; exact ⟨_, rfl⟩) fun _ _ => rfl
    | enumeration => exact absurd rfl hkind
    | _ => cases hnumeric

-- ════════════════════════════════════════════════════════════════════════
-- Equality
-- ════════════════════════════════════════════════════════════════════════

/-- Values of kinds that are not comparable have no order. -/
theorem compare_eq_none
    (h : ∀ j ∈ v.kind?, ∀ k ∈ w.kind?, j.isComparableWith k = false) : v.compare w = none := by
  rw [compare_of_kinds fun k hv hw => absurd (h k hv k hw) (by simp [k.isComparableWith_self])]
  cases hv : v.kind? with
  | none => rfl
  | some j =>
    cases hw : w.kind? with
    | none => rfl
    | some k =>
      have hnot := h j hv k hw
      rw [Kind.isComparableWith, Bool.or_eq_false_iff] at hnot
      simp only [hnot.2, Bool.false_eq_true, if_false]

/-- Values that are compared are of comparable kinds. -/
theorem exists_kind?_of_compare {o : Ordering} (h : v.compare w = some o) :
    ∃ j k, v.kind? = some j ∧ w.kind? = some k ∧ j.isComparableWith k = true := by
  by_contra hnone
  push Not at hnone
  rw [compare_eq_none fun j hj k hk => Bool.eq_false_iff.mpr (hnone j k hj hk)] at h
  cases h

/-- Only `null` equals `null`. -/
theorem equals_null_iff : v.equals null = true ↔ v = null := by
  cases v with
  | null => exact iff_of_true rfl rfl
  | _ => exact iff_of_false nofun nofun

/-- Members of an enumeration are compared with themselves only. -/
theorem eq_of_compare_enumeration {e : EnumValue} {o : Ordering}
    (h : v.compare (enumeration e) = some o) : v = enumeration e := by
  cases v with
  | enumeration a =>
    rw [compare_enumerations] at h
    split at h
    · next heq => rw [heq]
    · cases h
  | _ => cases h

/-- Every value equals itself, unless it is a floating point number. -/
theorem equals_refl (hv : v.IsExact) : v.equals v = true := by
  cases hkind : v.kind? with
  | none =>
    rw [eq_null_of_kind? hkind]
    rfl
  | some k =>
    by_cases henumeration : k = .enumeration
    · rw [henumeration] at hkind
      cases v with
      | enumeration e => exact beq_iff_eq.mpr (if_pos rfl)
      | _ => cases hkind
    · have hself : MeetsExactly k v := ⟨hv, k, hkind, k.isComparableWith_self⟩
      have horder := totallyOrdered_of_kind henumeration
      exact (horder.eq_iff_equals v v hself hself).mp (horder.refl v hself)

/-- Equality of exact values is transitive, across all kinds of numbers. -/
theorem equals_trans (hu : u.IsExact) (hv : v.IsExact) (hw : w.IsExact)
    (huv : u.equals v = true) (hvw : v.equals w = true) : u.equals w = true := by
  cases hnull : v.isNull with
  | true =>
    rw [eq_null_of_isNull hnull] at huv hvw
    rw [equals_null_iff.mp huv]
    exact hvw
  | false =>
    have huv' : u.compare v = some .eq := by
      rwa [equals_of_not_isNull (.inr hnull), beq_iff_eq] at huv
    have hvw' : v.compare w = some .eq := by
      rwa [equals_of_not_isNull (.inl hnull), beq_iff_eq] at hvw
    obtain ⟨j, k, hj, hk, hjk⟩ := exists_kind?_of_compare huv'
    obtain ⟨_, l, hk', hl, hkl⟩ := exists_kind?_of_compare hvw'
    cases hk.symm.trans hk'
    by_cases henumeration : k = .enumeration
    · obtain ⟨e, rfl⟩ : ∃ e, v = enumeration e := by
        rw [henumeration] at hk
        cases v with
        | enumeration e => exact ⟨e, rfl⟩
        | _ => cases hk
      rw [eq_of_compare_enumeration huv']
      exact hvw
    · -- All three values are compared with those of the kind of the second.
      have horder := totallyOrdered_of_kind henumeration
      have hu : MeetsExactly k u := ⟨hu, j, hj, hjk⟩
      have hv : MeetsExactly k v := ⟨hv, k, hk, k.isComparableWith_self⟩
      have hw : MeetsExactly k w := ⟨hw, l, hl, l.isComparableWith_comm k ▸ hkl⟩
      have hequal {a b : Value} (h : a.compare b = some .eq) : a.NotAfter b ∧ b.NotAfter a := by
        rw [NotAfter, NotAfter, compare_swap b a, h]
        exact ⟨rfl, rfl⟩
      obtain ⟨o, huw, hwu⟩ := horder.total u w hu hw
      have hle := horder.trans u v w hu hv hw (hequal huv').1 (hequal hvw').1
      have hge := horder.trans w v u hw hv hu (hequal hvw').2 (hequal huv').2
      rw [NotAfter, huw] at hle
      rw [NotAfter, hwu] at hge
      rw [equals_iff_of_compare huw]
      cases o with
      | lt => cases hge
      | eq => rfl
      | gt => cases hle

-- ════════════════════════════════════════════════════════════════════════
-- Operators
-- ════════════════════════════════════════════════════════════════════════

/-- The negation of a comparison is the comparison with the opposite operator. -/
theorem test_negated (v w : Value) {op : BinaryOp} (hop : op.isComparison = true) :
    (test op v w).negation = test op.negated v w := by
  cases op with
  | eq => rfl
  | ne => exact congrArg boolean (Bool.not_not _)
  | gt | ge | lt | le =>
    simp only [BinaryOp.negated, test]
    cases v.compare w with
    | none => rfl
    | some o => cases o <;> rfl
  | _ => cases hop

/-- Comparisons of values that are no floating point numbers. Equality is an equivalence relation
that keeps `null` apart, comparable values are totally ordered up to equality, and others have no
order. An operator holds as its mirror image does of the operands in the other order, and fails as
its opposite holds. -/
theorem comparison_coherent :
    Equivalence (fun v w : { v : Value // v.IsExact } => v.1.equals w.1 = true) ∧
      (∀ v : Value, v.equals null = true ↔ v = null) ∧
      (∀ kind : Kind, kind ≠ .enumeration → TotallyOrdered (MeetsExactly kind)) ∧
      (∀ v w : Value, (∀ j ∈ v.kind?, ∀ k ∈ w.kind?, j.isComparableWith k = false) →
        v.compare w = none) ∧
      ∀ (op : BinaryOp) (v w : Value), op.isComparison = true →
        test op v w = test op.flipped w v ∧ (test op v w).negation = test op.negated v w :=
  ⟨⟨fun v => equals_refl v.2, fun h => equals_comm _ _ ▸ h,
      fun {u v w} huv hvw => equals_trans u.2 v.2 w.2 huv hvw⟩,
    fun _ => equals_null_iff, fun _ => totallyOrdered_of_kind, fun _ _ => compare_eq_none,
    fun _ v w hop => ⟨(test_flipped w v hop).symm, test_negated v w hop⟩⟩

/-- A byte, a decimal and a 64-bit number, which are compared in two ways, and two values that are
not compared. -/
theorem comparison_coherent_numbers :
    let d : Value := decimal ⟨false, 55, 1, by decide, by decide⟩
    (byte 5).NotAfter d ∧ d.NotAfter (int64 6) ∧ (byte 5).NotAfter (int64 6) ∧
      (string "5").compare (byte 5) = none ∧ test .lt null d = test .gt d null ∧
      (test .lt (byte 5) d).negation = test .ge (byte 5) d := by
  intro d
  obtain ⟨_, _, horder, hnone, htest⟩ := comparison_coherent
  have hexact {v : Value} {k : Kind} (hk : v.kind? = some k) (hfloating : k.isFloating = false)
      (hnumeric : k.isComparableWith .decimal = true) : MeetsExactly .decimal v :=
    ⟨fun j hj => Option.some.inj (hk.symm.trans hj) ▸ hfloating, k, hk, hnumeric⟩
  have hlower : (byte 5).NotAfter d := by decide
  have hupper : d.NotAfter (int64 6) := by decide
  refine ⟨hlower, hupper, ?_, hnone _ _ ?_, (htest .lt null d rfl).1, (htest .lt _ d rfl).2⟩
  · exact (horder .decimal nofun).trans _ _ _ (hexact rfl rfl rfl) (hexact rfl rfl rfl)
      (hexact rfl rfl rfl) hlower hupper
  · rintro _ ⟨⟩ _ ⟨⟩
    rfl

end Value

end ODataQuery
