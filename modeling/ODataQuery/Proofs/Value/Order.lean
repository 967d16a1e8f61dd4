import ODataQuery.Proofs.Calendar.Timeline
import ODataQuery.Proofs.Value.Guid
import ODataQuery.Value.Call

/-!
# Comparing from either side

The order of two values is turned around when they change places, for values of all kinds. So a
comparison is the flipped comparison of its operands in the other order.

## Main statements

- `Value.compareDoubles_swap`, `Value.compareNumbers_swap` — numbers
- `Value.compare_swap` — all values
- `Value.test_flipped` — the comparison operators
-/

namespace ODataQuery

/-- Decimals are compared by their coefficients at the larger scale. -/
instance : Std.OrientedCmp Decimal.compare where
  eq_swap {a b} := by
    simp only [Decimal.compare, Nat.max_comm a.scale]
    exact Std.OrientedOrd.eq_swap

instance : Std.TransCmp Duration.compare :=
  inferInstanceAs (Std.TransCmp (compareOn Duration.nanoseconds))

theorem BinaryOp.isComparison_flipped (op : BinaryOp) :
    op.flipped.isComparison = op.isComparison := by
  cases op <;> rfl

theorem BinaryOp.isRelational_flipped (op : BinaryOp) :
    op.flipped.isRelational = op.isRelational := by
  cases op <;> rfl

theorem Kind.promote_comm (j k : Kind) : j.promote k = k.promote j := by
  simp only [promote, Bool.and_comm, Bool.or_comm]

namespace Value

-- ════════════════════════════════════════════════════════════════════════
-- Numbers
-- ════════════════════════════════════════════════════════════════════════

open Float.Model in
theorem unpacked_swap (x y : UnpackedFloat) : x.compare y = (y.compare x).map Ordering.swap := by
  have hsign (s t : UnpackedFloat.Sign) : Ord.compare s t = (Ord.compare t s).swap := by
    cases s <;> cases t <;> rfl
  have hfinite (d e : Int) (m n : Nat) : (Ord.compare d e).then (Ord.compare m n) =
      ((Ord.compare e d).then (Ord.compare n m)).swap := by
    rw [Ordering.swap_then, Std.OrientedOrd.eq_swap (a := d), Std.OrientedOrd.eq_swap (a := m)]
  cases x with
  | notANumber => cases y <;> rfl
  | infinity s =>
    cases y with
    | infinity t => exact congrArg some (hsign s t)
    | _ => cases s <;> rfl
  | zero s =>
    cases y with
    | infinity t | finite t => cases t <;> rfl
    | _ => rfl
  | finite s m d =>
    cases y with
    | finite t n e =>
      cases s <;> cases t
      · exact congrArg (fun o => some o.swap) (hfinite d e m n)
      · rfl
      · rfl
      · exact congrArg some (hfinite d e m n)
    | infinity t => cases t <;> cases s <;> rfl
    | _ => cases s <;> rfl

/-- The order of floating point numbers is that of their unpacked forms. -/
theorem compareDoubles_eq (x y : Float) :
    compareDoubles x y = x.toModel.unpack.compare y.toModel.unpack := by
  have hlt (a b : Float) : (a < b) = (a.toModel.unpack.compare b.toModel.unpack == some .lt) :=
    propext decide_eq_true_iff
  have heq (a b : Float) : (a == b) = (a.toModel.unpack.compare b.toModel.unpack == some .eq) := rfl
  simp only [compareDoubles, hlt, heq, unpacked_swap y.toModel.unpack]
  cases x.toModel.unpack.compare y.toModel.unpack with
  | none => rfl
  | some o => cases o <;> rfl

theorem compareDoubles_swap (x y : Float) :
    compareDoubles x y = (compareDoubles y x).map Ordering.swap := by
  rw [compareDoubles_eq, compareDoubles_eq, unpacked_swap]

theorem compareNumbers_swap (v w : Value) (j k : Kind) :
    v.compareNumbers w j k = (w.compareNumbers v k j).map Ordering.swap := by
  rw [compareNumbers, compareNumbers, Kind.promote_comm k]
  split
  · cases v.toInt? <;> cases w.toInt? <;> first | rfl | exact congrArg some Std.OrientedOrd.eq_swap
  · cases v.toDecimal? <;> cases w.toDecimal? <;>
      first | rfl | exact congrArg some (@Std.OrientedCmp.eq_swap _ Decimal.compare _ _ _)
  · cases v.toDouble? <;> cases w.toDouble? <;> first | rfl | exact compareDoubles_swap _ _

-- ════════════════════════════════════════════════════════════════════════
-- All values
-- ════════════════════════════════════════════════════════════════════════

theorem compare_enumerations (a b : EnumValue) :
    (enumeration a).compare (enumeration b) = if a = b then some .eq else none := rfl

theorem compare_enumerations_swap (a b : EnumValue) : (enumeration a).compare (enumeration b) =
    ((enumeration b).compare (enumeration a)).map Ordering.swap := by
  rw [compare_enumerations, compare_enumerations]
  by_cases h : a = b
  · rw [if_pos h, if_pos h.symm]
    rfl
  · rw [if_neg h, if_neg (Ne.symm h)]
    rfl

/-- Only numbers are compared with values of other kinds. -/
theorem compare_of_kinds {v w : Value}
    (h : ∀ k, v.kind? = some k → w.kind? = some k → k.isNumeric = true) :
    v.compare w = match v.kind?, w.kind? with
      | some j, some k =>
        if j.isNumeric && k.isNumeric then v.compareNumbers w j k else none
      | _, _ => none := by
  have hne {α : Type} {f : α → Value} (k : Kind) (hf : ∀ a, (f a).kind? = some k)
      (hk : k.isNumeric = false) (a b : α) (hv : v = f a) (hw : w = f b) : False := by
    have := h k (hv ▸ hf a) (hw ▸ hf b)
    simp [hk] at this
  exact compare.eq_10 v w (hne .string (fun _ => rfl) rfl) (hne .boolean (fun _ => rfl) rfl)
    (hne .date (fun _ => rfl) rfl) (hne .timeOfDay (fun _ => rfl) rfl)
    (hne .dateTimeOffset (fun _ => rfl) rfl) (hne .duration (fun _ => rfl) rfl)
    (hne .guid (fun _ => rfl) rfl) (hne .binary (fun _ => rfl) rfl)
    (hne .enumeration (fun _ => rfl) rfl)

/-- Values that change places turn their order around. -/
theorem compare_swap (v w : Value) : v.compare w = (w.compare v).map Ordering.swap := by
  by_cases h : ∀ k, v.kind? = some k → w.kind? = some k → k.isNumeric = true
  · rw [compare_of_kinds h, compare_of_kinds fun k hw hv => h k hv hw]
    cases v.kind? with
    | none => cases w.kind? <;> rfl
    | some j =>
      cases w.kind? with
      | none => rfl
      | some k =>
        simp only [Bool.and_comm k.isNumeric]
        split
        · exact compareNumbers_swap v w j k
        · rfl
  · -- Both values are of a kind that has an order of its own.
    obtain ⟨k, hv, hw, hk⟩ : ∃ k, v.kind? = some k ∧ w.kind? = some k ∧ k.isNumeric ≠ true := by
      simpa using h
    cases v <;> cases hv <;> cases w <;> cases hw <;> first
      | exact absurd rfl hk
      | exact compare_enumerations_swap _ _
      | exact congrArg some Std.OrientedCmp.eq_swap

-- ════════════════════════════════════════════════════════════════════════
-- Equality and operators
-- ════════════════════════════════════════════════════════════════════════

theorem compare_null_left (w : Value) : null.compare w = none := by cases w <;> rfl

theorem compare_null_right (v : Value) : v.compare null = none := by cases v <;> rfl

theorem eq_null_of_isNull {v : Value} (h : v.isNull = true) : v = null := by
  cases v <;> first | rfl | cases h

theorem equals_of_not_isNull {v w : Value} (h : v.isNull = false ∨ w.isNull = false) :
    v.equals w = (v.compare w == some .eq) := by
  rw [equals.eq_def]
  split
  · simp [Value.isNull] at h
  · rfl

/-- Equality does not depend on the order of its operands. -/
theorem equals_comm (v w : Value) : v.equals w = w.equals v := by
  by_cases hnull : v.isNull = true ∧ w.isNull = true
  · rw [eq_null_of_isNull hnull.1, eq_null_of_isNull hnull.2]
  · have hnot : v.isNull = false ∨ w.isNull = false := by
      cases hv : v.isNull <;> simp_all
    rw [equals_of_not_isNull hnot, equals_of_not_isNull hnot.symm, compare_swap]
    cases w.compare v with
    | none => rfl
    | some o => cases o <;> rfl

theorem applyBinary_of_isComparison {op : BinaryOp} (h : op.isComparison = true) (a b : Value) :
    applyBinary op a b = test op a b := by
  cases op with
  | eq | ne | gt | ge | lt | le => rfl
  | _ => cases h

/-- What compares alike passes the same tests. -/
theorem test_congr {a v v' : Value} (hv : v.isNull = false) (hv' : v'.isNull = false)
    (h : a.compare v = a.compare v') (op : BinaryOp) : test op a v = test op a v' := by
  have hequals : a.equals v = a.equals v' := by
    rw [equals_of_not_isNull (.inr hv), equals_of_not_isNull (.inr hv'), h]
  cases op <;> simp only [test, hequals, h]

/-- A comparison with its sides exchanged. -/
theorem test_flipped (v w : Value) {op : BinaryOp} (hop : op.isComparison = true) :
    test op.flipped v w = test op w v := by
  cases op with
  | eq => exact congrArg boolean (equals_comm v w)
  | ne => exact congrArg (fun b => boolean !b) (equals_comm v w)
  | gt | ge | lt | le =>
    simp only [BinaryOp.flipped, test, compare_swap v w]
    cases w.compare v with
    | none => rfl
    | some o => cases o <;> rfl
  | _ => cases hop

end Value

end ODataQuery
