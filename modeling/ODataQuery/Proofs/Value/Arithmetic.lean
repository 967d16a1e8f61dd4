import ODataQuery.Proofs.Numeric.Reading
import ODataQuery.Value.Arithmetic

/-!
# Exact arithmetic on integers

Operators on integers of any width give the exact result if 64 bits hold it, and `null` otherwise.
The remainder of the least number by -1 is the one exception: it is zero, but counts as an overflow
because its quotient does.

## Main definitions

- `IsRemainder` — smaller than the divisor, with the sign of the dividend
- `BinaryOp.Yields` — the exact results of the operators
- `BinaryOp.IsRefused` — the operands whose remainder is refused

## Main statements

- `Value.arithmetic_eq_int64` — the integers that an operator gives
- `Value.arithmetic_exact` — the operators and the opposite on integers of any width
-/

namespace ODataQuery

-- ════════════════════════════════════════════════════════════════════════
-- Quotients and remainders
-- ════════════════════════════════════════════════════════════════════════

/-- A remainder is smaller than the divisor and has the sign of the dividend, or is zero. -/
def IsRemainder (x y r : Int) : Prop := r.natAbs < y.natAbs ∧ 0 ≤ x * r

namespace IsRemainder

variable {x y q r : Int}

theorem ne_zero (h : IsRemainder x y r) : y ≠ 0 := by
  rintro rfl
  exact Nat.not_lt_zero _ h.1

theorem tmod (hy : y ≠ 0) : IsRemainder x y (x.tmod y) := by
  refine ⟨?_, ?_⟩
  · rw [Int.natAbs_tmod]
    exact Nat.mod_lt _ (Int.natAbs_pos.mpr hy)
  · obtain hx | hx := Int.le_total 0 x
    · exact Int.mul_nonneg hx (Int.tmod_nonneg y hx)
    · have hneg := Int.tmod_nonneg y (Int.neg_nonneg_of_nonpos hx)
      rw [Int.neg_tmod] at hneg
      exact Int.mul_nonneg_of_nonpos_of_nonpos hx (by omega)

/-- Two remainders of one dividend do not lie on different sides of zero. -/
theorem natAbs_sub_lt {r' : Int} (hx : x ≠ 0) (h : IsRemainder x y r) (h' : IsRemainder x y r') :
    (r - r').natAbs < y.natAbs := by
  obtain ⟨hlt, hsign⟩ := h
  obtain ⟨hlt', hsign'⟩ := h'
  obtain hx | hx := Int.lt_or_gt_of_ne hx
  · have := Int.nonpos_of_mul_nonneg_right hsign hx
    have := Int.nonpos_of_mul_nonneg_right hsign' hx
    omega
  · have := Int.nonneg_of_mul_nonneg_right hsign hx
    have := Int.nonneg_of_mul_nonneg_right hsign' hx
    omega

/-- A quotient with its remainder is the truncated one. -/
theorem unique (h : IsRemainder x y r) (hx : x = y * q + r) : q = x.tdiv y ∧ r = x.tmod y := by
  have hsum := Int.mul_tdiv_add_tmod x y
  have hdvd : y ∣ r - x.tmod y := by
    refine ⟨x.tdiv y - q, ?_⟩
    rw [Int.mul_sub]
    omega
  have hr : r = x.tmod y := by
    by_cases hzero : x = 0
    · -- Zero has no sign, but only zero as a remainder.
      subst hzero
      rw [Int.zero_tmod] at hdvd ⊢
      rw [Int.sub_zero] at hdvd
      exact Int.eq_zero_of_dvd_of_natAbs_lt_natAbs hdvd h.1
    · have hlt := natAbs_sub_lt hzero h (tmod h.ne_zero)
      exact Int.sub_eq_zero.mp (Int.eq_zero_of_dvd_of_natAbs_lt_natAbs hdvd hlt)
  refine ⟨Int.eq_of_mul_eq_mul_left h.ne_zero ?_, hr⟩
  omega

end IsRemainder

/-- The exact results of an operator on integers. A quotient leaves a remainder; there is none by
zero. -/
def BinaryOp.Yields (op : BinaryOp) (x y n : Int) : Prop :=
  match op with
  | .add => n = x + y
  | .sub => n = x - y
  | .mul => n = x * y
  | .div => ∃ r, x = y * n + r ∧ IsRemainder x y r
  | .mod => ∃ q, x = y * q + n ∧ IsRemainder x y n
  | _ => False

namespace BinaryOp

variable {x y n : Int}

theorem yields_div_iff : BinaryOp.div.Yields x y n ↔ y ≠ 0 ∧ n = x.tdiv y := by
  constructor
  · rintro ⟨r, hx, hr⟩
    exact ⟨hr.ne_zero, (hr.unique hx).1⟩
  · rintro ⟨hy, rfl⟩
    exact ⟨x.tmod y, (Int.mul_tdiv_add_tmod x y).symm, .tmod hy⟩

theorem yields_mod_iff : BinaryOp.mod.Yields x y n ↔ y ≠ 0 ∧ n = x.tmod y := by
  constructor
  · rintro ⟨q, hx, hr⟩
    exact ⟨hr.ne_zero, (hr.unique hx).2⟩
  · rintro ⟨hy, rfl⟩
    exact ⟨x.tdiv y, (Int.mul_tdiv_add_tmod x y).symm, .tmod hy⟩

/-- The remainder of the least number by -1, which is refused. -/
def IsRefused (op : BinaryOp) (x y : Int) : Prop :=
  op = .mod ∧ x = Int64.minValue.toInt ∧ y = -1

instance (op : BinaryOp) (x y : Int) : Decidable (op.IsRefused x y) :=
  inferInstanceAs (Decidable (_ ∧ _))

end BinaryOp

-- ════════════════════════════════════════════════════════════════════════
-- 64 bits
-- ════════════════════════════════════════════════════════════════════════

/-- A truncated quotient fits, unless it is that of the least number by -1. -/
theorem fitsBits_tdiv {x y : Int} (hx : FitsBits 64 x) (hy : y ≠ 0) :
    FitsBits 64 (x.tdiv y) ↔ ¬(x = Int64.minValue.toInt ∧ y = -1) := by
  have hleast : Int64.minValue.toInt = -9223372036854775808 := rfl
  rw [fitsBits_64] at hx ⊢
  constructor
  · rintro hfits ⟨rfl, rfl⟩
    exact absurd hfits (by decide)
  · intro hnot
    obtain rfl | rfl | hlarge : y = 1 ∨ y = -1 ∨ 2 ≤ y.natAbs := by omega
    · rwa [Int.tdiv_one]
    · rw [Int.tdiv_neg, Int.tdiv_one]
      omega
    · have habs : (x.tdiv y).natAbs = x.natAbs / y.natAbs := Int.natAbs_tdiv x y
      have hhalf : x.natAbs / y.natAbs ≤ x.natAbs / 2 := Nat.div_le_div_left hlarge (by decide)
      omega

/-- A remainder is not larger than the dividend and has its sign. -/
theorem fitsBits_tmod {x : Int} (hx : FitsBits 64 x) (y : Int) : FitsBits 64 (x.tmod y) := by
  rw [fitsBits_64] at hx ⊢
  have habs := Int.natAbs_tmod x y
  have hle := Nat.mod_le x.natAbs y.natAbs
  obtain hsign | hsign := Int.le_total 0 x
  · have := Int.tmod_nonneg y hsign
    omega
  · have hneg := Int.tmod_nonneg y (Int.neg_nonneg_of_nonpos hsign)
    rw [Int.neg_tmod] at hneg
    omega

namespace Value

variable {v w : Value} {x y n : Int} {i : Int64} {op : BinaryOp}

theorem ofInt64_eq_int64 : ofInt64 n = int64 i ↔ i.toInt = n := by
  unfold ofInt64
  constructor
  · intro h
    split at h
    · next hfits =>
      cases h
      exact Int64.toInt_ofInt_of_le hfits.1 hfits.2
    · cases h
  · rintro rfl
    rw [if_pos (fitsBits_toInt i), Int64.ofInt_toInt]

theorem ofInt64_eq_null : ofInt64 n = null ↔ ¬FitsBits 64 n := by
  unfold ofInt64
  split
  · next hfits => exact iff_of_false nofun (not_not_intro hfits)
  · next hfits => exact iff_of_true rfl hfits

theorem ofInt64_cases (n : Int) : ofInt64 n = null ∨ ∃ i, ofInt64 n = int64 i := by
  unfold ofInt64
  split
  · exact .inr ⟨_, rfl⟩
  · exact .inl rfl

/-- The least integer is one of 64 bits. -/
theorem eq_int64_of_toInt? (h : v.toInt? = some Int64.minValue.toInt) : v = int64 .minValue := by
  have hleast : Int64.minValue.toInt = -9223372036854775808 := rfl
  cases v with
  | int64 k =>
    rw [Int64.toInt_inj.mp (Option.some.inj h)]
  | byte k =>
    have := Option.some.inj h
    omega
  | sbyte k =>
    have := Option.some.inj h
    have := k.le_toInt
    omega
  | int16 k =>
    have := Option.some.inj h
    have := k.le_toInt
    omega
  | int32 k =>
    have := Option.some.inj h
    have := k.le_toInt
    omega
  | _ => cases h

/-- The values of the integer kinds are integers. -/
theorem exists_toInt? {k : Kind} (hv : v.kind? = some k) (hk : k.isInteger = true) :
    ∃ x, v.toInt? = some x := by
  cases v <;> cases hv <;> first | exact ⟨_, rfl⟩ | cases hk

/-- Integers of any width are computed alike. -/
theorem arithmetic_of_toInt? (hv : v.toInt? = some x) (hw : w.toInt? = some y) (op : BinaryOp) :
    arithmetic op v w = integerArithmetic op x y := by
  cases v <;> cases hv <;> cases w <;> cases hw <;> rfl

-- ════════════════════════════════════════════════════════════════════════
-- Operators
-- ════════════════════════════════════════════════════════════════════════

/-- The operators that give integers on integers. -/
def integerOperators : List BinaryOp := [.add, .sub, .mul, .div, .mod]

/-- An integer is given exactly if it is the exact result, except for the remainder that is
refused. -/
theorem integerArithmetic_eq_int64 (hop : op ∈ integerOperators) (hx : FitsBits 64 x) :
    integerArithmetic op x y = int64 i ↔ op.Yields x y i.toInt ∧ ¬op.IsRefused x y := by
  cases op with
  | add | sub | mul =>
    refine ofInt64_eq_int64.trans ⟨fun h => ⟨h, fun hrefused => ?_⟩, fun h => h.1⟩
    cases hrefused.1
  | div =>
    rw [integerArithmetic, BinaryOp.yields_div_iff]
    by_cases hy : y = 0
    · simp [hy]
    · rw [if_neg hy, ofInt64_eq_int64]
      exact ⟨fun h => ⟨⟨hy, h⟩, fun hrefused => by cases hrefused.1⟩, fun h => h.1.2⟩
  | mod =>
    rw [integerArithmetic, BinaryOp.yields_mod_iff]
    by_cases hy : y = 0
    · simp [hy]
    · have hquotient := fitsBits_tdiv hx hy
      by_cases hrefused : x = Int64.minValue.toInt ∧ y = -1
      · rw [if_pos (.inr fun hfits => hquotient.mp hfits hrefused)]
        exact ⟨nofun, fun h => absurd ⟨rfl, hrefused⟩ h.2⟩
      · rw [if_neg (by simp [hy, hquotient.mpr hrefused]), ofInt64_eq_int64]
        exact ⟨fun h => ⟨⟨hy, h⟩, fun h => hrefused h.2⟩, fun h => h.1.2⟩
  | _ => exact absurd hop (by decide)

/-- What is no integer is `null`. -/
theorem integerArithmetic_cases (hop : op ∈ integerOperators) (x y : Int) :
    integerArithmetic op x y = null ∨ ∃ i, integerArithmetic op x y = int64 i := by
  cases op with
  | add | sub | mul => exact ofInt64_cases _
  | div | mod =>
    rw [integerArithmetic]
    split
    · exact .inl rfl
    · exact ofInt64_cases _
  | _ => exact absurd hop (by decide)

section Integers

variable (hv : v.toInt? = some x) (hw : w.toInt? = some y)
include hv hw

theorem arithmetic_eq_int64 (hop : op ∈ integerOperators) :
    arithmetic op v w = int64 i ↔ op.Yields x y i.toInt ∧ ¬op.IsRefused x y := by
  rw [arithmetic_of_toInt? hv hw, integerArithmetic_eq_int64 hop (fitsBits_of_toInt? hv)]

theorem arithmetic_eq_null (hop : op ∈ integerOperators) :
    arithmetic op v w = null ↔ (∀ i : Int64, ¬op.Yields x y i.toInt) ∨ op.IsRefused x y := by
  constructor
  · intro hnull
    by_cases hrefused : op.IsRefused x y
    · exact .inr hrefused
    · refine .inl fun i hyields => ?_
      rw [(arithmetic_eq_int64 hv hw hop).mpr ⟨hyields, hrefused⟩] at hnull
      cases hnull
  · intro h
    obtain hnull | ⟨i, hi⟩ := integerArithmetic_cases hop x y
    · rw [arithmetic_of_toInt? hv hw, hnull]
    · obtain ⟨hyields, hrefused⟩ :=
        (arithmetic_eq_int64 hv hw hop).mp ((arithmetic_of_toInt? hv hw op).trans hi)
      exact absurd h (not_or.mpr ⟨fun hnone => hnone i hyields, hrefused⟩)

/-- There is a quotient exactly where there is a remainder. -/
theorem arithmetic_eq_null_of_division (hop : op = .div ∨ op = .mod) :
    arithmetic op v w = null ↔ y = 0 ∨ x = Int64.minValue.toInt ∧ y = -1 := by
  have hx := fitsBits_of_toInt? hv
  rw [arithmetic_of_toInt? hv hw]
  by_cases hy : y = 0
  · obtain rfl | rfl := hop <;> simp [integerArithmetic, hy]
  · have hquotient := fitsBits_tdiv hx hy
    obtain rfl | rfl := hop
    · rw [integerArithmetic, if_neg hy, ofInt64_eq_null, hquotient, not_not]
      exact (or_iff_right hy).symm
    · rw [integerArithmetic]
      split
      · next hnone =>
        have hlarge := hnone.resolve_left hy
        exact iff_of_true rfl (.inr (not_not.mp (mt hquotient.mpr hlarge)))
      · next hsome =>
        have hfits := not_not.mp (not_or.mp hsome).2
        refine iff_of_false (fun hnull => ofInt64_eq_null.mp hnull (fitsBits_tmod hx y)) ?_
        exact not_or.mpr ⟨hy, hquotient.mp hfits⟩

end Integers

theorem opposite_of_toInt? (hv : v.toInt? = some x) : v.opposite = ofInt64 (-x) := by
  cases v <;> cases hv <;> rfl

theorem opposite_eq_null (hv : v.toInt? = some x) : v.opposite = null ↔ v = int64 .minValue := by
  have hx := fitsBits_64.mp (fitsBits_of_toInt? hv)
  rw [opposite_of_toInt? hv, ofInt64_eq_null, fitsBits_64]
  constructor
  · intro hlarge
    have hleast : x = -9223372036854775808 := by omega
    subst hleast
    exact eq_int64_of_toInt? hv
  · rintro rfl
    cases hv
    decide

/-- Operators on integers of any width: an integer is given exactly if it is the exact result, and
`null` exactly if there is no such result in 64 bits; so is the opposite. The remainder of the least
number by -1 is `null` as well, though it is zero. -/
theorem arithmetic_exact {j k : Kind} (hv : v.kind? = some j) (hj : j.isInteger = true)
    (hw : w.kind? = some k) (hk : k.isInteger = true) :
    ∃ x y, v.toInt? = some x ∧ w.toInt? = some y ∧
      (∀ op ∈ integerOperators,
        (∀ i, arithmetic op v w = int64 i ↔ op.Yields x y i.toInt ∧ ¬op.IsRefused x y) ∧
          (arithmetic op v w = null ↔
            (∀ i : Int64, ¬op.Yields x y i.toInt) ∨ op.IsRefused x y)) ∧
      (arithmetic .mod v w = null ↔ y = 0 ∨ x = Int64.minValue.toInt ∧ y = -1) ∧
      (∀ i, v.opposite = int64 i ↔ i.toInt = -x) ∧
      (v.opposite = null ↔ v = int64 .minValue) := by
  obtain ⟨x, hx⟩ := exists_toInt? hv hj
  obtain ⟨y, hy⟩ := exists_toInt? hw hk
  refine ⟨x, y, hx, hy, fun op hop => ⟨fun i => arithmetic_eq_int64 hx hy hop,
    arithmetic_eq_null hx hy hop⟩, arithmetic_eq_null_of_division hx hy (.inr rfl), fun i => ?_,
    opposite_eq_null hx⟩
  rw [opposite_of_toInt? hx, ofInt64_eq_int64]

/-- A positive number by a negative one: the quotient is truncated, and the remainder positive. -/
theorem arithmetic_exact_bytes :
    (byte 200).kind? = some .byte ∧ (sbyte (-7)).kind? = some .sbyte ∧
      arithmetic .div (byte 200) (sbyte (-7)) = int64 (-28) ∧
      arithmetic .mod (byte 200) (sbyte (-7)) = int64 4 ∧ (byte 200).opposite = int64 (-200) := by
  obtain ⟨x, y, hx, hy, hoperators, _, hopposite, _⟩ :=
    arithmetic_exact (v := byte 200) (w := sbyte (-7)) rfl rfl rfl rfl
  cases hx
  cases hy
  have hremainder : IsRemainder 200 (-7) 4 := ⟨by decide, by decide⟩
  exact ⟨rfl, rfl,
    ((hoperators .div (by decide)).1 (-28)).mpr ⟨⟨4, by decide, hremainder⟩, by decide⟩,
    ((hoperators .mod (by decide)).1 4).mpr ⟨⟨-28, by decide, hremainder⟩, by decide⟩,
    (hopposite (-200)).mpr (by decide)⟩

/-- The remainder of the least number by -1 is zero. It is given if the divisor is a decimal, and
`null` if it is an integer. -/
theorem arithmetic_mod_least :
    let least := int64 .minValue
    BinaryOp.mod.Yields Int64.minValue.toInt (-1) (0 : Int64).toInt ∧
      arithmetic .mod least (decimal (.ofWhole true 1 (by decide))) = decimal .zero ∧
      arithmetic .mod least (int32 (-1)) = null := by
  intro least
  exact ⟨⟨-Int64.minValue.toInt, by decide, by decide, by decide⟩, by decide +kernel, by decide⟩

end Value

end ODataQuery
