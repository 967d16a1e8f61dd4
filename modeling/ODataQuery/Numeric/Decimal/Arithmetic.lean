import ODataQuery.Numeric.Decimal.Basic

/-!
# Decimal arithmetic

Each operation computes the exact result and then keeps as many of its digits as a decimal
can hold. There is no result when the part before the point does not fit, or on a division
by zero.

## Main definitions

- `Decimal.add?`, `Decimal.sub?`, `Decimal.mul?`, `Decimal.div?`, `Decimal.rem?`
- `Decimal.round`, `Decimal.floor`, `Decimal.ceiling` — the neighbouring whole numbers
-/

namespace ODataQuery.Decimal

/-- The decimal nearest to `n * 10 ^ (-scale)` for an integer `n`. -/
def fitSigned? (n : Int) (scale : Nat) : Option Decimal := fit? (n < 0) n.natAbs scale

/-- The sum. -/
def add? (a b : Decimal) : Option Decimal :=
  let scale := max a.scale b.scale
  fitSigned? (a.coefficientAt scale + b.coefficientAt scale) scale

/-- The difference. -/
def sub? (a b : Decimal) : Option Decimal :=
  let scale := max a.scale b.scale
  fitSigned? (a.coefficientAt scale - b.coefficientAt scale) scale

/-- The product. -/
def mul? (a b : Decimal) : Option Decimal :=
  fitSigned? (a.signed * b.signed) (a.scale + b.scale)

/-- The quotient, at the largest scale that it fits in. -/
def div? (a b : Decimal) : Option Decimal :=
  if b.coefficient = 0 then none
  else
    (List.range (maxScale + 1)).findSome? fun k =>
      let scale := maxScale - k
      ofParts? (a.negative != b.negative)
        (RoundedQuotient.nearestEven (a.coefficient * tenTo (scale + b.scale))
          (b.coefficient * tenTo a.scale))
        scale

/-- The remainder of the truncated division, with the sign of the dividend. -/
def rem? (a b : Decimal) : Option Decimal :=
  if b.coefficient = 0 then none
  else
    let scale := max a.scale b.scale
    fitSigned? ((a.coefficientAt scale).tmod (b.coefficientAt scale)) scale

/-- The number with the opposite sign; zero is no exception. -/
def neg (d : Decimal) : Decimal := { d with negative := !d.negative }

/-- The whole number whose absolute value is `n`, which is at most the coefficient. -/
def wholeWith (d : Decimal) (negative : Bool) (n : Nat) (h : n ≤ d.coefficient) : Decimal :=
  ofWhole negative n (Nat.lt_of_le_of_lt h d.coefficient_lt)

theorem div_tenTo_add_one_le {n k : Nat} (hk : k ≠ 0) (hn : n % tenTo k ≠ 0) :
    n / tenTo k + 1 ≤ n := by
  obtain ⟨j, rfl⟩ := Nat.exists_eq_succ_of_ne_zero hk
  have hten : 10 ≤ tenTo (j + 1) := by
    have := tenTo_pos j
    rw [tenTo_succ]
    omega
  have hdiv := Nat.div_add_mod n (tenTo (j + 1))
  have hmul : 10 * (n / tenTo (j + 1)) ≤ tenTo (j + 1) * (n / tenTo (j + 1)) :=
    Nat.mul_le_mul_right _ hten
  simp only [Nat.succ_eq_add_one] at *
  omega

/-- The whole part moved away from zero if the fraction is not zero and `away` is set. The
sign is kept. -/
def toWhole (d : Decimal) (away : Bool) : Decimal :=
  let whole := d.coefficient / tenTo d.scale
  if h : d.coefficient % tenTo d.scale ≠ 0 ∧ away = true then
    d.wholeWith d.negative (whole + 1) <| by
      refine div_tenTo_add_one_le (fun hs => ?_) h.1
      apply h.1
      rw [hs]
      exact Nat.mod_one _
  else d.wholeWith d.negative whole (Nat.div_le_self ..)

/-- The largest whole number that is not above the decimal. -/
def floor (d : Decimal) : Decimal := if d.scale = 0 then d else d.toWhole d.negative

/-- The smallest whole number that is not below the decimal. -/
def ceiling (d : Decimal) : Decimal := if d.scale = 0 then d else d.toWhole (!d.negative)

/-- The nearest whole number, halves away from zero; a zero that comes of it is positive. -/
def round (d : Decimal) : Decimal :=
  if d.scale = 0 then d
  else
    let r := d.toWhole (tenTo d.scale ≤ 2 * (d.coefficient % tenTo d.scale))
    if r.coefficient = 0 then zero else r

end ODataQuery.Decimal
