import ODataQuery.Numeric.NumberText
import ODataQuery.Numeric.Power
import ODataQuery.Numeric.Rounding

/-!
# Decimal numbers

Decimal numbers with a 96-bit coefficient and up to 28 digits after the point. The digits
after the point are part of the value: `1.5` and `1.50` are different decimals that compare
as equal.

## Main definitions

- `Decimal` — sign, coefficient and scale
- `Decimal.fit?` — a coefficient of any size, rounded to the digits that a decimal can hold
- `Decimal.compare` — the order of the values
- `Decimal.text` — all digits of a decimal
- `Decimal.ofText?`, `Decimal.ofScientific?` — reading

## Design notes

Zero has a sign because negation and rounding upwards keep the one they find; reading and
arithmetic produce the positive zero only.
-/

namespace ODataQuery

/-- The decimal number `coefficient * 10 ^ (-scale)`, negated if `negative` is set. -/
structure Decimal where
  negative : Bool
  coefficient : Nat
  scale : Nat
  coefficient_lt : coefficient < twoTo 96
  scale_le : scale ≤ 28
deriving DecidableEq

namespace Decimal

/-- The largest number of digits after the point. -/
def maxScale : Nat := 28

/-- The decimal with exactly these parts, if they are in range. -/
def ofSignedParts? (negative : Bool) (coefficient scale : Nat) : Option Decimal :=
  if h : coefficient < twoTo 96 ∧ scale ≤ 28 then some ⟨negative, coefficient, scale, h.1, h.2⟩
  else none

/-- The decimal with these parts, if they are in range. Zero takes the positive sign. -/
def ofParts? (negative : Bool) (coefficient scale : Nat) : Option Decimal :=
  ofSignedParts? (negative && coefficient != 0) coefficient scale

/-- The whole number with this sign and absolute value. -/
def ofWhole (negative : Bool) (n : Nat) (h : n < twoTo 96) : Decimal :=
  ⟨negative, n, 0, h, Nat.zero_le _⟩

/-- Positive zero. -/
def zero : Decimal := ofWhole false 0 (by decide)

/-- The decimal nearest to `± coefficient * 10 ^ (-scale)`: as few digits are dropped as
possible, ties go to the even coefficient, and there is none if too many digits stand before
the point. -/
def fit? (negative : Bool) (coefficient scale : Nat) : Option Decimal :=
  (List.range (scale + 1)).findSome? fun dropped =>
    ofParts? negative (RoundedQuotient.nearestEven coefficient (tenTo dropped)) (scale - dropped)

/-- Coefficient and sign as one integer. -/
def signed (d : Decimal) : Int :=
  if d.negative then -(d.coefficient : Int) else d.coefficient

/-- The coefficient that the number has when its scale is raised to `scale`. -/
def coefficientAt (d : Decimal) (scale : Nat) : Int :=
  d.signed * tenTo (scale - d.scale)

/-- Compares the numbers; the scales do not matter. -/
def compare (a b : Decimal) : Ordering :=
  let scale := max a.scale b.scale
  Ord.compare (a.coefficientAt scale) (b.coefficientAt scale)

/-- The decimal that equals an integer. -/
def ofInt? (n : Int) : Option Decimal := ofParts? (n < 0) n.natAbs 0

/-- Drops zeros at the end of a coefficient and lowers the scale with them. -/
def trimZeros (coefficient : Nat) : Nat → Nat × Nat
  | 0 => (coefficient, 0)
  | scale + 1 =>
    if coefficient % 10 = 0 then trimZeros (coefficient / 10) scale
    else (coefficient, scale + 1)

theorem trimZeros_le (coefficient scale : Nat) :
    (trimZeros coefficient scale).1 ≤ coefficient ∧ (trimZeros coefficient scale).2 ≤ scale := by
  induction scale generalizing coefficient with
  | zero => exact ⟨Nat.le_refl _, Nat.le_refl _⟩
  | succ scale ih =>
    unfold trimZeros
    split
    · obtain ⟨h₁, h₂⟩ := ih (coefficient / 10)
      exact ⟨Nat.le_trans h₁ (Nat.div_le_self ..), Nat.le_succ_of_le h₂⟩
    · exact ⟨Nat.le_refl _, Nat.le_refl _⟩

/-- The same number with the smallest possible scale, and positive if it is zero. -/
def normalize (d : Decimal) : Decimal :=
  if d.coefficient = 0 then zero
  else
    have h := trimZeros_le d.coefficient d.scale
    ⟨d.negative, (trimZeros d.coefficient d.scale).1, (trimZeros d.coefficient d.scale).2,
      Nat.lt_of_le_of_lt h.1 d.coefficient_lt, Nat.le_trans h.2 d.scale_le⟩

-- ════════════════════════════════════════════════════════════════════════
-- Text
-- ════════════════════════════════════════════════════════════════════════

/-- All digits of the number, with a digit before the point. -/
def text (d : Decimal) : String :=
  let digits := Text.paddedDigits (d.scale + 1) d.coefficient
  let whole := digits.length - d.scale
  let body := digits.take whole ++ (if d.scale = 0 then [] else '.' :: digits.drop whole)
  String.ofList (if d.negative then '-' :: body else body)

/-- Rounds a coefficient by the first digit that it has no room for, halves upwards. A
coefficient that would grow out of range gives up one more digit. -/
def roundBy (coefficient scale : Nat) (digit : Nat) : Option (Nat × Nat) :=
  if digit < 5 then some (coefficient, scale)
  else if coefficient + 1 < twoTo 96 then some (coefficient + 1, scale)
  else if scale = 0 then none
  else some ((coefficient + 5) / 10, scale - 1)

/-- Appends fraction digits to a coefficient while there is room, and rounds by the next. -/
def appendFraction (coefficient scale : Nat) : List Char → Option (Nat × Nat)
  | [] => some (coefficient, scale)
  | c :: cs =>
    let digit := Text.naturalOf [c]
    let next := coefficient * 10 + digit
    if scale < maxScale && next < twoTo 96 then appendFraction next (scale + 1) cs
    else roundBy coefficient scale digit

/-- The decimal written by the digits before and after the point. -/
def ofText? (t : NumberText) : Option Decimal :=
  let whole := Text.naturalOf t.whole
  if whole < twoTo 96 then do
    let (coefficient, scale) ← appendFraction whole 0 t.fractionDigits
    ofParts? t.negative coefficient scale
  else none

/-- The decimal written with an exponent. A negative exponent deepens the scale, which must
stay in range; a positive one first uses up the scale and then multiplies by the powers of
ten that are left, at most 29 and by at most `10 ^ 19` at a time. -/
def ofScientific? (t : NumberText) : Option Decimal := do
  let d ← ofText? t
  let (negative, digits) ← t.exponent
  let exponent := Text.naturalOf digits
  if twoTo 32 ≤ exponent then none
  else if negative then ofParts? d.negative d.coefficient ((d.scale + exponent) % twoTo 32)
  else if exponent ≤ d.scale then ofParts? d.negative d.coefficient (d.scale - exponent)
  else if 29 < exponent then none
  else
    let first := min exponent 19
    let product ← fit? d.negative (d.coefficient * tenTo first) d.scale
    let product ← fit? product.negative (product.coefficient * tenTo (exponent - first)) product.scale
    return product.normalize

end Decimal

end ODataQuery
