/-!
# Powers of two and ten

The powers that numbers are scaled by and that bound what a fixed number of bits holds.

## Main definitions

- `twoTo`, `tenTo` — the powers
- `FitsBits` — the integers that a signed number of some width holds
-/

namespace ODataQuery

/-- Two to the power `n`. -/
def twoTo (n : Nat) : Nat := Nat.pow 2 n

/-- Ten to the power `n`. -/
def tenTo (n : Nat) : Nat := Nat.pow 10 n

theorem tenTo_succ (n : Nat) : tenTo (n + 1) = tenTo n * 10 := rfl

theorem tenTo_add (m n : Nat) : tenTo (m + n) = tenTo m * tenTo n := Nat.pow_add 10 m n

theorem tenTo_pos (n : Nat) : 0 < tenTo n := Nat.pow_pos (by decide)

/-- A signed number with so many bits, the sign included, can be `n`. -/
def FitsBits (bits : Nat) (n : Int) : Prop :=
  -(twoTo (bits - 1) : Int) ≤ n ∧ n < twoTo (bits - 1)

instance (bits : Nat) (n : Int) : Decidable (FitsBits bits n) :=
  inferInstanceAs (Decidable (_ ∧ _))

end ODataQuery
