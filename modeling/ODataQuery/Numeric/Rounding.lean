/-!
# Rounding quotients

Division of natural numbers with the quotient rounded to a nearest integer.

## Main definitions

- `RoundedQuotient.nearestEven` — ties go to the even neighbour
-/

namespace ODataQuery

/-- The integer nearest to `n / d`; a tie goes to the even neighbour. -/
def RoundedQuotient.nearestEven (n d : Nat) : Nat :=
  let q := n / d
  let r := n % d
  if 2 * r < d then q
  else if 2 * r = d then q + q % 2
  else q + 1

end ODataQuery
