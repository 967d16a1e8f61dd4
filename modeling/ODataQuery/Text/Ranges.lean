/-!
# Sets of characters given by ranges

Character properties of the Unicode Standard are long lists of code point ranges. This file
holds the look-up that the property tables share.

## Main definitions

- `CodeRange` — an inclusive interval of code points
- `CodeRange.covers` — whether a list of intervals contains a character

## Design notes

The tables list non-ASCII code points only. Every property adds its ASCII part as a plain
test in front, so that facts about ASCII text never open a table.
-/

namespace ODataQuery

/-- An inclusive interval of code points, first and last. -/
abbrev CodeRange := Nat × Nat

namespace CodeRange

/-- Whether one of the intervals contains the character. -/
def covers (ranges : List CodeRange) (c : Char) : Bool :=
  ranges.any fun r => r.1 ≤ c.toNat && c.toNat ≤ r.2

end CodeRange

end ODataQuery
