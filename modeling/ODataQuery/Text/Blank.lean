import ODataQuery.Text.Ranges

/-!
# White space

The `White_Space` property of the Unicode Standard (version 17). White space separates the
tokens of an expression and of a search, and `trim` removes it.

## Main definitions

- `Text.isBlank` — the property
- `Text.trim` — a string without white space at its ends
-/

namespace ODataQuery.Text

/-- White space beyond ASCII. -/
def blankRanges : List CodeRange :=
  [(0x0085, 0x0085), (0x00A0, 0x00A0), (0x1680, 0x1680), (0x2000, 0x200A), (0x2028, 0x2029),
    (0x202F, 0x202F), (0x205F, 0x205F), (0x3000, 0x3000)]

/-- White space: tab, line feed, vertical tab, form feed, carriage return, space, and the
non-ASCII blanks. -/
def isBlank (c : Char) : Bool :=
  if c.toNat < 128 then c.toNat == 32 || (9 ≤ c.toNat && c.toNat ≤ 13)
  else CodeRange.covers blankRanges c

/-- A list of characters without white space at either end. -/
def trim (cs : List Char) : List Char :=
  ((cs.dropWhile isBlank).reverse.dropWhile isBlank).reverse

end ODataQuery.Text
