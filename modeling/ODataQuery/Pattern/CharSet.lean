import ODataQuery.Text.Blank
import ODataQuery.Text.CaseVariant
import ODataQuery.Text.Word

/-!
# Sets of characters

What a class of a pattern stands for.

## Main definitions

- `CharSet` — a set of characters
- `CharSet.contains` — membership
-/

namespace ODataQuery

/-- Properties of characters that a pattern can name. -/
inductive CharProperty where
  | digit
  | space
  | word
  | alphabetic
  | numeric
deriving DecidableEq

namespace CharProperty

/-- Whether a character has the property. -/
def holds : CharProperty → Char → Bool
  | digit => Text.isDecimalDigit
  | space => Text.isBlank
  | word => Text.isWordCharacter
  | alphabetic => Text.isAlphabetic
  | numeric => Text.isNumeric

end CharProperty

/-- A set of characters. -/
inductive CharSet where
  | empty
  | range (first last : Char)
  | property (p : CharProperty)
  | complement (s : CharSet)
  | union (a b : CharSet)
  | intersection (a b : CharSet)
  /-- The members of a set and what differs from them in letter case only. -/
  | caseless (s : CharSet)
deriving DecidableEq

namespace CharSet

/-- Whether a character belongs to the set. -/
def contains : CharSet → Char → Bool
  | empty, _ => false
  | range first last, c => first ≤ c && c ≤ last
  | property p, c => p.holds c
  | complement s, c => !s.contains c
  | union a b, c => a.contains c || b.contains c
  | intersection a b, c => a.contains c && b.contains c
  | caseless s, c => (Text.caseVariants c).any s.contains

/-- The set of one character. -/
def single (c : Char) : CharSet := range c c

/-- Every character. -/
def all : CharSet := complement empty

/-- The members of the first set that are not in the second. -/
def difference (a b : CharSet) : CharSet := intersection a (complement b)

/-- The members of exactly one of two sets. -/
def symmetricDifference (a b : CharSet) : CharSet := union (difference a b) (difference b a)

/-- The characters in a list of ranges. -/
def ofRanges (ranges : List (Char × Char)) : CharSet :=
  ranges.foldr (fun r s => union (range r.1 r.2) s) empty

end CharSet

end ODataQuery
