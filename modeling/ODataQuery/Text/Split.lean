import ODataQuery.Text.Blank

/-!
# Splitting and searching texts

## Main definitions

- `Text.splitOn` — the parts of a text between separators
- `Text.indexOf?` — the position of the first occurrence
-/

namespace ODataQuery.Text

/-- The parts of a text between separators; there is always at least one. -/
def splitOn (separator : Char) : List Char → List (List Char)
  | [] => [[]]
  | c :: cs =>
    if c = separator then [] :: splitOn separator cs
    else match splitOn separator cs with
      | part :: parts => (c :: part) :: parts
      | [] => [[c]]

/-- The number of characters before the first occurrence of `needle`. -/
def indexOf? (needle : List Char) : List Char → Option Nat
  | [] => if needle.isEmpty then some 0 else none
  | c :: cs =>
    if needle.isPrefixOf (c :: cs) then some 0 else (indexOf? needle cs).map (· + 1)

end ODataQuery.Text
