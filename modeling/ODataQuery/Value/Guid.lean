/-!
# Globally unique identifiers

128-bit identifiers, written as 32 hexadecimal digits in groups of 8, 4, 4, 4 and 12.

## Main definitions

- `Guid` — the 32 digits of an identifier
- `Guid.ofText?` — reads an identifier with digits of either case
- `Guid.text` — writes it with lower-case digits
- `Guid.compare` — the order of the digits, which is the order of the bytes
-/

namespace ODataQuery

/-- An identifier. -/
structure Guid where
  digits : List (Fin 16)
  length_digits : digits.length = 32
deriving DecidableEq

namespace Guid

/-- The value of a hexadecimal digit of either case. -/
def digit? (c : Char) : Option (Fin 16) :=
  if '0' ≤ c ∧ c ≤ '9' then some (Fin.ofNat 16 (c.toNat - 48))
  else if 'a' ≤ c ∧ c ≤ 'f' then some (Fin.ofNat 16 (c.toNat - 87))
  else if 'A' ≤ c ∧ c ≤ 'F' then some (Fin.ofNat 16 (c.toNat - 55))
  else none

/-- The lengths of the groups after the first. -/
def laterGroups : List Nat := [4, 4, 4, 12]

/-- Reads `n` digits and, for every further group, a hyphen and as many digits. -/
def readGroups? : Nat → List Nat → List Char → Option (List (Fin 16))
  | 0, [], [] => some []
  | 0, n :: groups, '-' :: cs => readGroups? n groups cs
  | n + 1, groups, c :: cs => do
    let d ← digit? c
    let ds ← readGroups? n groups cs
    return d :: ds
  | _, _, _ => none

/-- The digits in their groups, from the group with `n` digits left. -/
def groupChars : Nat → List Nat → List (Fin 16) → List Char
  | 0, [], _ => []
  | 0, n :: groups, ds => '-' :: groupChars n groups ds
  | _ + 1, _, [] => []
  | n + 1, groups, d :: ds => Nat.digitChar d.val :: groupChars n groups ds

/-- Reads an identifier. -/
def ofText? (cs : List Char) : Option Guid := do
  let ds ← readGroups? 8 laterGroups cs
  if h : ds.length = 32 then some ⟨ds, h⟩ else none

/-- The characters of an identifier. -/
def chars (g : Guid) : List Char := groupChars 8 laterGroups g.digits

/-- The text of an identifier. -/
def text (g : Guid) : String := String.ofList g.chars

/-- The order of the digits from the left. -/
def compare (a b : Guid) : Ordering := compareDigits a.digits b.digits
where
  /-- Compares two lists of digits at the first place where they differ. -/
  compareDigits : List (Fin 16) → List (Fin 16) → Ordering
    | [], [] => .eq
    | [], _ :: _ => .lt
    | _ :: _, [] => .gt
    | d :: ds, e :: es => (Ord.compare d.val e.val).then (compareDigits ds es)

end Guid

end ODataQuery
