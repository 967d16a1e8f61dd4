import ODataQuery.Text.LetterCase

/-!
# Characters that differ in letter case only

## Main definitions

- `Text.caseVariants` — the characters that differ from a character in letter case only
-/

namespace ODataQuery.Text

/-- The lower-case form of a character if it is one character, else the character. -/
def lowerOf (c : Char) : Char :=
  match lowerChar c with
  | [d] => d
  | _ => c

/-- The upper-case form of a character if it is one character, else the character. -/
def upperOf (c : Char) : Char :=
  match upperChar c with
  | [d] => d
  | _ => c

/-- The form that characters share when they differ in letter case only. The dotless i is on
its own. -/
def caseless (c : Char) : Char := if c.toNat = 0x131 then c else lowerOf (upperOf c)

/-- Characters that share the lower-case or upper-case form of another pair of letters. -/
def thirdVariants : List Char :=
  [0x00B5, 0x017F, 0x01C5, 0x01C8, 0x01CB, 0x01F2, 0x0345, 0x03C2, 0x03D0, 0x03D1, 0x03D5,
    0x03D6, 0x03F0, 0x03F1, 0x03F4, 0x03F5, 0x1C80, 0x1C81, 0x1C82, 0x1C83, 0x1C84, 0x1C85,
    0x1C86, 0x1C87, 0x1C88, 0x1E9B, 0x1FBE, 0x2126, 0x212A, 0x212B].map Char.ofNat

/-- The characters that differ from a character in letter case only, and the character. -/
def caseVariants (c : Char) : List Char :=
  if c.toNat = 0x131 then [c]
  else
    [c, lowerOf c, upperOf c, caseless c, upperOf (lowerOf c)] ++
      thirdVariants.filter fun d => caseless d == caseless c

end ODataQuery.Text
