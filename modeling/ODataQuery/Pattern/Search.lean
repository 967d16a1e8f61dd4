import ODataQuery.Pattern.Reader

/-!
# Searching for patterns

## Main definitions

- `Pattern.occursIn?` — whether a text has an occurrence of a written pattern
- `Pattern.quote` — the pattern whose only occurrences are those of a text
-/

namespace ODataQuery.Pattern

/-- Whether a text has an occurrence of a written pattern; none if the pattern is not one. -/
def occursIn? (pattern text : List Char) : Option Bool := (ofText? pattern).map (·.occursIn text)

/-- Whether the character has a meaning in patterns. -/
def isMeta (c : Char) : Bool :=
  ['\\', '.', '+', '*', '?', '(', ')', '|', '[', ']', '\x7b', '\x7d', '^', '$', '#', '&', '-',
    '~'].contains c

/-- The pattern whose only occurrences are those of a text: a backslash stands in front of every
character with a meaning. -/
def quote (text : List Char) : List Char :=
  text.flatMap fun c => if isMeta c then ['\\', c] else [c]

end ODataQuery.Pattern
