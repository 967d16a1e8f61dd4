import ODataQuery.Numeric.NumberText
import ODataQuery.Numeric.Power
import ODataQuery.Pattern.Basic

/-!
# Reading patterns

The notation of regular expressions.

## Main definitions

- `PatternFlags` — what a group can switch on and off
- `Pattern.ofText?` — reads a pattern

## Design notes

Groups and classes nest; a text of `n` characters nests at most `n` deep. Every item takes a
character, so there are at most `n` of them. There are no references to groups and no look-around.
-/

namespace ODataQuery

/-- What a group of a pattern can switch on and off. -/
structure PatternFlags where
  /-- Letters match in either case. -/
  caseless : Bool := false
  /-- `^` and `$` match at lines. -/
  multiLine : Bool := false
  /-- `.` matches a line feed. -/
  dotAll : Bool := false
  /-- White space and comments in the pattern do not count. -/
  verbose : Bool := false
  /-- Repetitions prefer few characters, which does not affect whether there is an occurrence. -/
  swapped : Bool := false
  /-- Classes cover all of Unicode. -/
  unicode : Bool := true
deriving DecidableEq

namespace PatternFlags

/-- The set of characters that a set of a pattern stands for. -/
def fold (flags : PatternFlags) (set : CharSet) : CharSet :=
  if flags.caseless then .caseless set else set

/-- Switches the flag with this letter. -/
def switch? (flags : PatternFlags) (letter : Char) (on : Bool) : Option PatternFlags :=
  match letter with
  | 'i' => some { flags with caseless := on }
  | 'm' => some { flags with multiLine := on }
  | 's' => some { flags with dotAll := on }
  | 'x' => some { flags with verbose := on }
  | 'U' => some { flags with swapped := on }
  | 'u' => some { flags with unicode := on }
  | _ => none

/-- Reads letters of flags up to a colon or a parenthesis; `seen` holds the letters and the
minus read so far. Gives the flags, whether a letter was read, and the text from the colon or
parenthesis on. No letter may occur twice, and a minus stands once and in front of a letter. -/
def read? (flags : PatternFlags) (seen : List Char) : List Char →
    Option (PatternFlags × Bool × List Char)
  | [] => none
  | c :: cs =>
    if c = ':' ∨ c = ')' then
      if seen.head? = some '-' then none else some (flags, !seen.isEmpty, c :: cs)
    else if seen.contains c then none
    else if c = '-' then read? flags ('-' :: seen) cs
    else (flags.switch? c (!seen.contains '-')).bind fun flags => read? flags (c :: seen) cs

end PatternFlags

namespace Pattern

-- ════════════════════════════════════════════════════════════════════════
-- Escapes
-- ════════════════════════════════════════════════════════════════════════

/-- What a backslash and the characters after it stand for. -/
inductive Escape where
  | literal (c : Char)
  | set (s : CharSet)
  | assertion (a : Assertion)

/-- The ASCII characters with a property. -/
def asciiProperty : CharProperty → CharSet
  | .digit => .range '0' '9'
  | .space => .union (.single ' ') (.range '\t' '\r')
  | .word => .ofRanges [('0', '9'), ('A', 'Z'), ('a', 'z'), ('_', '_')]
  | _ => .empty

/-- The characters with a property, or without it if `negated` is set. Without Unicode there
is no complement, since it would not consist of characters. -/
def propertySet? (flags : PatternFlags) (p : CharProperty) (negated : Bool) : Option CharSet :=
  if flags.unicode then
    some (if negated then .complement (.property p) else .property p)
  else if negated then none
  else some (asciiProperty p)

/-- Whether a backslash in front of the character gives the character itself: an ASCII
character that is neither a letter nor a digit nor an angle bracket. -/
def isEscapable (c : Char) : Bool :=
  c.toNat < 128 && !Text.isAsciiAlphanumeric c && c != '<' && c != '>'

/-- The value of hexadecimal digits. -/
def hexValue? (cs : List Char) : Option Nat :=
  cs.foldlM (fun n c =>
    if Text.isAsciiDigit c then some (n * 16 + (c.toNat - 48))
    else if 'a' ≤ c ∧ c ≤ 'f' then some (n * 16 + (c.toNat - 87))
    else if 'A' ≤ c ∧ c ≤ 'F' then some (n * 16 + (c.toNat - 55))
    else none) 0

/-- The character with a code point written in hexadecimal. -/
def hexChar? (digits : List Char) : Option Char := do
  let n ← hexValue? digits
  if h : n.isValidChar then some (Char.ofNatAux n h) else none

/-- Reads the hexadecimal digits of an escape: so many, or any number of them in braces. -/
def readHex? (count : Nat) : List Char → Option (Char × List Char)
  | '\x7b' :: cs =>
    let digits := cs.takeWhile (· != '\x7d')
    match cs.dropWhile (· != '\x7d') with
    | _ :: rest =>
      if digits.isEmpty then none else (hexChar? digits).map fun c => (c, rest)
    | [] => none
  | cs =>
    if (cs.take count).length = count then
      (hexChar? (cs.take count)).map fun c => (c, cs.drop count)
    else none

/-- The name of a property, spelled in lower case without separators. -/
def propertyName (cs : List Char) : String :=
  String.ofList ((cs.filter fun c => c != '_' && c != '-' && c != ' ').map Char.toLower)

/-- The property of a name. -/
def propertyOf? (name : String) : Option CharSet :=
  match name with
  | "alphabetic" | "alpha" => some (.property .alphabetic)
  | "n" | "number" => some (.property .numeric)
  | "nd" | "decimalnumber" | "digit" => some (.property .digit)
  | "whitespace" | "space" => some (.property .space)
  | "any" => some .all
  | "ascii" => some (.range (Char.ofNat 0) (Char.ofNat 127))
  | _ => none

/-- Reads the name of a property: a letter, or a name in braces that a circumflex can
negate. -/
def readProperty? (negated : Bool) : List Char → Option (CharSet × List Char)
  | '\x7b' :: cs =>
    let inner := cs.takeWhile (· != '\x7d')
    match cs.dropWhile (· != '\x7d') with
    | _ :: rest =>
      let (flipped, name) := match inner with
        | '^' :: name => (!negated, name)
        | name => (negated, name)
      (propertyOf? (propertyName name)).map fun s =>
        (if flipped then .complement s else s, rest)
    | [] => none
  | c :: rest =>
    (propertyOf? (propertyName [c])).map fun s => (if negated then .complement s else s, rest)
  | [] => none

/-- Reads the word that can follow `\b` in braces. -/
def readBoundary (cs : List Char) : Option (Assertion × List Char) :=
  let named (word : String) (a : Assertion) : Option (Assertion × List Char) :=
    let word := ('\x7b' :: word.toList) ++ ['\x7d']
    if word.isPrefixOf cs then some (a, cs.drop word.length) else none
  (named "start" .wordStart).or <| (named "end" .wordEnd).or <|
    (named "start-half" .wordStartHalf).or <| (named "end-half" .wordEndHalf).or <|
    match cs with
    | '\x7b' :: c :: _ => if Text.isAsciiLetter c || c == '-' then none else some (.wordBoundary, cs)
    | _ => some (.wordBoundary, cs)

/-- Reads what follows a backslash. -/
def readEscape? (flags : PatternFlags) : List Char → Option (Escape × List Char)
  | [] => none
  | c :: cs =>
    let property (p : CharProperty) (negated : Bool) :=
      (propertySet? flags p negated).map fun s => (Escape.set s, cs)
    match c with
    | 'd' => property .digit false
    | 'D' => property .digit true
    | 's' => property .space false
    | 'S' => property .space true
    | 'w' => property .word false
    | 'W' => property .word true
    | 'p' => (readProperty? false cs).map fun (s, rest) => (.set s, rest)
    | 'P' => (readProperty? true cs).map fun (s, rest) => (.set s, rest)
    | 'x' => (readHex? 2 cs).map fun (d, rest) => (.literal d, rest)
    | 'u' => (readHex? 4 cs).map fun (d, rest) => (.literal d, rest)
    | 'U' => (readHex? 8 cs).map fun (d, rest) => (.literal d, rest)
    | 'a' => some (.literal (Char.ofNat 7), cs)
    | 'f' => some (.literal (Char.ofNat 12), cs)
    | 't' => some (.literal '\t', cs)
    | 'n' => some (.literal '\n', cs)
    | 'r' => some (.literal '\r', cs)
    | 'v' => some (.literal (Char.ofNat 11), cs)
    | 'A' => some (.assertion .startOfText, cs)
    | 'z' => some (.assertion .endOfText, cs)
    | 'b' => (readBoundary cs).map fun (a, rest) => (.assertion a, rest)
    | 'B' => some (.assertion .notWordBoundary, cs)
    | '<' => some (.assertion .wordStart, cs)
    | '>' => some (.assertion .wordEnd, cs)
    | c => if isEscapable c then some (.literal c, cs) else none

-- ════════════════════════════════════════════════════════════════════════
-- Classes
-- ════════════════════════════════════════════════════════════════════════

/-- The ASCII classes with a name of their own. -/
def asciiClass? (name : String) : Option CharSet :=
  match name with
  | "alnum" => some (.ofRanges [('0', '9'), ('A', 'Z'), ('a', 'z')])
  | "alpha" => some (.ofRanges [('A', 'Z'), ('a', 'z')])
  | "ascii" => some (.range (Char.ofNat 0) (Char.ofNat 127))
  | "blank" => some (.ofRanges [('\t', '\t'), (' ', ' ')])
  | "cntrl" => some (.ofRanges [(Char.ofNat 0, Char.ofNat 31), (Char.ofNat 127, Char.ofNat 127)])
  | "digit" => some (.range '0' '9')
  | "graph" => some (.range '!' '~')
  | "lower" => some (.range 'a' 'z')
  | "print" => some (.range ' ' '~')
  | "punct" => some (.ofRanges [('!', '/'), (':', '@'), ('[', '\x60'), ('\x7b', '~')])
  | "space" => some (.union (.single ' ') (.range '\t' '\r'))
  | "upper" => some (.range 'A' 'Z')
  | "word" => some (.ofRanges [('0', '9'), ('A', 'Z'), ('a', 'z'), ('_', '_')])
  | "xdigit" => some (.ofRanges [('0', '9'), ('A', 'F'), ('a', 'f')])
  | _ => none

/-- Reads a named ASCII class behind its opening bracket. -/
def readAsciiClass? : List Char → Option (CharSet × List Char)
  | ':' :: cs =>
    let (negated, cs) := match cs with
      | '^' :: cs => (true, cs)
      | cs => (false, cs)
    let name := cs.takeWhile (· != ':')
    match cs.dropWhile (· != ':') with
    | ':' :: ']' :: rest =>
      (asciiClass? (String.ofList name)).map fun s => (if negated then .complement s else s, rest)
    | _ => none
  | _ => none

/-- White space and comments are skipped if the pattern is verbose. -/
def skip (flags : PatternFlags) : (inComment : Bool) → List Char → List Char
  | _, [] => []
  | inComment, c :: cs =>
    if flags.verbose then
      if inComment then skip flags (c != '\n') cs
      else if Text.isBlank c then skip flags false cs
      else if c = '#' then skip flags true cs
      else c :: cs
    else c :: cs

/-- Reads one member of a class, or the end of a range. -/
def readMember? (flags : PatternFlags) : List Char → Option (Escape × List Char)
  | [] => none
  | '\\' :: cs =>
    match readEscape? flags cs with
    | some (.assertion _, _) => none
    | found => found
  | c :: cs => some (.literal c, cs)

/-- Reads a member of a class or a range of them. -/
def readRange? (flags : PatternFlags) (cs : List Char) : Option (CharSet × List Char) := do
  let (first, rest) ← readMember? flags cs
  let rest := skip flags false rest
  let alone : Option (CharSet × List Char) := match first with
    | .literal c => some (.single c, rest)
    | .set s => some (s, rest)
    | .assertion _ => none
  match rest with
  | [] => none
  | '-' :: behind =>
    match skip flags false behind with
    | ']' :: _ | '-' :: _ => alone
    | behind => do
      let (last, rest) ← readMember? flags behind
      match first, last with
      | .literal a, .literal b => if a ≤ b then some (.range a b, rest) else none
      | _, _ => none
  | _ => alone

/-- The operators between sets in a class. -/
inductive SetOperator where
  | intersection
  | difference
  | symmetricDifference

/-- Applies an operator between sets, if there is one. -/
def applySets : Option (CharSet × SetOperator) → CharSet → CharSet
  | none, s => s
  | some (a, .intersection), b => .intersection a b
  | some (a, .difference), b => .difference a b
  | some (a, .symmetricDifference), b => .symmetricDifference a b

/-- Takes the circumflex that negates a class. -/
def takeNegation (flags : PatternFlags) (cs : List Char) : Bool × List Char :=
  match skip flags false cs with
  | '^' :: cs => (true, skip flags false cs)
  | cs => (false, cs)

/-- Takes the hyphens at the start of a class, and a bracket that is the first member. -/
def takeLeading (flags : PatternFlags) : Nat → CharSet → List Char → CharSet × List Char
  | 0, s, cs => (s, cs)
  | n + 1, s, cs =>
    match cs with
    | '-' :: rest => takeLeading flags n (.union s (.single '-')) (skip flags false rest)
    | ']' :: rest => if s = .empty then (.single ']', skip flags false rest) else (s, cs)
    | _ => (s, cs)

/-- Reads the rest of a class up to its closing bracket, with at most `limit` members. The set
read so far follows an operator and the set in front of that. -/
def readClassRest? (flags : PatternFlags) :
    (limit : Nat) → Option (CharSet × SetOperator) → CharSet → List Char →
    Option (CharSet × List Char)
  | 0, _, _, _ => none
  | limit + 1, waiting, s, cs =>
    match skip flags false cs with
    | [] => none
    | ']' :: rest => some (applySets waiting s, rest)
    | '[' :: rest =>
      match readAsciiClass? rest with
      | some (named, rest) => readClassRest? flags limit waiting (.union s named) rest
      | none => do
        let (negated, rest) := takeNegation flags rest
        let (leading, rest) := takeLeading flags rest.length .empty rest
        let (inner, rest) ← readClassRest? flags limit none leading rest
        let inner := flags.fold inner
        readClassRest? flags limit waiting (.union s (if negated then .complement inner else inner))
          rest
    | '&' :: '&' :: rest =>
      readClassRest? flags limit (some (applySets waiting s, .intersection)) .empty rest
    | '-' :: '-' :: rest =>
      readClassRest? flags limit (some (applySets waiting s, .difference)) .empty rest
    | '~' :: '~' :: rest =>
      readClassRest? flags limit (some (applySets waiting s, .symmetricDifference)) .empty rest
    | cs => do
      let (member, rest) ← readRange? flags cs
      readClassRest? flags limit waiting (.union s member) rest

/-- Reads a class behind its opening bracket. -/
def readClass? (flags : PatternFlags) (cs : List Char) : Option (CharSet × List Char) := do
  let (negated, rest) := takeNegation flags cs
  let (leading, rest) := takeLeading flags rest.length .empty rest
  let (s, rest) ← readClassRest? flags (cs.length + 1) none leading rest
  let s := flags.fold s
  if negated then if flags.unicode then some (.complement s, rest) else none
  else some (s, rest)

-- ════════════════════════════════════════════════════════════════════════
-- Repetitions
-- ════════════════════════════════════════════════════════════════════════

/-- Reads a count with white space around it. -/
def readCount? (cs : List Char) : Option (Nat × List Char) :=
  let cs := cs.dropWhile Text.isBlank
  let digits := cs.takeWhile Text.isAsciiDigit
  let n := Text.naturalOf digits
  if digits.isEmpty ∨ twoTo 32 ≤ n then none
  else some (n, (cs.dropWhile Text.isAsciiDigit).dropWhile Text.isBlank)

/-- Reads the counts of a repetition behind the opening brace. -/
def readCounts? (cs : List Char) : Option (Nat × Option Nat × List Char) := do
  let (least, rest) ← readCount? cs
  match rest with
  | '\x7d' :: rest => some (least, some least, rest)
  | ',' :: rest =>
    match rest with
    | '\x7d' :: rest => some (least, none, rest)
    | rest => do
      let (most, rest) ← readCount? rest
      match rest with
      | '\x7d' :: rest => if least ≤ most then some (least, some most, rest) else none
      | _ => none
  | _ => none

/-- The text behind the question mark that can follow a repetition. -/
def skipQuestionMark : List Char → List Char
  | '?' :: cs => cs
  | cs => cs

/-- Reads the counts of a repetition, given the sign that starts it. -/
def readRepetition? (sign : Char) (cs : List Char) : Option (Nat × Option Nat × List Char) :=
  match sign with
  | '*' => some (0, none, skipQuestionMark cs)
  | '+' => some (1, none, skipQuestionMark cs)
  | '?' => some (0, some 1, skipQuestionMark cs)
  | _ => (readCounts? cs).map fun (least, most, rest) => (least, most, skipQuestionMark rest)

-- ════════════════════════════════════════════════════════════════════════
-- Groups
-- ════════════════════════════════════════════════════════════════════════

/-- The branches and items of a group that is being read, the last ones first. An item without
a pattern switches flags; nothing can repeat it. -/
structure OpenGroup where
  flags : PatternFlags
  branches : List Pattern
  items : List (Option Pattern)

namespace OpenGroup

/-- A group without content. -/
def opened (flags : PatternFlags) : OpenGroup := ⟨flags, [], []⟩

/-- Adds an item. -/
def push (g : OpenGroup) (p : Pattern) : OpenGroup := { g with items := some p :: g.items }

/-- The sequence of the items. -/
def branch (g : OpenGroup) : Pattern :=
  match g.items.reverse.filterMap id with
  | [] => .empty
  | p :: ps => ps.foldl .sequence p

/-- Ends a branch. -/
def nextBranch (g : OpenGroup) : OpenGroup := ⟨g.flags, g.branch :: g.branches, []⟩

/-- The pattern of the whole group. -/
def pattern (g : OpenGroup) : Pattern :=
  g.branches.foldl (fun p q => .either q p) g.branch

/-- Repeats the last item. -/
def repeatLast? (g : OpenGroup) (least : Nat) (most : Option Nat) : Option OpenGroup :=
  match g.items with
  | some p :: rest => some { g with items := some (.repeated p least most) :: rest }
  | _ => none

end OpenGroup

/-- The pattern of a literal character. -/
def ofChar (flags : PatternFlags) (c : Char) : Pattern := .one (flags.fold (.single c))

/-- The pattern of an escape. -/
def ofEscape (flags : PatternFlags) : Escape → Pattern
  | .literal c => ofChar flags c
  | .set s => .one (flags.fold s)
  | .assertion a => .assertion a

/-- The pattern of a point. Without Unicode a point would not stand for characters. -/
def ofPoint? (flags : PatternFlags) : Option Pattern :=
  if !flags.unicode then none
  else some (.one (if flags.dotAll then .all else .complement (.single '\n')))

/-- What a character that starts a name of a group can be. -/
def opensGroupName (c : Char) : Bool := c == '_' || Text.isAlphabetic c

/-- What a character inside a name of a group can be. -/
def isGroupNameCharacter (c : Char) : Bool :=
  c == '_' || c == '.' || c == '[' || c == ']' || Text.isAlphanumeric c

/-- Reads the name of a group up to its closing angle bracket. -/
def readGroupName? (cs : List Char) : Option (List Char × List Char) :=
  let name := cs.takeWhile (· != '>')
  match cs.dropWhile (· != '>') with
  | _ :: rest =>
    if name.head?.any opensGroupName && name.all isGroupNameCharacter then some (name, rest)
    else none
  | [] => none

/-- How a group opens. -/
inductive Opening where
  | group (flags : PatternFlags) (name : Option (List Char))
  /-- Not a group, but a switch of flags for the rest of the group around it. -/
  | switch (flags : PatternFlags)

/-- Reads what follows an opening parenthesis. -/
def readOpening? (flags : PatternFlags) : List Char → Option (Opening × List Char)
  | '?' :: '=' :: _ | '?' :: '!' :: _ | '?' :: '<' :: '=' :: _ | '?' :: '<' :: '!' :: _ => none
  | '?' :: 'P' :: '<' :: cs | '?' :: '<' :: cs =>
    (readGroupName? cs).map fun (name, rest) => (.group flags (some name), rest)
  | '?' :: cs => do
    let (inner, any, rest) ← flags.read? [] cs
    match rest with
    | ':' :: rest => some (.group inner none, rest)
    | _ :: rest => if any then some (.switch inner, rest) else none
    | [] => none
  | cs => some (.group flags none, cs)

/-- Reads a pattern item by item, with at most `limit` of them: the innermost group first, then
those around it, and the names of the groups so far. -/
def readItems? : (limit : Nat) → (names : List (List Char)) → (inner : OpenGroup) →
    (outer : List OpenGroup) → List Char → Option Pattern
  | 0, _, _, _, _ => none
  | limit + 1, names, g, outer, cs =>
    match skip g.flags false cs with
    | [] => if outer.isEmpty then some g.pattern else none
    | ')' :: rest =>
      match outer with
      | around :: outer => readItems? limit names (around.push g.pattern) outer rest
      | [] => none
    | '|' :: rest => readItems? limit names g.nextBranch outer rest
    | '(' :: rest => do
      let (opening, rest) ← readOpening? g.flags (skip g.flags false rest)
      match opening with
      | .switch flags =>
        readItems? limit names { g with flags, items := none :: g.items } outer rest
      | .group flags name =>
        if name.any names.contains then none
        else readItems? limit (name.toList ++ names) (.opened flags) (g :: outer) rest
    | '[' :: rest => do
      let (s, rest) ← readClass? g.flags rest
      readItems? limit names (g.push (.one s)) outer rest
    | '.' :: rest => do
      let p ← ofPoint? g.flags
      readItems? limit names (g.push p) outer rest
    | '^' :: rest =>
      let a := if g.flags.multiLine then Assertion.startOfLine else .startOfText
      readItems? limit names (g.push (.assertion a)) outer rest
    | '$' :: rest =>
      let a := if g.flags.multiLine then Assertion.endOfLine else .endOfText
      readItems? limit names (g.push (.assertion a)) outer rest
    | '\\' :: rest => do
      let (e, rest) ← readEscape? g.flags rest
      readItems? limit names (g.push (ofEscape g.flags e)) outer rest
    | c :: rest =>
      if c = '*' ∨ c = '+' ∨ c = '?' ∨ c = '\x7b' then do
        let (least, most, rest) ← readRepetition? c rest
        let g ← g.repeatLast? least most
        readItems? limit names g outer rest
      else readItems? limit names (g.push (ofChar g.flags c)) outer rest

/-- Patterns with more steps than this are refused. -/
def maxSize : Nat := 300000

/-- Reads a pattern. -/
def ofText? (cs : List Char) : Option Pattern := do
  let p ← readItems? (cs.length + 1) [] (.opened {}) [] cs
  if p.size ≤ maxSize then some p else none

end Pattern

end ODataQuery
