import ODataQuery.Numeric.FloatText
import ODataQuery.Numeric.NumberText

/-!
# JSON values and their texts

## Main definitions

- `Json` — a JSON value
- `Json.insertField`, `Json.ofFields` — objects with their keys in order
- `Json.sorted` — the value with the keys of every object in order, each once
- `Json.compact` — the text without white space
- `Json.pretty` — the text with one element or member a line, indented by two spaces

## Design notes

Objects are lists of members. Those that this library builds have distinct keys in the order
of their code points, so that equal objects are equal lists; a text that is read can give the
members of an object in any order and a key repeatedly.
-/

namespace ODataQuery

/-- A JSON value. Numbers without fraction and exponent are kept apart. -/
inductive Json where
  | null
  | bool (b : Bool)
  | integer (n : Int)
  | float (x : Float)
  | string (s : String)
  | array (items : List Json)
  | object (members : List (String × Json))

namespace Json

/-- Adds a member in the order of the keys; a member with the same key is replaced. -/
def insertField (key : String) (value : Json) : List (String × Json) → List (String × Json)
  | [] => [(key, value)]
  | (k, v) :: rest =>
    if key < k then (key, value) :: (k, v) :: rest
    else if key = k then (key, value) :: rest
    else (k, v) :: insertField key value rest

/-- The object with these members; of several with one key the last counts. -/
def ofFields (members : List (String × Json)) : Json :=
  object (members.foldl (fun acc m => insertField m.1 m.2 acc) [])

mutual

/-- The value with the keys of every object in order, each once. -/
def sorted : Json → Json
  | array items => array (sortedItems items)
  | object members => object (sortedMembers members [])
  | j => j

/-- Every item with its keys in order. -/
def sortedItems : List Json → List Json
  | [] => []
  | j :: js => j.sorted :: sortedItems js

/-- Adds the members to an object whose keys are in order. -/
def sortedMembers : List (String × Json) → List (String × Json) → List (String × Json)
  | [], acc => acc
  | (k, j) :: ms, acc => sortedMembers ms (insertField k j.sorted acc)

end

-- ════════════════════════════════════════════════════════════════════════
-- Text
-- ════════════════════════════════════════════════════════════════════════

/-- How a character is written inside a string. -/
def escaped (c : Char) : List Char :=
  if c = '"' then ['\\', '"']
  else if c = '\\' then ['\\', '\\']
  else if c = '\n' then ['\\', 'n']
  else if c = '\r' then ['\\', 'r']
  else if c = '\t' then ['\\', 't']
  else if c.toNat = 8 then ['\\', 'b']
  else if c.toNat = 12 then ['\\', 'f']
  else if c.toNat < 32 then
    ['\\', 'u', '0', '0', Nat.digitChar (c.toNat / 16), Nat.digitChar (c.toNat % 16)]
  else [c]

/-- The text of a string. -/
def quote (s : String) : String :=
  String.ofList ('"' :: (s.toList.flatMap escaped ++ ['"']))

/-- The text of a value that has no parts. -/
def scalar : Json → String
  | null => "null"
  | bool b => if b then "true" else "false"
  | integer n => Text.integerText n
  | float x => FloatNotation.json.double x
  | string s => quote s
  | _ => ""

mutual

/-- The text of a value without white space. -/
def compact : Json → String
  | array items => "[" ++ compactItems items ++ "]"
  | object members => "\x7b" ++ compactMembers members ++ "\x7d"
  | j => j.scalar

/-- The texts of the items with commas between them. -/
def compactItems : List Json → String
  | [] => ""
  | [j] => j.compact
  | j :: js => j.compact ++ "," ++ compactItems js

/-- The texts of the members with commas between them. -/
def compactMembers : List (String × Json) → String
  | [] => ""
  | [(k, j)] => quote k ++ ":" ++ j.compact
  | (k, j) :: ms => quote k ++ ":" ++ j.compact ++ "," ++ compactMembers ms

end

/-- The start of a line at a depth. -/
def newLine (depth : Nat) : String := String.ofList ('\n' :: List.replicate (2 * depth) ' ')

mutual

/-- The text of a value at a depth. -/
def prettyAt (depth : Nat) : Json → String
  | array [] => "[]"
  | object [] => "\x7b\x7d"
  | array items => "[" ++ prettyItems (depth + 1) items ++ newLine depth ++ "]"
  | object members => "\x7b" ++ prettyMembers (depth + 1) members ++ newLine depth ++ "\x7d"
  | j => j.scalar

/-- The texts of the items, each on a line of its own. -/
def prettyItems (depth : Nat) : List Json → String
  | [] => ""
  | [j] => newLine depth ++ prettyAt depth j
  | j :: js => newLine depth ++ prettyAt depth j ++ "," ++ prettyItems depth js

/-- The texts of the members, each on a line of its own. -/
def prettyMembers (depth : Nat) : List (String × Json) → String
  | [] => ""
  | [(k, j)] => newLine depth ++ quote k ++ ": " ++ prettyAt depth j
  | (k, j) :: ms =>
    newLine depth ++ quote k ++ ": " ++ prettyAt depth j ++ "," ++ prettyMembers depth ms

end

/-- The text of a value with one element or member a line. -/
def pretty (j : Json) : String := prettyAt 0 j

end Json

end ODataQuery
