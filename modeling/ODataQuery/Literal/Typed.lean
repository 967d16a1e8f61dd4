import ODataQuery.Literal.Number
import ODataQuery.Literal.Shape

/-!
# Reading literals of a known kind

## Main definitions

- `Value.ofText?` — reads a complete URL literal as a value of a given kind

## Design notes

`null` is a literal of every kind. Enumeration literals have their qualified form here;
whether the members are declared is for the caller to check.
-/

namespace ODataQuery.Value

/-- Reads binary data. -/
def ofBinaryText? (cs : List Char) : Option Value := do
  let p ← Quoted.prefixed? cs
  if Shape.isBinaryWord p.word then (Base64.decode? p.body).map binary else none

/-- Reads a duration with or without its word. -/
def ofDurationText? (cs : List Char) : Option Value :=
  match Quoted.prefixed? cs with
  | some p =>
    if Shape.isDurationWord p.word then (Duration.ofText? p.body).map duration else none
  | none => (Duration.ofText? cs).map duration

/-- Reads an enumeration literal. -/
def ofEnumText? (cs : List Char) : Option Value := do
  let p ← Quoted.prefixed? cs
  if p.word.contains '.' then
    (Quoted.members? p.body).map fun ms => enumeration ⟨String.ofList p.word, ms⟩
  else none

/-- Reads a complete URL literal as a value of the given kind. -/
def ofText? (kind : Kind) (cs : List Char) : Option Value :=
  if cs = "null".toList then some null
  else match kind with
    | .boolean =>
      if cs = "true".toList then some (boolean true)
      else if cs = "false".toList then some (boolean false)
      else none
    | .string => (Quoted.string? cs).map fun s => string (String.ofList s)
    | .binary => ofBinaryText? cs
    | .date => (Date.ofText? cs).map date
    | .timeOfDay => (TimeOfDay.ofText? cs).map timeOfDay
    | .dateTimeOffset => (Instant.ofText? cs).map dateTimeOffset
    | .duration => ofDurationText? cs
    | .guid => (Guid.ofText? cs).map guid
    | .enumeration => ofEnumText? cs
    | k => ofNumber? k cs

end ODataQuery.Value
