/-!
# Faults at a place in a text

What is wrong with a text, where, and what the text looks like around that place.

## Main definitions

- `Located` — a fault with its offset and the text around it
- `Located.excerpt` — the text around an offset
- `Located.message` — the fault as a message

## Design notes

Offsets count characters from zero.
-/

namespace ODataQuery

/-- A fault with its place in a text. -/
structure Located (Fault : Type) where
  fault : Fault
  offset : Nat
  context : String
deriving DecidableEq

namespace Located

/-- How many characters of the text a message shows on each side of an offset. -/
def radius : Nat := 12

/-- The text around an offset. -/
def excerpt (text : List Char) (offset : Nat) : String :=
  String.ofList ((text.take (offset + radius)).drop (offset - radius))

/-- A fault at an offset of a text, with the text around it. -/
def within {Fault : Type} (text : List Char) (fault : Fault) (offset : Nat) : Located Fault :=
  ⟨fault, offset, excerpt text offset⟩

/-- The same place with another description of the fault. -/
def map {Fault Other : Type} (f : Fault → Other) (e : Located Fault) : Located Other :=
  ⟨f e.fault, e.offset, e.context⟩

/-- The fault as a message, given the wording of the fault itself. -/
def message {Fault : Type} (wording : Fault → String) (e : Located Fault) : String :=
  wording e.fault ++ " at offset " ++ toString e.offset ++ " near '" ++ e.context ++ "'"

end Located

end ODataQuery
