import ODataQuery.Value.Json

/-!
# Records

Entity instances in memory. A record maps source keys to primitive values or to lists of
related records.

## Main definitions

- `Slot` — what a record holds under a key
- `Record` — the entries of a record in the order of their keys
- `Record.insert`, `Record.get?` — writing and reading
- `Record.value`, `Record.related` — reading with defaults
- `Record.toJson` — the JSON form of a record

## Design notes

Keys are distinct and in order, so that records with the same content are equal. A missing
key reads as `null` or as an empty collection.
-/

namespace ODataQuery

/-- What a record holds under a key: a primitive value, or records reached by navigation. -/
inductive Slot where
  | value (v : Value)
  | related (items : List (List (String × Slot)))

/-- An entity instance. -/
abbrev Record := List (String × Slot)

namespace Record

/-- The record without entries. -/
def empty : Record := []

/-- Writes an entry in the order of the keys; an entry with the same key is replaced. -/
def insert (key : String) (slot : Slot) : Record → Record
  | [] => [(key, slot)]
  | (k, s) :: rest =>
    if key < k then (key, slot) :: (k, s) :: rest
    else if key = k then (key, slot) :: rest
    else (k, s) :: insert key slot rest

/-- The entry under a key. -/
def get? (record : Record) (key : String) : Option Slot := record.lookup key

/-- The primitive value under a key; `null` if there is none. -/
def value (record : Record) (key : String) : Value :=
  match record.get? key with
  | some (.value v) => v
  | _ => .null

/-- The related records under a key; none if there is no collection. -/
def related (record : Record) (key : String) : List Record :=
  match record.get? key with
  | some (.related items) => items
  | _ => []

mutual

/-- The members of the JSON form. -/
def jsonMembers (options : JsonOptions) : Record → List (String × Json)
  | [] => []
  | (k, s) :: rest => (k, slotJson options s) :: jsonMembers options rest

/-- The JSON form of an entry. -/
def slotJson (options : JsonOptions) : Slot → Json
  | .value v => v.toJson options
  | .related items => .array (relatedJson options items)

/-- The JSON forms of related records. -/
def relatedJson (options : JsonOptions) : List (List (String × Slot)) → List Json
  | [] => []
  | r :: rs => .object (jsonMembers options r) :: relatedJson options rs

end

/-- The JSON form of a record. -/
def toJson (options : JsonOptions) (record : Record) : Json :=
  .object (jsonMembers options record)

end Record

end ODataQuery
