import ODataQuery.Metadata.Entity
import ODataQuery.Text.Blank
import ODataQuery.Text.Split
import ODataQuery.Value.Record

/-!
# Records in JSON

Objects whose keys are the names of properties, read as records of an entity type.

## Main definitions

- `RecordFault` — why an object is no record
- `Record.ofJson` — reads a record
- `Record.listOfJson` — reads an array of records, or a single one
-/

namespace ODataQuery

/-- Why an object is no record of an entity type. -/
inductive RecordFault where
  | notObject (entity : String) (found : Json)
  | unknownProperty (entity name : String)
  | unexpectedValue (entity property : String) (found : Json)

namespace RecordFault

/-- The fault in words. -/
def message : RecordFault → String
  | notObject entity found => entity ++ ": expected an object, found " ++ found.compact
  | unknownProperty entity name => entity ++ ": unknown property '" ++ name ++ "'"
  | unexpectedValue entity property found =>
    entity ++ "." ++ property ++ ": unexpected value " ++ found.compact

end RecordFault

namespace Record

/-- The enumeration value whose members are written with commas between them. -/
def enumOfJson? (type : EnumType) : Json → Option Value
  | .null => some .null
  | .string s =>
    type.value? ((Text.splitOn ',' s.toList).map fun name => String.ofList (Text.trim name))
  | _ => none

mutual

/-- Reads a record. -/
def ofJson (entity : EntityType) : Json → Except RecordFault Record
  | .object members => ofMembers entity empty members
  | j => .error (.notObject entity.name j)

/-- Adds members of an object to a record. -/
def ofMembers (entity : EntityType) (record : Record) :
    List (String × Json) → Except RecordFault Record
  | [] => .ok record
  | (name, j) :: members =>
    match entity.find? name with
    | none => .error (.unknownProperty entity.name name)
    | some property =>
      match slotOfJson property.type j with
      | .ok (some slot) => ofMembers entity (record.insert property.source slot) members
      | .ok none => .error (.unexpectedValue entity.name name j)
      | .error e => .error e

/-- Reads what a record holds under a property; none if the value does not fit its type. -/
def slotOfJson (type : PropertyType) : Json → Except RecordFault (Option Slot)
  | .array items =>
    match type with
    | .collection target _ => (ofItems target items).map fun records => some (.related records)
    | .enumeration enum => .ok ((enumOfJson? enum (.array items)).map .value)
    | .primitive kind => .ok ((Value.ofJson? kind (.array items)).map .value)
  | j =>
    match type with
    | .collection _ _ => .ok (match j with
      | .null => some (.related [])
      | _ => none)
    | .enumeration enum => .ok ((enumOfJson? enum j).map .value)
    | .primitive kind => .ok ((Value.ofJson? kind j).map .value)

/-- Reads records. -/
def ofItems (entity : EntityType) : List Json → Except RecordFault (List Record)
  | [] => .ok []
  | j :: js => do
    let record ← ofJson entity j
    let records ← ofItems entity js
    return record :: records

end

/-- Reads an array of records, or a single one. -/
def listOfJson (entity : EntityType) : Json → Except RecordFault (List Record)
  | .array items => ofItems entity items
  | j => (ofJson entity j).map fun record => [record]

end Record

end ODataQuery
