import ODataQuery.Json.Reader

/-!
# Schema definitions

The content of a schema file: enumeration types, entity types with their properties, and the
name of the root entity type.

## Main definitions

- `EnumDefinition`, `PropertyDefinition`, `EntityDefinition`, `SchemaDefinition` — the parts
- `SchemaDefinition.ofText?` — reads a schema file

## Design notes

A definition is an object with known keys, each at most once, or an array of the same values in
order. In an object a key can be left out if it has a default or can be null, in an array only
a value with a default, at the end.
-/

namespace ODataQuery

/-- The definition of an enumeration type. -/
structure EnumDefinition where
  name : String
  members : List String
  flags : Bool
deriving DecidableEq

/-- The definition of a property. -/
structure PropertyDefinition where
  name : String
  /-- The name of a primitive or enumeration type. -/
  type : Option String
  source : Option String
  nullable : Bool
  /-- The name of the target of a collection. -/
  collection : Option String
  sourceKey : Option String
  targetKey : Option String
deriving DecidableEq

/-- The definition of an entity type. -/
structure EntityDefinition where
  name : String
  source : Option String
  properties : List PropertyDefinition
deriving DecidableEq

/-- The content of a schema file. -/
structure SchemaDefinition where
  enums : List EnumDefinition
  entities : List EntityDefinition
  root : String
deriving DecidableEq

-- ════════════════════════════════════════════════════════════════════════
-- Fields
-- ════════════════════════════════════════════════════════════════════════

/-- Whether a field of a definition can be left out. -/
inductive Presence where
  | required
  /-- Left out of an object, the field is null. -/
  | nullable
  /-- Left out, the field has a default. -/
  | defaulted
deriving DecidableEq

/-- A field of a definition. -/
structure FieldShape where
  name : String
  presence : Presence

namespace FieldShape

/-- Whether a key occurs twice. -/
def hasRepeatedKey : List (String × Json) → Bool
  | [] => false
  | (k, _) :: ms => ms.any (·.1 == k) || hasRepeatedKey ms

/-- The fields in an object. -/
def ofMembers? (shapes : List FieldShape) (members : List (String × Json)) :
    Option (List (Option Json)) :=
  if hasRepeatedKey members || members.any (fun m => !shapes.any (·.name == m.1)) then none
  else shapes.mapM fun shape =>
    match members.lookup shape.name with
    | some j => some (some j)
    | none => if shape.presence = .required then none else some none

/-- The fields in an array. -/
def ofItems? : List FieldShape → List Json → Option (List (Option Json))
  | [], [] => some []
  | [], _ :: _ => none
  | _ :: shapes, j :: js => (ofItems? shapes js).map (some j :: ·)
  | shape :: shapes, [] =>
    if shape.presence = .defaulted then (ofItems? shapes []).map (none :: ·) else none

/-- The fields of a definition, those that are left out as none. -/
def fields? (shapes : List FieldShape) : Json → Option (List (Option Json))
  | .object members => ofMembers? shapes members
  | .array items => ofItems? shapes items
  | _ => none

end FieldShape

-- ════════════════════════════════════════════════════════════════════════
-- Reading
-- ════════════════════════════════════════════════════════════════════════

namespace SchemaDefinition

/-- A string. -/
def string? : Json → Option String
  | .string s => some s
  | _ => none

/-- A truth value. -/
def bool? : Json → Option Bool
  | .bool b => some b
  | _ => none

/-- A list of things. -/
def list? {α : Type} (item? : Json → Option α) : Json → Option (List α)
  | .array items => items.mapM item?
  | _ => none

/-- A string, or null in its place. -/
def nullableString? : Option Json → Option (Option String)
  | none | some .null => some none
  | some j => (string? j).map some

/-- A thing with a default. -/
def defaulted? {α : Type} (default : α) (read? : Json → Option α) : Option Json → Option α
  | none => some default
  | some j => read? j

/-- Reads the definition of an enumeration type. -/
def enum? (j : Json) : Option EnumDefinition := do
  match ← FieldShape.fields? [⟨"name", .required⟩, ⟨"members", .required⟩, ⟨"flags", .defaulted⟩] j with
  | [some name, some members, flags] =>
    return ⟨← string? name, ← list? string? members, ← defaulted? false bool? flags⟩
  | _ => none

/-- Reads the definition of a property. -/
def property? (j : Json) : Option PropertyDefinition := do
  match ← FieldShape.fields? [⟨"name", .required⟩, ⟨"type", .nullable⟩, ⟨"source", .nullable⟩,
    ⟨"nullable", .defaulted⟩, ⟨"collection", .nullable⟩, ⟨"source_key", .nullable⟩,
    ⟨"target_key", .nullable⟩] j with
  | [some name, type, source, nullable, collection, sourceKey, targetKey] =>
    return ⟨← string? name, ← nullableString? type, ← nullableString? source,
      ← defaulted? true bool? nullable, ← nullableString? collection,
      ← nullableString? sourceKey, ← nullableString? targetKey⟩
  | _ => none

/-- Reads the definition of an entity type. -/
def entity? (j : Json) : Option EntityDefinition := do
  match ← FieldShape.fields?
    [⟨"name", .required⟩, ⟨"source", .nullable⟩, ⟨"properties", .required⟩] j with
  | [some name, source, some properties] =>
    return ⟨← string? name, ← nullableString? source, ← list? property? properties⟩
  | _ => none

/-- Reads the content of a schema file. -/
def ofJson? (j : Json) : Option SchemaDefinition := do
  match ← FieldShape.fields?
    [⟨"enums", .defaulted⟩, ⟨"entities", .required⟩, ⟨"root", .required⟩] j with
  | [enums, some entities, some root] =>
    return ⟨← defaulted? [] (list? enum?) enums, ← list? entity? entities, ← string? root⟩
  | _ => none

/-- Reads the text of a schema file. -/
def ofText? (text : String) : Option SchemaDefinition := (Json.read? text.toList).bind ofJson?

end SchemaDefinition

end ODataQuery
