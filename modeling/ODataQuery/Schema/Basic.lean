import ODataQuery.Metadata.Entity
import ODataQuery.Schema.Definition

/-!
# Schemas

Entity types made of their definitions. Collections refer to entity types by name, and no
entity type may lead back to itself.

## Main definitions

- `SchemaFault` — why definitions are no schema
- `SchemaBuilder` — makes entity types, each of them once
- `SchemaDefinition.entityNamed` — makes an entity type, and those it leads to
- `Schema` — the entity types of a schema file
- `Schema.ofDefinition` — makes all of them

## Design notes

Of several definitions with one name the last counts. Definitions are visited in the order of
the file, each after those it leads to, and the first fault is reported. An entity type that several
collections lead to is made once. While its properties are made it is among those `above` the next
one, so that a collection that leads back to it is found.
-/

namespace ODataQuery

/-- Why definitions are no schema. -/
inductive SchemaFault where
  | cycle (entity : String)
  | unknownEntity (name : String)
  | unknownType (entity property type : String)
  | missingKeys (entity property : String)
  /-- A property with neither a type nor a collection, or with both. -/
  | ambiguous (entity property : String)
deriving DecidableEq

namespace SchemaFault

/-- The fault in words. -/
def message : SchemaFault → String
  | cycle entity => "navigation cycle through '" ++ entity ++ "'"
  | unknownEntity name => "unknown entity '" ++ name ++ "'"
  | unknownType entity property type => entity ++ "." ++ property ++ ": unknown type '" ++ type ++ "'"
  | missingKeys entity property =>
    entity ++ "." ++ property ++ ": collections need source_key and target_key"
  | ambiguous entity property =>
    entity ++ "." ++ property ++ ": give exactly one of type and collection"

end SchemaFault

namespace SchemaDefinition

/-- The definition of an entity type with this name. -/
def entityDefinition? (d : SchemaDefinition) (name : String) : Option EntityDefinition :=
  d.entities.reverse.find? (·.name == name)

/-- The enumeration type with this name. -/
def enumType? (d : SchemaDefinition) (name : String) : Option EnumType :=
  (d.enums.reverse.find? (·.name == name)).map fun e => ⟨e.name, e.members, e.flags⟩

/-- The scalar type with this name; primitive types come first. -/
def scalarType? (d : SchemaDefinition) (name : String) : Option PropertyType :=
  match Kind.ofEdmName? name with
  | some kind => some (.primitive kind)
  | none => (d.enumType? name).map .enumeration

end SchemaDefinition

/-- Makes entity types. Those made so far are kept, the last one in front. -/
abbrev SchemaBuilder := StateT (List EntityType) (Except SchemaFault)

/-- Nothing can be made. -/
def SchemaBuilder.fail {α : Type} (fault : SchemaFault) : SchemaBuilder α := fun _ => .error fault

/-- The entity type with this name. -/
def EntityType.named? (entities : List EntityType) (name : String) : Option EntityType :=
  entities.find? (·.name == name)

namespace SchemaDefinition

/-- The type of a property of an entity type, given how to make the target of a collection. -/
def propertyType (d : SchemaDefinition) (target : String → SchemaBuilder EntityType)
    (owner : String) (p : PropertyDefinition) : SchemaBuilder PropertyType :=
  match p.type, p.collection with
  | some name, none =>
    match d.scalarType? name with
    | some type => return type
    | none => .fail (.unknownType owner p.name name)
  | none, some name =>
    match p.sourceKey, p.targetKey with
    | some sourceKey, some targetKey => do
      let entity ← target name
      return .collection entity ⟨sourceKey, targetKey⟩
    | _, _ => .fail (.missingKeys owner p.name)
  | _, _ => .fail (.ambiguous owner p.name)

/-- A property of an entity type. A collection is never null. -/
def property (d : SchemaDefinition) (target : String → SchemaBuilder EntityType) (owner : String)
    (p : PropertyDefinition) : SchemaBuilder Property := do
  let type ← d.propertyType target owner p
  return ⟨p.name, p.source.getD p.name, type, p.nullable && p.collection.isNone⟩

/-- The entity type of a definition. It is kept once its properties are made. -/
def entityOf (d : SchemaDefinition) (target : String → SchemaBuilder EntityType)
    (e : EntityDefinition) : SchemaBuilder EntityType := do
  let properties ← e.properties.mapM (d.property target e.name)
  let entity : EntityType := ⟨e.name, e.source.getD e.name, properties⟩
  modify (entity :: ·)
  return entity

/-- The definitions that are not being followed. -/
def waiting (d : SchemaDefinition) (above : List String) : List EntityDefinition :=
  d.entities.filter fun e => !above.contains e.name

/-- A definition that is followed no longer waits. -/
theorem length_waiting_lt {d : SchemaDefinition} {above : List String} {name : String}
    {e : EntityDefinition} (habove : name ∉ above) (he : d.entityDefinition? name = some e) :
    (d.waiting (name :: above)).length < (d.waiting above).length := by
  have hname : e.name = name := by simpa using List.find?_some he
  have hmem : e ∈ d.entities := List.mem_reverse.mp (List.mem_of_find?_eq_some he)
  have hfilter : d.waiting (name :: above) = (d.waiting above).filter fun e => !e.name == name := by
    rw [waiting, waiting, List.filter_filter]
    refine List.filter_congr fun e _ => ?_
    simp [Bool.beq_eq_decide_eq]
  rw [hfilter, List.length_filter_lt_length_iff_exists]
  refine ⟨e, List.mem_filter.mpr ⟨hmem, ?_⟩, ?_⟩
  · simpa [hname] using habove
  · simp [hname]

/-- The entity type of a name, reached from those in `above`, whose properties are being made. -/
def entityNamed (d : SchemaDefinition) (above : List String) (name : String) :
    SchemaBuilder EntityType := do
  match EntityType.named? (← get) name with
  | some entity => return entity
  | none =>
    if _ : name ∈ above then .fail (.cycle name)
    else match _ : d.entityDefinition? name with
      | none => .fail (.unknownEntity name)
      | some e => d.entityOf (fun target => d.entityNamed (name :: above) target) e
termination_by (d.waiting above).length
decreasing_by exact length_waiting_lt ‹_› ‹_›

/-- The entity type of the root, after those of all definitions. -/
def rootEntity (d : SchemaDefinition) : SchemaBuilder EntityType := do
  let _ ← d.entities.mapM fun e => d.entityNamed [] e.name
  d.entityNamed [] d.root

end SchemaDefinition

/-- The entity types of a schema file. -/
structure Schema where
  entities : List EntityType
  root : EntityType

namespace Schema

/-- Makes the entity types of a schema file. -/
def ofDefinition (d : SchemaDefinition) : Except SchemaFault Schema := do
  let (root, entities) ← d.rootEntity.run []
  return ⟨entities, root⟩

/-- The entity type with this name. -/
def entity? (schema : Schema) (name : String) : Option EntityType :=
  EntityType.named? schema.entities name

end Schema

end ODataQuery
