import ODataQuery.Metadata.EnumType

/-!
# Entity types

The declared properties that expressions can refer to, and where their values are stored.

## Main definitions

- `Link` — the pair of keys by which a navigation joins
- `PropertyType`, `Property`, `EntityType` — entity types and their properties
- `EntityType.find?` — the property of a name
-/

namespace ODataQuery

/-- How a collection joins its target: rows of the target whose `targetKey` equals the
`sourceKey` of the row the navigation starts from. -/
structure Link where
  sourceKey : String
  targetKey : String
deriving DecidableEq

mutual

/-- The type of a property: primitive, an enumeration, or a collection of related entities. -/
inductive PropertyType where
  | primitive (kind : Kind)
  | enumeration (type : EnumType)
  | collection (target : EntityType) (link : Link)

/-- A declared property. -/
structure Property where
  /-- The name that expressions use. -/
  name : String
  /-- The column, document field or record key that holds the value. -/
  source : String
  type : PropertyType
  nullable : Bool

/-- An entity type. -/
structure EntityType where
  /-- The qualified name. -/
  name : String
  /-- The table or collection that stores the entities. -/
  source : String
  properties : List Property

end

namespace Property

/-- The kind of a scalar property; a collection has none. -/
def kind? (p : Property) : Option Kind :=
  match p.type with
  | .primitive kind => some kind
  | .enumeration _ => some .enumeration
  | .collection _ _ => none

/-- Whether the property is a collection of related entities. -/
def isCollection (p : Property) : Bool :=
  match p.type with
  | .collection _ _ => true
  | _ => false

end Property

/-- The first property with this name. -/
def EntityType.find? (entity : EntityType) (name : String) : Option Property :=
  entity.properties.find? (·.name == name)

end ODataQuery
