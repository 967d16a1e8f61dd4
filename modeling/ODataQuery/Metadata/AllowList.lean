import ODataQuery.Metadata.Entity

/-!
# Allow-lists

The property paths that a query option may refer to. A property of the root entity is a plain
name; a property reached inside a lambda is qualified by the path of the navigation.

## Main definitions

- `AllowList` — a set of paths
- `AllowList.ofList`, `AllowList.insert` — building one
- `AllowList.all` — every path of an entity type
- `AllowList.allows` — membership
-/

namespace ODataQuery

/-- A set of property paths. -/
structure AllowList where
  /-- The paths in order, each once. -/
  paths : List String
deriving DecidableEq

namespace AllowList

/-- The set without paths. -/
def empty : AllowList := ⟨[]⟩

/-- Adds a path to paths in order. -/
def insertPath (path : String) : List String → List String
  | [] => [path]
  | p :: ps =>
    if path < p then path :: p :: ps
    else if path = p then p :: ps
    else p :: insertPath path ps

/-- Adds a path. -/
def insert (allowed : AllowList) (path : String) : AllowList := ⟨insertPath path allowed.paths⟩

/-- The set of these paths. -/
def ofList (paths : List String) : AllowList := paths.foldl insert empty

/-- Whether the set contains a path. -/
def allows (allowed : AllowList) (path : String) : Bool := allowed.paths.contains path

mutual

/-- The paths of an entity type below a path that ends in a slash or is empty. -/
def entityPaths (above : String) : EntityType → List String
  | ⟨_, _, properties⟩ => propertiesPaths above properties

/-- The paths of some properties. -/
def propertiesPaths (above : String) : List Property → List String
  | [] => []
  | p :: ps => propertyPaths above p ++ propertiesPaths above ps

/-- The path of a property, and those of the entities it leads to. -/
def propertyPaths (above : String) : Property → List String
  | ⟨name, _, type, _⟩ => (above ++ name) :: targetPaths (above ++ name ++ "/") type

/-- The paths that a property leads to. -/
def targetPaths (above : String) : PropertyType → List String
  | .collection target _ => entityPaths above target
  | _ => []

end

/-- Every path of an entity type, collections followed to their targets. -/
def all (entity : EntityType) : AllowList := ofList (entityPaths "" entity)

end AllowList

end ODataQuery
