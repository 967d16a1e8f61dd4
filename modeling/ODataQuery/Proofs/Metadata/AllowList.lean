import ODataQuery.Metadata.AllowList

/-!
# Paths of an entity type

The allow-list of an entity type contains the path of every declared property, at any depth of
navigation.

## Main statements

- `AllowList.allows_all_iff` — the allow-list of an entity type is the set of its paths
- `EntityType.path_mem_entityPaths` — the path of a declared property is one of them
- `EntityType.entityPaths_subset_of_collection` — so are the paths of the target of a collection
-/

namespace ODataQuery

namespace AllowList

theorem mem_insertPath {p path : String} {paths : List String} :
    p ∈ insertPath path paths ↔ p = path ∨ p ∈ paths := by
  induction paths with
  | nil => simp [insertPath]
  | cons q qs ih =>
    simp only [insertPath]
    split
    · simp
    · split
      · rename_i hsame
        simp [hsame]
      · simp only [List.mem_cons, ih]
        exact or_left_comm

theorem mem_paths_foldl_insert {p : String} {paths : List String} {allowed : AllowList} :
    p ∈ (paths.foldl insert allowed).paths ↔ p ∈ allowed.paths ∨ p ∈ paths := by
  induction paths generalizing allowed with
  | nil => simp
  | cons q qs ih =>
    rw [List.foldl_cons, ih, insert, mem_insertPath, List.mem_cons]
    constructor
    · rintro ((h | h) | h)
      · exact .inr (.inl h)
      · exact .inl h
      · exact .inr (.inr h)
    · rintro (h | h | h)
      · exact .inl (.inr h)
      · exact .inl (.inl h)
      · exact .inr h

/-- The allow-list of an entity type is the set of its paths. -/
theorem allows_all_iff {entity : EntityType} {p : String} :
    (all entity).allows p = true ↔ p ∈ entityPaths "" entity := by
  simp only [allows, all, ofList, List.contains_iff_mem, mem_paths_foldl_insert]
  simp [empty]

theorem mem_propertiesPaths {above p : String} {properties : List Property} :
    p ∈ propertiesPaths above properties ↔
      ∃ property ∈ properties, p ∈ propertyPaths above property := by
  induction properties with
  | nil => simp [propertiesPaths]
  | cons property properties ih => simp [propertiesPaths, ih]

theorem propertyPaths_eq (above : String) (property : Property) :
    propertyPaths above property =
      (above ++ property.name) :: targetPaths (above ++ property.name ++ "/") property.type := by
  obtain ⟨name, source, type, nullable⟩ := property
  rw [propertyPaths]

theorem mem_entityPaths {above p : String} {entity : EntityType} :
    p ∈ entityPaths above entity ↔ ∃ property ∈ entity.properties,
      p ∈ propertyPaths above property := by
  obtain ⟨name, source, properties⟩ := entity
  rw [entityPaths]
  exact mem_propertiesPaths

end AllowList

namespace EntityType

open AllowList

theorem mem_properties_of_find? {entity : EntityType} {name : String} {property : Property}
    (h : entity.find? name = some property) :
    property ∈ entity.properties ∧ property.name = name :=
  ⟨List.mem_of_find?_eq_some h, by simpa using List.find?_some h⟩

/-- The path of a declared property is one of the paths of its entity type. -/
theorem path_mem_entityPaths {entity : EntityType} {property : Property} (above : String)
    (h : property ∈ entity.properties) :
    above ++ property.name ∈ entityPaths above entity := by
  refine mem_entityPaths.mpr ⟨property, h, ?_⟩
  rw [propertyPaths_eq]
  exact List.mem_cons_self

/-- The paths of the target of a collection are paths of the entity type it belongs to. -/
theorem entityPaths_subset_of_collection {entity target : EntityType} {p : String}
    {property : Property} {link : Link} (above : String) (h : property ∈ entity.properties)
    (htype : property.type = .collection target link)
    (hp : p ∈ entityPaths (above ++ property.name ++ "/") target) :
    p ∈ entityPaths above entity := by
  refine mem_entityPaths.mpr ⟨property, h, ?_⟩
  rw [propertyPaths_eq, htype, targetPaths]
  exact List.mem_cons_of_mem _ hp

end EntityType

end ODataQuery
