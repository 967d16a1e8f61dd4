import Mathlib.Data.List.Nodup
import Mathlib.Logic.Relation
import ODataQuery.Proofs.Lists
import ODataQuery.Proofs.Result
import ODataQuery.Query.Check

/-!
# Which definitions are a schema

Definitions are made into entity types depth first, each entity type after those that its collections
lead to. This succeeds exactly if the definitions lead to one another without a cycle.

## Main definitions

- `SchemaDefinition.Leads` — a collection of one entity type has another one as its target
- `SchemaDefinition.IsWellFormed` — names differ, and each property can be made on its own
- `EntityDefinition.Describes` — an entity type is the one that is defined
- `SchemaDefinition.Grounded` — entity types, each made after those it leads to
- `Schema.Realizes` — a schema has the entity types that are defined

## Main statements

- `SchemaDefinition.entityNamed_grounded` — making an entity type keeps entity types grounded
- `SchemaDefinition.acc_of_grounded` — grounded entity types lead to no cycle
- `SchemaDefinition.exists_entityNamed` — without a cycle every entity type can be made
- `Schema.ofText_iff_acyclic` — a schema file is read exactly if it has no cycle

## Design notes

That the construction ends is part of its definition: what is followed from an entity type is no
longer waiting.
-/

namespace ODataQuery

-- ════════════════════════════════════════════════════════════════════════
-- The graph of definitions
-- ════════════════════════════════════════════════════════════════════════

/-- The names of the entity types that the collections of an entity type have as their targets. -/
def EntityDefinition.targets (e : EntityDefinition) : List String :=
  e.properties.filterMap (·.collection)

/-- A property can be made, if there is the target of its collection: it has either a type that is
known, or a collection with both keys. -/
inductive PropertyDefinition.IsWellFormed (d : SchemaDefinition) (p : PropertyDefinition) : Prop
  | scalar {name : String} (htype : p.type = some name) (hcollection : p.collection = none)
      (hknown : (Kind.ofEdmName? name).isSome ∨ ∃ enum ∈ d.enums, enum.name = name)
  | collection {name sourceKey targetKey : String} (htype : p.type = none)
      (hcollection : p.collection = some name) (hsource : p.sourceKey = some sourceKey)
      (htarget : p.targetKey = some targetKey)

namespace SchemaDefinition

/-- Whether an entity type of this name is defined. -/
def Declares (d : SchemaDefinition) (name : String) : Prop := ∃ e ∈ d.entities, e.name = name

instance (d : SchemaDefinition) (name : String) : Decidable (d.Declares name) :=
  inferInstanceAs (Decidable (∃ e ∈ d.entities, e.name = name))

/-- An entity type has a collection with another entity type as its target. -/
def Leads (d : SchemaDefinition) (name target : String) : Prop :=
  ∃ e ∈ d.entities, e.name = name ∧ target ∈ e.targets

/-- The entity types have different names, and their properties can be made. -/
structure IsWellFormed (d : SchemaDefinition) : Prop where
  nodup : (d.entities.map (·.name)).Nodup
  property : ∀ e ∈ d.entities, ∀ p ∈ e.properties, p.IsWellFormed d

/-- The root and all targets of collections are defined. -/
structure IsClosed (d : SchemaDefinition) : Prop where
  root : d.Declares d.root
  target : ∀ e ∈ d.entities, ∀ target ∈ e.targets, d.Declares target

variable {d : SchemaDefinition} {name target : String}

theorem mem_of_entityDefinition? {e : EntityDefinition} (h : d.entityDefinition? name = some e) :
    e ∈ d.entities ∧ e.name = name :=
  ⟨List.mem_reverse.mp (List.mem_of_find?_eq_some h), by simpa using List.find?_some h⟩

theorem exists_of_declares (h : d.Declares name) : ∃ e, d.entityDefinition? name = some e := by
  obtain ⟨e, he, hname⟩ := h
  rw [← Option.isSome_iff_exists, entityDefinition?, List.find?_isSome]
  exact ⟨e, List.mem_reverse.mpr he, beq_iff_eq.mpr hname⟩

/-- Definitions of different names are found by their names. -/
theorem entityDefinition?_of_mem (hnodup : (d.entities.map (·.name)).Nodup) {e : EntityDefinition}
    (he : e ∈ d.entities) : d.entityDefinition? e.name = some e := by
  obtain ⟨found, hfound⟩ := exists_of_declares ⟨e, he, rfl⟩
  obtain ⟨hmem, hname⟩ := mem_of_entityDefinition? hfound
  rw [hfound, List.inj_on_of_nodup_map hnodup hmem he hname]

theorem isSome_scalarType? (h : (Kind.ofEdmName? name).isSome ∨ ∃ enum ∈ d.enums, enum.name = name) :
    ∃ type, d.scalarType? name = some type := by
  rw [scalarType?]
  split
  · exact ⟨_, rfl⟩
  · next hkind =>
    rw [hkind] at h
    obtain ⟨enum, henum, hname⟩ := h.resolve_left (by simp)
    have hfind : (d.enums.reverse.find? (·.name == name)).isSome = true := by
      rw [List.find?_isSome]
      exact ⟨enum, List.mem_reverse.mpr henum, beq_iff_eq.mpr hname⟩
    obtain ⟨found, hfound⟩ := Option.isSome_iff_exists.mp hfind
    rw [enumType?, hfound]
    exact ⟨_, rfl⟩

end SchemaDefinition

-- ════════════════════════════════════════════════════════════════════════
-- What is made of a definition
-- ════════════════════════════════════════════════════════════════════════

section Describing

variable (d : SchemaDefinition) (resolve : String → Option EntityType)

/-- The property is the one that is defined. The target of a collection is the entity type that its
name resolves to. -/
structure PropertyDefinition.Describes (p : PropertyDefinition) (property : Property) : Prop where
  name : property.name = p.name
  source : property.source = p.source.getD p.name
  nullable : property.nullable = (p.nullable && p.collection.isNone)
  scalar : p.collection = none → ∃ name, p.type = some name ∧ d.scalarType? name = some property.type
  collection : ∀ target ∈ p.collection, ∃ entity link, resolve target = some entity ∧
    p.sourceKey = some link.sourceKey ∧ p.targetKey = some link.targetKey ∧
    property.type = .collection entity link

/-- The entity type is the one that is defined. -/
structure EntityDefinition.Describes (e : EntityDefinition) (entity : EntityType) : Prop where
  name : entity.name = e.name
  source : entity.source = e.source.getD e.name
  properties : List.Forall₂ (PropertyDefinition.Describes d resolve) e.properties entity.properties

end Describing

namespace EntityType

/-- Entity types that were made are kept. -/
def Keeps (entities entities' : List EntityType) : Prop :=
  ∀ name entity, named? entities name = some entity → named? entities' name = some entity

variable {entities entities' : List EntityType} {entity : EntityType} {name : String}

theorem name_of_named? (h : named? entities name = some entity) : entity.name = name := by
  simpa using List.find?_some h

theorem mem_of_named? (h : named? entities name = some entity) : entity ∈ entities :=
  List.mem_of_find?_eq_some h

theorem exists_named? (h : entity ∈ entities) : ∃ found, named? entities entity.name = some found := by
  rw [← Option.isSome_iff_exists, named?, List.find?_isSome]
  exact ⟨entity, h, beq_self_eq_true entity.name⟩

theorem named?_cons_self (entity : EntityType) (entities : List EntityType) :
    named? (entity :: entities) entity.name = some entity :=
  List.find?_cons_of_pos (by simp)

theorem named?_cons_of_ne (h : entity.name ≠ name) :
    named? (entity :: entities) name = named? entities name :=
  List.find?_cons_of_neg (by simpa using h)

theorem Keeps.refl (entities : List EntityType) : Keeps entities entities := fun _ _ => id

theorem Keeps.trans {entities'' : List EntityType} (h : Keeps entities entities')
    (h' : Keeps entities' entities'') : Keeps entities entities'' :=
  fun name entity hentity => h' name entity (h name entity hentity)

theorem Keeps.cons (h : named? entities entity.name = none) : Keeps entities (entity :: entities) := by
  intro name found hfound
  rw [named?_cons_of_ne]
  · exact hfound
  · rintro rfl
    rw [h] at hfound
    cases hfound

end EntityType

open EntityType (named? Keeps)

theorem PropertyDefinition.Describes.mono {d : SchemaDefinition}
    {entities entities' : List EntityType} {p : PropertyDefinition} {property : Property}
    (hkeeps : Keeps entities entities') (h : p.Describes d (named? entities) property) :
    p.Describes d (named? entities') property := by
  refine ⟨h.name, h.source, h.nullable, h.scalar, fun target htarget => ?_⟩
  obtain ⟨entity, link, hresolve, hlink⟩ := h.collection target htarget
  exact ⟨entity, link, hkeeps _ _ hresolve, hlink⟩

theorem EntityDefinition.Describes.mono {d : SchemaDefinition}
    {entities entities' : List EntityType} {e : EntityDefinition} {entity : EntityType}
    (hkeeps : Keeps entities entities') (h : e.Describes d (named? entities) entity) :
    e.Describes d (named? entities') entity :=
  ⟨h.name, h.source, h.properties.imp fun _ _ => PropertyDefinition.Describes.mono hkeeps⟩

/-- The targets of the collections of an entity type resolve. -/
theorem EntityDefinition.Describes.resolve {d : SchemaDefinition}
    {resolve : String → Option EntityType} {e : EntityDefinition} {entity : EntityType}
    (h : e.Describes d resolve entity) {target : String} (htarget : target ∈ e.targets) :
    ∃ found, resolve target = some found := by
  obtain ⟨p, hp, hcollection⟩ := List.mem_filterMap.mp htarget
  obtain ⟨i, hi⟩ := List.getElem?_of_mem hp
  obtain ⟨property, _, hdescribes⟩ := Lists.exists_getElem?_of_forall₂ h.properties hi
  obtain ⟨found, _, hresolve, _⟩ := hdescribes.collection target hcollection
  exact ⟨found, hresolve⟩

namespace SchemaDefinition

/-- Entity types of different names, each made after those it leads to. -/
inductive Grounded (d : SchemaDefinition) : List EntityType → Prop
  | nil : Grounded d []
  | cons {entities : List EntityType} {entity : EntityType} {e : EntityDefinition}
      (h : Grounded d entities) (hfresh : named? entities entity.name = none)
      (he : d.entityDefinition? entity.name = some e)
      (hdescribes : e.Describes d (named? entities) entity) : Grounded d (entity :: entities)

variable {d : SchemaDefinition} {entities entities' : List EntityType} {name owner : String}

-- ════════════════════════════════════════════════════════════════════════
-- Grounded entity types
-- ════════════════════════════════════════════════════════════════════════

/-- Each of them is the one that is defined. -/
theorem Grounded.describes (h : d.Grounded entities) {entity : EntityType}
    (hentity : named? entities name = some entity) :
    ∃ e, d.entityDefinition? name = some e ∧ e.Describes d (named? entities) entity := by
  induction h with
  | nil => cases hentity
  | @cons entities first e h hfresh he hdescribes ih =>
    by_cases hname : first.name = name
    · subst hname
      rw [EntityType.named?_cons_self] at hentity
      cases hentity
      exact ⟨e, he, hdescribes.mono (.cons hfresh)⟩
    · rw [EntityType.named?_cons_of_ne hname] at hentity
      obtain ⟨e', he', hdescribes'⟩ := ih hentity
      exact ⟨e', he', hdescribes'.mono (.cons hfresh)⟩

theorem Grounded.nodup (h : d.Grounded entities) : (entities.map (·.name)).Nodup := by
  induction h with
  | nil => exact List.nodup_nil
  | cons h hfresh he hdescribes ih =>
    rw [List.map_cons, List.nodup_cons]
    refine ⟨fun hmem => ?_, ih⟩
    obtain ⟨other, hother, hname⟩ := List.mem_map.mp hmem
    rw [named?, List.find?_eq_none] at hfresh
    exact hfresh other hother (by simpa using hname)

/-- They lead to one another in no cycle. -/
theorem acc_of_grounded (hnodup : (d.entities.map (·.name)).Nodup) (h : d.Grounded entities)
    {entity : EntityType} (hentity : named? entities name = some entity) :
    Acc (fun target name => d.Leads name target) name := by
  induction h generalizing name entity with
  | nil => cases hentity
  | @cons entities first e h hfresh he hdescribes ih =>
    by_cases hname : first.name = name
    · refine .intro name fun target htarget => ?_
      obtain ⟨e', he', hname', htarget⟩ := htarget
      have hsame := entityDefinition?_of_mem hnodup he'
      rw [hname', ← hname, he] at hsame
      cases hsame
      obtain ⟨found, hfound⟩ := hdescribes.resolve htarget
      exact ih hfound
    · rw [EntityType.named?_cons_of_ne hname] at hentity
      exact ih hentity

/-- Nothing is its own successor where descent ends. -/
theorem not_transGen_of_acc {α : Type} {r : α → α → Prop} {a : α}
    (h : Acc (fun b a => r a b) a) : ¬Relation.TransGen r a a := by
  have hacc := h.transGen
  induction hacc with
  | intro a _ ih =>
    intro hcycle
    exact ih a (Relation.transGen_swap.mp hcycle) h hcycle

-- ════════════════════════════════════════════════════════════════════════
-- Making entity types
-- ════════════════════════════════════════════════════════════════════════

/-- What holds while entity types are made: they are grounded, and those whose properties are being
made are not among them. -/
structure Open (d : SchemaDefinition) (above : List String) (entities : List EntityType) : Prop where
  grounded : d.Grounded entities
  above : ∀ name ∈ above, named? entities name = none

/-- Making an entity type keeps what was made, and adds the entity type of the name. -/
def Makes (d : SchemaDefinition) (above : List String) (make : String → SchemaBuilder EntityType) :
    Prop :=
  ∀ {name : String} {entities entities' : List EntityType} {entity : EntityType},
    d.Open above entities → make name entities = .ok (entity, entities') →
      d.Open above entities' ∧ Keeps entities entities' ∧ named? entities' name = some entity

variable {above : List String} {make : String → SchemaBuilder EntityType}

section Property

variable {p : PropertyDefinition} {target sourceKey targetKey : String}

/-- A property of a known type is made. -/
theorem property_scalar {type : PropertyType} (htype : p.type = some name)
    (hcollection : p.collection = none) (hknown : d.scalarType? name = some type) :
    d.property make owner p = pure ⟨p.name, p.source.getD p.name, type, p.nullable⟩ := by
  simp only [property, propertyType, htype, hcollection, hknown, Option.isNone_none, Bool.and_true]
  rfl

/-- A collection is made once its target is. -/
theorem property_collection (htype : p.type = none) (hcollection : p.collection = some target)
    (hsource : p.sourceKey = some sourceKey) (htarget : p.targetKey = some targetKey) :
    d.property make owner p = (do
      let entity ← make target
      return ⟨p.name, p.source.getD p.name, .collection entity ⟨sourceKey, targetKey⟩, false⟩) := by
  simp only [property, propertyType, htype, hcollection, hsource, htarget, Option.isNone_some,
    Bool.and_false, bind_assoc, pure_bind]

/-- A property that is made is the one that is defined, if the target of its collection is kept. -/
theorem property_describes {property : Property} (hwell : p.IsWellFormed d)
    (h : d.property make owner p entities = .ok (property, entities')) :
    (entities' = entities ∧ p.Describes d (named? entities') property) ∨
      ∃ target entity, make target entities = .ok (entity, entities') ∧
        (named? entities' target = some entity → p.Describes d (named? entities') property) := by
  cases hwell with
  | scalar htype hcollection hknown =>
    obtain ⟨type, htype'⟩ := isSome_scalarType? hknown
    rw [property_scalar htype hcollection htype'] at h
    cases h
    refine .inl ⟨rfl, rfl, rfl, ?_, fun _ => ⟨_, htype, htype'⟩, ?_⟩
    · rw [hcollection, Option.isNone_none, Bool.and_true]
    · rw [hcollection]
      nofun
  | @collection target sourceKey targetKey htype hcollection hsource htarget =>
    rw [property_collection htype hcollection hsource htarget] at h
    obtain ⟨entity, entities₁, hmake, h⟩ := Result.run_bind_eq_ok.mp h
    cases h
    refine .inr ⟨target, entity, hmake, fun hnamed => ⟨rfl, rfl, ?_, ?_, ?_⟩⟩
    · rw [hcollection, Option.isNone_some, Bool.and_false]
    · rw [hcollection]
      nofun
    · rw [hcollection]
      rintro _ ⟨⟩
      exact ⟨entity, ⟨sourceKey, targetKey⟩, hnamed, hsource, htarget, rfl⟩

end Property

theorem entityOf_eq_ok {e : EntityDefinition} {entity : EntityType} :
    d.entityOf make e entities = .ok (entity, entities') ↔ ∃ properties entities₁,
      e.properties.mapM (d.property make e.name) entities = .ok (properties, entities₁) ∧
        entity = ⟨e.name, e.source.getD e.name, properties⟩ ∧ entities' = entity :: entities₁ := by
  constructor
  · intro h
    obtain ⟨properties, entities₁, hproperties, h⟩ := Result.run_bind_eq_ok.mp h
    cases h
    exact ⟨properties, entities₁, hproperties, rfl, rfl⟩
  · rintro ⟨properties, entities₁, hproperties, rfl, rfl⟩
    exact Result.run_bind_eq_ok.mpr ⟨properties, entities₁, hproperties, rfl⟩

/-- An entity type that was made is at hand. -/
theorem entityNamed_of_named? {entity : EntityType} (h : named? entities name = some entity) :
    d.entityNamed above name entities = .ok (entity, entities) := by
  rw [entityNamed, Result.run_bind, Result.run_get, Result.ok_bind]
  simp only [h]
  rfl

/-- A collection must not lead back to an entity type whose properties are being made. -/
theorem entityNamed_of_mem (h : named? entities name = none) (habove : name ∈ above) :
    d.entityNamed above name entities = .error (.cycle name) := by
  rw [entityNamed, Result.run_bind, Result.run_get, Result.ok_bind]
  simp only [h, dif_pos habove]
  rfl

theorem entityNamed_of_undeclared (h : named? entities name = none) (habove : name ∉ above)
    (he : d.entityDefinition? name = none) :
    d.entityNamed above name entities = .error (.unknownEntity name) := by
  rw [entityNamed, Result.run_bind, Result.run_get, Result.ok_bind]
  simp only [h, dif_neg habove]
  cases hfound : d.entityDefinition? name with
  | none => rfl
  | some e => exact absurd (hfound.symm.trans he) (Option.some_ne_none e)

/-- Every other entity type is made of its definition. -/
theorem entityNamed_of_declared {e : EntityDefinition} (h : named? entities name = none)
    (habove : name ∉ above) (he : d.entityDefinition? name = some e) :
    d.entityNamed above name entities = d.entityOf (d.entityNamed (name :: above)) e entities := by
  rw [entityNamed, Result.run_bind, Result.run_get, Result.ok_bind]
  simp only [h, dif_neg habove]
  cases hfound : d.entityDefinition? name with
  | none => exact absurd (he.symm.trans hfound) (Option.some_ne_none e)
  | some found =>
    cases he.symm.trans hfound
    rfl

/-- Making the properties of an entity type keeps entity types grounded, if making the targets does. -/
theorem properties_grounded (hmake : d.Makes above make) {ps : List PropertyDefinition}
    (hwell : ∀ p ∈ ps, p.IsWellFormed d) {properties : List Property} (hopen : d.Open above entities)
    (h : ps.mapM (d.property make owner) entities = .ok (properties, entities')) :
    d.Open above entities' ∧ Keeps entities entities' ∧
      List.Forall₂ (PropertyDefinition.Describes d (named? entities')) ps properties := by
  refine Result.forall₂_of_run_mapM (I := d.Open above) (R := Keeps)
    (P := fun p property s => p.Describes d (named? s) property)
    Keeps.refl Keeps.trans PropertyDefinition.Describes.mono ?_ hopen h
  intro p hp property entities entities' hopen hproperty
  obtain ⟨rfl, hdescribes⟩ | ⟨target, found, hfound, hdescribes⟩ :=
    property_describes (hwell p hp) hproperty
  · exact ⟨hopen, .refl _, hdescribes⟩
  · obtain ⟨hopen', hkeeps, hnamed⟩ := hmake hopen hfound
    exact ⟨hopen', hkeeps, hdescribes hnamed⟩

/-- Making an entity type, with those it leads to, keeps entity types grounded. -/
theorem entityNamed_grounded (hwell : d.IsWellFormed) (above : List String) :
    d.Makes above (d.entityNamed above) := by
  intro name entities entities' entity hopen h
  induction above, name using entityNamed.induct d generalizing entities entities' entity with
  | case1 above name ih =>
    cases hfound : named? entities name with
    | some found =>
      rw [entityNamed_of_named? hfound] at h
      cases h
      exact ⟨hopen, .refl _, hfound⟩
    | none =>
      by_cases habove : name ∈ above
      · rw [entityNamed_of_mem hfound habove] at h
        cases h
      · cases he : d.entityDefinition? name with
        | none =>
          rw [entityNamed_of_undeclared hfound habove he] at h
          cases h
        | some e =>
          rw [entityNamed_of_declared hfound habove he] at h
          obtain ⟨properties, entities₁, hproperties, rfl, rfl⟩ := entityOf_eq_ok.mp h
          obtain ⟨hmem, rfl⟩ := mem_of_entityDefinition? he
          -- While its properties are made, the entity type is not among those that are made.
          have hopen' : d.Open (e.name :: above) entities :=
            ⟨hopen.grounded, List.forall_mem_cons.mpr ⟨hfound, hopen.above⟩⟩
          obtain ⟨hopen₁, hkeeps, hdescribes⟩ :=
            properties_grounded (ih habove e he _) (hwell.property e hmem) hopen' hproperties
          obtain ⟨hfresh, habove₁⟩ := List.forall_mem_cons.mp hopen₁.above
          refine ⟨⟨.cons hopen₁.grounded hfresh he ⟨rfl, rfl, hdescribes⟩, fun name hname => ?_⟩,
            hkeeps.trans (.cons hfresh), EntityType.named?_cons_self _ _⟩
          rw [EntityType.named?_cons_of_ne]
          · exact habove₁ name hname
          · rintro rfl
            exact habove hname

/-- Without a cycle every entity type can be made that is defined. -/
theorem exists_entityNamed (hwell : d.IsWellFormed)
    (htargets : ∀ e ∈ d.entities, ∀ target ∈ e.targets, d.Declares target)
    (hacyclic : ∀ name, ¬Relation.TransGen d.Leads name name) (hname : d.Declares name)
    (habove : ∀ other ∈ above, Relation.TransGen d.Leads other name) (entities : List EntityType) :
    ∃ r, d.entityNamed above name entities = .ok r := by
  induction above, name using entityNamed.induct d generalizing entities with
  | case1 above name ih =>
    have hnot : name ∉ above := fun hmem => hacyclic name (habove name hmem)
    obtain ⟨e, he⟩ := exists_of_declares hname
    obtain ⟨hmem, hsame⟩ := mem_of_entityDefinition? he
    have hproperty : ∀ p ∈ e.properties, ∀ s,
        ∃ r, d.property (d.entityNamed (name :: above)) e.name p s = .ok r := by
      intro p hp s
      cases hwell.property e hmem p hp with
      | scalar htype hcollection hknown =>
        obtain ⟨type, htype'⟩ := isSome_scalarType? hknown
        rw [property_scalar htype hcollection htype']
        exact ⟨_, rfl⟩
      | @collection target sourceKey targetKey htype hcollection hsource htarget =>
        have htargets' : target ∈ e.targets := List.mem_filterMap.mpr ⟨p, hp, hcollection⟩
        have hleads : d.Leads name target := ⟨e, hmem, hsame, htargets'⟩
        have habove' : ∀ other ∈ name :: above, Relation.TransGen d.Leads other target :=
          List.forall_mem_cons.mpr
            ⟨.single hleads, fun other hother => (habove other hother).tail hleads⟩
        obtain ⟨⟨entity, s'⟩, hentity⟩ := ih hnot e he target (htargets e hmem target htargets') habove' s
        rw [property_collection htype hcollection hsource htarget]
        exact ⟨(_, s'), Result.run_bind_eq_ok.mpr ⟨entity, s', hentity, rfl⟩⟩
    obtain ⟨⟨properties, s⟩, hproperties⟩ := Result.exists_run_mapM hproperty entities
    cases hfound : named? entities name with
    | some entity => exact ⟨_, entityNamed_of_named? hfound⟩
    | none =>
      rw [entityNamed_of_declared hfound hnot he]
      exact ⟨_, entityOf_eq_ok.mpr ⟨properties, s, hproperties, rfl, rfl⟩⟩

end SchemaDefinition

-- ════════════════════════════════════════════════════════════════════════
-- Schemas
-- ════════════════════════════════════════════════════════════════════════

/-- The schema has one entity type for each definition. The targets of collections are entity types
of the schema. -/
structure Schema.Realizes (s : Schema) (d : SchemaDefinition) : Prop where
  names : (s.entities.map (·.name)).Perm (d.entities.map (·.name))
  root : s.entity? d.root = some s.root
  describes : ∀ e ∈ d.entities, ∃ entity, s.entity? e.name = some entity ∧ e.Describes d s.entity? entity

namespace SchemaDefinition

variable {d : SchemaDefinition}

/-- What is made of well-formed definitions. -/
theorem rootEntity_grounded (hwell : d.IsWellFormed) {root : EntityType} {entities : List EntityType}
    (h : d.rootEntity [] = .ok (root, entities)) :
    d.Grounded entities ∧ named? entities d.root = some root ∧
      ∀ e ∈ d.entities, ∃ entity, named? entities e.name = some entity := by
  obtain ⟨made, entities₁, hmade, hroot⟩ := Result.run_bind_eq_ok.mp h
  obtain ⟨hopen₁, _, hmade⟩ := Result.forall₂_of_run_mapM (I := d.Open []) (R := Keeps)
    (P := fun e entity s => named? s e.name = some entity) Keeps.refl Keeps.trans
    (fun {e entity _ _} hkeeps h => hkeeps e.name entity h)
    (fun _ _ => entityNamed_grounded hwell []) ⟨.nil, nofun⟩ hmade
  obtain ⟨hopen, hkeeps, hroot⟩ := entityNamed_grounded hwell [] hopen₁ hroot
  refine ⟨hopen.grounded, hroot, fun e he => ?_⟩
  obtain ⟨i, hi⟩ := List.getElem?_of_mem he
  obtain ⟨entity, _, hentity⟩ := Lists.exists_getElem?_of_forall₂ hmade hi
  exact ⟨entity, hkeeps _ _ hentity⟩

/-- Definitions without a cycle, all of whose targets are defined, can be made. -/
theorem exists_rootEntity (hwell : d.IsWellFormed) (hclosed : d.IsClosed)
    (hacyclic : ∀ name, ¬Relation.TransGen d.Leads name name) : ∃ r, d.rootEntity [] = .ok r := by
  have hmake (name : String) (hname : d.Declares name) (entities : List EntityType) :
      ∃ r, d.entityNamed [] name entities = .ok r :=
    exists_entityNamed hwell hclosed.target hacyclic hname (List.forall_mem_nil _) entities
  obtain ⟨⟨made, entities⟩, hmade⟩ :=
    Result.exists_run_mapM (fun e (he : e ∈ d.entities) => hmake e.name ⟨e, he, rfl⟩) []
  obtain ⟨r, hr⟩ := hmake d.root hclosed.root entities
  exact ⟨r, Result.run_bind_eq_ok.mpr ⟨made, entities, hmade, hr⟩⟩

end SchemaDefinition

namespace Schema

variable {text : String} {d : SchemaDefinition} {s : Schema}

theorem ofText_eq_ok (htext : SchemaDefinition.ofText? text = some d) :
    ofText text = .ok s ↔ d.rootEntity [] = .ok (s.root, s.entities) := by
  simp only [ofText, htext, ofDefinition, StateT.run]
  cases h : d.rootEntity [] with
  | error fault => simp [Except.mapError]
  | ok r =>
    obtain ⟨root, entities⟩ := r
    obtain ⟨entities', root'⟩ := s
    simp [Except.mapError, pure, Except.pure, and_comm]

/-- Well-formed definitions are read as a schema exactly if the root and all targets of collections are
defined and no collection leads back to where it came from. The schema then has one entity type for each
definition, and the targets of their collections are among them. -/
theorem ofText_iff_acyclic (htext : SchemaDefinition.ofText? text = some d) (hwell : d.IsWellFormed) :
    ((∃ s, ofText text = .ok s) ↔ d.IsClosed ∧ ∀ name, ¬Relation.TransGen d.Leads name name) ∧
      ∀ s, ofText text = .ok s → s.Realizes d := by
  have hrealizes : ∀ s, ofText text = .ok s → d.Grounded s.entities ∧ s.Realizes d := by
    intro s hs
    obtain ⟨hgrounded, hroot, hentities⟩ :=
      SchemaDefinition.rootEntity_grounded hwell ((ofText_eq_ok htext).mp hs)
    refine ⟨hgrounded, ?_, hroot, fun e he => ?_⟩
    · refine (List.perm_ext_iff_of_nodup hgrounded.nodup hwell.nodup).mpr fun name => ?_
      rw [List.mem_map, List.mem_map]
      constructor
      · rintro ⟨entity, hentity, rfl⟩
        obtain ⟨found, hfound⟩ := EntityType.exists_named? hentity
        obtain ⟨e, he, _⟩ := hgrounded.describes hfound
        exact ⟨e, SchemaDefinition.mem_of_entityDefinition? he⟩
      · rintro ⟨e, he, rfl⟩
        obtain ⟨entity, hentity⟩ := hentities e he
        exact ⟨entity, EntityType.mem_of_named? hentity, EntityType.name_of_named? hentity⟩
    · obtain ⟨entity, hentity⟩ := hentities e he
      obtain ⟨e', he', hdescribes⟩ := hgrounded.describes hentity
      rw [SchemaDefinition.entityDefinition?_of_mem hwell.nodup he] at he'
      cases he'
      exact ⟨entity, hentity, hdescribes⟩
  refine ⟨⟨?_, ?_⟩, fun s hs => (hrealizes s hs).2⟩
  · rintro ⟨s, hs⟩
    obtain ⟨hgrounded, hs⟩ := hrealizes s hs
    have hdeclared {name : String} {entity : EntityType} (h : s.entity? name = some entity) :
        d.Declares name := by
      obtain ⟨e, he, _⟩ := hgrounded.describes h
      exact ⟨e, SchemaDefinition.mem_of_entityDefinition? he⟩
    refine ⟨⟨hdeclared hs.root, fun e he target htarget => ?_⟩, fun name hcycle => ?_⟩
    · obtain ⟨entity, _, hdescribes⟩ := hs.describes e he
      obtain ⟨found, hfound⟩ := hdescribes.resolve htarget
      exact hdeclared hfound
    · obtain ⟨_, ⟨e, he, rfl, _⟩, _⟩ := Relation.TransGen.head'_iff.mp hcycle
      obtain ⟨entity, hentity, _⟩ := hs.describes e he
      exact SchemaDefinition.not_transGen_of_acc
        (SchemaDefinition.acc_of_grounded hwell.nodup hgrounded hentity) hcycle
  · rintro ⟨hclosed, hacyclic⟩
    obtain ⟨⟨root, entities⟩, h⟩ := SchemaDefinition.exists_rootEntity hwell hclosed hacyclic
    exact ⟨⟨entities, root⟩, (ofText_eq_ok htext).mpr h⟩

/-- A shop with orders, where both have remarks. -/
theorem ofText_iff_acyclic_shop :
    let remarks (key : String) : PropertyDefinition :=
      ⟨"remarks", none, none, true, some "Remark", some "id", some key⟩
    let d : SchemaDefinition :=
      ⟨[], [⟨"Shop", none, [⟨"orders", none, none, true, some "Order", some "id", some "shop"⟩,
          remarks "shop"]⟩,
        ⟨"Order", none, [remarks "order"]⟩,
        ⟨"Remark", none, [⟨"text", some "Edm.String", none, true, none, none, none⟩]⟩], "Shop"⟩
    ∃ text, SchemaDefinition.ofText? text = some d ∧ d.IsWellFormed ∧
      ∃ s, ofText text = .ok s ∧ s.Realizes d := by
  intro remarks d
  have htext : SchemaDefinition.ofText?
      "\x7b\"entities\": [\x7b\"name\": \"Shop\", \"properties\": [
      \x7b\"name\": \"orders\", \"collection\": \"Order\", \"source_key\": \"id\", \"target_key\": \"shop\"\x7d,
      \x7b\"name\": \"remarks\", \"collection\": \"Remark\", \"source_key\": \"id\", \"target_key\": \"shop\"\x7d]\x7d,
      \x7b\"name\": \"Order\", \"properties\": [
      \x7b\"name\": \"remarks\", \"collection\": \"Remark\", \"source_key\": \"id\", \"target_key\": \"order\"\x7d]\x7d,
      \x7b\"name\": \"Remark\", \"properties\": [\x7b\"name\": \"text\", \"type\": \"Edm.String\"\x7d]\x7d], \"root\": \"Shop\"\x7d" = some d := by
    rw [SchemaDefinition.ofText?, String.toList_ofList]
    decide +kernel
  have hwell : d.IsWellFormed := by
    refine ⟨by decide, ?_⟩
    simp only [d, remarks, List.forall_mem_cons]
    exact ⟨⟨.collection rfl rfl rfl rfl, .collection rfl rfl rfl rfl, nofun⟩,
      ⟨.collection rfl rfl rfl rfl, nofun⟩, ⟨.scalar rfl rfl (.inl (by decide)), nofun⟩, nofun⟩
  have hclosed : d.IsClosed := ⟨by decide, by decide⟩
  -- Every collection leads to an entity type with a longer name.
  have hlonger : ∀ e ∈ d.entities, ∀ target ∈ e.targets, e.name.length < target.length := by decide
  have hacyclic : ∀ name, ¬Relation.TransGen d.Leads name name := by
    intro name hcycle
    have hlength := hcycle.lift String.length fun name target ⟨e, he, hname, htarget⟩ =>
      hname ▸ hlonger e he target htarget
    rw [Relation.transGen_eq_self] at hlength
    exact Nat.lt_irrefl _ hlength
  obtain ⟨hiff, hrealizes⟩ := ofText_iff_acyclic htext hwell
  obtain ⟨s, hs⟩ := hiff.mpr ⟨hclosed, hacyclic⟩
  exact ⟨_, htext, hwell, s, hs, hrealizes s hs⟩

end Schema

end ODataQuery
