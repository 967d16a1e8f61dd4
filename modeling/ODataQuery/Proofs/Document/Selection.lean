import ODataQuery.Memory.Meaning
import ODataQuery.Proofs.Document.Storage

/-!
# The meaning of filters

A filter of documents has a truth value on every record, with an unknown one apart from true and
false.

## Main definitions

- `DocumentFilter.allTrue`, `DocumentFilter.anyTrue` — Kleene's connectives on lists
- `DocumentFilter.meaning` — the truth value of a filter on a record
- `DocumentFilter.Fits` — filters whose paths and constants fit an entity type

## Design notes

Connectives are three-valued. Quantifiers are two-valued: an element where the body is unknown
counts as one where it is false.
-/

namespace ODataQuery

namespace DocumentFilter

-- ════════════════════════════════════════════════════════════════════════
-- Truth values
-- ════════════════════════════════════════════════════════════════════════

/-- The conjunction of truth values: false if one is, and else true if all are. -/
def allTrue (bs : List (Option Bool)) : Option Bool :=
  if bs.any (· == some false) then some false
  else if bs.all (· == some true) then some true
  else none

/-- The disjunction of truth values: true if one is, and else false if all are. -/
def anyTrue (bs : List (Option Bool)) : Option Bool :=
  if bs.any (· == some true) then some true
  else if bs.all (· == some false) then some false
  else none

mutual

/-- The truth value of a filter on a record, none if it is unknown. -/
def meaning : DocumentFilter → Record → Option Bool
  | compare path op v, record => (Value.test op (record.value path) v).truth?
  | isTrue path, record => (record.value path).truth?
  | isIn path values, record => ((record.value path).isIn values).truth?
  | hasPattern path pattern, record =>
    (record.value path).chars?.map fun s =>
      (LiteralPattern.ofChars? pattern.toList).any (·.occursIn s)
  | and items, record => allTrue (meanings items record)
  | or items, record => anyTrue (meanings items record)
  | not operand, record => (meaning operand record).map (!·)
  | elements path quantifier body, record =>
    some (Meaning.quantified quantifier (record.related path) fun r => meaning body r == some true)
  | bare path quantifier, record =>
    some (quantifier == .all || !(record.related path).isEmpty)
  | constant b, _ => b

/-- The truth values of some filters. -/
def meanings : List DocumentFilter → Record → List (Option Bool)
  | [], _ => []
  | f :: fs, record => f.meaning record :: meanings fs record

end

theorem meanings_eq_map (fs : List DocumentFilter) (record : Record) :
    meanings fs record = fs.map (·.meaning record) := by
  induction fs with
  | nil => rfl
  | cons f fs ih => rw [meanings, ih, List.map_cons]

theorem allTrue_eq_some_true {bs : List (Option Bool)} :
    allTrue bs = some true ↔ ∀ b ∈ bs, b = some true := by
  unfold allTrue
  split
  · next h =>
    obtain ⟨b, hb, hfalse⟩ := List.any_eq_true.mp h
    constructor
    · intro heq
      cases heq
    · intro hall
      rw [hall b hb] at hfalse
      cases hfalse
  · split
    · next h =>
      simp only [true_iff]
      intro b hb
      exact eq_of_beq (List.all_eq_true.mp h b hb)
    · next h =>
      constructor
      · intro heq
        cases heq
      · intro hall
        exact absurd (List.all_eq_true.mpr fun b hb => beq_iff_eq.mpr (hall b hb)) h

theorem allTrue_eq_some_false {bs : List (Option Bool)} :
    allTrue bs = some false ↔ ∃ b ∈ bs, b = some false := by
  unfold allTrue
  split
  · next h =>
    obtain ⟨b, hb, hfalse⟩ := List.any_eq_true.mp h
    exact iff_of_true rfl ⟨b, hb, eq_of_beq hfalse⟩
  · next h =>
    have hnone : ¬∃ b ∈ bs, b = some false := by
      rintro ⟨b, hb, rfl⟩
      exact h (List.any_eq_true.mpr ⟨_, hb, rfl⟩)
    refine iff_of_false (fun heq => ?_) hnone
    split at heq <;> cases heq

/-- A disjunction is the negated conjunction of the negated truth values. -/
theorem anyTrue_eq (bs : List (Option Bool)) :
    anyTrue bs = (allTrue (bs.map (Option.map (!·)))).map (!·) := by
  have hany : (bs.map (Option.map (!·))).any (· == some false) = bs.any (· == some true) := by
    rw [List.any_map]
    refine congrArg (bs.any ·) (funext fun b => ?_)
    cases b with
    | none => rfl
    | some c => cases c <;> rfl
  have hall : (bs.map (Option.map (!·))).all (· == some true) = bs.all (· == some false) := by
    rw [List.all_map]
    refine congrArg (bs.all ·) (funext fun b => ?_)
    cases b with
    | none => rfl
    | some c => cases c <;> rfl
  simp only [anyTrue, allTrue, hany, hall]
  split
  · rfl
  · split <;> rfl

theorem map_not_eq_some {b : Option Bool} {c : Bool} : b.map (!·) = some c ↔ b = some !c := by
  cases b with
  | none => simp
  | some d => cases c <;> simp

theorem anyTrue_eq_some_true {bs : List (Option Bool)} :
    anyTrue bs = some true ↔ ∃ b ∈ bs, b = some true := by
  rw [anyTrue_eq, map_not_eq_some, Bool.not_true, allTrue_eq_some_false]
  constructor
  · rintro ⟨c, hc, rfl⟩
    obtain ⟨b, hb, hfalse⟩ := List.mem_map.mp hc
    exact ⟨b, hb, map_not_eq_some.mp hfalse⟩
  · rintro ⟨b, hb, rfl⟩
    exact ⟨_, List.mem_map_of_mem hb, rfl⟩

theorem anyTrue_eq_some_false {bs : List (Option Bool)} :
    anyTrue bs = some false ↔ ∀ b ∈ bs, b = some false := by
  rw [anyTrue_eq, map_not_eq_some, Bool.not_false, allTrue_eq_some_true]
  simp only [List.mem_map, forall_exists_index, and_imp, forall_apply_eq_imp_iff₂,
    map_not_eq_some, Bool.not_true]

end DocumentFilter

-- ════════════════════════════════════════════════════════════════════════
-- Filters that fit an entity type
-- ════════════════════════════════════════════════════════════════════════

/-- The paths of the filter are keys of properties of the entity type, and its constants meet
their types. `compared` tells which keys may be compared, and by order if the flag is set. -/
inductive DocumentFilter.Fits (compared : Bool → String → Prop) :
    EntityType → DocumentFilter → Prop
  | compare {entity : EntityType} {p : Property} {type : StaticType} {op : BinaryOp} {v : Value}
      (hp : p ∈ entity.properties) (htype : p.type.scalar? = some type)
      (hop : op.isComparison = true) (hmeets : type.Meets v)
      (hfaithful : v.Faithful op.isRelational) (hcompared : compared op.isRelational p.source)
      (hordered : op.isRelational = true → type.isOrdered = true ∧ v.isNull = false) :
      Fits compared entity (.compare p.source op v)
  | isTrue {entity : EntityType} {p : Property} (hp : p ∈ entity.properties)
      (htype : p.type.scalar? = some .boolean) : Fits compared entity (.isTrue p.source)
  | isIn {entity : EntityType} {p : Property} {type : StaticType} {values : List Value}
      (hp : p ∈ entity.properties) (htype : p.type.scalar? = some type)
      (hcompared : compared false p.source)
      (hvalues : ∀ v ∈ values, v.isNull = false ∧ type.Meets v ∧ v.Faithful false) :
      Fits compared entity (.isIn p.source values)
  | hasPattern {entity : EntityType} {p : Property} {pattern : String}
      (hp : p ∈ entity.properties) (htype : p.type.scalar? = some .string) :
      Fits compared entity (.hasPattern p.source pattern)
  | and {entity : EntityType} {items : List DocumentFilter}
      (hitems : ∀ f ∈ items, Fits compared entity f) : Fits compared entity (.and items)
  | or {entity : EntityType} {items : List DocumentFilter}
      (hitems : ∀ f ∈ items, Fits compared entity f) : Fits compared entity (.or items)
  | not {entity : EntityType} {operand : DocumentFilter} (hoperand : Fits compared entity operand) :
      Fits compared entity (.not operand)
  | elements {entity target : EntityType} {p : Property} {link : Link} {quantifier : Quantifier}
      {body : DocumentFilter} (hp : p ∈ entity.properties)
      (htype : p.type = .collection target link) (hbody : Fits compared target body) :
      Fits compared entity (.elements p.source quantifier body)
  | bare {entity target : EntityType} {p : Property} {link : Link} {quantifier : Quantifier}
      (hp : p ∈ entity.properties) (htype : p.type = .collection target link) :
      Fits compared entity (.bare p.source quantifier)
  | constant {entity : EntityType} {b : Option Bool} : Fits compared entity (.constant b)

end ODataQuery
