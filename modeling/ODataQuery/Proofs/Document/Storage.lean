import ODataQuery.Metadata.Entity
import ODataQuery.Proofs.Document.Comparison
import ODataQuery.Proofs.Expr.Typing
import ODataQuery.Value.Record

/-!
# Stored records

What it means that a record conforms to an entity type and that a document stores it.

## Main definitions

- `StaticType.Holds` — the values of a property of a type
- `Value.Faithful` — values whose stored form keeps all that comparisons look at
- `EntityType.Conforms` — records with values of the declared types
- `EntityType.Stores` — documents that store a record
- `EntityType.HasPlainKeys` — entity types whose storage keys are paths of one part
- `Record.Everywhere` — a property of all values in a record and the records related to it

## Main statements

- `StaticType.alike` — faithful values of a type are alike to the constants that it meets
-/

namespace ODataQuery

-- ════════════════════════════════════════════════════════════════════════
-- Values of a type
-- ════════════════════════════════════════════════════════════════════════

/-- The value is one that a property of the type can have. -/
def StaticType.Holds : StaticType → Value → Prop
  | null, v => v = .null
  | primitive kind, v => v = .null ∨ v.kind? = some kind
  | enumeration type, v =>
    v = .null ∨ ∃ members, members ≠ [] ∧ v = .enumeration ⟨type.name, members⟩

/-- The stored form of the value keeps all that comparisons look at; those by order if `ordered` is
set. -/
def Value.Faithful (ordered : Bool) : Value → Prop
  | single _ | double _ | binary _ | dateTimeOffset _ | duration _ => False
  | date d => ordered = true → d.HasFourDigitYear
  | timeOfDay t => t.IsRegular
  | enumeration e => ∀ m ∈ e.members, ',' ∉ m.toList
  | _ => True

instance (ordered : Bool) : (v : Value) → Decidable (v.Faithful ordered)
  | .single _ | .double _ | .binary _ | .dateTimeOffset _ | .duration _ =>
    inferInstanceAs (Decidable False)
  | .date d => inferInstanceAs (Decidable (ordered = true → d.HasFourDigitYear))
  | .timeOfDay t => inferInstanceAs (Decidable t.IsRegular)
  | .enumeration e => inferInstanceAs (Decidable (∀ m ∈ e.members, ',' ∉ m.toList))
  | .null | .boolean _ | .byte _ | .sbyte _ | .int16 _ | .int32 _ | .int64 _ | .decimal _
  | .string _ | .guid _ => inferInstanceAs (Decidable True)

/-- A value of an enumeration type has members. -/
theorem EnumType.exists_members {type : EnumType} {names : List String} {v : Value}
    (h : type.value? names = some v) :
    ∃ members, members ≠ [] ∧ v = .enumeration ⟨type.name, members⟩ := by
  simp only [value?, Option.map_eq_some_iff] at h
  obtain ⟨members, hmembers, rfl⟩ := h
  refine ⟨members, ?_, rfl⟩
  unfold normalize? at hmembers
  split at hmembers
  · cases hmembers
  · next hnames =>
    dsimp only at hmembers
    split at hmembers
    · cases hmembers
    · cases hmembers
      cases names with
      | nil => exact absurd rfl hnames
      | cons name names =>
        simp only [List.isEmpty_cons, Bool.false_or, List.all_cons, Bool.not_and, Bool.or_eq_true,
          Bool.not_eq_true', not_or, Bool.not_eq_false] at hnames
        have hname : name ∈ type.members := by simpa [hasMember] using hnames.1
        exact List.ne_nil_of_mem (List.mem_filter.mpr ⟨hname, by simp⟩)

namespace StaticType

/-- A number that is stored faithfully is exact. -/
theorem exists_exact {v : Value} {kind : Kind} {ordered : Bool} (hkind : v.kind? = some kind)
    (hnumeric : kind.isNumeric = true) (hv : v.Faithful ordered) :
    ∃ x, v.exactNumber? = some x := by
  cases v with
  | decimal d => exact ⟨_, rfl⟩
  | byte n | sbyte n | int16 n | int32 n | int64 n => exact ⟨_, rfl⟩
  | single x | double x => exact hv.elim
  | null => cases hkind
  | _ =>
    cases hkind
    cases hnumeric

/-- Faithful values of the same kind are alike, those of ordered kinds also by order. -/
theorem alike_of_kind {v w : Value} {kind : Kind} {ordered : Bool} (hkind : v.kind? = some kind)
    (hkind' : w.kind? = some kind) (hne : kind ≠ .enumeration)
    (hordered : ordered = true → kind.isOrdered = true) (hv : v.Faithful ordered)
    (hw : w.Faithful ordered) : Value.Alike ordered v w := by
  by_cases hnumeric : kind.isNumeric = true
  · obtain ⟨x, hx⟩ := exists_exact hkind hnumeric hv
    obtain ⟨y, hy⟩ := exists_exact hkind' hnumeric hw
    exact .number hx hy
  · cases v with
    | boolean a =>
      cases hkind
      cases w with
      | boolean b => exact .boolean (by simpa [Kind.isOrdered, hnumeric] using hordered)
      | _ => cases hkind'
    | string a =>
      cases hkind
      cases w with
      | string b => exact .string
      | _ => cases hkind'
    | date a =>
      cases hkind
      cases w with
      | date b => exact .date fun h => ⟨hv h, hw h⟩
      | _ => cases hkind'
    | timeOfDay a =>
      cases hkind
      cases w with
      | timeOfDay b => exact .timeOfDay hv hw
      | _ => cases hkind'
    | guid a =>
      cases hkind
      cases w with
      | guid b => exact .guid (by simpa [Kind.isOrdered, hnumeric] using hordered)
      | _ => cases hkind'
    | enumeration e =>
      cases hkind
      exact absurd rfl hne
    | null => cases hkind
    | single _ | double _ | binary _ | dateTimeOffset _ | duration _ => exact hv.elim
    | _ =>
      cases hkind
      exact absurd rfl hnumeric

/-- A faithful value of a type is alike to a faithful constant that the type meets, unless one of
them is `null`. -/
theorem alike {type : StaticType} {v w : Value} {ordered : Bool} (hv : type.Holds v)
    (hw : type.Meets w) (hordered : ordered = true → type.isOrdered = true)
    (hv' : v.Faithful ordered) (hw' : w.Faithful ordered) :
    v.isNull = true ∨ w.isNull = true ∨ Value.Alike ordered v w := by
  cases type with
  | null =>
    cases hv
    exact .inl rfl
  | primitive kind =>
    obtain rfl | hkind := hv
    · exact .inl rfl
    cases hkind' : w.kind? with
    | none =>
      have hnull : w.isNull = true := by cases w <;> first | rfl | cases hkind'
      exact .inr (.inl hnull)
    | some kind' =>
      have hmeets := hw kind' hkind'
      simp only [isComparableWith, Kind.isComparableWith, Bool.and_eq_true, bne_iff_ne, ne_eq,
        Bool.or_eq_true, beq_iff_eq] at hmeets
      obtain ⟨⟨hne, _⟩, rfl | ⟨hnumeric, hnumeric'⟩⟩ := hmeets
      · refine .inr (.inr (alike_of_kind hkind hkind' hne (fun h => ?_) hv' hw'))
        simpa [isOrdered, kind?] using hordered h
      · obtain ⟨x, hx⟩ := exists_exact hkind hnumeric hv'
        obtain ⟨y, hy⟩ := exists_exact hkind' hnumeric' hw'
        exact .inr (.inr (.number hx hy))
  | enumeration type =>
    obtain rfl | ⟨members, hmembers, rfl⟩ := hv
    · exact .inl rfl
    obtain rfl | ⟨names, hnames⟩ := hw
    · exact .inr (.inl rfl)
    obtain ⟨members', hmembers', rfl⟩ := EnumType.exists_members hnames
    refine .inr (.inr (.enumeration ?_ rfl ⟨hmembers, hv'⟩ ⟨hmembers', hw'⟩))
    cases ordered with
    | false => rfl
    | true => simpa [isOrdered, kind?, Kind.isOrdered, Kind.isNumeric, Kind.isInteger,
        Kind.isFloating] using hordered rfl

end StaticType

-- ════════════════════════════════════════════════════════════════════════
-- Records and documents
-- ════════════════════════════════════════════════════════════════════════

/-- A storage key that is a path of one part and no operator. -/
def PlainKey (key : String) : Prop := '.' ∉ key.toList ∧ key.toList.head? ≠ some '$'

instance (key : String) : Decidable (PlainKey key) := inferInstanceAs (Decidable (_ ∧ _))

namespace EntityType

/-- The storage keys of the type, and of the types that its collections lead to, are plain. -/
inductive HasPlainKeys : EntityType → Prop
  | intro {entity : EntityType} (hkeys : ∀ p ∈ entity.properties, PlainKey p.source)
      (htargets : ∀ p ∈ entity.properties, ∀ target link, p.type = .collection target link →
        target.HasPlainKeys) :
      HasPlainKeys entity

/-- The values of the record are of the declared types, and so are those of related records. -/
inductive Conforms : EntityType → Record → Prop
  | intro {entity : EntityType} {record : Record}
      (hscalars : ∀ p ∈ entity.properties, ∀ type, p.type.scalar? = some type →
        type.Holds (record.value p.source))
      (hrelated : ∀ p ∈ entity.properties, ∀ target link, p.type = .collection target link →
        ∀ r ∈ record.related p.source, target.Conforms r) :
      Conforms entity record

/-- The document has the stored form of every scalar property under its key, and an array of
documents that store the related records under the key of every collection. -/
inductive Stores : EntityType → Record → Json → Prop
  | intro {entity : EntityType} {record : Record} {members : List (String × Json)}
      (hscalars : ∀ p ∈ entity.properties, ∀ type, p.type.scalar? = some type →
        members.lookup p.source = some (record.value p.source).toDocument)
      (items : String → List Json)
      (harrays : ∀ p ∈ entity.properties, ∀ target link, p.type = .collection target link →
        members.lookup p.source = some (.array (items p.source)) ∧
          (items p.source).length = (record.related p.source).length)
      (hitems : ∀ p ∈ entity.properties, ∀ target link, p.type = .collection target link →
        ∀ i ∈ (record.related p.source).zip (items p.source), target.Stores i.1 i.2) :
      Stores entity record (.object members)

end EntityType

namespace Record

/-- All values in the record, and in the records related to it, satisfy a predicate with their
key. A missing value counts as `null`. -/
inductive Everywhere (P : String → Value → Prop) : Record → Prop
  | intro {record : Record} (hvalues : ∀ key, P key (record.value key))
      (hrelated : ∀ key, ∀ r ∈ record.related key, Everywhere P r) : Everywhere P record

/-- A record of values has no related records. -/
theorem everywhere_of_values {P : String → Value → Prop} {record : Record}
    (h : ∀ entry ∈ record, ∃ v, entry.2 = .value v ∧ P entry.1 v) (hnull : ∀ key, P key .null) :
    record.Everywhere P := by
  have hslot (key : String) :
      record.get? key = none ∨ ∃ v, record.get? key = some (.value v) ∧ P key v := by
    cases hget : record.get? key with
    | none => exact .inl rfl
    | some slot =>
      obtain ⟨before, behind, hrecord, _⟩ := List.lookup_eq_some_iff.mp hget
      have hentry : (key, slot) ∈ record := by
        rw [hrecord]
        exact List.mem_append_right _ List.mem_cons_self
      obtain ⟨v, rfl, hv⟩ := h _ hentry
      exact .inr ⟨v, rfl, hv⟩
  refine .intro (fun key => ?_) fun key r hr => ?_
  · rw [value]
    obtain hget | ⟨v, hget, hv⟩ := hslot key
    · rw [hget]
      exact hnull key
    · rw [hget]
      exact hv
  · rw [related] at hr
    obtain hget | ⟨v, hget, _⟩ := hslot key
    all_goals
      rw [hget] at hr
      cases hr

end Record

end ODataQuery
