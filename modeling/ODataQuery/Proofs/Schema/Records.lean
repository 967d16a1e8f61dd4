import Mathlib.Data.List.Nodup
import ODataQuery.Proofs.Calendar.Duration
import ODataQuery.Proofs.Calendar.LeapSecond
import ODataQuery.Proofs.Metadata.AllowList
import ODataQuery.Proofs.Numeric.Reading
import ODataQuery.Proofs.Text.Base64
import ODataQuery.Proofs.Value.Coherence
import ODataQuery.Schema.Records

/-!
# Records written to JSON and read back

A record is read back from its JSON form, with the records related to it at any depth, if the
properties of its entity type are stored under their names. Only a negative zero becomes a positive
one, which is equal to it.

## Main definitions

- `Value.IsRestorable` — the values that are read back from their JSON form
- `PropertyType.Fits`, `EntityType.Fits` — values and records of a type that are read back
- `EntityType.IsReversible` — entity types whose names can be undone
- `Record.reread` — the record that is read from the JSON form of a record
- `Record.same` — records with the same values under the same keys

## Main statements

- `Value.ofJson?_toJson` — values
- `Record.ofMembers_jsonMembers` — the entries of a record, one after the other
- `Record.ofJson_toJson` — records
-/

namespace ODataQuery

/-- The format that rounds no number. -/
def JsonOptions.lossless : JsonOptions := { ieee754Compatible := true }

-- ════════════════════════════════════════════════════════════════════════
-- Values
-- ════════════════════════════════════════════════════════════════════════

namespace Value

/-- A value as it is read from its JSON form. -/
def reread : Value → Value
  | decimal d => decimal d.reread
  | v => v

/-- The value is read back from its JSON form as one of its kind. -/
def IsRestorable : Value → Prop
  | single _ | double _ | enumeration _ => False
  | date d => d.HasFourDigitYear
  | timeOfDay t => t.IsRegular
  | dateTimeOffset i => i.date.HasFourDigitYear
  | _ => True

/-- A value is read back from its JSON form, up to the sign of zero. -/
theorem ofJson?_toJson {v : Value} {kind : Kind} (hkind : v.kind? = some kind)
    (h : v.IsRestorable) : ofJson? kind (v.toJson .lossless) = some v.reread := by
  have hinteger (n : Int) (hn : v.toInt? = some n) :
      ofNumber? kind (Text.integerText n).toList = some v := ofNumber?_integerText hkind hn
  cases v with
  | null => cases hkind
  | single | double | enumeration => exact h.elim
  | boolean b => cases hkind; rfl
  | byte n | sbyte n | int16 n | int32 n | int64 n =>
    cases hkind
    exact hinteger _ rfl
  | decimal d =>
    cases hkind
    exact congrArg (Option.map decimal) (decimal?_text_eq_reread d)
  | string s => cases hkind; rfl
  | binary bytes =>
    cases hkind
    exact congrArg (Option.map binary) (Base64.decode?_encodeUrl bytes)
  | date d =>
    cases hkind
    exact congrArg (Option.map date) (Date.ofText?_text h)
  | timeOfDay t =>
    cases hkind
    exact congrArg (Option.map timeOfDay) (TimeOfDay.ofText?_text h)
  | dateTimeOffset i =>
    cases hkind
    exact congrArg (Option.map dateTimeOffset) (Instant.ofText?_text h)
  | duration d =>
    cases hkind
    exact congrArg (Option.map duration) (Duration.ofText?_text d)
  | guid g =>
    cases hkind
    exact congrArg (Option.map guid) (Guid.ofText?_text g)

/-- A value and the one that is read from its JSON form are equal. -/
theorem same_reread {v : Value} (h : v.IsExact) : v.reread.same v = true := by
  have hequals := equals_refl h
  cases v with
  | single | double => exact absurd (h _ rfl) (by decide)
  | null => rfl
  | byte | sbyte | int16 | int32 | int64 => exact beq_self_eq_true _
  | decimal d =>
    show (d.reread.compare d == .eq) = true
    rw [compare_decimals, d.signed_reread, beq_iff_eq]
    exact Std.ReflCmp.compare_self (α := ExactNumber)
  | _ => exact hequals

end Value

-- ════════════════════════════════════════════════════════════════════════
-- Members of enumerations
-- ════════════════════════════════════════════════════════════════════════

namespace EnumType

/-- The members of the type are different and can be told apart between commas. -/
def IsSeparable (type : EnumType) : Prop :=
  type.members.Nodup ∧ ∀ m ∈ type.members, ',' ∉ m.toList ∧ Text.trim m.toList = m.toList

/-- The names are members that a value of the type can have, in the order of their declaration. -/
structure Combines (type : EnumType) (names : List String) : Prop where
  ne_nil : names ≠ []
  sublist : names.Sublist type.members
  isFlags : 1 < names.length → type.isFlags = true

variable {type : EnumType} {names : List String}

/-- Members in the order of their declaration stay as they are. -/
theorem value?_of_combines (hnodup : type.members.Nodup) (h : type.Combines names) :
    type.value? names = some (.enumeration ⟨type.name, names⟩) := by
  have hdeclared : (names.isEmpty || !names.all type.hasMember) = false := by
    rw [Bool.or_eq_false_iff, List.isEmpty_eq_false_iff, Bool.not_eq_false', List.all_eq_true]
    exact ⟨h.ne_nil, fun name hname => List.contains_iff_mem.mpr (h.sublist.subset hname)⟩
  have hcombined : (decide (1 < names.length) && !type.isFlags) = false := by
    rw [Bool.and_eq_false_imp, decide_eq_true_iff, Bool.not_eq_false']
    exact h.isFlags
  simp only [value?, normalize?, hdeclared, Lists.filter_contains_of_sublist hnodup h.sublist,
    hcombined, Bool.false_eq_true, if_false, Option.map_some]

/-- Members are found between the commas of their text. -/
theorem enumOfJson?_membersText (htype : type.IsSeparable) (h : type.Combines names) :
    Record.enumOfJson? type (.string (Value.membersText names)) =
      some (.enumeration ⟨type.name, names⟩) := by
  have hseparable (name : String) (hname : name ∈ names) := htype.2 name (h.sublist.subset hname)
  have hnames : (names.map String.toList).map (fun cs => String.ofList (Text.trim cs)) = names := by
    rw [List.map_map]
    refine (List.map_congr_left fun name hname => ?_).trans (List.map_id names)
    show String.ofList (Text.trim name.toList) = name
    rw [(hseparable name hname).2, String.ofList_toList]
  rw [Record.enumOfJson?, Quoted.splitOn_membersText h.ne_nil fun m hm => (hseparable m hm).1,
    hnames, value?_of_combines htype.1 h]

end EnumType

-- ════════════════════════════════════════════════════════════════════════
-- Records of a type
-- ════════════════════════════════════════════════════════════════════════

/-- The value is `null`, or one of the type that is read back from its JSON form. -/
def PropertyType.Fits : PropertyType → Value → Prop
  | primitive kind, v => v = .null ∨ v.kind? = some kind ∧ v.IsRestorable
  | enumeration type, v =>
    v = .null ∨ ∃ names, v = .enumeration ⟨type.name, names⟩ ∧ type.Combines names
  | collection _ _, _ => False

namespace EntityType

/-- The keys of the record are declared and in order, under each of them is a value of the declared
type or a collection of related records, and these are records of the target. -/
inductive Fits : EntityType → Record → Prop
  | intro {entity : EntityType} {record : Record}
      (hkeys : (record.map Prod.fst).Pairwise (· < ·))
      (hdeclared : ∀ entry ∈ record, ∃ p ∈ entity.properties, p.source = entry.1)
      (hvalues : ∀ p ∈ entity.properties, ∀ v, (p.source, .value v) ∈ record → p.type.Fits v)
      (hcollections : ∀ p ∈ entity.properties, ∀ items, (p.source, .related items) ∈ record →
        ∃ target link, p.type = .collection target link)
      (hrelated : ∀ p ∈ entity.properties, ∀ target link, p.type = .collection target link →
        ∀ items, (p.source, .related items) ∈ record → ∀ r ∈ items, target.Fits r) :
      Fits entity record

/-- The properties have different names, their values are stored under these names, and the members
of their enumerations can be told apart. So it is for the targets of collections. -/
inductive IsReversible : EntityType → Prop
  | intro {entity : EntityType} (hnames : (entity.properties.map Property.name).Nodup)
      (hsources : ∀ p ∈ entity.properties, p.source = p.name)
      (henumerations : ∀ p ∈ entity.properties, ∀ type, p.type = .enumeration type →
        type.IsSeparable)
      (htargets : ∀ p ∈ entity.properties, ∀ target link, p.type = .collection target link →
        target.IsReversible) :
      IsReversible entity

/-- Among properties with different names each is found by its own. -/
theorem find?_of_mem {entity : EntityType} {p : Property}
    (hnames : (entity.properties.map Property.name).Nodup) (hp : p ∈ entity.properties) :
    entity.find? p.name = some p := by
  cases hfind : entity.find? p.name with
  | none => exact absurd (List.find?_eq_none.mp hfind p hp) (by simp)
  | some q =>
    obtain ⟨hq, hname⟩ := mem_properties_of_find? hfind
    rw [List.inj_on_of_nodup_map hnames hq hp hname]

end EntityType

-- ════════════════════════════════════════════════════════════════════════
-- Reading records back
-- ════════════════════════════════════════════════════════════════════════

namespace Record

mutual

/-- A record as it is read from its JSON form. -/
def reread : Record → Record
  | [] => []
  | (key, slot) :: rest => (key, rereadSlot slot) :: reread rest

/-- An entry as it is read from its JSON form. -/
def rereadSlot : Slot → Slot
  | .value v => .value v.reread
  | .related items => .related (rereadItems items)

/-- Related records as they are read from their JSON forms. -/
def rereadItems : List (List (String × Slot)) → List (List (String × Slot))
  | [] => []
  | r :: rs => reread r :: rereadItems rs

end

mutual

/-- Whether records have the same values under the same keys. -/
def same : Record → Record → Bool
  | [], [] => true
  | (key, slot) :: rest, (key', slot') :: rest' =>
    key == key' && sameSlot slot slot' && same rest rest'
  | _, _ => false

/-- Whether entries have the same values. -/
def sameSlot : Slot → Slot → Bool
  | .value v, .value w => v.same w
  | .related items, .related items' => sameItems items items'
  | _, _ => false

/-- Whether related records have the same values, one by one. -/
def sameItems : List (List (String × Slot)) → List (List (String × Slot)) → Bool
  | [], [] => true
  | r :: rs, r' :: rs' => same r r' && sameItems rs rs'
  | _, _ => false

end

variable {entity : EntityType} {record : Record} {options : JsonOptions}

/-- An entry whose key comes after all others is written at the end. -/
theorem insert_of_lt {key : String} (h : ∀ k ∈ record.map Prod.fst, k < key) (slot : Slot) :
    record.insert key slot = record ++ [(key, slot)] := by
  induction record with
  | nil => rfl
  | cons first rest ih =>
    obtain ⟨k, s⟩ := first
    obtain ⟨hfirst, hrest⟩ := List.forall_mem_cons.mp h
    rw [insert, if_neg (String.lt_asymm hfirst), if_neg (String.ne_of_lt hfirst).symm, ih hrest]
    rfl

/-- Entries are read one after the other: each is written behind those that were read before. -/
theorem ofMembers_jsonMembers {before : Record}
    (hkeys : ((before ++ record).map Prod.fst).Pairwise (· < ·))
    (hslots : ∀ entry ∈ record, ∃ p, entity.find? entry.1 = some p ∧ p.source = entry.1 ∧
      slotOfJson p.type (slotJson options entry.2) = .ok (some (rereadSlot entry.2))) :
    ofMembers entity before (jsonMembers options record) = .ok (before ++ reread record) := by
  induction record generalizing before with
  | nil =>
    rw [jsonMembers, ofMembers, reread, List.append_nil]
  | cons first rest ih =>
    obtain ⟨key, slot⟩ := first
    obtain ⟨⟨p, hfind, hsource, hslot⟩, hrest⟩ := List.forall_mem_cons.mp hslots
    have hlast : ∀ k ∈ before.map Prod.fst, k < key := by
      rw [List.map_append, List.pairwise_append] at hkeys
      exact fun k hk => hkeys.2.2 k hk key List.mem_cons_self
    have hkeys' : (((before ++ [(key, rereadSlot slot)]) ++ rest).map Prod.fst).Pairwise (· < ·) := by
      simpa using hkeys
    simp only [jsonMembers, ofMembers, hfind, hslot, hsource]
    rw [insert_of_lt hlast, ih hkeys' hrest, reread, List.append_assoc]
    rfl

/-- Related records are read one after the other. -/
theorem ofItems_relatedJson {items : List Record}
    (h : ∀ r ∈ items, ofJson entity (r.toJson options) = .ok r.reread) :
    ofItems entity (relatedJson options items) = .ok (rereadItems items) := by
  induction items with
  | nil => rfl
  | cons r rs ih =>
    obtain ⟨hr, hrs⟩ := List.forall_mem_cons.mp h
    rw [toJson] at hr
    rw [relatedJson, ofItems, hr, ih hrs]
    rfl

theorem slotOfJson_primitive (kind : Kind) (j : Json) :
    slotOfJson (.primitive kind) j = .ok ((Value.ofJson? kind j).map .value) := by
  cases j <;> rfl

theorem slotOfJson_enumeration (type : EnumType) (j : Json) :
    slotOfJson (.enumeration type) j = .ok ((enumOfJson? type j).map .value) := by
  cases j <;> rfl

/-- A value of the type of a property is read back. -/
theorem slotOfJson_value {type : PropertyType} {v : Value}
    (henumeration : ∀ T, type = .enumeration T → T.IsSeparable) (h : type.Fits v) :
    slotOfJson type (slotJson .lossless (.value v)) = .ok (some (.value v.reread)) := by
  rw [slotJson]
  cases type with
  | primitive kind =>
    rw [slotOfJson_primitive]
    obtain rfl | ⟨hkind, hrestorable⟩ := h
    · rfl
    · rw [Value.ofJson?_toJson hkind hrestorable]
      rfl
  | enumeration type =>
    rw [slotOfJson_enumeration]
    obtain rfl | ⟨names, rfl, hnames⟩ := h
    · rfl
    · rw [Value.toJson, EnumType.enumOfJson?_membersText (henumeration type rfl) hnames]
      rfl
  | collection => exact h.elim

/-- A record is read back from its JSON form, up to the signs of zeros. -/
theorem ofJson_toJson_eq_reread (hentity : entity.IsReversible) (h : entity.Fits record) :
    ofJson entity (record.toJson .lossless) = .ok record.reread := by
  induction h with
  | @intro entity record hkeys hdeclared hvalues hcollections hrelated ih =>
    obtain ⟨hnames, hsources, henumerations, htargets⟩ := hentity
    rw [toJson, ofJson]
    refine @ofMembers_jsonMembers entity record .lossless empty hkeys ?_
    rintro ⟨key, slot⟩ hentry
    obtain ⟨p, hp, rfl⟩ := hdeclared _ hentry
    refine ⟨p, hsources p hp ▸ EntityType.find?_of_mem hnames hp, rfl, ?_⟩
    cases slot with
    | value v => exact slotOfJson_value (henumerations p hp) (hvalues p hp v hentry)
    | related items =>
      obtain ⟨target, link, htype⟩ := hcollections p hp items hentry
      have hitems := ofItems_relatedJson fun r hr =>
        ih p hp target link htype items hentry r hr (htargets p hp target link htype)
      rw [htype, slotJson, slotOfJson, hitems]
      rfl

-- ════════════════════════════════════════════════════════════════════════
-- The record that is read
-- ════════════════════════════════════════════════════════════════════════

/-- Values that fit a property are no floating point numbers. -/
theorem isExact_of_fits {type : PropertyType} {v : Value} (h : type.Fits v) : v.IsExact := by
  cases type with
  | primitive kind =>
    obtain rfl | ⟨_, hrestorable⟩ := h
    · exact nofun
    · rintro k hk
      cases v with
      | single | double => exact hrestorable.elim
      | _ => cases hk <;> rfl
  | enumeration type =>
    obtain rfl | ⟨names, rfl, _⟩ := h
    · exact nofun
    · rintro _ ⟨⟩
      rfl
  | collection => exact h.elim

theorem same_reread_of_slots
    (h : ∀ entry ∈ record, sameSlot (rereadSlot entry.2) entry.2 = true) :
    record.reread.same record = true := by
  induction record with
  | nil => rfl
  | cons first rest ih =>
    obtain ⟨hfirst, hrest⟩ := List.forall_mem_cons.mp h
    rw [reread, same, beq_self_eq_true, hfirst, ih hrest]
    rfl

theorem sameItems_rereadItems {items : List Record}
    (h : ∀ r ∈ items, r.reread.same r = true) : sameItems (rereadItems items) items = true := by
  induction items with
  | nil => rfl
  | cons r rs ih =>
    obtain ⟨hr, hrs⟩ := List.forall_mem_cons.mp h
    rw [rereadItems, sameItems, hr, ih hrs]
    rfl

/-- The record that is read is equal to the one that was written. -/
theorem same_reread (h : entity.Fits record) : record.reread.same record = true := by
  induction h with
  | @intro entity record _ hdeclared hvalues hcollections _ ih =>
    refine same_reread_of_slots ?_
    rintro ⟨key, slot⟩ hentry
    obtain ⟨p, hp, rfl⟩ := hdeclared _ hentry
    cases slot with
    | value v =>
      rw [rereadSlot, sameSlot]
      exact Value.same_reread (isExact_of_fits (hvalues p hp v hentry))
    | related items =>
      obtain ⟨target, link, htype⟩ := hcollections p hp items hentry
      rw [rereadSlot, sameSlot]
      exact sameItems_rereadItems (ih p hp target link htype items hentry)

/-- A record that conforms to its entity type, with the records related to it at any depth, is read
back from the JSON form in which no number is rounded. What is read has the same values under the
same keys; it differs at most in the sign of a zero. -/
theorem ofJson_toJson (hentity : entity.IsReversible) (h : entity.Fits record) :
    ofJson entity (record.toJson .lossless) = .ok record.reread ∧
      record.reread.same record = true :=
  ⟨ofJson_toJson_eq_reread hentity h, same_reread h⟩

/-- An order with two of three flags and two items, one of which costs nothing. -/
theorem ofJson_toJson_order :
    let status : EnumType := ⟨"Sales.Status", ["New", "Paid", "Sent"], true⟩
    let item : EntityType := ⟨"Item", "items", [⟨"price", "price", .primitive .decimal, true⟩]⟩
    let order : EntityType := ⟨"Order", "orders",
      [⟨"status", "status", .enumeration status, true⟩,
        ⟨"items", "items", .collection item ⟨"id", "order_id"⟩, true⟩]⟩
    let free : Record := [("price", .value (.decimal ⟨true, 0, 2, by decide, by decide⟩))]
    let record : Record := [("items", .related [free, []]),
      ("status", .value (.enumeration ⟨"Sales.Status", ["New", "Sent"]⟩))]
    order.IsReversible ∧ order.Fits record ∧
      ofJson order (record.toJson .lossless) = .ok record.reread ∧
      record.reread.same record = true := by
  intro status item order free record
  have hitem : item.IsReversible :=
    .intro (by decide) (by decide) (by simp [item]) (by simp [item])
  have horder : order.IsReversible := by
    refine .intro (by decide) (by decide) ?_ ?_
    · have hstatus : status.IsSeparable := ⟨by decide, by decide +kernel⟩
      simpa [order] using hstatus
    · simpa [order] using hitem
  have hfree : item.Fits free := by
    refine .intro (by decide) ?_ ?_ ?_ ?_ <;>
      simp [item, free, PropertyType.Fits, Value.kind?, Value.IsRestorable]
  have hempty : item.Fits [] := by
    refine .intro (by decide) ?_ ?_ ?_ ?_ <;> simp
  have hrecord : order.Fits record := by
    refine .intro (by decide +kernel) ?_ ?_ ?_ ?_
    · simp [order, record]
    · have hstatus : (PropertyType.enumeration status).Fits
          (.enumeration ⟨"Sales.Status", ["New", "Sent"]⟩) :=
        .inr ⟨_, rfl, by decide, by decide, fun _ => rfl⟩
      simpa [order, record] using hstatus
    · simp [order, record]
    · simp [order, record, hfree, hempty]
  exact ⟨horder, hrecord, ofJson_toJson horder hrecord⟩

end Record

end ODataQuery
