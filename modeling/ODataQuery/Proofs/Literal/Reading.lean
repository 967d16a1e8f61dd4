import ODataQuery.Proofs.Literal.Kind
import ODataQuery.Proofs.Literal.Shape

/-!
# Reading literals back

What a literal denotes at a place of an expression is denoted there by its own text too, also if the
literal was fitted to an enumeration type afterwards.

## Main definitions

- `StaticType.steering` — the part of an expected type that decides how a literal is read
- `Value.LiteralAt` — the values that literals denote where a type is expected
- `Value.IsLegible` — the values that the text of an expression shows exactly
- `Value.IsSteady` — a number does not turn into one of the expected kind when it is printed

## Main statements

- `Value.ofLiteral_text` — a literal is read back
- `Value.exists_ofLiteral_of_coerce?` — so is a literal that was fitted to a type
-/

namespace ODataQuery

-- ════════════════════════════════════════════════════════════════════════
-- Members of an enumeration type
-- ════════════════════════════════════════════════════════════════════════

namespace EnumType

variable {T : EnumType} {names chosen : List String}

theorem normalize?_eq_some (h : T.normalize? names = some chosen) :
    names ≠ [] ∧ (∀ name ∈ names, name ∈ T.members) ∧ chosen = T.members.filter names.contains := by
  unfold normalize? at h
  split at h
  · cases h
  · next hnames =>
    rw [Bool.or_eq_true, not_or, List.isEmpty_iff, Bool.not_eq_true, Bool.not_eq_false',
      List.all_eq_true] at hnames
    refine ⟨hnames.1, fun name hname => List.contains_iff_mem.mp (hnames.2 name hname), ?_⟩
    dsimp only at h
    split at h
    · cases h
    · exact (Option.some.inj h).symm

/-- The members are the names, in another order and once each. -/
theorem mem_iff_of_normalize? (h : T.normalize? names = some chosen) (name : String) :
    name ∈ chosen ↔ name ∈ names := by
  obtain ⟨_, hdeclared, rfl⟩ := normalize?_eq_some h
  rw [List.mem_filter, List.contains_iff_mem]
  exact ⟨And.right, fun hname => ⟨hdeclared name hname, hname⟩⟩

/-- Names that are the same up to order and repetition have the same members. -/
theorem normalize?_congr {names' : List String} (h : ∀ name, name ∈ names ↔ name ∈ names') :
    T.normalize? names = T.normalize? names' := by
  have hempty : names.isEmpty = names'.isEmpty := by
    rw [Bool.eq_iff_iff, List.isEmpty_iff, List.isEmpty_iff, List.eq_nil_iff_forall_not_mem,
      List.eq_nil_iff_forall_not_mem]
    exact forall_congr' fun name => not_congr (h name)
  have hall : names.all T.hasMember = names'.all T.hasMember := by
    rw [Bool.eq_iff_iff, List.all_eq_true, List.all_eq_true]
    exact forall_congr' fun name => imp_congr_left (h name)
  have hcontains : names.contains = names'.contains := by
    funext name
    rw [Bool.eq_iff_iff, List.contains_iff_mem, List.contains_iff_mem]
    exact h name
  rw [normalize?, normalize?, hempty, hall, hcontains]

theorem value?_congr {names' : List String} (h : ∀ name, name ∈ names ↔ name ∈ names') :
    T.value? names = T.value? names' := by
  rw [value?, value?, normalize?_congr h]

theorem value?_eq_some {e : EnumValue} :
    T.value? names = some (.enumeration e) ↔
      e.typeName = T.name ∧ T.normalize? names = some e.members := by
  constructor
  · intro h
    obtain ⟨members, hmembers, heq⟩ := Option.map_eq_some_iff.mp h
    cases heq
    exact ⟨rfl, hmembers⟩
  · rintro ⟨hname, hmembers⟩
    rw [value?, hmembers, ← hname]
    rfl

/-- Members that were checked are checked again with the same outcome. -/
theorem value?_members {e : EnumValue} (h : T.value? names = some (.enumeration e)) :
    T.name = e.typeName ∧ T.value? e.members = some (.enumeration e) := by
  obtain ⟨hname, hmembers⟩ := value?_eq_some.mp h
  exact ⟨hname.symm, (value?_congr (mem_iff_of_normalize? hmembers)).trans h⟩

theorem exists_of_value? {v : Value} (h : T.value? names = some v) : ∃ e, v = .enumeration e := by
  obtain ⟨members, _, rfl⟩ := Option.map_eq_some_iff.mp h
  exact ⟨_, rfl⟩

end EnumType

-- ════════════════════════════════════════════════════════════════════════
-- Expected types
-- ════════════════════════════════════════════════════════════════════════

namespace StaticType

/-- The part of an expected type that decides how a literal is read. -/
def steering : Option StaticType → Option StaticType
  | some (.enumeration T) => some (.enumeration T)
  | some (.primitive kind) => if kind.isNumeric then some (.primitive kind) else none
  | _ => none

end StaticType

namespace Value

open StaticType (steering)

theorem ofLiteral_steering (expected : Option StaticType) (cs : List Char) :
    ofLiteral (steering expected) cs = ofLiteral expected cs := by
  have hnone (e : Option StaticType) (hstring : ofStringLiteral e cs = ofStringLiteral none cs)
      (henum : ofEnumLiteral e cs = ofEnumLiteral none cs)
      (hnumber : ofNumberLiteral? e cs = ofNumberLiteral? none cs) :
      ofLiteral none cs = ofLiteral e cs := by
    rw [ofLiteral, ofLiteral, hstring, henum, hnumber]
  rcases expected with _ | _ | kind | T
  · rfl
  · exact hnone _ rfl rfl rfl
  · by_cases hnumeric : kind.isNumeric = true
    · rw [steering, if_pos hnumeric]
    · have hfilter : (some kind).filter Kind.isNumeric = none := by simp [Option.filter, hnumeric]
      rw [steering, if_neg hnumeric]
      refine hnone _ rfl rfl ?_
      simp only [ofNumberLiteral?, Option.bind_some, Option.bind_none, StaticType.kind?, hfilter]
      rfl
  · rfl

/-- A literal is read alike where the expected types steer alike. -/
theorem ofLiteral_congr {expected expected' : Option StaticType}
    (h : steering expected = steering expected') (cs : List Char) :
    ofLiteral expected cs = ofLiteral expected' cs := by
  rw [← ofLiteral_steering, h, ofLiteral_steering]

-- ════════════════════════════════════════════════════════════════════════
-- What literals denote
-- ════════════════════════════════════════════════════════════════════════

/-- The values that literals denote at a place of an expected type. -/
inductive LiteralAt (expected : Option StaticType) : Value → Prop
  | null : LiteralAt expected null
  | boolean (b : Bool) : LiteralAt expected (boolean b)
  | guid (g : Guid) : LiteralAt expected (guid g)
  | binary (bytes : List UInt8) : LiteralAt expected (binary bytes)
  | duration (d : Duration) : LiteralAt expected (duration d)
  | timeOfDay (t : TimeOfDay) : LiteralAt expected (timeOfDay t)
  | date {d : Date} (h : d.HasFourDigitYear) : LiteralAt expected (date d)
  | dateTimeOffset {i : Instant} (h : i.date.HasFourDigitYear) :
      LiteralAt expected (dateTimeOffset i)
  | string (s : String) (h : ∀ T, expected ≠ some (.enumeration T)) :
      LiteralAt expected (string s)
  /-- Members of an enumeration type that is expected. -/
  | member {T : EnumType} {names : List String} {e : EnumValue}
      (hexpected : expected = some (.enumeration T)) (hnames : ∀ name ∈ names, Quoted.IsMember name)
      (h : T.value? names = some (.enumeration e)) : LiteralAt expected (enumeration e)
  /-- Members of another enumeration type, which are not checked. -/
  | qualified {e : EnumValue} (hne : e.members ≠ [])
      (hmembers : ∀ name ∈ e.members, Quoted.IsMember name)
      (hother : ∀ T, expected = some (.enumeration T) → T.name ≠ e.typeName) :
      LiteralAt expected (enumeration e)
  | number {cs : List Char} {v : Value} (h : ofNumberLiteral? expected cs = some v) :
      LiteralAt expected v

theorem literalAt_of_ofStringLiteral {expected : Option StaticType} {cs : List Char} {v : Value}
    (h : ofStringLiteral expected cs = .ok v) : LiteralAt expected v := by
  obtain ⟨body, _, h⟩ := Result.bind_eq_ok.mp h
  split at h
  · next T =>
    obtain ⟨names, hnames, hvalue⟩ := Option.bind_eq_some_iff.mp (orFault_eq_ok.mp h)
    obtain ⟨e, rfl⟩ := EnumType.exists_of_value? hvalue
    exact .member rfl (Quoted.isMember_of_members? hnames).2 hvalue
  · next hother =>
    cases h
    exact .string _ hother

theorem literalAt_of_ofEnumLiteral {expected : Option StaticType} {cs : List Char} {v : Value}
    (h : ofEnumLiteral expected cs = .ok v) : LiteralAt expected v := by
  obtain ⟨p, _, h⟩ := Result.bind_eq_ok.mp h
  obtain ⟨names, hnames, h⟩ := Result.bind_eq_ok.mp h
  obtain ⟨hne, hmembers⟩ := Quoted.isMember_of_members? (orFault_eq_ok.mp hnames)
  split at h
  · next T =>
    dsimp only at h
    split at h
    · have hvalue := orFault_eq_ok.mp h
      obtain ⟨e, rfl⟩ := EnumType.exists_of_value? hvalue
      exact .member rfl hmembers hvalue
    · next hname =>
      cases h
      refine .qualified hne hmembers fun T' hT' => ?_
      cases hT'
      exact hname
  · next hother =>
    cases h
    exact .qualified hne hmembers fun T hT => absurd hT (hother T)

/-- A literal denotes one of these values. -/
theorem literalAt_of_ofLiteral {expected : Option StaticType} {cs : List Char} {v : Value}
    (h : ofLiteral expected cs = .ok v) : LiteralAt expected v := by
  unfold ofLiteral at h
  split at h
  · cases h
  · next shape _ =>
    cases shape with
    | null =>
      cases h
      exact .null
    | boolean =>
      cases h
      exact .boolean _
    | string => exact literalAt_of_ofStringLiteral h
    | enumeration => exact literalAt_of_ofEnumLiteral h
    | guid =>
      obtain ⟨_, _, rfl⟩ := Option.map_eq_some_iff.mp (orFault_eq_ok.mp h)
      exact .guid _
    | date =>
      obtain ⟨_, hd, rfl⟩ := Option.map_eq_some_iff.mp (orFault_eq_ok.mp h)
      exact .date (Date.hasFourDigitYear_of_ofText? hd)
    | dateTimeOffset =>
      obtain ⟨_, hi, rfl⟩ := Option.map_eq_some_iff.mp (orFault_eq_ok.mp h)
      exact .dateTimeOffset (Instant.hasFourDigitYear_of_ofText? hi)
    | timeOfDay =>
      obtain ⟨_, _, rfl⟩ := Option.map_eq_some_iff.mp (orFault_eq_ok.mp h)
      exact .timeOfDay _
    | duration =>
      obtain ⟨_, _, rfl⟩ := Option.map_eq_some_iff.mp (orFault_eq_ok.mp h)
      exact .duration _
    | binary =>
      obtain ⟨_, _, h⟩ := Option.bind_eq_some_iff.mp (orFault_eq_ok.mp h)
      obtain ⟨_, _, rfl⟩ := Option.map_eq_some_iff.mp h
      exact .binary _
    | prefixedDuration =>
      obtain ⟨_, _, h⟩ := Option.bind_eq_some_iff.mp (orFault_eq_ok.mp h)
      obtain ⟨_, _, rfl⟩ := Option.map_eq_some_iff.mp h
      exact .duration _
    | integer | decimal | double | nonFinite => exact .number (orFault_eq_ok.mp h)

/-- Members are those of the expected type, or of a type that is not expected. -/
theorem LiteralAt.enumeration_cases {expected : Option StaticType} {e : EnumValue}
    (h : LiteralAt expected (enumeration e)) :
    (∃ T names, expected = some (.enumeration T) ∧ T.value? names = some (enumeration e)) ∨
      ∀ T, expected = some (.enumeration T) → T.name ≠ e.typeName := by
  cases h with
  | member hexpected _ h => exact .inl ⟨_, _, hexpected, h⟩
  | qualified _ _ hother => exact .inr hother
  | number h =>
    obtain ⟨kind, hkind, hnumeric⟩ := isNumeric_of_ofNumberLiteral? h
    cases hkind
    cases hnumeric

/-- A literal that is read where an enumeration type is expected, as one of its values, has members
that the type declares. -/
theorem exists_members_of_ofLiteral {T : EnumType} {cs : List Char} {e : EnumValue}
    (h : ofLiteral (some (.enumeration T)) cs = .ok (.enumeration e))
    (hname : e.typeName = T.name) : ∃ names, T.value? names = some (.enumeration e) := by
  obtain ⟨T', names, hexpected, hvalue⟩ | hother := (literalAt_of_ofLiteral h).enumeration_cases
  · cases hexpected
    exact ⟨names, hvalue⟩
  · exact absurd hname.symm (hother T rfl)

-- ════════════════════════════════════════════════════════════════════════
-- Values that a text shows
-- ════════════════════════════════════════════════════════════════════════

end Value

/-- The type has a name in some namespace, and the members have neither a quote nor a line break. -/
structure EnumValue.IsLegible (e : EnumValue) : Prop where
  qualified : Quoted.isQualifiedName e.typeName.toList = true
  dotted : '.' ∈ e.typeName.toList
  quote : ∀ name ∈ e.members, '\'' ∉ name.toList
  line : ∀ name ∈ e.members, '\n' ∉ name.toList

instance (e : EnumValue) : Decidable e.IsLegible :=
  decidable_of_iff (Quoted.isQualifiedName e.typeName.toList = true ∧ '.' ∈ e.typeName.toList ∧
      (∀ name ∈ e.members, '\'' ∉ name.toList) ∧ ∀ name ∈ e.members, '\n' ∉ name.toList)
    ⟨fun h => ⟨h.1, h.2.1, h.2.2.1, h.2.2.2⟩, fun h => ⟨h.qualified, h.dotted, h.quote, h.line⟩⟩

namespace Value

/-- The text of an expression shows the value exactly: it is neither a floating point number nor a
time of day in a leap second, and the names of an enumeration value can be written. -/
def IsLegible : Value → Prop
  | single _ | double _ => False
  | timeOfDay t => t.IsRegular
  | enumeration e => e.IsLegible
  | _ => True

instance : (v : Value) → Decidable v.IsLegible
  | single _ | double _ => inferInstanceAs (Decidable False)
  | timeOfDay t => inferInstanceAs (Decidable t.IsRegular)
  | enumeration e => inferInstanceAs (Decidable e.IsLegible)
  | null | boolean _ | byte _ | sbyte _ | int16 _ | int32 _ | int64 _ | decimal _ | string _
  | binary _ | date _ | dateTimeOffset _ | duration _ | guid _ => inferInstanceAs (Decidable True)

/-- A number of another kind than the expected one is not printed as a number of the expected
kind. -/
def IsSteady (expected : Option StaticType) (v : Value) : Prop :=
  ∀ kind ∈ v.kind?, kind.isNumeric = true →
    ∀ wanted ∈ expected.bind StaticType.kind?, kind = wanted ∨ ofNumber? wanted v.text.toList = none

instance (expected : Option StaticType) (v : Value) : Decidable (v.IsSteady expected) :=
  inferInstanceAs (Decidable (∀ kind ∈ v.kind?, kind.isNumeric = true →
    ∀ wanted ∈ expected.bind StaticType.kind?, kind = wanted ∨ ofNumber? wanted v.text.toList = none))

/-- The members of an enumeration type that is expected are members of an enumeration literal. -/
theorem members_of_value? {T : EnumType} {names : List String} {e : EnumValue}
    (hnames : ∀ name ∈ names, Quoted.IsMember name) (h : T.value? names = some (enumeration e)) :
    e.members ≠ [] ∧ ∀ name ∈ e.members, Quoted.IsMember name := by
  obtain ⟨_, hmembers⟩ := EnumType.value?_eq_some.mp h
  have hmem := EnumType.mem_iff_of_normalize? hmembers
  refine ⟨fun hnil => ?_, fun name hname => hnames name ((hmem name).mp hname)⟩
  obtain ⟨name, hname⟩ := List.exists_mem_of_ne_nil _ (EnumType.normalize?_eq_some hmembers).1
  rw [hnil] at hmem
  exact List.not_mem_nil ((hmem name).mpr hname)

theorem isReadable_enumeration {e : EnumValue} (h : e.IsLegible)
    (hmembers : e.members ≠ [] ∧ ∀ name ∈ e.members, Quoted.IsMember name) : e.IsReadable :=
  ⟨h.qualified, h.dotted, hmembers.1, hmembers.2, h.quote, h.line⟩

/-- A legible number is readable. -/
theorem isReadable_of_ofNumber? {kind : Kind} {cs : List Char} {v : Value}
    (h : ofNumber? kind cs = some v) (hv : v.IsLegible) : v.IsReadable := by
  cases kind with
  | decimal =>
    obtain ⟨d, hd, rfl⟩ := Option.map_eq_some_iff.mp h
    exact isReadable_of_decimal? hd
  | byte | sbyte | int16 | int32 | int64 =>
    obtain ⟨_, _, rfl⟩ := Option.map_eq_some_iff.mp h
    trivial
  | single | double =>
    obtain ⟨_, _, rfl⟩ := Option.map_eq_some_iff.mp h
    exact hv
  | _ => cases h

/-- What a literal denotes is readable if it is legible. -/
theorem LiteralAt.isReadable {expected : Option StaticType} {v : Value} (h : LiteralAt expected v)
    (hv : v.IsLegible) : v.IsReadable := by
  cases h with
  | null | boolean | guid | binary | duration | string => trivial
  | timeOfDay t => exact hv
  | date h => exact h
  | dateTimeOffset h => exact h
  | member _ hnames h => exact isReadable_enumeration hv (members_of_value? hnames h)
  | qualified hne hmembers _ => exact isReadable_enumeration hv ⟨hne, hmembers⟩
  | number h =>
    obtain ⟨kind, h⟩ := exists_ofNumber?_of_ofNumberLiteral? h
    exact isReadable_of_ofNumber? h hv

/-- Fitting a literal to a type keeps it readable. -/
theorem LiteralAt.isReadable_of_coerce? {expected : Option StaticType} {v w : Value}
    {other : StaticType} (h : LiteralAt expected v) (hw : v.coerce? other = some w)
    (hlegible : w.IsLegible) : w.IsReadable := by
  unfold coerce? at hw
  split at hw
  · obtain ⟨names, hnames, hvalue⟩ := Option.bind_eq_some_iff.mp hw
    obtain ⟨e, rfl⟩ := EnumType.exists_of_value? hvalue
    exact isReadable_enumeration hlegible
      (members_of_value? (Quoted.isMember_of_members? hnames).2 hvalue)
  · next T e =>
    split at hw
    · obtain ⟨e', rfl⟩ := EnumType.exists_of_value? hw
      refine isReadable_enumeration hlegible (members_of_value? ?_ hw)
      cases h with
      | member _ hnames h => exact (members_of_value? hnames h).2
      | qualified _ hmembers _ => exact hmembers
      | number h =>
        obtain ⟨kind, hkind, hnumeric⟩ := isNumeric_of_ofNumberLiteral? h
        cases hkind
        cases hnumeric
    · cases hw
      exact h.isReadable hlegible
  · cases hw
    exact h.isReadable hlegible

open StaticType (steering)

-- ════════════════════════════════════════════════════════════════════════
-- Reading back
-- ════════════════════════════════════════════════════════════════════════

/-- The text of binary data is taken apart into its word and the encoded bytes. -/
theorem prefixed?_text_binary (bytes : List UInt8) :
    Quoted.prefixed? (text (binary bytes)).toList =
      some ⟨"binary".toList, (Base64.encodeUrl bytes).toList⟩ := by
  have hword : Quoted.isQualifiedName "binary".toList = true := by decide
  rw [toList_text_binary]
  exact Quoted.prefixed?_append hword
    (fun hmem => (Base64.ne_of_mem_encodeUrl hmem).2.1 rfl)
    (fun hmem => (Base64.ne_of_mem_encodeUrl hmem).2.2 rfl)

/-- The text of a duration is taken apart into its word and the components. -/
theorem prefixed?_text_duration (d : Duration) :
    Quoted.prefixed? (text (duration d)).toList = some ⟨"duration".toList, d.chars⟩ := by
  have hword : Quoted.isQualifiedName "duration".toList = true := by decide
  rw [toList_text_duration]
  exact Quoted.prefixed?_append hword (d.not_mem_chars (by decide))
    (d.not_mem_chars (by decide))

/-- The text of an enumeration value is taken apart into the name of the type and the members. -/
theorem prefixed?_text_enumeration {e : EnumValue} (h : e.IsReadable) :
    Quoted.prefixed? (text (enumeration e)).toList =
      some ⟨e.typeName.toList, (membersText e.members).toList⟩ := by
  obtain ⟨hquote, hline⟩ := h.not_mem_membersText
  rw [toList_text_enumeration]
  exact Quoted.prefixed?_append h.qualified hquote hline

theorem ofLiteral_enumeration {expected : Option StaticType} {e : EnumValue} (h : e.IsReadable) :
    ofLiteral expected (text (enumeration e)).toList =
      ofEnumLiteral expected (text (enumeration e)).toList := by
  simp only [ofLiteral, shape_text (v := enumeration e) h, shape]

/-- The members of an enumeration literal are checked against an expected type of the same name. -/
theorem ofLiteral_member {e : EnumValue} (h : e.IsReadable) {T : EnumType}
    (hname : T.name = e.typeName) :
    ofLiteral (some (.enumeration T)) (text (enumeration e)).toList =
      orFault .notMember (T.value? e.members) := by
  rw [ofLiteral_enumeration h]
  simp only [ofEnumLiteral, prefixed?_text_enumeration h,
    Quoted.members?_membersText h.ne_nil h.isMember, orFault, Result.ok_bind, String.ofList_toList,
    if_pos hname]

/-- They are not checked against a type of another name. -/
theorem ofLiteral_qualified {expected : Option StaticType} {e : EnumValue} (h : e.IsReadable)
    (hother : ∀ T, expected = some (.enumeration T) → T.name ≠ e.typeName) :
    ofLiteral expected (text (enumeration e)).toList = .ok (enumeration e) := by
  rw [ofLiteral_enumeration h]
  simp only [ofEnumLiteral, prefixed?_text_enumeration h,
    Quoted.members?_membersText h.ne_nil h.isMember, orFault, Result.ok_bind, String.ofList_toList]
  split
  · next T =>
    rw [if_neg (hother T rfl)]
    rfl
  · rfl

/-- A number is read back where it denotes its own kind, or where its text denotes no number of the
expected kind. -/
theorem ofNumberLiteral?_text {expected : Option StaticType} {cs : List Char} {v : Value}
    (h : ofNumberLiteral? expected cs = some v) (hv : v.IsLegible) (hsteady : v.IsSteady expected) :
    ofNumberLiteral? expected v.text.toList = some v := by
  obtain ⟨kind, hnumber⟩ := exists_ofNumber?_of_ofNumberLiteral? h
  obtain ⟨hkind, hnumeric⟩ := kind?_of_ofNumber? hnumber
  have hfloating : ∀ k ∈ v.kind?, k.isFloating = false := by
    intro k hk
    cases v with
    | single x | double x => exact absurd hv id
    | _ => cases hk <;> rfl
  have hback := ofNumber?_text hnumber (hfloating kind hkind)
  have hwanted : ∀ wanted ∈ (expected.bind StaticType.kind?).filter Kind.isNumeric,
      ofNumber? wanted v.text.toList = some v ∨ ofNumber? wanted v.text.toList = none := by
    intro wanted hwanted
    obtain ⟨hwanted, _⟩ := Option.filter_eq_some_iff.mp hwanted
    obtain rfl | hnone := hsteady kind hkind hnumeric wanted hwanted
    · exact .inl hback
    · exact .inr hnone
  unfold ofNumberLiteral? at h ⊢
  dsimp only at h ⊢
  generalize (expected.bind StaticType.kind?).filter Kind.isNumeric = filtered at h hwanted ⊢
  cases filtered with
  | none => exact inferNumber?_text h hfloating
  | some wanted =>
    rw [Option.bind_some] at h ⊢
    obtain hsome | hnone := hwanted wanted rfl
    · rw [hsome]
      rfl
    · rw [hnone]
      obtain hsame | ⟨_, hinferred⟩ := Option.or_eq_some_iff.mp h
      · obtain ⟨hkind', _⟩ := kind?_of_ofNumber? hsame
        have hagain := ofNumber?_text hsame (hfloating wanted hkind')
        rw [hnone] at hagain
        cases hagain
      · exact inferNumber?_text hinferred hfloating

theorem shape_of_isNumeric {v : Value} {kind : Kind} (h : v.kind? = some kind)
    (hnumeric : kind.isNumeric = true) (hread : v.IsReadable) :
    v.shape = .integer ∨ v.shape = .decimal := by
  cases v with
  | null => cases h
  | byte | sbyte | int16 | int32 | int64 => exact .inl rfl
  | decimal d =>
    by_cases hscale : d.scale = 0
    · exact .inl (if_pos hscale)
    · exact .inr (if_neg hscale)
  | single | double => exact absurd hread id
  | _ =>
    cases h
    cases hnumeric

/-- A literal is read back from the text of what it denotes. -/
theorem ofLiteral_text {expected : Option StaticType} {v : Value} (h : LiteralAt expected v)
    (hv : v.IsLegible) (hsteady : v.IsSteady expected) :
    ofLiteral expected v.text.toList = .ok v := by
  have hread := h.isReadable hv
  have hshape := shape_text hread
  cases h with
  | null => rfl
  | boolean b => cases b <;> rfl
  | guid g =>
    have hback : Guid.ofText? (text (guid g)).toList = some g := Guid.ofText?_text g
    simp only [ofLiteral, hshape, shape, hback]
    rfl
  | binary bytes =>
    simp only [ofLiteral, hshape, shape, prefixed?_text_binary, Option.bind_some,
      Base64.decode?_encodeUrl]
    rfl
  | duration d =>
    simp only [ofLiteral, hshape, shape, prefixed?_text_duration, Option.bind_some,
      Duration.ofText?_chars]
    rfl
  | timeOfDay t =>
    have hback : TimeOfDay.ofText? (text (timeOfDay t)).toList = some t := TimeOfDay.ofText?_text hv
    simp only [ofLiteral, hshape, shape, hback]
    rfl
  | @date d h =>
    have hback : Date.ofText? (text (date d)).toList = some d := Date.ofText?_text h
    simp only [ofLiteral, hshape, shape, hback]
    rfl
  | @dateTimeOffset i h =>
    have hback : Instant.ofText? (text (dateTimeOffset i)).toList = some i := Instant.ofText?_text h
    simp only [ofLiteral, hshape, shape, hback]
    rfl
  | string s hexpected =>
    have hback : Quoted.string? (text (string s)).toList = some s.toList := Quoted.string?_quoted s
    simp only [ofLiteral, hshape, shape, ofStringLiteral, hback, orFault, Result.ok_bind,
      String.ofList_toList]
    rfl
  | member hexpected _ h =>
    obtain ⟨hname, hagain⟩ := EnumType.value?_members h
    rw [hexpected, ofLiteral_member hread hname, hagain]
    rfl
  | qualified _ _ hother => exact ofLiteral_qualified hread hother
  | number h =>
    have hback := ofNumberLiteral?_text h hv hsteady
    obtain ⟨kind, hkind, hnumeric⟩ := isNumeric_of_ofNumberLiteral? h
    obtain hnumber | hnumber := shape_of_isNumeric hkind hnumeric hread
    · simp only [ofLiteral, hshape, hnumber, hback]
      rfl
    · simp only [ofLiteral, hshape, hnumber, hback]
      rfl

/-- Members that were fitted to a type of the same name are read back as members of the expected type,
or of the type that they were fitted to. -/
theorem exists_ofLiteral_of_members {expected : Option StaticType} {e₀ e : EnumValue} {T : EnumType}
    (h : LiteralAt expected (enumeration e₀)) (hname₀ : e₀.typeName = T.name)
    (hw : T.value? e₀.members = some (enumeration e)) (hread : (enumeration e).IsReadable) :
    ∃ v', ofLiteral expected (enumeration e).text.toList = .ok v' ∧
      v'.coerce? (.enumeration T) = some (enumeration e) ∧
      steering (some (.ofValue v')) = steering (some (.ofValue (enumeration e₀))) := by
  obtain ⟨hname, hvalue⟩ := EnumType.value?_members hw
  obtain ⟨T', names, hexpected, h⟩ | hother := h.enumeration_cases
  · -- The expected type finds its own members in those of the other type.
    obtain ⟨hname', hmembers'⟩ := EnumType.value?_eq_some.mp h
    obtain ⟨_, hmembers⟩ := EnumType.value?_eq_some.mp hw
    have hmem := EnumType.mem_iff_of_normalize? hmembers
    have hmem' := EnumType.mem_iff_of_normalize? hmembers'
    have hback' : T'.value? e.members = some (enumeration e₀) := by
      rw [EnumType.value?_congr fun name => (hmem name).trans (hmem' name), h]
    refine ⟨enumeration e₀, ?_, ?_, rfl⟩
    · rw [hexpected, ofLiteral_member hread (by rw [← hname', hname₀, hname]), hback']
      rfl
    · rw [coerce?, if_pos hname₀, hw]
  · refine ⟨enumeration e, ofLiteral_qualified hread fun T' hT' => ?_, ?_, rfl⟩
    · rw [← hname, ← hname₀]
      exact hother T' hT'
    · rw [coerce?, if_pos hname.symm, hvalue]

/-- A literal that was fitted to a type is read back as a literal that steers the other operand like
the first one did, and fits to the type in the same way. -/
theorem exists_ofLiteral_of_coerce? {expected : Option StaticType} {v w : Value}
    {other : StaticType} (h : LiteralAt expected v) (hw : v.coerce? other = some w)
    (hlegible : w.IsLegible) (hsteady : w.IsSteady expected) :
    ∃ v', ofLiteral expected w.text.toList = .ok v' ∧ v'.coerce? other = some w ∧
      steering (some (.ofValue v')) = steering (some (.ofValue v)) := by
  have hread := h.isReadable_of_coerce? hw hlegible
  have hback : ofLiteral expected v.text.toList = .ok v → w = v →
      ∃ v', ofLiteral expected w.text.toList = .ok v' ∧ v'.coerce? other = some w ∧
        steering (some (.ofValue v')) = steering (some (.ofValue v)) := by
    rintro hv rfl
    exact ⟨w, hv, hw, rfl⟩
  unfold coerce? at hw
  split at hw
  · next T s =>
    obtain ⟨names, _, hvalue⟩ := Option.bind_eq_some_iff.mp hw
    obtain ⟨e, rfl⟩ := EnumType.exists_of_value? hvalue
    obtain ⟨hname, hvalue⟩ := EnumType.value?_members hvalue
    cases h with
    | string _ hexpected =>
      refine ⟨enumeration e, ofLiteral_qualified hread fun T hT => absurd hT (hexpected T), ?_, rfl⟩
      rw [coerce?, if_pos hname.symm, hvalue]
    | number h =>
      obtain ⟨kind, hkind, hnumeric⟩ := isNumeric_of_ofNumberLiteral? h
      cases hkind
      cases hnumeric
  · next T e₀ =>
    split at hw
    · next hname₀ =>
      obtain ⟨e, rfl⟩ := EnumType.exists_of_value? hw
      exact exists_ofLiteral_of_members h hname₀ hw hread
    · cases hw
      exact hback (ofLiteral_text h hlegible hsteady) rfl
  · cases hw
    exact hback (ofLiteral_text h hlegible hsteady) rfl

end Value

end ODataQuery
