import ODataQuery.Expr.Fault
import ODataQuery.Proofs.Literal.Reading
import ODataQuery.Proofs.Schema.Records

/-!
# Lists of enumeration members

Where a type is an enumeration, a value of it can be written as a list of member names: in a string, in
quotes behind the name of the type, and in JSON. Whether the type is known when a literal is read, or
only afterwards, all of these readings come to the same value, or reject the same lists.

## Main definitions

- `Quoted.PaddedName` — a name with white space around it
- `Quoted.listText` — names with commas between them
- `EnumType.Denotes` — what a list of names stands for
- `EnumType.ReadsAs` — what every reader of values of a type makes of a list

## Main statements

- `Quoted.members?_listText` — the names are found between the commas
- `EnumType.denotes_iff` — the names that are checked against a type stand for the outcome
- `EnumType.readsAs_value?` — every reader checks the names against the type
- `EnumType.readers_agree` — every reader takes a list for what the set of its names stands for
-/

namespace ODataQuery

namespace Quoted

-- ════════════════════════════════════════════════════════════════════════
-- White space around names
-- ════════════════════════════════════════════════════════════════════════

/-- A name with white space around it. -/
structure PaddedName where
  before : List Char
  name : String
  after : List Char

namespace PaddedName

/-- The name as it is written. -/
def chars (p : PaddedName) : List Char := p.before ++ p.name.toList ++ p.after

/-- The name can be that of a member and is written on one line, without quotes. -/
structure IsPlain (p : PaddedName) : Prop where
  isMember : IsMember p.name
  quote : '\'' ∉ p.name.toList
  line : '\n' ∉ p.name.toList
  before : ∀ c ∈ p.before, Text.isBlank c = true ∧ c ≠ '\n'
  after : ∀ c ∈ p.after, Text.isBlank c = true ∧ c ≠ '\n'

variable {p : PaddedName}

theorem IsPlain.trim_chars (h : p.IsPlain) : Text.trim p.chars = p.name.toList :=
  Text.trim_append (fun c hc => (h.before c hc).1) (fun c hc => (h.after c hc).1) h.isMember.trim
    h.isMember.ne_nil

/-- Neither commas nor quotes nor line breaks are written. -/
theorem IsPlain.not_mem_chars (h : p.IsPlain) :
    ',' ∉ p.chars ∧ '\'' ∉ p.chars ∧ '\n' ∉ p.chars := by
  have hnot {c : Char} (hname : c ∉ p.name.toList) (hc : Text.isBlank c = false ∨ c = '\n') :
      c ∉ p.chars := by
    have hspace (d : Char) (hd : Text.isBlank d = true ∧ d ≠ '\n') : c ≠ d := by
      rintro rfl
      obtain hc | hc := hc
      · rw [hd.1] at hc
        cases hc
      · exact hd.2 hc
    rw [chars, List.append_assoc, List.mem_append, List.mem_append, not_or, not_or]
    exact ⟨fun hmem => hspace c (h.before c hmem) rfl, hname,
      fun hmem => hspace c (h.after c hmem) rfl⟩
  exact ⟨hnot h.isMember.comma (.inl (by decide)), hnot h.quote (.inl (by decide)),
    hnot h.line (.inr rfl)⟩

end PaddedName

-- ════════════════════════════════════════════════════════════════════════
-- Lists of names
-- ════════════════════════════════════════════════════════════════════════

/-- Names with commas between them. -/
def listText (items : List PaddedName) : List Char := [','].intercalate (items.map PaddedName.chars)

variable {items : List PaddedName}

theorem splitOn_listText (hne : items ≠ []) (h : ∀ item ∈ items, item.IsPlain) :
    Text.splitOn ',' (listText items) = items.map PaddedName.chars := by
  refine Text.splitOn_intercalate _ (by simpa using hne) fun part hpart => ?_
  obtain ⟨item, hitem, rfl⟩ := List.mem_map.mp hpart
  exact (h item hitem).not_mem_chars.1

/-- The parts between the commas are the names, apart from white space. -/
theorem map_trim_splitOn_listText (hne : items ≠ []) (h : ∀ item ∈ items, item.IsPlain) :
    (Text.splitOn ',' (listText items)).map Text.trim =
      (items.map PaddedName.name).map String.toList := by
  rw [splitOn_listText hne h, List.map_map, List.map_map]
  exact List.map_congr_left fun item hitem => (h item hitem).trim_chars

/-- The names are found between the commas. -/
theorem members?_listText (hne : items ≠ []) (h : ∀ item ∈ items, item.IsPlain) :
    members? (listText items) = some (items.map PaddedName.name) := by
  refine members?_of_map_trim (map_trim_splitOn_listText hne h) fun name hname => ?_
  obtain ⟨item, hitem, rfl⟩ := List.mem_map.mp hname
  exact (h item hitem).isMember.ne_nil

/-- A list is written on one line and without quotes. -/
theorem not_mem_listText (hne : items ≠ []) (h : ∀ item ∈ items, item.IsPlain) :
    '\'' ∉ listText items ∧ '\n' ∉ listText items := by
  have hnot {c : Char} (hcomma : c ≠ ',') (hitems : ∀ item ∈ items, c ∉ item.chars) :
      c ∉ listText items := by
    intro hmem
    obtain ⟨part, hpart, hmem⟩ := Text.exists_mem_splitOn_iff.mpr ⟨hmem, hcomma⟩
    rw [splitOn_listText hne h] at hpart
    obtain ⟨item, hitem, rfl⟩ := List.mem_map.mp hpart
    exact hitems item hitem hmem
  exact ⟨hnot (by decide) fun item hitem => (h item hitem).not_mem_chars.2.1,
    hnot (by decide) fun item hitem => (h item hitem).not_mem_chars.2.2⟩

end Quoted

-- ════════════════════════════════════════════════════════════════════════
-- What a list stands for
-- ════════════════════════════════════════════════════════════════════════

/-- What the reader of a literal makes of a token whose member names were checked. -/
def Token.checked (t : Token) : Option Value → Except ParseError (Option Value)
  | some v => .ok (some v)
  | none => .error ⟨.invalidLiteral "enumeration member" t.text, t.offset, t.text⟩

/-- What the reader of a record goes on with after a property whose member names were checked. -/
def Record.checked (entity : EntityType) (property : Property) (j : Json) (record : Record)
    (members : List (String × Json)) : Option Value → Except RecordFault Record
  | some v => ofMembers entity (record.insert property.source (.value v)) members
  | none => .error (.unexpectedValue entity.name property.name j)

namespace EnumType

/-- What a list of names stands for: the named members once each in the order of their declaration.
The list is rejected if a name is unknown, or if several members are named although the type does not
combine members. -/
inductive Denotes (T : EnumType) (names : List String) : Option Value → Prop
  | members {chosen : List String} (hsublist : chosen.Sublist T.members)
      (hmem : ∀ name, name ∈ chosen ↔ name ∈ names)
      (hsingle : T.isFlags = false → ∀ name ∈ names, ∀ other ∈ names, name = other) :
      Denotes T names (some (.enumeration ⟨T.name, chosen⟩))
  | unknown {name : String} (hname : name ∈ names) (hunknown : name ∉ T.members) :
      Denotes T names none
  | several {name other : String} (hflags : T.isFlags = false) (hname : name ∈ names)
      (hother : other ∈ names) (hne : name ≠ other) : Denotes T names none

/-- What every reader of values of the type makes of a list of names. -/
structure ReadsAs (T : EnumType) (body : List Char) (outcome : Option Value) : Prop where
  /-- In a string, where the type is expected. -/
  string {t : Token} (hkind : t.kind = .literal) (htext : t.text.toList = '\'' :: (body ++ ['\''])) :
    t.literal? (some (.enumeration T)) = t.checked outcome
  /-- Behind the name of the type, where the type is expected. -/
  qualified {t : Token} (hkind : t.kind = .literal)
    (htext : t.text.toList = T.name.toList ++ '\'' :: (body ++ ['\''])) :
    t.literal? (some (.enumeration T)) = t.checked outcome
  /-- In a string where no enumeration is expected, if the type is learned afterwards. -/
  coercedString {t : Token} {expected : Option StaticType} (hkind : t.kind = .literal)
    (htext : t.text.toList = '\'' :: (body ++ ['\'']))
    (hexpected : ∀ other, expected ≠ some (.enumeration other)) :
    ∃ v, t.literal? expected = .ok (some v) ∧ v.coerce? (.enumeration T) = outcome
  /-- Behind the name of the type where it is not expected, if it is learned afterwards. -/
  coercedQualified {t : Token} {expected : Option StaticType} (hkind : t.kind = .literal)
    (htext : t.text.toList = T.name.toList ++ '\'' :: (body ++ ['\'']))
    (hexpected : ∀ other, expected = some (.enumeration other) → other.name ≠ T.name) :
    ∃ v, t.literal? expected = .ok (some v) ∧ v.coerce? (.enumeration T) = outcome
  /-- A value that was read where the type is expected fits to the type as it is. -/
  coerced {v : Value} (hv : outcome = some v) : v.coerce? (.enumeration T) = some v
  /-- In a JSON string. -/
  record {entity : EntityType} {property : Property} {key : String} (record : Record)
    (members : List (String × Json)) (hfind : entity.find? key = some property)
    (htype : property.type = .enumeration T) :
    Record.ofMembers entity record ((key, .string (String.ofList body)) :: members) =
      Record.checked entity property (.string (String.ofList body)) record members outcome

variable {T : EnumType} {names : List String} {outcome : Option Value}

/-- A type that does not combine members has values of at most one. -/
theorem eq_of_mem_of_normalize? {chosen : List String} (hflags : T.isFlags = false)
    (h : T.normalize? names = some chosen) {name other : String} (hname : name ∈ chosen)
    (hother : other ∈ chosen) : name = other := by
  obtain ⟨_, _, rfl⟩ := normalize?_eq_some h
  have hlength : (T.members.filter names.contains).length ≤ 1 := by
    unfold normalize? at h
    split at h
    · cases h
    · dsimp only at h
      split at h
      · cases h
      · next hsingle => simpa [hflags] using hsingle
  match hchosen : T.members.filter names.contains with
  | [] =>
    rw [hchosen] at hname
    cases hname
  | [chosen] =>
    rw [hchosen, List.mem_singleton] at hname hother
    rw [hname, hother]
  | _ :: _ :: _ =>
    rw [hchosen] at hlength
    exact absurd hlength (by simp)

/-- The names that are checked against a type stand for the outcome. -/
theorem Denotes.value?_eq (hnodup : T.members.Nodup) (hne : names ≠ []) (h : T.Denotes names outcome) :
    T.value? names = outcome := by
  cases h with
  | @members chosen hsublist hmem hsingle =>
    rw [← value?_congr hmem]
    refine value?_of_combines hnodup ⟨?_, hsublist, fun hseveral => ?_⟩
    · obtain ⟨name, hname⟩ := List.exists_mem_of_ne_nil names hne
      exact List.ne_nil_of_mem ((hmem name).mpr hname)
    · rw [← Bool.not_eq_false]
      intro hflags
      match chosen, hseveral, hsublist.nodup hnodup with
      | name :: other :: _, _, hdistinct =>
        refine (List.nodup_cons.mp hdistinct).1 ?_
        rw [hsingle hflags name ((hmem name).mp (by simp)) other ((hmem other).mp (by simp))]
        exact List.mem_cons_self
  | @unknown name hname hunknown =>
    cases hvalue : T.normalize? names with
    | none => rw [value?, hvalue, Option.map_none]
    | some chosen => exact absurd ((normalize?_eq_some hvalue).2.1 name hname) hunknown
  | several hflags hname hother hdistinct =>
    cases hvalue : T.normalize? names with
    | none => rw [value?, hvalue, Option.map_none]
    | some chosen =>
      have hmem := mem_iff_of_normalize? hvalue
      exact absurd (eq_of_mem_of_normalize? hflags hvalue ((hmem _).mpr hname) ((hmem _).mpr hother))
        hdistinct

/-- Every list of names stands for something. -/
theorem exists_denotes (T : EnumType) (names : List String) : ∃ outcome, T.Denotes names outcome := by
  by_cases hdeclared : ∀ name ∈ names, name ∈ T.members
  · by_cases hsingle : T.isFlags = false → ∀ name ∈ names, ∀ other ∈ names, name = other
    · refine ⟨_, .members (List.filter_sublist (p := names.contains)) (fun name => ?_) hsingle⟩
      rw [List.mem_filter, List.contains_iff_mem]
      exact ⟨And.right, fun hname => ⟨hdeclared name hname, hname⟩⟩
    · push Not at hsingle
      obtain ⟨hflags, name, hname, other, hother, hne⟩ := hsingle
      exact ⟨none, .several hflags hname hother hne⟩
  · push Not at hdeclared
    obtain ⟨name, hname, hunknown⟩ := hdeclared
    exact ⟨none, .unknown hname hunknown⟩

/-- A list of names stands for the outcome of checking them against the type, and for nothing else. -/
theorem denotes_iff (hnodup : T.members.Nodup) (hne : names ≠ []) :
    T.Denotes names outcome ↔ T.value? names = outcome := by
  refine ⟨fun h => h.value?_eq hnodup hne, ?_⟩
  rintro rfl
  obtain ⟨outcome, h⟩ := exists_denotes T names
  rw [h.value?_eq hnodup hne]
  exact h

-- ════════════════════════════════════════════════════════════════════════
-- Readers
-- ════════════════════════════════════════════════════════════════════════

open Quoted (PaddedName listText)

variable {items : List PaddedName}

/-- The content of a string without quotes. -/
theorem ofLiteral_string (expected : Option StaticType) {body : List Char} (hquote : '\'' ∉ body) :
    Value.ofLiteral expected ('\'' :: (body ++ ['\''])) =
      match expected with
      | some (.enumeration T) => Value.orFault .notMember ((Quoted.members? body).bind T.value?)
      | _ => .ok (.string (String.ofList body)) := by
  have hquoted : '\'' :: (body ++ ['\'']) = (Value.quoted (String.ofList body)).toList := by
    rw [Quoted.toList_quoted, String.toList_ofList, Quoted.doubled_of_not_mem hquote]
  simp only [Value.ofLiteral, hquoted, Shape.ofText?_quoted, Value.ofStringLiteral,
    Quoted.string?_quoted, Value.orFault, Result.ok_bind, String.toList_ofList]
  rfl

/-- Names behind the name of an enumeration type. -/
theorem ofLiteral_qualifiedList (expected : Option StaticType) {word : String}
    (hword : Quoted.isQualifiedName word.toList = true) (hdot : '.' ∈ word.toList)
    {body : List Char} (hquote : '\'' ∉ body) (hline : '\n' ∉ body)
    (hnames : Quoted.members? body = some names) :
    Value.ofLiteral expected (word.toList ++ '\'' :: (body ++ ['\''])) =
      match expected with
      | some (.enumeration T) =>
        if T.name = word then Value.orFault .notMember (T.value? names)
        else .ok (.enumeration ⟨word, names⟩)
      | _ => .ok (.enumeration ⟨word, names⟩) := by
  simp only [Value.ofLiteral, Shape.ofText?_word hword hquote hline, Shape.ofWord?_of_dotted hdot,
    Value.ofEnumLiteral, Quoted.prefixed?_append hword hquote hline, hnames, Value.orFault,
    Result.ok_bind, String.ofList_toList]
  rfl

/-- A reader of literals says what the outcome of checking the names is. -/
theorem literal?_of_ofLiteral {t : Token} {expected : Option StaticType} (hkind : t.kind = .literal)
    (h : Value.ofLiteral expected t.text.toList = Value.orFault .notMember outcome) :
    t.literal? expected = t.checked outcome := by
  rw [Token.literal?, if_pos hkind, h]
  cases outcome <;> rfl

/-- Every reader finds the same names in a list and checks them against the type. -/
theorem readsAs_value? (hname : Quoted.isQualifiedName T.name.toList = true)
    (hdot : '.' ∈ T.name.toList) (hne : items ≠ []) (hitems : ∀ item ∈ items, item.IsPlain) :
    T.ReadsAs (listText items) (T.value? (items.map PaddedName.name)) := by
  have hnames := Quoted.members?_listText hne hitems
  obtain ⟨hquote, hline⟩ := Quoted.not_mem_listText hne hitems
  have hcoerced : (Value.string (String.ofList (listText items))).coerce? (.enumeration T) =
      T.value? (items.map PaddedName.name) := by
    rw [Value.coerce?, String.toList_ofList, hnames, Option.bind_some]
  refine ⟨fun {t} hkind htext => ?_, fun {t} hkind htext => ?_,
    fun {t expected} hkind htext hexpected => ?_, fun {t expected} hkind htext hexpected => ?_,
    fun {v} hv => ?_, fun {entity property key} record members hfind htype => ?_⟩
  · refine literal?_of_ofLiteral hkind ?_
    rw [htext, ofLiteral_string _ hquote, hnames]
    rfl
  · refine literal?_of_ofLiteral hkind ?_
    rw [htext, ofLiteral_qualifiedList _ hname hdot hquote hline hnames]
    exact if_pos rfl
  · have hread : Value.ofLiteral expected t.text.toList =
        .ok (.string (String.ofList (listText items))) := by
      rw [htext, ofLiteral_string _ hquote]
      split
      · next other => exact absurd rfl (hexpected other)
      · rfl
    exact ⟨.string (String.ofList (listText items)), Token.literal?_eq_ok.mpr ⟨hkind, hread⟩, hcoerced⟩
  · have hread : Value.ofLiteral expected t.text.toList =
        .ok (.enumeration ⟨T.name, items.map PaddedName.name⟩) := by
      rw [htext, ofLiteral_qualifiedList _ hname hdot hquote hline hnames]
      split
      · next other => rw [if_neg (hexpected other rfl)]
      · rfl
    exact ⟨.enumeration ⟨T.name, items.map PaddedName.name⟩, Token.literal?_eq_ok.mpr ⟨hkind, hread⟩,
      if_pos rfl⟩
  · obtain ⟨e, rfl⟩ := exists_of_value? hv
    obtain ⟨hsame, hagain⟩ := value?_members hv
    rw [Value.coerce?, if_pos hsame.symm, hagain]
  · obtain rfl : property.name = key := by
      simpa using List.find?_some hfind
    have hparts := congrArg (List.map String.ofList) (Quoted.map_trim_splitOn_listText hne hitems)
    rw [List.map_map, Quoted.map_ofList_map_toList] at hparts
    have hjson : Record.enumOfJson? T (.string (String.ofList (listText items))) =
        T.value? (items.map PaddedName.name) := by
      rw [Record.enumOfJson?, String.toList_ofList]
      exact congrArg T.value? hparts
    simp only [Record.ofMembers, hfind, htype, Record.slotOfJson_enumeration, hjson]
    cases T.value? (items.map PaddedName.name) <;> rfl

/-- Every reader of values of an enumeration type takes a list of names for what the names stand for,
whatever the order of the names, their repetitions and the white space around them. -/
theorem readers_agree (hnodup : T.members.Nodup) (hname : Quoted.isQualifiedName T.name.toList = true)
    (hdot : '.' ∈ T.name.toList) (hne : items ≠ []) (hitems : ∀ item ∈ items, item.IsPlain) :
    ∃ outcome, T.Denotes (items.map PaddedName.name) outcome ∧
      T.ReadsAs (listText items) outcome ∧
      ∀ items' : List PaddedName, (∀ item ∈ items', item.IsPlain) →
        (∀ name, name ∈ items'.map PaddedName.name ↔ name ∈ items.map PaddedName.name) →
        T.ReadsAs (listText items') outcome := by
  have hnames : items.map PaddedName.name ≠ [] := mt List.map_eq_nil_iff.mp hne
  refine ⟨T.value? (items.map PaddedName.name), (denotes_iff hnodup hnames).mpr rfl,
    readsAs_value? hname hdot hne hitems, fun items' hitems' hsame => ?_⟩
  have hne' : items' ≠ [] := by
    obtain ⟨name, hmem⟩ := List.exists_mem_of_ne_nil _ hnames
    exact mt List.map_eq_nil_iff.mpr (List.ne_nil_of_mem ((hsame name).mpr hmem))
  rw [← value?_congr hsame]
  exact readsAs_value? hname hdot hne' hitems'

/-- Two of three flags, one of them named twice, with spaces around the commas. -/
theorem readers_agree_flags :
    let type : EnumType := ⟨"Sales.Flags", ["New", "Paid", "Sent"], true⟩
    let items : List PaddedName := [⟨[], "Sent", [' ']⟩, ⟨[' '], "New", []⟩, ⟨['\t'], "Sent", []⟩]
    type.members.Nodup ∧ Quoted.isQualifiedName type.name.toList = true ∧ '.' ∈ type.name.toList ∧
      items ≠ [] ∧ (∀ item ∈ items, item.IsPlain) ∧
      String.ofList (listText items) = "Sent , New,\tSent" ∧
      type.ReadsAs (listText items) (some (.enumeration ⟨"Sales.Flags", ["New", "Sent"]⟩)) := by
  intro type items
  have hnodup : type.members.Nodup := by decide
  have hname : Quoted.isQualifiedName type.name.toList = true := by decide
  have hdot : '.' ∈ type.name.toList := by decide
  have hne : items ≠ [] := by simp [items]
  have hitems : ∀ item ∈ items, item.IsPlain := by
    have hnew : Quoted.IsMember "New" := ⟨by decide, by decide, by decide⟩
    have hsent : Quoted.IsMember "Sent" := ⟨by decide, by decide, by decide⟩
    simp only [items, List.forall_mem_cons]
    exact ⟨⟨hsent, by decide, by decide, by decide, by decide⟩,
      ⟨hnew, by decide, by decide, by decide, by decide⟩,
      ⟨hsent, by decide, by decide, by decide, by decide⟩, by simp⟩
  obtain ⟨outcome, hdenotes, hreads, _⟩ := readers_agree hnodup hname hdot hne hitems
  have hvalue : type.value? (items.map PaddedName.name) =
      some (.enumeration ⟨"Sales.Flags", ["New", "Sent"]⟩) := by decide
  rw [denotes_iff hnodup (by decide), hvalue] at hdenotes
  rw [← hdenotes] at hreads
  exact ⟨hnodup, hname, hdot, hne, hitems, rfl, hreads⟩

end EnumType

end ODataQuery
