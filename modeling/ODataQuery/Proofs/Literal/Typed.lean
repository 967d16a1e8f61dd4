import ODataQuery.Proofs.Literal.Reading

/-!
# Literals of a known kind

A value is read from its own text as it was read from another one, whatever spelling that chose:
signs and zeros in front of a number, either alphabet of binary data, a missing second, an offset
of zero, upper case. Floating point numbers are left out, and times of day have a module of their
own. The members of an enumeration are written as they are, although the reader undoubles quotes in
them.

## Main definitions

- `Kind.isShownExactly` — the kinds that are written as they were read

## Main statements

- `Value.ofText?_canonicalText` — a value of these kinds is read from its text, and other values
  have other texts
- `Value.ofText?_text_of_enumeration` — an enumeration literal is read from the text of its value
  exactly if no member has a quote
-/

namespace ODataQuery

/-- The kinds whose values have texts that denote them again. A leap second is written with a
fraction that it does not have, and quotes in the names of members are not doubled. -/
def Kind.isShownExactly : Kind → Bool
  | .single | .double | .timeOfDay | .enumeration => false
  | _ => true

namespace Value

variable {kind : Kind} {cs : List Char} {v : Value}

/-- What the reader of a kind reads is a literal of the kind, as no reader takes `null`. -/
theorem ofText?_eq_some_of_reads (read : List Char → Option Value)
    (hkind : ∀ cs, cs ≠ "null".toList → ofText? kind cs = read cs)
    (hnull : read "null".toList = none) (h : read cs = some v) : ofText? kind cs = some v := by
  rw [hkind cs ?_, h]
  rintro rfl
  rw [hnull] at h
  cases h

theorem ofText?_eq_some_of_map {α : Type} {read : List Char → Option α} {f : α → Value} {a : α}
    (hkind : ∀ cs, cs ≠ "null".toList → ofText? kind cs = (read cs).map f)
    (hnull : read "null".toList = none) (h : read cs = some a) : ofText? kind cs = some (f a) :=
  ofText?_eq_some_of_reads (fun cs => (read cs).map f) hkind (by rw [hnull]; rfl) (by rw [h]; rfl)

theorem ofBinaryText?_text (bytes : List UInt8) :
    ofBinaryText? (text (binary bytes)).toList = some (binary bytes) := by
  have hword : Shape.isBinaryWord "binary".toList = true := by decide
  rw [ofBinaryText?, prefixed?_text_binary]
  show (if Shape.isBinaryWord "binary".toList then
    (Base64.decode? (Base64.encodeUrl bytes).toList).map binary else none) = _
  rw [if_pos hword, Base64.decode?_encodeUrl]
  rfl

theorem ofDurationText?_text (d : Duration) :
    ofDurationText? (text (duration d)).toList = some (duration d) := by
  have hword : Shape.isDurationWord "duration".toList = true := by decide
  rw [ofDurationText?, prefixed?_text_duration]
  show (if Shape.isDurationWord "duration".toList then (Duration.ofText? d.chars).map duration
    else none) = _
  rw [if_pos hword, Duration.ofText?_chars]
  rfl

theorem exists_of_ofBinaryText? (h : ofBinaryText? cs = some v) : ∃ bytes, v = binary bytes := by
  obtain ⟨p, _, h⟩ := Option.bind_eq_some_iff.mp h
  split at h
  · obtain ⟨bytes, _, rfl⟩ := Option.map_eq_some_iff.mp h
    exact ⟨bytes, rfl⟩
  · cases h

theorem exists_of_ofDurationText? (h : ofDurationText? cs = some v) : ∃ d, v = duration d := by
  unfold ofDurationText? at h
  split at h
  · split at h
    · obtain ⟨d, _, rfl⟩ := Option.map_eq_some_iff.mp h
      exact ⟨d, rfl⟩
    · cases h
  · obtain ⟨d, _, rfl⟩ := Option.map_eq_some_iff.mp h
    exact ⟨d, rfl⟩

theorem exists_of_ofText?_boolean (h : ofText? .boolean cs = some v) :
    v = null ∨ ∃ b, v = boolean b := by
  unfold ofText? at h
  split at h
  · exact .inl (Option.some.inj h).symm
  · dsimp only at h
    split at h
    · exact .inr ⟨true, (Option.some.inj h).symm⟩
    · split at h
      · exact .inr ⟨false, (Option.some.inj h).symm⟩
      · cases h

/-- A value is read from its text, whatever text it was read from before. -/
theorem ofText?_text_of_ofText? (hkind : kind.isShownExactly = true)
    (h : ofText? kind cs = some v) : ofText? kind v.text.toList = some v := by
  by_cases hnull : cs = "null".toList
  · cases (if_pos hnull).symm.trans h
    rfl
  · cases kind with
    | single | double | timeOfDay | enumeration => cases hkind
    | boolean =>
      obtain rfl | ⟨b, rfl⟩ := exists_of_ofText?_boolean h
      · rfl
      · cases b <;> rfl
    | byte | sbyte | int16 | int32 | int64 | decimal =>
      replace h := (if_neg hnull).symm.trans h
      exact ofText?_eq_some_of_reads (ofNumber? _) (fun _ h => if_neg h) rfl (ofNumber?_text h rfl)
    | string =>
      obtain ⟨s, _, rfl⟩ := Option.map_eq_some_iff.mp ((if_neg hnull).symm.trans h)
      refine ofText?_eq_some_of_map (f := fun s => string (String.ofList s)) (fun _ h => if_neg h)
        rfl ?_
      rw [text, Quoted.string?_quoted, String.toList_ofList]
    | binary =>
      obtain ⟨bytes, rfl⟩ := exists_of_ofBinaryText? ((if_neg hnull).symm.trans h)
      exact ofText?_eq_some_of_reads ofBinaryText? (fun _ h => if_neg h) rfl
        (ofBinaryText?_text bytes)
    | date =>
      obtain ⟨d, hd, rfl⟩ := Option.map_eq_some_iff.mp ((if_neg hnull).symm.trans h)
      exact ofText?_eq_some_of_map (fun _ h => if_neg h) rfl
        (Date.ofText?_text (Date.hasFourDigitYear_of_ofText? hd))
    | dateTimeOffset =>
      obtain ⟨i, hi, rfl⟩ := Option.map_eq_some_iff.mp ((if_neg hnull).symm.trans h)
      exact ofText?_eq_some_of_map (fun _ h => if_neg h) rfl
        (Instant.ofText?_text (Instant.hasFourDigitYear_of_ofText? hi))
    | guid =>
      obtain ⟨g, _, rfl⟩ := Option.map_eq_some_iff.mp ((if_neg hnull).symm.trans h)
      exact ofText?_eq_some_of_map (fun _ h => if_neg h) rfl (Guid.ofText?_text g)
    | duration =>
      obtain ⟨d, rfl⟩ := exists_of_ofDurationText? ((if_neg hnull).symm.trans h)
      exact ofText?_eq_some_of_reads ofDurationText? (fun _ h => if_neg h) rfl
        (ofDurationText?_text d)

/-- A value that was read from any text is read from its own text, which is the one text of the
values that are read. -/
theorem ofText?_canonicalText (hkind : kind.isShownExactly = true) (h : ofText? kind cs = some v) :
    ofText? kind v.text.toList = some v ∧
      (ofText? kind v.text.toList).map text = some v.text ∧
      ∀ cs' w, ofText? kind cs' = some w → (w.text = v.text ↔ w = v) := by
  have hback := ofText?_text_of_ofText? hkind h
  refine ⟨hback, by rw [hback]; rfl, fun cs' w hw => ⟨fun htext => ?_, congrArg text⟩⟩
  have hback' := ofText?_text_of_ofText? hkind hw
  rw [htext] at hback'
  exact Option.some.inj (hback'.symm.trans hback)

/-- The instant of a leap second, written with lower case, twelve digits of a fraction and a
negative offset of zero. -/
theorem ofText?_canonicalText_leapDay :
    ∃ v, ofText? .dateTimeOffset "2020-02-29t23:59:60.123456789012-00:00".toList = some v ∧
      v.text = "2020-02-29T23:59:60.123456789Z" ∧
      ofText? .dateTimeOffset v.text.toList = some v ∧
      (ofText? .dateTimeOffset v.text.toList).map text = some v.text ∧
      ∀ cs' w, ofText? .dateTimeOffset cs' = some w → (w.text = v.text ↔ w = v) := by
  have htext : (ofText? .dateTimeOffset "2020-02-29t23:59:60.123456789012-00:00".toList).map text =
      some "2020-02-29T23:59:60.123456789Z" := rfl
  obtain ⟨v, hv, htext⟩ := Option.map_eq_some_iff.mp htext
  exact ⟨v, hv, htext, ofText?_canonicalText rfl hv⟩

-- ════════════════════════════════════════════════════════════════════════
-- Enumeration literals
-- ════════════════════════════════════════════════════════════════════════

theorem ofEnumText?_eq_some_iff :
    ofEnumText? cs = some v ↔ ∃ p names, Quoted.prefixed? cs = some p ∧ '.' ∈ p.word ∧
      Quoted.members? p.body = some names ∧ v = enumeration ⟨String.ofList p.word, names⟩ := by
  constructor
  · intro h
    obtain ⟨p, hp, h⟩ := Option.bind_eq_some_iff.mp h
    split at h
    · next hdotted =>
      obtain ⟨names, hnames, rfl⟩ := Option.map_eq_some_iff.mp h
      exact ⟨p, names, hp, List.contains_iff_mem.mp hdotted, hnames, rfl⟩
    · cases h
  · rintro ⟨p, names, hp, hdotted, hnames, rfl⟩
    rw [ofEnumText?, hp, Option.bind_eq_bind, Option.bind_some,
      if_pos (List.contains_iff_mem.mpr hdotted), hnames]
    rfl

/-- What is read as an enumeration literal can be written, but for quotes in the members. -/
theorem isReadable_of_ofEnumText? {e : EnumValue} (h : ofEnumText? cs = some (enumeration e))
    (hquote : ∀ name ∈ e.members, '\'' ∉ name.toList) : e.IsReadable := by
  obtain ⟨p, names, hp, hdotted, hnames, heq⟩ := ofEnumText?_eq_some_iff.mp h
  cases heq
  obtain ⟨hword, hline, _⟩ := Quoted.prefixed?_eq_some_iff.mp hp
  obtain ⟨hne, hmembers⟩ := Quoted.isMember_of_members? hnames
  rw [← String.toList_ofList (l := p.word)] at hword hdotted
  exact ⟨hword, hdotted, hne, hmembers, hquote,
    fun name hname hmem => hline (Quoted.mem_of_members? hnames hname hmem).1⟩

/-- An enumeration literal is read from the text of its value exactly if no member has a
quote. -/
theorem ofEnumText?_text_iff {e : EnumValue} (h : ofEnumText? cs = some (enumeration e)) :
    ofEnumText? (text (enumeration e)).toList = some (enumeration e) ↔
      ∀ name ∈ e.members, '\'' ∉ name.toList := by
  constructor
  · intro hback
    obtain ⟨p, names, hp, _, hnames, heq⟩ := ofEnumText?_eq_some_iff.mp hback
    cases heq
    obtain ⟨hword, _, htext⟩ := Quoted.prefixed?_eq_some_iff.mp hp
    rw [toList_text_enumeration, String.toList_ofList] at htext
    have hbody := List.append_cancel_left htext
    refine Quoted.not_mem_of_members?_undoubled (Quoted.isMember_of_members? hnames).2 ?_ hnames
    exact List.append_cancel_right (List.tail_eq_of_cons_eq hbody)
  · intro hquote
    have hread := isReadable_of_ofEnumText? h hquote
    refine ofEnumText?_eq_some_iff.mpr ⟨_, _, prefixed?_text_enumeration hread, hread.dotted,
      Quoted.members?_membersText hread.ne_nil hread.isMember, ?_⟩
    rw [String.ofList_toList]

theorem ofText?_enumeration_of_quote (h : '\'' ∈ cs) : ofText? .enumeration cs = ofEnumText? cs := by
  refine if_neg ?_
  rintro rfl
  exact absurd h (by decide)

/-- The value of an enumeration literal is read from its text exactly if no member has a quote. The
reader takes two quotes for one, and the members are written with single ones. -/
theorem ofText?_text_of_enumeration (h : ofText? .enumeration cs = some v) :
    ofText? .enumeration v.text.toList = some v ↔
      ∀ e, v = enumeration e → ∀ name ∈ e.members, '\'' ∉ name.toList := by
  by_cases hnull : cs = "null".toList
  · cases (if_pos hnull).symm.trans h
    exact iff_of_true rfl fun e he => nomatch he
  · replace h : ofEnumText? cs = some v := (if_neg hnull).symm.trans h
    obtain ⟨p, names, _, _, _, rfl⟩ := ofEnumText?_eq_some_iff.mp h
    rw [ofText?_enumeration_of_quote (by rw [toList_text_enumeration]; simp), ofEnumText?_text_iff h]
    exact ⟨fun hquote e he => enumeration.inj he ▸ hquote, fun hquote => hquote _ rfl⟩

theorem ofText?_text_of_enumeration_colors :
    ofText? .enumeration "Sales.Color' Red , Green'".toList =
        some (enumeration ⟨"Sales.Color", ["Red", "Green"]⟩) ∧
      ofText? .enumeration (text (enumeration ⟨"Sales.Color", ["Red", "Green"]⟩)).toList =
        some (enumeration ⟨"Sales.Color", ["Red", "Green"]⟩) := by
  have h : ofText? .enumeration "Sales.Color' Red , Green'".toList =
      some (enumeration ⟨"Sales.Color", ["Red", "Green"]⟩) := by decide +kernel
  refine ⟨h, (ofText?_text_of_enumeration h).mpr ?_⟩
  rintro e he
  cases he
  decide

/-- The text of a member with a quote is no literal. -/
theorem ofText?_text_of_enumeration_quoted :
    ofText? .enumeration "Sales.Color'O''Brien'".toList =
        some (enumeration ⟨"Sales.Color", ["O'Brien"]⟩) ∧
      text (enumeration ⟨"Sales.Color", ["O'Brien"]⟩) = "Sales.Color'O'Brien'" ∧
      ofText? .enumeration "Sales.Color'O'Brien'".toList = none := by
  decide +kernel

-- Two quotes in a row are read as one, so that the text denotes another member.
example :
    ofText? .enumeration (text (enumeration ⟨"Sales.Color", ["O''Brien"]⟩)).toList =
      some (enumeration ⟨"Sales.Color", ["O'Brien"]⟩) := by
  decide +kernel

end Value

end ODataQuery
