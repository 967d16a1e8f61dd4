import ODataQuery.Proofs.Document.Negation

/-!
# What the queries of filters select

A filter means the same of a record and of the document that stores it under the exact rules, so
the query for a filter selects the documents of the records where the filter is true, and the query
for its negation those where it is false.

## Main statements

- `DocumentFilter.meaning_of_stores` — filters mean the same of records and of documents
- `DocumentFilter.selects_render` — the query selects by the truth value of the filter
-/

namespace ODataQuery

namespace DocumentFilter

open MatchingRules

variable {compared : Bool → String → Prop} {entity : EntityType} {record : Record} {doc : Json}

-- ════════════════════════════════════════════════════════════════════════
-- Fields of stored records
-- ════════════════════════════════════════════════════════════════════════

/-- What a document has at the path of a scalar property. -/
theorem at?_of_scalar {p : Property} {type : StaticType} (hkeys : entity.HasPlainKeys)
    (hstores : entity.Stores record doc) (hp : p ∈ entity.properties)
    (htype : p.type.scalar? = some type) :
    doc.at? p.source = some (record.value p.source).toDocument := by
  obtain ⟨hkeys, _⟩ := hkeys
  obtain ⟨hscalars, _, _, _⟩ := hstores
  rw [Json.at?_of_plainKey (hkeys p hp), Json.child?, String.ofList_toList]
  exact hscalars p hp type htype

/-- What a document has at the path of a collection. -/
theorem elements?_of_collection {p : Property} (hplain : PlainKey p.source)
    {members : List (String × Json)} {items : List Json}
    (hlookup : members.lookup p.source = some (.array items)) :
    Json.elements? ((Json.object members).at? p.source) = some items := by
  rw [Json.at?_of_plainKey hplain, Json.child?, String.ofList_toList, hlookup]
  rfl

/-- A filter that fits an entity type suits the documents of its records. -/
theorem suits_of_fits {f : DocumentFilter} (hfits : f.Fits compared entity)
    (hkeys : entity.HasPlainKeys) (hstores : entity.Stores record doc) : f.Suits doc := by
  induction hfits generalizing record doc with
  | compare hp _ hop =>
    obtain ⟨hplain, _⟩ := hkeys
    exact .compare (hplain _ hp) hop
  | isTrue hp =>
    obtain ⟨hplain, _⟩ := hkeys
    exact .isTrue (hplain _ hp)
  | isIn hp _ _ hvalues =>
    obtain ⟨hplain, _⟩ := hkeys
    exact .isIn (hplain _ hp) fun v hv => (hvalues v hv).1
  | hasPattern hp =>
    obtain ⟨hplain, _⟩ := hkeys
    exact .hasPattern (hplain _ hp)
  | and _ ih => exact .and fun f hf => ih f hf hkeys hstores
  | or _ ih => exact .or fun f hf => ih f hf hkeys hstores
  | not _ ih => exact .not (ih hkeys hstores)
  | @elements entity target p link quantifier body hp htype _ ih =>
    obtain ⟨hplain, htargets⟩ := hkeys
    obtain ⟨_, items, harrays, hitems⟩ := hstores
    obtain ⟨hlookup, hlength⟩ := harrays p hp target link htype
    refine .elements (hplain p hp) (elements?_of_collection (hplain p hp) hlookup)
      fun item hitem => ?_
    obtain ⟨r, hr⟩ := Lists.exists_mem_zip hlength hitem
    exact ih (htargets p hp target link htype) (hitems p hp target link htype _ hr)
  | @bare entity target p link quantifier hp htype =>
    obtain ⟨hplain, _⟩ := hkeys
    obtain ⟨_, items, harrays, _⟩ := hstores
    obtain ⟨hlookup, _⟩ := harrays p hp target link htype
    exact .bare (hplain p hp) (elements?_of_collection (hplain p hp) hlookup)
  | constant => exact .constant

-- ════════════════════════════════════════════════════════════════════════
-- Tests of stored values
-- ════════════════════════════════════════════════════════════════════════

/-- A comparison of stored values has the truth value of the comparison of the values. -/
theorem test_toDocument {op : BinaryOp} (hop : op.isComparison = true) {v w : Value}
    (h : v.isNull = true ∨ w.isNull = true ∨ Value.Alike op.isRelational v w)
    (hnull : op.isRelational = true → w.isNull = false) :
    exact.test op (some v.toDocument) w.toDocument = (Value.test op v w).truth? := by
  have hequals : exact.equals (some v.toDocument) w.toDocument = v.equals w := by
    rw [equals_exact, Value.equals_toDocument h]
  have horder (hrelational : op.isRelational = true) :
      exact.order v.toDocument w.toDocument = v.compare w := by
    obtain hv | hw | halike := h
    · cases Value.eq_null_of_isNull hv
      rw [Value.compare_null_left]
      exact exact.order_null_left _
    · rw [hnull hrelational] at hw
      cases hw
    · rw [hrelational] at halike
      rw [order_exact, halike.order]
  cases op with
  | eq => exact congrArg some hequals
  | ne => exact congrArg (fun b => some (!b)) hequals
  | gt | ge | lt | le =>
    simp only [MatchingRules.test, Option.bind_some, horder rfl, Value.test]
    cases v.compare w with
    | none => rfl
    | some o => cases o <;> rfl
  | _ => cases hop

/-- A stored value is there unless it is `null`. -/
theorem present?_toDocument (v : Value) :
    Json.present? (some v.toDocument) = if v.isNull then none else some v.toDocument := by
  rw [Json.present?, Option.filter_some, Value.isNull_toDocument]
  cases v.isNull <;> rfl

/-- Membership of a stored value in a list of constants. -/
theorem map_present?_isIn {v : Value} {values : List Value}
    (h : ∀ w ∈ values, v.isNull = true ∨ w.isNull = true ∨ Value.Alike false v w) :
    ((Json.present? (some v.toDocument)).map fun field =>
        values.any fun w => exact.equals (some field) w.toDocument) =
      (v.isIn values).truth? := by
  have hany : (values.any fun w => exact.equals (some v.toDocument) w.toDocument) =
      values.any v.equals := by
    have hmap := List.map_congr_left fun w hw =>
      (congrFun (equals_exact (some v.toDocument)) w.toDocument).trans
        (Value.equals_toDocument (h w hw))
    rw [Lists.any_eq_any_map, hmap, ← Lists.any_eq_any_map]
  rw [present?_toDocument, Value.isIn]
  split
  · rfl
  · rw [Option.map_some, hany]
    rfl

/-- Occurrence of a pattern in a stored text. -/
theorem map_present?_hasPattern {v : Value} (hv : StaticType.string.Holds v) (pattern : String) :
    ((Json.present? (some v.toDocument)).map fun field =>
        exact.hasPattern (some field) (.string pattern)) =
      v.chars?.map fun s => (LiteralPattern.ofChars? pattern.toList).any (·.occursIn s) := by
  obtain rfl | hkind := hv
  · rfl
  · cases v with
    | string s => rfl
    | _ => cases hkind

/-- The truth value of a stored Boolean. -/
theorem truth?_toDocument {v : Value} (hv : StaticType.boolean.Holds v) :
    Json.truth? (some v.toDocument) = v.truth? := by
  obtain rfl | hkind := hv
  · rfl
  · cases v with
    | boolean b => rfl
    | _ => cases hkind

-- ════════════════════════════════════════════════════════════════════════
-- Filters
-- ════════════════════════════════════════════════════════════════════════

/-- A quantifier over the documents of related records. -/
theorem quantified_eq (quantifier : Quantifier) {items : List Json} {records : List Record}
    {test : Json → Bool} {test' : Record → Bool} (h : items.map test = records.map test') :
    quantified quantifier items test = Meaning.quantified quantifier records test' := by
  cases quantifier with
  | any =>
    show items.any test = records.any test'
    rw [Lists.any_eq_any_map, Lists.any_eq_any_map records, h]
  | all =>
    show items.all test = records.all test'
    rw [Lists.all_eq_all_map, Lists.all_eq_all_map records, h]

/-- A filter means the same of a record and of the document that stores it. -/
theorem meaning_of_stores {f : DocumentFilter} (hfits : f.Fits compared entity)
    (hkeys : entity.HasPlainKeys) (hconforms : entity.Conforms record)
    (hfaithful : record.Everywhere fun key v =>
      ∀ ordered, compared ordered key → v.Faithful ordered)
    (hstores : entity.Stores record doc) : exact.meaning f doc = f.meaning record := by
  induction hfits generalizing record doc with
  | @compare entity p type op v hp htype hop hmeets hv hcompared hordered =>
    obtain ⟨hscalars, _⟩ := hconforms
    obtain ⟨hvalues, _⟩ := hfaithful
    rw [MatchingRules.meaning, at?_of_scalar hkeys hstores hp htype]
    exact test_toDocument hop
      (StaticType.alike (hscalars p hp type htype) hmeets (fun h => (hordered h).1)
        (hvalues p.source _ hcompared) hv)
      fun h => (hordered h).2
  | @isTrue entity p hp htype =>
    obtain ⟨hscalars, _⟩ := hconforms
    rw [MatchingRules.meaning, at?_of_scalar hkeys hstores hp htype]
    exact truth?_toDocument (hscalars p hp _ htype)
  | @isIn entity p type values hp htype hcompared hvalues' =>
    obtain ⟨hscalars, _⟩ := hconforms
    obtain ⟨hvalues, _⟩ := hfaithful
    rw [MatchingRules.meaning, at?_of_scalar hkeys hstores hp htype]
    refine map_present?_isIn fun v hv => ?_
    obtain ⟨_, hmeets, hv⟩ := hvalues' v hv
    exact StaticType.alike (hscalars p hp type htype) hmeets (fun h => absurd h (by decide))
      (hvalues p.source false hcompared) hv
  | @hasPattern entity p pattern hp htype =>
    obtain ⟨hscalars, _⟩ := hconforms
    rw [MatchingRules.meaning, at?_of_scalar hkeys hstores hp htype]
    exact map_present?_hasPattern (hscalars p hp _ htype) pattern
  | and _ ih =>
    rw [MatchingRules.meaning, meaning, MatchingRules.meanings_eq_map, meanings_eq_map]
    exact congrArg allTrue
      (List.map_congr_left fun f hf => ih f hf hkeys hconforms hfaithful hstores)
  | or _ ih =>
    rw [MatchingRules.meaning, meaning, MatchingRules.meanings_eq_map, meanings_eq_map]
    exact congrArg anyTrue
      (List.map_congr_left fun f hf => ih f hf hkeys hconforms hfaithful hstores)
  | not _ ih => rw [MatchingRules.meaning, meaning, ih hkeys hconforms hfaithful hstores]
  | @elements entity target p link quantifier body hp htype hbody ih =>
    obtain ⟨hplain, htargets⟩ := hkeys
    obtain ⟨_, hrelated⟩ := hconforms
    obtain ⟨_, heverywhere⟩ := hfaithful
    obtain ⟨_, items, harrays, hitems⟩ := hstores
    obtain ⟨hlookup, hlength⟩ := harrays p hp target link htype
    -- The body means the same of every item as of the record that it stores.
    have hbodies : (items p.source).map (fun item => exact.meaning body item == some true) =
        (record.related p.source).map (fun r => body.meaning r == some true) := by
      refine Lists.map_eq_map_of_zip hlength fun i hi => ?_
      have hmem : i.1 ∈ record.related p.source := (List.of_mem_zip hi).1
      rw [ih (htargets p hp target link htype) (hrelated p hp target link htype i.1 hmem)
        (heverywhere p.source i.1 hmem) (hitems p hp target link htype i hi)]
    rw [MatchingRules.meaning, meaning, elements?_of_collection (hplain p hp) hlookup,
      Option.getD_some, quantified_eq quantifier hbodies]
  | @bare entity target p link quantifier hp htype =>
    obtain ⟨hplain, _⟩ := hkeys
    obtain ⟨_, items, harrays, _⟩ := hstores
    obtain ⟨hlookup, hlength⟩ := harrays p hp target link htype
    have hempty : (items p.source).isEmpty = (record.related p.source).isEmpty := by
      rw [Bool.eq_iff_iff, List.isEmpty_iff_length_eq_zero, List.isEmpty_iff_length_eq_zero, hlength]
    rw [MatchingRules.meaning, meaning, elements?_of_collection (hplain p hp) hlookup,
      Option.getD_some, hempty]
  | constant => rfl

/-- The query for a filter selects the documents of the records where the filter is true, and the
query for its negation those where it is false. -/
theorem selects_render {f : DocumentFilter} (hfits : f.Fits compared entity)
    (hkeys : entity.HasPlainKeys) (hconforms : entity.Conforms record)
    (hfaithful : record.Everywhere fun key v =>
      ∀ ordered, compared ordered key → v.Faithful ordered)
    (hstores : entity.Stores record doc) (negated : Bool) :
    (f.render negated).selects doc = (f.meaning record == some !negated) := by
  rw [← selects_exact, selects_render_of_suits (suits_of_fits hfits hkeys hstores),
    meaning_of_stores hfits hkeys hconforms hfaithful hstores]

end DocumentFilter

end ODataQuery
