import ODataQuery.Proofs.Document.Rules
import ODataQuery.Proofs.Document.Selection
import ODataQuery.Proofs.Lists

/-!
# Negation in the queries of filters

A query only selects or does not, while a filter can also be unknown of a document. The query for
a filter selects the documents where the filter is true, and the query for its negation those where
it is false, whatever the rules of the collection say about numbers and patterns.

## Main definitions

- `MatchingRules.meaning` — the truth value of a filter on a document
- `DocumentFilter.Suits` — filters that a document has the fields for

## Main statements

- `MatchingRules.test_of_not_present` — a comparison by order is unknown of a missing field
- `DocumentFilter.selects_render_of_suits` — the query selects by the truth value of the filter
- `DocumentFilter.selects_iff_meaning` — the queries for a filter and for its negation

## Design notes

A comparison is unknown where its rules give no order, and never if it tests equality. The other
tests are unknown of a field that is missing or `null`.
-/

namespace ODataQuery

namespace Json

-- ════════════════════════════════════════════════════════════════════════
-- Fields
-- ════════════════════════════════════════════════════════════════════════

/-- The value of a field, if it is neither missing nor `null`. -/
def present? (value : Option Json) : Option Json := value.filter (!·.isNull)

/-- The truth value of a field. -/
def truth? : Option Json → Option Bool
  | some (bool b) => some b
  | _ => none

/-- The elements of a field that holds an array, none of them if it is missing or `null`. -/
def elements? : Option Json → Option (List Json)
  | none | some null => some []
  | some (array items) => some items
  | some _ => none

/-- A field that is not there is missing or `null`. -/
theorem eq_of_present?_eq_none {value : Option Json} (h : present? value = none) :
    value = none ∨ value = some null := by
  cases value with
  | none => exact .inl rfl
  | some j =>
    cases j with
    | null => exact .inr rfl
    | _ => cases h

theorem eq_of_present?_eq_some {value : Option Json} {field : Json} (h : present? value = some field) :
    value = some field :=
  (Option.filter_eq_some_iff.mp h).1

/-- A field with elements holds an array, or has none of them. -/
theorem eq_of_elements?_eq_some {value : Option Json} {items : List Json}
    (h : elements? value = some items) :
    value = some (array items) ∨ (value = none ∨ value = some null) ∧ items = [] := by
  cases value with
  | none =>
    cases h
    exact .inr ⟨.inl rfl, rfl⟩
  | some j =>
    cases j with
    | null =>
      cases h
      exact .inr ⟨.inr rfl, rfl⟩
    | array _ =>
      cases h
      exact .inl rfl
    | _ => cases h

variable {doc : Json} {path : String}

theorem at?_of_plainKey (h : PlainKey path) : doc.at? path = doc.child? path.toList := by
  rw [at?, Text.splitOn_of_not_mem h.1]
  exact Option.bind_fun_some _

theorem splitOn_firstItem (h : '.' ∉ path.toList) :
    Text.splitOn '.' (path ++ ".0").toList = [path.toList, ['0']] := by
  have hparts := @Text.splitOn_intercalate '.' [path.toList, ['0']] (List.cons_ne_nil _ _)
    (by simpa using h)
  rw [← hparts, String.toList_append]
  rfl

theorem head?_firstItem (h : path.toList.head? ≠ some '$') :
    (path ++ ".0").toList.head? ≠ some '$' := by
  rw [String.toList_append, List.head?_append]
  cases hhead : path.toList.head? with
  | none => decide
  | some c => simpa [hhead] using h

/-- The first element of a field is there if the field has elements. -/
theorem isSome_at?_firstItem (h : PlainKey path) {items : List Json}
    (hitems : elements? (doc.at? path) = some items) :
    (doc.at? (path ++ ".0")).isSome = !items.isEmpty := by
  have hfirst : doc.at? (path ++ ".0") = (doc.at? path).bind (child? · ['0']) := by
    rw [at?_of_plainKey h, at?, splitOn_firstItem h.1]
    show (doc.child? path.toList).bind (fun j => (child? j ['0']).bind some) = _
    exact congrArg _ (funext fun j => Option.bind_fun_some _)
  rw [hfirst]
  obtain hvalue | ⟨hvalue | hvalue, rfl⟩ := eq_of_elements?_eq_some hitems
  · rw [hvalue]
    show ((place? ['0']).bind (items[·]?)).isSome = _
    rw [show place? ['0'] = some 0 by decide]
    cases items <;> rfl
  · rw [hvalue]
    rfl
  · rw [hvalue]
    rfl

end Json

-- ════════════════════════════════════════════════════════════════════════
-- The meaning of filters on documents
-- ════════════════════════════════════════════════════════════════════════

namespace MatchingRules

section

variable (rules : MatchingRules)

/-- The truth value of a comparison. Equality always has one, and the order has one if there is
an order. -/
def test (op : BinaryOp) (value : Option Json) (constant : Json) : Option Bool :=
  match op with
  | .eq => some (rules.equals value constant)
  | .ne => some (!rules.equals value constant)
  | op => (value.bind (rules.order · constant)).bind (Value.accepts op)

/-- Whether some or every element satisfies a test. -/
def quantified (quantifier : Quantifier) (items : List Json) (test : Json → Bool) : Bool :=
  match quantifier with
  | .any => items.any test
  | .all => items.all test

mutual

/-- The truth value of a filter on a document, none if it is unknown. -/
def meaning : DocumentFilter → Json → Option Bool
  | .compare path op v, doc => rules.test op (doc.at? path) v.toDocument
  | .isTrue path, doc => Json.truth? (doc.at? path)
  | .isIn path values, doc =>
    (Json.present? (doc.at? path)).map fun field =>
      values.any fun v => rules.equals (some field) v.toDocument
  | .hasPattern path pattern, doc =>
    (Json.present? (doc.at? path)).map fun field => rules.hasPattern (some field) (.string pattern)
  | .and items, doc => DocumentFilter.allTrue (meanings items doc)
  | .or items, doc => DocumentFilter.anyTrue (meanings items doc)
  | .not operand, doc => (meaning operand doc).map (!·)
  | .elements path quantifier body, doc =>
    some (quantified quantifier ((Json.elements? (doc.at? path)).getD []) fun item =>
      meaning body item == some true)
  | .bare path quantifier, doc =>
    some (quantifier == .all || !((Json.elements? (doc.at? path)).getD []).isEmpty)
  | .constant b, _ => b

/-- The truth values of some filters. -/
def meanings : List DocumentFilter → Json → List (Option Bool)
  | [], _ => []
  | f :: fs, doc => meaning f doc :: meanings fs doc

end

theorem meanings_eq_map (fs : List DocumentFilter) (doc : Json) :
    rules.meanings fs doc = fs.map (rules.meaning · doc) := by
  induction fs with
  | nil => rfl
  | cons f fs ih => rw [meanings, ih, List.map_cons]

end

variable {rules : MatchingRules} {doc : Json} {path : String}

/-- A comparison by order is unknown of a missing field and of `null`. -/
theorem test_of_not_present {op : BinaryOp} (hop : op.isRelational = true) {value : Option Json}
    (hvalue : Json.present? value = none) (constant : Json) : rules.test op value constant = none := by
  have hnone : value.bind (rules.order · constant) = none := by
    obtain rfl | rfl := Json.eq_of_present?_eq_none hvalue
    · rfl
    · exact rules.order_null_left constant
  cases op with
  | gt | ge | lt | le => simp only [test, hnone, Option.bind_none]
  | _ => cases hop

/-- A comparison with the negated operator has the opposite truth value. -/
theorem test_negated {op : BinaryOp} (hop : op.isComparison = true) (value : Option Json)
    (constant : Json) :
    rules.test op.negated value constant = (rules.test op value constant).map (!·) := by
  cases op with
  | eq => rfl
  | ne => simp [test, BinaryOp.negated]
  | gt | ge | lt | le =>
    simp only [test, BinaryOp.negated]
    cases value.bind (rules.order · constant) with
    | none => rfl
    | some o => cases o <;> rfl
  | _ => cases hop

/-- A comparison operator holds where the comparison is true. -/
theorem operatorHolds_comparison {op : BinaryOp} (hop : op.isComparison = true)
    (value : Option Json) (constant : Json) (satisfied : Bool) (selected : Json → Bool) :
    rules.operatorHolds (DocumentFilter.comparisonName op) constant satisfied selected value =
      (rules.test op value constant == some true) := by
  cases op with
  | eq =>
    show rules.equals value constant = (some (rules.equals value constant) == some true)
    cases rules.equals value constant <;> rfl
  | ne =>
    show (!rules.equals value constant) = (some (!rules.equals value constant) == some true)
    cases rules.equals value constant <;> rfl
  | gt | ge | lt | le =>
    simp only [DocumentFilter.comparisonName, operatorHolds, ordered, test]
    cases value.bind (rules.order · constant) with
    | none => rfl
    | some o => cases o <;> rfl
  | _ => cases hop

-- ════════════════════════════════════════════════════════════════════════
-- Parts of queries
-- ════════════════════════════════════════════════════════════════════════

theorem isLogical_of_head? (h : path.toList.head? ≠ some '$') : Json.isLogical path = false := by
  simp only [Json.isLogical, Bool.or_eq_false_iff, beq_eq_false_iff_ne]
  refine ⟨⟨?_, ?_⟩, ?_⟩ <;> rintro rfl <;> exact h rfl

/-- A condition on a path holds if the value at the path satisfies it. -/
theorem selects_onPath (h : path.toList.head? ≠ some '$') (operators : List (String × Json)) :
    rules.selects (DocumentFilter.onPath path (.object operators)) doc =
      rules.operatorsHold operators (doc.at? path) := by
  show (!Json.isLogical path && rules.operatorsHold operators (doc.at? path) && true) = _
  rw [isLogical_of_head? h]
  simp

theorem operatorsHold_singleton (name : String) (argument : Json) (value : Option Json) :
    rules.operatorsHold [(name, argument)] value =
      rules.operatorHolds name argument (rules.satisfies argument value) (rules.selects argument)
        value :=
  Bool.and_true _

theorem selects_operator (h : path.toList.head? ≠ some '$') (name : String) (argument : Json) :
    rules.selects (DocumentFilter.onPath path (DocumentFilter.operator name argument)) doc =
      rules.operatorHolds name argument (rules.satisfies argument (doc.at? path))
        (rules.selects argument) (doc.at? path) := by
  rw [DocumentFilter.operator, selects_onPath h, operatorsHold_singleton]

/-- A condition that also refuses `null`. -/
theorem selects_notNull (h : path.toList.head? ≠ some '$') {name : String}
    (hname : name = "$nin" ∨ name = "$not") (argument : Json) :
    rules.selects (DocumentFilter.onPath path (DocumentFilter.notNull name argument)) doc =
      (!rules.equals (doc.at? path) .null &&
        rules.operatorHolds name argument (rules.satisfies argument (doc.at? path))
          (rules.selects argument) (doc.at? path)) := by
  have hfields : DocumentFilter.notNull name argument =
      .object [("$ne", .null), (name, argument)] := by
    have hlt : "$ne" < name := by obtain rfl | rfl := hname <;> decide
    simp only [DocumentFilter.notNull, Json.ofFields, List.foldl_cons, List.foldl_nil,
      Json.insertField]
    rw [if_pos hlt]
  rw [hfields, selects_onPath h, operatorsHold, operatorsHold_singleton]
  rfl

theorem allSelect_iff {queries : List Json} :
    rules.allSelect queries doc = true ↔ ∀ q ∈ queries, rules.selects q doc = true := by
  induction queries with
  | nil => simp [allSelect]
  | cons q qs ih => simp [allSelect, ih]

theorem anySelects_iff {queries : List Json} :
    rules.anySelects queries doc = true ↔ ∃ q ∈ queries, rules.selects q doc = true := by
  induction queries with
  | nil => simp [anySelects]
  | cons q qs ih => simp [anySelects, ih]

theorem selects_and (queries : List Json) :
    rules.selects (DocumentFilter.operator "$and" (.array queries)) doc =
      rules.allSelect queries doc := by
  show (rules.memberHolds "$and" (.array queries) doc && true) = _
  rw [memberHolds, if_pos rfl, Bool.and_true]

theorem selects_or (queries : List Json) :
    rules.selects (DocumentFilter.operator "$or" (.array queries)) doc =
      rules.anySelects queries doc := by
  show (rules.memberHolds "$or" (.array queries) doc && true) = _
  rw [memberHolds, if_neg (by decide), if_pos rfl, Bool.and_true]

theorem selects_nor (query : Json) :
    rules.selects (DocumentFilter.operator "$nor" (.array [query])) doc =
      !rules.selects query doc := by
  show (rules.memberHolds "$nor" (.array [query]) doc && true) = _
  rw [memberHolds, if_neg (by decide), if_neg (by decide), if_pos rfl, Bool.and_true]
  simp [anySelects]

theorem selects_everything : rules.selects DocumentFilter.everything doc = true := rfl

theorem selects_renderConstant (b : Option Bool) (negated : Bool) :
    rules.selects (DocumentFilter.renderConstant b negated) doc = (b == some !negated) := by
  unfold DocumentFilter.renderConstant
  split
  · next h => rw [h, selects_everything, beq_self_eq_true]
  · next h =>
    rw [DocumentFilter.nothing, selects_nor, selects_everything, Bool.not_true]
    exact (beq_eq_false_iff_ne.mpr h).symm

end MatchingRules

namespace DocumentFilter

open MatchingRules

variable {rules : MatchingRules} {doc : Json} {path : String}

-- ════════════════════════════════════════════════════════════════════════
-- Tests of one field
-- ════════════════════════════════════════════════════════════════════════

theorem isComparison_negated (op : BinaryOp) : op.negated.isComparison = op.isComparison := by
  cases op <;> rfl

theorem beq_map_not (b : Option Bool) (c : Bool) :
    (b.map (!·) == some c) = (b == some !c) := by
  rw [Bool.eq_iff_iff, beq_iff_eq, beq_iff_eq]
  exact map_not_eq_some

theorem some_beq_some (b c : Bool) : (some b == some c) = (b == c) := by
  cases b <;> cases c <;> rfl

/-- A comparison of a field with a constant. -/
theorem selects_compare (hpath : path.toList.head? ≠ some '$') {op : BinaryOp}
    (hop : op.isComparison = true) (v : Value) (negated : Bool) :
    rules.selects ((compare path op v).render negated) doc =
      (rules.test op (doc.at? path) v.toDocument == some !negated) := by
  simp only [render]
  rw [selects_operator hpath]
  cases negated with
  | false => exact operatorHolds_comparison hop _ _ _ _
  | true =>
    rw [if_pos rfl, operatorHolds_comparison ((isComparison_negated op).trans hop),
      test_negated hop, beq_map_not]

/-- A Boolean field. -/
theorem selects_isTrue (hpath : path.toList.head? ≠ some '$') (negated : Bool) :
    rules.selects ((isTrue path).render negated) doc =
      (Json.truth? (doc.at? path) == some !negated) := by
  rw [render, selects_operator hpath]
  show rules.equals (doc.at? path) (.bool !negated) = _
  cases doc.at? path with
  | none => rfl
  | some j =>
    simp only [equals, rules.order_bool]
    cases j with
    | bool b => cases b <;> cases negated <;> rfl
    | _ => rfl

theorem equals_null (value : Option Json) :
    rules.equals value .null = (Json.present? value).isNone := by
  cases value with
  | none => rfl
  | some j => cases j <;> rfl

/-- A missing field and `null` are equal to `null` only. -/
theorem equals_of_not_present {value : Option Json} (hvalue : Json.present? value = none)
    (constant : Json) : rules.equals value constant = constant.isNull := by
  obtain rfl | rfl := Json.eq_of_present?_eq_none hvalue <;> rfl

/-- Membership of a field in a list of constants. -/
theorem selects_isIn (hpath : path.toList.head? ≠ some '$') {values : List Value}
    (hvalues : ∀ v ∈ values, v.isNull = false) (negated : Bool) :
    rules.selects ((isIn path values).render negated) doc =
      ((Json.present? (doc.at? path)).map
        (fun field => values.any fun v => rules.equals (some field) v.toDocument) ==
          some !negated) := by
  have hany (value : Option Json) : (values.map Value.toDocument).any (rules.equals value) =
      values.any fun v => rules.equals value v.toDocument := List.any_map
  have hin (satisfied : Bool) (selected : Json → Bool) (value : Option Json) :
      rules.operatorHolds "$in" (.array (values.map Value.toDocument)) satisfied selected value =
        (values.map Value.toDocument).any (rules.equals value) := rfl
  have hnin (satisfied : Bool) (selected : Json → Bool) (value : Option Json) :
      rules.operatorHolds "$nin" (.array (values.map Value.toDocument)) satisfied selected value =
        !(values.map Value.toDocument).any (rules.equals value) := rfl
  simp only [render]
  cases negated with
  | false =>
    rw [if_neg (by decide), selects_operator hpath, hin, hany]
    cases hfield : Json.present? (doc.at? path) with
    | none =>
      -- The list has no `null` that a missing field could be equal to.
      refine List.any_eq_false.mpr fun v hv => ?_
      rw [equals_of_not_present hfield, Value.isNull_toDocument, hvalues v hv]
      decide
    | some field =>
      rw [Json.eq_of_present?_eq_some hfield, Option.map_some]
      cases values.any fun v => rules.equals (some field) v.toDocument <;> rfl
  | true =>
    rw [if_pos rfl, selects_notNull hpath (.inl rfl), hnin, hany, equals_null]
    cases hfield : Json.present? (doc.at? path) with
    | none => rfl
    | some field =>
      rw [Json.eq_of_present?_eq_some hfield, Option.map_some]
      cases values.any fun v => rules.equals (some field) v.toDocument <;> rfl

/-- Occurrence of a pattern in a field. -/
theorem selects_hasPattern (hpath : path.toList.head? ≠ some '$') (pattern : String)
    (negated : Bool) :
    rules.selects ((hasPattern path pattern).render negated) doc =
      ((Json.present? (doc.at? path)).map
        (fun field => rules.hasPattern (some field) (.string pattern)) == some !negated) := by
  have hregex (value : Option Json) :
      rules.satisfies (operator "$regex" (.string pattern)) value =
        rules.hasPattern value (.string pattern) := Bool.and_true _
  have hnot (argument : Json) (satisfied : Bool) (selected : Json → Bool) (value : Option Json) :
      rules.operatorHolds "$not" argument satisfied selected value = !satisfied := rfl
  have hnone {value : Option Json} (hvalue : Json.present? value = none) :
      rules.hasPattern value (.string pattern) = false := by
    obtain rfl | rfl := Json.eq_of_present?_eq_none hvalue <;> rfl
  simp only [render]
  cases negated with
  | false =>
    rw [if_neg (by decide), operator, selects_onPath hpath, operatorsHold_singleton]
    show rules.hasPattern (doc.at? path) (.string pattern) = _
    cases hfield : Json.present? (doc.at? path) with
    | none => exact hnone hfield
    | some field =>
      rw [Json.eq_of_present?_eq_some hfield, Option.map_some]
      cases rules.hasPattern (some field) (.string pattern) <;> rfl
  | true =>
    rw [if_pos rfl, selects_notNull hpath (.inr rfl), hnot, hregex, equals_null]
    cases hfield : Json.present? (doc.at? path) with
    | none => rfl
    | some field =>
      rw [Json.eq_of_present?_eq_some hfield, Option.map_some]
      cases rules.hasPattern (some field) (.string pattern) <;> rfl

-- ════════════════════════════════════════════════════════════════════════
-- Quantifiers
-- ════════════════════════════════════════════════════════════════════════

variable {items : List Json}

theorem selects_hasElements (hpath : PlainKey path)
    (hitems : Json.elements? (doc.at? path) = some items) (present : Bool) :
    rules.selects (hasElements path present) doc = ((!items.isEmpty) == present) := by
  rw [hasElements, selects_operator (Json.head?_firstItem hpath.2)]
  show ((doc.at? (path ++ ".0")).isSome == present) = _
  rw [Json.isSome_at?_firstItem hpath hitems]

/-- A quantifier over elements that all have the same truth value. -/
theorem selects_renderUniform (hpath : PlainKey path)
    (hitems : Json.elements? (doc.at? path) = some items) (quantifier : Quantifier)
    (holds negated : Bool) :
    rules.selects (renderUniform path quantifier holds negated) doc =
      (some (quantified quantifier items fun _ => holds) == some !negated) := by
  rw [some_beq_some]
  cases quantifier with
  | any =>
    cases holds with
    | false =>
      have hnone : (items.any fun _ => false) = false := List.any_eq_false.mpr fun _ _ => nofun
      show rules.selects (renderConstant (some false) negated) _ = (items.any _ == _)
      rw [selects_renderConstant, some_beq_some, hnone]
    | true =>
      show rules.selects (hasElements path !negated) _ = (items.any _ == _)
      rw [selects_hasElements hpath hitems]
      cases items <;> rfl
  | all =>
    cases holds with
    | false =>
      show rules.selects (hasElements path negated) _ = (items.all _ == _)
      rw [selects_hasElements hpath hitems]
      cases items <;> cases negated <;> rfl
    | true =>
      have hall : (items.all fun _ => true) = true := List.all_eq_true.mpr fun _ _ => rfl
      show rules.selects (renderConstant (some true) negated) _ = (items.all _ == _)
      rw [selects_renderConstant, some_beq_some, hall]

/-- A condition on the elements of a field. -/
theorem operatorHolds_elemMatch {value : Option Json} (hitems : Json.elements? value = some items)
    (argument : Json) (satisfied : Bool) (selected : Json → Bool) :
    rules.operatorHolds "$elemMatch" argument satisfied selected value = items.any selected := by
  obtain rfl | ⟨rfl | rfl, rfl⟩ := Json.eq_of_elements?_eq_some hitems <;> rfl

/-- A quantifier with a body, given the query for the elements that satisfy the body. -/
theorem selects_renderElements (hpath : path.toList.head? ≠ some '$')
    (hitems : Json.elements? (doc.at? path) = some items) (quantifier : Quantifier) (body : Json)
    (negated : Bool) :
    rules.selects (renderElements path quantifier body negated) doc =
      (some (quantified quantifier items (rules.selects body)) == some !negated) := by
  have hnot (argument : Json) (satisfied : Bool) (selected : Json → Bool) (value : Option Json) :
      rules.operatorHolds "$not" argument satisfied selected value = !satisfied := rfl
  have hsatisfies (query : Json) :
      rules.satisfies (operator "$elemMatch" query) (doc.at? path) =
        items.any (rules.selects query) :=
    (operatorsHold_singleton _ _ _).trans (operatorHolds_elemMatch hitems _ _ _)
  have hnor : rules.selects (operator "$nor" (.array [body])) = (!rules.selects body ·) :=
    funext fun _ => selects_nor _
  rw [some_beq_some]
  cases quantifier with
  | any =>
    simp only [renderElements, quantified]
    cases negated with
    | false =>
      rw [if_neg (by decide), selects_operator hpath, operatorHolds_elemMatch hitems]
      simp
    | true =>
      rw [if_pos rfl, selects_operator hpath, hnot, hsatisfies]
      simp
  | all =>
    simp only [renderElements, quantified]
    cases negated with
    | false =>
      rw [if_neg (by decide), selects_operator hpath, hnot, hsatisfies, hnor, List.not_any_eq_all_not]
      simp
    | true =>
      rw [if_pos rfl, selects_operator hpath, operatorHolds_elemMatch hitems, hnor,
        ← List.not_all_eq_any_not]
      simp

-- ════════════════════════════════════════════════════════════════════════
-- Filters
-- ════════════════════════════════════════════════════════════════════════

/-- The paths of the filter are plain, its comparisons are comparisons, no list of constants has a
`null`, and the fields that it quantifies over hold arrays, or nothing. -/
inductive Suits : DocumentFilter → Json → Prop
  | compare {path : String} {op : BinaryOp} {v : Value} {doc : Json} (hpath : PlainKey path)
      (hop : op.isComparison = true) : Suits (.compare path op v) doc
  | isTrue {path : String} {doc : Json} (hpath : PlainKey path) : Suits (.isTrue path) doc
  | isIn {path : String} {values : List Value} {doc : Json} (hpath : PlainKey path)
      (hvalues : ∀ v ∈ values, v.isNull = false) : Suits (.isIn path values) doc
  | hasPattern {path pattern : String} {doc : Json} (hpath : PlainKey path) :
      Suits (.hasPattern path pattern) doc
  | and {items : List DocumentFilter} {doc : Json} (hitems : ∀ f ∈ items, Suits f doc) :
      Suits (.and items) doc
  | or {items : List DocumentFilter} {doc : Json} (hitems : ∀ f ∈ items, Suits f doc) :
      Suits (.or items) doc
  | not {operand : DocumentFilter} {doc : Json} (hoperand : Suits operand doc) :
      Suits (.not operand) doc
  | elements {path : String} {quantifier : Quantifier} {body : DocumentFilter} {doc : Json}
      {items : List Json} (hpath : PlainKey path)
      (hitems : Json.elements? (doc.at? path) = some items)
      (hbody : ∀ item ∈ items, Suits body item) : Suits (.elements path quantifier body) doc
  | bare {path : String} {quantifier : Quantifier} {doc : Json} {items : List Json}
      (hpath : PlainKey path) (hitems : Json.elements? (doc.at? path) = some items) :
      Suits (.bare path quantifier) doc
  | constant {b : Option Bool} {doc : Json} : Suits (.constant b) doc

theorem renderAll_eq_map (negated : Bool) (fs : List DocumentFilter) :
    renderAll negated fs = fs.map (render negated) := by
  induction fs with
  | nil => rfl
  | cons f fs ih => rw [renderAll, ih, List.map_cons]

section

variable {fs : List DocumentFilter} {negated : Bool}
  (h : ∀ f ∈ fs, rules.selects (f.render negated) doc = (rules.meaning f doc == some !negated))

include h

theorem allSelect_renderAll_iff :
    rules.allSelect (renderAll negated fs) doc = true ↔
      ∀ b ∈ rules.meanings fs doc, b = some !negated := by
  rw [renderAll_eq_map, MatchingRules.meanings_eq_map, allSelect_iff]
  simp only [List.mem_map, forall_exists_index, and_imp, forall_apply_eq_imp_iff₂]
  exact forall₂_congr fun f hf => by rw [h f hf, beq_iff_eq]

theorem anySelects_renderAll_iff :
    rules.anySelects (renderAll negated fs) doc = true ↔
      ∃ b ∈ rules.meanings fs doc, b = some !negated := by
  rw [renderAll_eq_map, MatchingRules.meanings_eq_map, anySelects_iff]
  simp only [List.mem_map, exists_exists_and_eq_and]
  exact exists_congr fun f => and_congr_right fun hf => by rw [h f hf, beq_iff_eq]

/-- The query for a conjunction. -/
theorem selects_render_and :
    rules.selects ((and fs).render negated) doc = (rules.meaning (and fs) doc == some !negated) := by
  rw [render, MatchingRules.meaning, Bool.eq_iff_iff, beq_iff_eq]
  cases negated with
  | false => rw [if_neg (by decide), selects_and, Bool.not_false, allTrue_eq_some_true,
      allSelect_renderAll_iff h, Bool.not_false]
  | true => rw [if_pos rfl, selects_or, Bool.not_true, allTrue_eq_some_false,
      anySelects_renderAll_iff h, Bool.not_true]

/-- The query for a disjunction. -/
theorem selects_render_or :
    rules.selects ((or fs).render negated) doc = (rules.meaning (or fs) doc == some !negated) := by
  rw [render, MatchingRules.meaning, Bool.eq_iff_iff, beq_iff_eq]
  cases negated with
  | false => rw [if_neg (by decide), selects_or, Bool.not_false, anyTrue_eq_some_true,
      anySelects_renderAll_iff h, Bool.not_false]
  | true => rw [if_pos rfl, selects_and, Bool.not_true, anyTrue_eq_some_false,
      allSelect_renderAll_iff h, Bool.not_true]

end

/-- A quantifier, given what the query for its body selects among the elements. -/
theorem selects_render_elements {quantifier : Quantifier} {body : DocumentFilter}
    {items : List Json} (hpath : PlainKey path)
    (hitems : Json.elements? (doc.at? path) = some items)
    (hbody : ∀ item ∈ items,
      rules.selects (body.render false) item = (rules.meaning body item == some true))
    (negated : Bool) :
    rules.selects ((elements path quantifier body).render negated) doc =
      (rules.meaning (elements path quantifier body) doc == some !negated) := by
  rw [render, MatchingRules.meaning, hitems, Option.getD_some]
  split
  · next b hb =>
    obtain rfl : body = .constant b := by
      cases body <;> cases hb
      rfl
    have hholds : (fun item : Json => rules.meaning (.constant b) item == some true) =
        fun _ => b.getD false := by
      funext item
      cases b with
      | none => rfl
      | some c => cases c <;> rfl
    rw [hholds]
    exact selects_renderUniform hpath hitems quantifier _ negated
  · have hmap := List.map_congr_left hbody
    rw [selects_renderElements hpath.2 hitems]
    cases quantifier with
    | any =>
      rw [quantified, quantified, Lists.any_eq_any_map, hmap, ← Lists.any_eq_any_map]
    | all =>
      rw [quantified, quantified, Lists.all_eq_all_map, hmap, ← Lists.all_eq_all_map]

/-- The query for a filter selects the documents where the filter is true, and the query for its
negation those where it is false. -/
theorem selects_render_of_suits {f : DocumentFilter} (h : f.Suits doc) (negated : Bool) :
    rules.selects (f.render negated) doc = (rules.meaning f doc == some !negated) := by
  induction h generalizing negated with
  | compare hpath hop => exact selects_compare hpath.2 hop _ negated
  | isTrue hpath => exact selects_isTrue hpath.2 negated
  | isIn hpath hvalues => exact selects_isIn hpath.2 hvalues negated
  | hasPattern hpath => exact selects_hasPattern hpath.2 _ negated
  | and _ ih => exact selects_render_and fun f hf => ih f hf negated
  | or _ ih => exact selects_render_or fun f hf => ih f hf negated
  | not _ ih => rw [render, MatchingRules.meaning, ih, beq_map_not]
  | elements hpath hitems _ ih =>
    exact selects_render_elements hpath hitems (fun item hitem => ih item hitem false) negated
  | @bare path quantifier doc items hpath hitems =>
    rw [render, MatchingRules.meaning, selects_renderUniform hpath hitems, hitems, Option.getD_some]
    cases quantifier with
    | any => cases items <;> rfl
    | all =>
      have hall : (items.all fun _ => true) = true := List.all_eq_true.mpr fun _ _ => rfl
      rw [quantified, hall]
      rfl
  | constant => exact selects_renderConstant _ negated

/-- The query for a filter selects the documents where the filter is true, the query for its
negation those where it is false, and neither selects one where it is unknown. -/
theorem selects_iff_meaning (rules : MatchingRules) {f : DocumentFilter} {doc : Json}
    (h : f.Suits doc) :
    (rules.selects (f.render false) doc = true ↔ rules.meaning f doc = some true) ∧
      (rules.selects (f.render true) doc = true ↔ rules.meaning f doc = some false) ∧
      (rules.meaning f doc = none →
        rules.selects (f.render false) doc = false ∧ rules.selects (f.render true) doc = false) := by
  refine ⟨?_, ?_, fun hunknown => ?_⟩
  · rw [selects_render_of_suits h, beq_iff_eq, Bool.not_false]
  · rw [selects_render_of_suits h, beq_iff_eq, Bool.not_true]
  · rw [selects_render_of_suits h, selects_render_of_suits h, hunknown]
    exact ⟨rfl, rfl⟩

namespace Parcel

/-- A parcel with a price, no note and two items, the second without a quantity. -/
def document : Json :=
  .object
    [("items", .array [.object [("quantity", .integer 3)], .object [("quantity", .null)]]),
      ("name", .string "Ann"), ("note", .null),
      ("price", .object [("$numberDecimal", .string "12.50")])]

/-- The price is not below 12, the note is not `x`, the quantities are not all above 2, and the
name is an `A` with small letters behind it. -/
def plain : DocumentFilter :=
  .not (.or [.compare "price" .lt (.int32 12), .compare "note" .eq (.string "x"),
    .elements "items" .all (.compare "quantity" .gt (.int32 2)),
    .not (.hasPattern "name" "^A[a-z]+$")])

/-- Like `plain`, with a note in front of `x`. -/
def noted : DocumentFilter := .and [plain, .compare "note" .lt (.string "x")]

theorem suits_plain : plain.Suits document := by
  refine .not (.or ?_)
  simp only [List.forall_mem_cons]
  refine ⟨.compare (by decide) rfl, .compare (by decide) rfl, ?_, .not (.hasPattern (by decide)),
    fun _ h => absurd h List.not_mem_nil⟩
  have hitems : Json.elements? (document.at? "items") =
      some [.object [("quantity", .integer 3)], .object [("quantity", .null)]] := rfl
  exact .elements (by decide) hitems fun _ _ => .compare (by decide) rfl

theorem suits_noted : noted.Suits document := by
  refine .and ?_
  simp only [List.forall_mem_cons]
  exact ⟨suits_plain, .compare (by decide) rfl, fun _ h => absurd h List.not_mem_nil⟩

end Parcel

/-- The parcel is selected by `plain` and not by its negation, and by neither query for `noted`,
whose last comparison is unknown of it. -/
theorem selects_parcel :
    Parcel.plain.Suits Parcel.document ∧ Parcel.noted.Suits Parcel.document ∧
      floating.selects (Parcel.plain.render false) Parcel.document = true ∧
      ¬floating.selects (Parcel.plain.render true) Parcel.document = true ∧
      floating.selects (Parcel.noted.render false) Parcel.document = false ∧
      floating.selects (Parcel.noted.render true) Parcel.document = false := by
  have hplain : floating.meaning Parcel.plain Parcel.document = some true := by decide +kernel
  have hnoted : floating.meaning Parcel.noted Parcel.document = none := by decide +kernel
  obtain ⟨htrue, hfalse, _⟩ := selects_iff_meaning floating Parcel.suits_plain
  obtain ⟨_, _, hunknown⟩ := selects_iff_meaning floating Parcel.suits_noted
  refine ⟨Parcel.suits_plain, Parcel.suits_noted, htrue.mpr hplain, fun hselects => ?_,
    hunknown hnoted⟩
  rw [hfalse.mp hselects] at hplain
  cases hplain

end DocumentFilter

end ODataQuery
