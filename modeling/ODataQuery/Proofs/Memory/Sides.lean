import ODataQuery.Memory.Predicate
import ODataQuery.Proofs.Expr.Fitting
import ODataQuery.Proofs.Literal.Number
import ODataQuery.Proofs.Reading.Chain
import ODataQuery.Proofs.Token.Numeral
import ODataQuery.Proofs.Value.Order

/-!
# Literals on either side of a comparison

A comparison of a property with a number is read from three tokens, whichever of the two stands in
front. Behind the operator a number is read as one of the kind of the property, in front of it by its
text alone; the two comparisons have the same value on every record.

## Main statements

- `Setting.Reads.comparison_of_shows` — what is read from three tokens
- `Expr.eq_of_readFilter_behind`, `Expr.eq_of_readFilter_before` — the two comparisons
- `Predicate.value_eq_of_flipped` — their values
-/

namespace ODataQuery

open Setting (operator PrefixAt)

-- ════════════════════════════════════════════════════════════════════════
-- Operands of one token
-- ════════════════════════════════════════════════════════════════════════

namespace Setting

variable {setting : Setting} {levels minimum limit : Nat} {scope : List Frame}
  {expected : Option StaticType} {c c' : Cursor} {left e : Expr} {ls : List Spelling}

/-- A literal is read as an operand of its own. -/
theorem ReadsOperand.literal_of_shows {text : String} {space : Bool}
    (hshows : c.Shows (⟨.literal, text, space⟩ :: ls))
    (h : setting.ReadsOperand levels scope expected c e c') :
    ∃ v, Value.ofLiteral expected text.toList = .ok v ∧ e = .literal v ∧ c'.Shows ls := by
  have hkind : c.current.kind = .literal := hshows.kind
  obtain ⟨c₁, hc₁, hls, _⟩ := hshows.advance
  cases h with
  | prefixed hop =>
    obtain hminus | hnot := hop.minus_or_not
    · cases hkind.symm.trans hminus
    · rw [hshows.isWord] at hnot
      cases hnot
  | @literal _ _ _ _ v _ _ _ hv hc =>
    cases hc₁.symm.trans hc
    obtain ⟨_, hread⟩ := Token.literal?_eq_ok.mp hv
    rw [hshows.text] at hread
    exact ⟨v, hread, rfl, hls⟩
  | group _ hother | callNone _ hother | callSome _ hother | field _ hother | bare _ hother
  | lambda _ hother => cases hkind.symm.trans hother

/-- The name of a scalar property of the root entity is read as an operand of its own, unless it is the
prefix operator. -/
theorem ReadsOperand.field_of_shows {name : String} {space : Bool} {property : Property}
    {type : StaticType} (hshows : c.Shows (.word name space :: ls)) (hfront : PrefixAt c none)
    (hfind : setting.entity.find? name = some property) (htype : property.type.scalar? = some type)
    (h : setting.ReadsOperand levels scope expected c e c') :
    e = .field ⟨property.name, property.source, none, type⟩ ∧ c'.Shows ls := by
  have hkind : c.current.kind = .identifier := hshows.kind
  have htext : c.current.text = name := hshows.text
  obtain ⟨c₁, hc₁, hls, _⟩ := hshows.advance
  have hroot {p : Property} {above : String} {origin : Option String} {t : Token} {c₂ : Cursor}
      (hrefers : setting.Refers scope c p above origin t c₂) :
      p = property ∧ origin = none ∧ c₂ = c₁ := by
    cases hrefers with
    | root hp hc =>
      rw [htext] at hp
      cases hfind.symm.trans hp
      cases hc₁.symm.trans hc
      exact ⟨rfl, rfl, rfl⟩
    | below hnone | it hnone =>
      rw [htext] at hnone
      cases hfind.symm.trans hnone
  cases h with
  | prefixed hop => cases hfront.unique hop
  | field _ _ hrefers _ htype' =>
    obtain ⟨rfl, rfl, rfl⟩ := hroot hrefers
    cases htype.symm.trans htype'
    exact ⟨rfl, hls⟩
  | bare _ _ hrefers _ htype' | lambda _ _ hrefers _ htype' =>
    obtain ⟨rfl, _, _⟩ := hroot hrefers
    rw [htype'] at htype
    cases htype
  | group _ hother | callNone _ hother | callSome _ hother | literal _ hother =>
    cases hkind.symm.trans hother

/-- Without variables, what is read at a name ends behind the name, unless a slash follows. -/
theorem ReadsOperand.shows_of_word {name : String} {space : Bool} {next : Spelling}
    (hshows : c.Shows (.word name space :: next :: ls)) (hfront : PrefixAt c none)
    (hslash : next.kind ≠ .slash) (h : setting.ReadsOperand levels [] expected c e c') :
    c'.Shows (next :: ls) := by
  have hkind : c.current.kind = .identifier := hshows.kind
  obtain ⟨c₁, hc₁, hls, _⟩ := hshows.advance
  have hkind₁ : c₁.current.kind ≠ .slash := by rwa [hls.kind]
  have hroot {p : Property} {above : String} {origin : Option String} {t : Token} {c₂ : Cursor}
      (hrefers : setting.Refers [] c p above origin t c₂) : c₂ = c₁ := by
    cases hrefers with
    | root _ hc =>
      cases hc₁.symm.trans hc
      rfl
    | below _ hframe => cases hframe
    | it _ _ _ hc hslash' =>
      cases hc₁.symm.trans hc
      exact absurd hslash' hkind₁
  cases h with
  | prefixed hop => cases hfront.unique hop
  | field _ _ hrefers =>
    cases hroot hrefers
    exact hls
  | bare _ _ hrefers _ _ hslash' | lambda _ _ hrefers _ _ hslash' =>
    cases hroot hrefers
    exact absurd hslash' hkind₁
  | group _ hother | callNone _ hother | callSome _ hother | literal _ hother =>
    cases hkind.symm.trans hother

/-- No operation starts with anything but a name. -/
theorem ReadsOperations.eq_of_not_isName (hname : c.current.isName = false)
    (h : setting.ReadsOperations levels minimum scope limit left c e c') : e = left ∧ c' = c := by
  have hnone := Cursor.Shows.operator_eq_none hname
  cases h with
  | exhausted | stop => exact ⟨rfl, rfl⟩
  | binary hop | membership hop => cases hnone.symm.trans hop

/-- An operand in front of anything but a name is all that is read. -/
theorem Reads.eq_of_not_isName (h : setting.Reads levels minimum scope expected c e c')
    (hname : ∀ {left c₁}, setting.ReadsOperand (levels - 1) scope expected c left c₁ →
      c₁.current.isName = false) :
    setting.ReadsOperand (levels - 1) scope expected c e c' := by
  cases h with
  | intro hleft hoperations =>
    obtain ⟨rfl, rfl⟩ := hoperations.eq_of_not_isName (hname hleft)
    exact hleft

/-- The prefix operator `not` in front of a keyword takes it for a name. -/
theorem Reads.shows_of_not {keyword : String} {space : Bool} {last : Spelling}
    (hshows : c.Shows [.word "not" space, .word keyword true, last]) (hkeyword : keyword ≠ "not")
    (hlast : last.kind = .literal) (h : setting.Reads levels minimum [] expected c e c') :
    c'.Shows [last] := by
  have hlastName {c₁ : Cursor} (hc₁ : c₁.Shows [last]) : c₁.current.isName = false := by
    rw [hc₁.isName, hlast]
    rfl
  have hslash : last.kind ≠ .slash := by simp [hlast]
  obtain ⟨c₁, hc₁, hls, _⟩ := hshows.advance
  have hfront₁ : PrefixAt c₁ none := prefixAt_word hls hkeyword
  have hfront : PrefixAt c (some .not) := prefixAt_not hshows rfl nofun
  have hoperand {levels : Nat} {left : Expr} {c₂ : Cursor}
      (h : setting.ReadsOperand levels [] expected c left c₂) : c₂.Shows [last] := by
    cases h with
    | prefixed hop hc he =>
      cases hc₁.symm.trans hc
      have hshows₁ := (he.eq_of_not_isName fun hleft =>
        hlastName (hleft.shows_of_word hls hfront₁ hslash))
      exact hshows₁.shows_of_word hls hfront₁ hslash
    | group hop | literal hop | callNone hop | callSome hop | field hop | bare hop | lambda hop =>
      cases hfront.unique hop
  exact hoperand (h.eq_of_not_isName fun hleft => hlastName (hoperand hleft))

/-- A comparison of two operands, of which the second one ends the text. -/
theorem Reads.comparison_of_shows {op : BinaryOp} {last : Spelling} {P : Expr → Prop}
    {Q : Option StaticType → Expr → Prop} (hop : op.isComparison = true)
    (hspace : last.leadingSpace = true)
    (hleft : ∀ {left c₁}, setting.ReadsOperand (levels - 1) scope expected c left c₁ →
      P left ∧ c₁.Shows [.word op.keyword true, last])
    (hright : ∀ {levels c₁ expected right c₂}, c₁.Shows [last] →
      setting.ReadsOperand levels scope expected c₁ right c₂ → Q expected right ∧ c₂.Shows [])
    (h : setting.Reads levels 0 scope expected c e c') :
    ∃ left right, P left ∧ Q (some left.type) right ∧ Expr.Combines op left right e := by
  have hend {c : Cursor} (hc : c.Shows []) : c.current.isName = false := by
    rw [Token.isName, hc.kind_nil]
    rfl
  cases h with
  | @intro levels _ _ _ _ left c₁ _ _ hoperand hoperations =>
    obtain ⟨hP, hshows⟩ := hleft hoperand
    have hkeyword : Operator.ofKeyword? op.keyword = some (.binary op) := by cases op <;> rfl
    have hoperator := hshows.operator_eq_some hkeyword hspace
    obtain ⟨c₂, hc₂, hlast, _⟩ := hshows.advance
    cases hoperations with
    | stop hop' hloose =>
      cases hoperator.symm.trans hop'
      exact absurd (hloose _ rfl) (Nat.not_lt_zero _)
    | binary hop' _ hc hreads he hoperations =>
      cases hoperator.symm.trans hop'
      cases hc₂.symm.trans hc
      rw [if_pos hop] at hreads
      have hoperand := hreads.eq_of_not_isName fun hoperand => hend (hright hlast hoperand).2
      obtain ⟨hQ, hnil⟩ := hright hlast hoperand
      obtain ⟨rfl, _⟩ := hoperations.eq_of_not_isName (hend hnil)
      exact ⟨left, _, hP, hQ, he⟩
    | membership hop' =>
      cases hoperator.symm.trans hop'

end Setting

-- ════════════════════════════════════════════════════════════════════════
-- Comparisons of a property with a number
-- ════════════════════════════════════════════════════════════════════════

/-- The text of a comparison is scanned into its three tokens. -/
theorem Spelling.exists_cursor_comparison {first last : String} {firstKind lastKind : TokenKind}
    (op : BinaryOp) (hfirst : ∀ rest, (⟨firstKind, first, false⟩ : Spelling).Fits (' ' :: rest))
    (hlast : (⟨lastKind, last, true⟩ : Spelling).Fits []) :
    ∃ c, Cursor.ofText (first ++ " " ++ op.keyword ++ " " ++ last).toList = .ok c ∧
      c.Shows [⟨firstKind, first, false⟩, .word op.keyword true, ⟨lastKind, last, true⟩] := by
  have hfit : AllFit [⟨firstKind, first, false⟩, .word op.keyword true, ⟨lastKind, last, true⟩] :=
    ⟨hfirst _, fits_keyword op, hlast, trivial⟩
  have htext : (first ++ " " ++ op.keyword ++ " " ++ last).toList =
      allChars [⟨firstKind, first, false⟩, .word op.keyword true, ⟨lastKind, last, true⟩] := by
    simp [allChars, chars, word]
  rw [htext]
  exact exists_cursor hfit

theorem Value.isNull_of_isNumeric {v : Value} (h : ∃ k, v.kind? = some k ∧ k.isNumeric = true) :
    v.isNull = false := by
  obtain ⟨k, hk, _⟩ := h
  cases v <;> first | rfl | cases hk

/-- A number is read like every number where its type is expected. -/
theorem Value.ofLiteral_numeral {expected : Option StaticType} {cs : List Char} {v : Value}
    (h : Shape.IsNumeral cs) (hv : ofLiteral expected cs = .ok v) :
    ofNumberLiteral? expected cs = some v := by
  unfold ofLiteral at hv
  simp only [Shape.IsNumeral, List.mem_cons, List.not_mem_nil, or_false] at h
  obtain h | h | h := h
  all_goals
    rw [h] at hv
    exact orFault_eq_ok.mp hv

namespace Expr

variable {entity : EntityType} {allowed : AllowList} {maxDepth : Nat} {name literal : String}
  {property : Property} {kind : Kind} {op : BinaryOp} {e : Expr}

/-- Literals are not fitted to a primitive type. -/
theorem settled?_literal (v : Value) (kind : Kind) :
    (Expr.literal v).settled? (.primitive kind) = some (.literal v, .ofValue v) := by
  cases v <;> rfl

/-- A property and a literal are compared as they are. -/
theorem eq_of_combines {l r : Expr} {f : Field} {v : Value} (h : Combines op l r e)
    (hoperands : l = .field f ∧ r = .literal v ∨ l = .literal v ∧ r = .field f)
    (hfield : f.type = .primitive kind) : e = .binary op l r := by
  obtain ⟨l', lt, r', rt, hl, hr, _, rfl⟩ := h
  have hsettled : (Expr.literal v).settled? f.type = some (.literal v, .ofValue v) := by
    rw [hfield, settled?_literal]
  obtain ⟨rfl, rfl⟩ | ⟨rfl, rfl⟩ := hoperands
  · cases hl
    cases hsettled.symm.trans hr
    rfl
  · cases hsettled.symm.trans hl
    cases hr
    rfl

/-- Behind the operator, a number is read as one of the kind of the property. -/
theorem eq_of_readFilter_behind (hfind : entity.find? name = some property)
    (htype : property.type = .primitive kind) (hname : Lexeme.IsName name.toList)
    (hshape : Shape.ofText? name.toList = none) (hliteral : Shape.IsNumeral literal.toList)
    (hop : op.isComparison = true)
    (h : readFilter (name ++ " " ++ op.keyword ++ " " ++ literal) entity allowed maxDepth = .ok e) :
    ∃ v, Value.ofNumberLiteral? (some (.primitive kind)) literal.toList = some v ∧
      e = .binary op (.field ⟨property.name, property.source, none, .primitive kind⟩) (.literal v) := by
  have hscalar : property.type.scalar? = some (.primitive kind) := by rw [htype]; rfl
  obtain ⟨c, c', hc, _, hfilter⟩ := Setting.run_eq_ok.mp h
  obtain ⟨hreads, hend, _⟩ := Setting.filter_eq_ok.mp hfilter
  obtain ⟨c₀, hc₀, hshows⟩ := Spelling.exists_cursor_comparison op
    (fun rest => Spelling.fits_identifier hname hshape (Lexeme.endsName_of_mem (by decide) rest)
      (by simp) (by simp))
    (Spelling.fits_numeral hliteral nofun)
  cases hc₀.symm.trans hc
  by_cases hnot : name = "not"
  · -- The word would be the prefix operator, and the number would be left over.
    subst hnot
    have hkeyword : op.keyword ≠ "not" := by cases op <;> decide
    have hlast := hreads.shows_of_not hshows hkeyword rfl
    cases hend.symm.trans hlast.kind
  · obtain ⟨left, right, rfl, ⟨v, hv, rfl⟩, he⟩ := hreads.comparison_of_shows hop rfl
      (P := fun left => left = .field ⟨property.name, property.source, none, .primitive kind⟩)
      (Q := fun expected right => ∃ v, Value.ofLiteral expected literal.toList = .ok v ∧ right = .literal v)
      (fun hoperand => hoperand.field_of_shows hshows (Setting.prefixAt_word hshows hnot) hfind hscalar)
      (fun hlast hoperand => by
        obtain ⟨v, hv, hright, hnil⟩ := hoperand.literal_of_shows hlast
        exact ⟨⟨v, hv, hright⟩, hnil⟩)
    exact ⟨v, Value.ofLiteral_numeral hliteral hv, eq_of_combines he (.inl ⟨rfl, rfl⟩) rfl⟩

/-- In front of the operator, a number is read by its text alone. -/
theorem eq_of_readFilter_before (hfind : entity.find? name = some property)
    (htype : property.type = .primitive kind) (hname : Lexeme.IsName name.toList)
    (hshape : Shape.ofText? name.toList = none) (hliteral : Shape.IsNumeral literal.toList)
    (hop : op.isComparison = true)
    (h : readFilter (literal ++ " " ++ op.keyword ++ " " ++ name) entity allowed maxDepth = .ok e) :
    ∃ v, Value.inferNumber? literal.toList = some v ∧
      e = .binary op (.literal v) (.field ⟨property.name, property.source, none, .primitive kind⟩) := by
  have hscalar : property.type.scalar? = some (.primitive kind) := by rw [htype]; rfl
  obtain ⟨c, c', hc, _, hfilter⟩ := Setting.run_eq_ok.mp h
  obtain ⟨hreads, hend, _⟩ := Setting.filter_eq_ok.mp hfilter
  obtain ⟨c₀, hc₀, hshows⟩ := Spelling.exists_cursor_comparison op
    (fun rest => Spelling.fits_numeral hliteral (by simp [Lexeme.Ends]))
    (Spelling.fits_identifier hname hshape nofun nofun nofun)
  cases hc₀.symm.trans hc
  obtain ⟨left, right, ⟨v, hv, rfl⟩, rfl, he⟩ := hreads.comparison_of_shows hop rfl
    (P := fun left => ∃ v, Value.ofLiteral none literal.toList = .ok v ∧ left = .literal v)
    (Q := fun _ right => right = .field ⟨property.name, property.source, none, .primitive kind⟩)
    (fun hoperand => by
      obtain ⟨v, hv, hleft, hrest⟩ := hoperand.literal_of_shows hshows
      exact ⟨⟨v, hv, hleft⟩, hrest⟩)
    (fun hlast hoperand => hoperand.field_of_shows hlast (Setting.prefixAt_last hlast) hfind hscalar)
  exact ⟨v, Value.ofLiteral_numeral hliteral hv, eq_of_combines he (.inr ⟨rfl, rfl⟩) rfl⟩

end Expr

-- ════════════════════════════════════════════════════════════════════════
-- Values
-- ════════════════════════════════════════════════════════════════════════

namespace Predicate

/-- A comparison of a property of the root entity with a constant is compiled to that. -/
theorem exists_ofExpr_comparison {f : Field} (horigin : f.origin = none) (op : BinaryOp) (v : Value) :
    (∃ q, ofExpr (.binary op (.field f) (.literal v)) = .ok q ∧
      ∀ now record, q.value now record = (record.value f.source).applyBinary op v) ∧
    ∃ q, ofExpr (.binary op (.literal v) (.field f)) = .ok q ∧
      ∀ now record, q.value now record = v.applyBinary op (record.value f.source) := by
  obtain ⟨name, source, origin, type⟩ := f
  cases horigin
  exact ⟨⟨_, rfl, fun _ _ => rfl⟩, ⟨_, rfl, fun _ _ => rfl⟩⟩

/-- A comparison of an integer or decimal property with a number without exponent has the same value on
every record as the flipped comparison of the number with the property, if both are accepted. The kinds
of eight bits must be able to keep the number: they wrap it otherwise. -/
theorem value_eq_of_flipped {entity : EntityType} {allowed : AllowList} {maxDepth : Nat}
    {name literal : String} {property : Property} {kind : Kind} {op : BinaryOp} {e e' : Expr}
    (hfind : entity.find? name = some property) (htype : property.type = .primitive kind)
    (hkind : kind.isInteger = true ∨ kind = .decimal) (hname : Lexeme.IsName name.toList)
    (hshape : Shape.ofText? name.toList = none) (hliteral : Shape.IsNumeral literal.toList)
    (hbyte : ∀ t ∈ NumberText.read? literal.toList, t.FitsByte kind) (hop : op.isComparison = true)
    (h : Expr.readFilter (name ++ " " ++ op.keyword ++ " " ++ literal) entity allowed maxDepth = .ok e)
    (h' : Expr.readFilter (literal ++ " " ++ op.flipped.keyword ++ " " ++ name) entity allowed maxDepth =
      .ok e') :
    ∃ q q', ofExpr e = .ok q ∧ ofExpr e' = .ok q' ∧
      ∀ now record, q.value now record = q'.value now record := by
  have hfloating : kind.isFloating = false := by
    obtain hinteger | rfl := hkind
    · cases kind <;> first | rfl | cases hinteger
    · rfl
  have hflipped : op.flipped.isComparison = true := op.isComparison_flipped.trans hop
  obtain ⟨v, hv, rfl⟩ := Expr.eq_of_readFilter_behind hfind htype hname hshape hliteral hop h
  obtain ⟨v', hv', rfl⟩ := Expr.eq_of_readFilter_before hfind htype hname hshape hliteral hflipped h'
  obtain ⟨⟨q, hq, hvalue⟩, _⟩ := exists_ofExpr_comparison
    (f := ⟨property.name, property.source, none, .primitive kind⟩) rfl op v
  obtain ⟨_, ⟨q', hq', hvalue'⟩⟩ := exists_ofExpr_comparison
    (f := ⟨property.name, property.source, none, .primitive kind⟩) rfl op.flipped v'
  refine ⟨q, q', hq, hq', fun now record => ?_⟩
  rw [hvalue, hvalue', Value.applyBinary_of_isComparison hop, Value.applyBinary_of_isComparison hflipped,
    Value.test_flipped _ _ hop]
  refine Value.test_congr (Value.isNull_of_isNumeric (Value.isNumeric_of_ofNumberLiteral? hv))
    (Value.isNull_of_isNumeric (Value.isNumeric_of_inferNumber? hv')) ?_ op
  exact Value.compare_ofNumberLiteral? hfloating
    (fun t ht => ⟨hliteral.exponent ht, hbyte t ht⟩) hv hv' _

/-- A number is a decimal behind the price and an integer in front of it. -/
theorem value_eq_of_flipped_price :
    let product : EntityType :=
      ⟨"Product", "products", [⟨"price", "unit_price", .primitive .decimal, false⟩]⟩
    ∃ e e' q q',
      Expr.readFilter "price ge 12" product (.all product) defaultMaxDepth = .ok e ∧
      Expr.readFilter "12 le price" product (.all product) defaultMaxDepth = .ok e' ∧
      e.text = "price ge 12" ∧ ofExpr e = .ok q ∧ ofExpr e' = .ok q' ∧
      ∀ now record, q.value now record = q'.value now record := by
  intro product
  have hrun : Result.passes (fun e => e.text == "price ge 12")
      (Expr.readFilter "price ge 12" product (.all product) defaultMaxDepth) = true := by
    decide +kernel
  have hrun' : Result.passes (fun _ => true)
      (Expr.readFilter "12 le price" product (.all product) defaultMaxDepth) = true := by
    decide +kernel
  obtain ⟨e, h, htext⟩ := Result.exists_of_passes hrun
  obtain ⟨e', h', _⟩ := Result.exists_of_passes hrun'
  have hbehind : "price ge 12" = "price" ++ " " ++ BinaryOp.ge.keyword ++ " " ++ "12" := by decide
  have hbefore : "12 le price" = "12" ++ " " ++ BinaryOp.ge.flipped.keyword ++ " " ++ "price" := by
    decide
  rw [hbehind] at h
  rw [hbefore] at h'
  have hfind : product.find? "price" =
      some ⟨"price", "unit_price", .primitive .decimal, false⟩ := rfl
  obtain ⟨q, q', hq, hq', hvalue⟩ := value_eq_of_flipped hfind rfl (.inr rfl) (by decide) (by decide)
    (by decide) (by decide) rfl h h'
  exact ⟨e, e', q, q', hbehind ▸ h, hbefore ▸ h', eq_of_beq htext, hq, hq', hvalue⟩

/-- A byte keeps the lowest eight bits of a number behind it, and is compared with the whole number in
front of it. -/
theorem value_ne_of_wrapped :
    let order : EntityType := ⟨"Order", "orders", [⟨"by", "by", .primitive .byte, false⟩]⟩
    let record : Record := [("by", .value (.byte 44))]
    ∃ e e' q q',
      Expr.readFilter "by eq 300" order (.all order) defaultMaxDepth = .ok e ∧
      Expr.readFilter "300 eq by" order (.all order) defaultMaxDepth = .ok e' ∧
      ofExpr e = .ok q ∧ ofExpr e' = .ok q' ∧
      q.value .earliest record = .boolean true ∧ q'.value .earliest record = .boolean false := by
  intro order record
  have hbehind : Result.passes (fun e =>
      Result.passes (fun q => q.value .earliest record == .boolean true) (ofExpr e))
      (Expr.readFilter "by eq 300" order (.all order) defaultMaxDepth) = true := by decide +kernel
  have hbefore : Result.passes (fun e =>
      Result.passes (fun q => q.value .earliest record == .boolean false) (ofExpr e))
      (Expr.readFilter "300 eq by" order (.all order) defaultMaxDepth) = true := by decide +kernel
  obtain ⟨e, h, hbehind⟩ := Result.exists_of_passes hbehind
  obtain ⟨q, hq, hvalue⟩ := Result.exists_of_passes hbehind
  obtain ⟨e', h', hbefore⟩ := Result.exists_of_passes hbefore
  obtain ⟨q', hq', hvalue'⟩ := Result.exists_of_passes hbefore
  exact ⟨e, e', q, q', h, h', hq, hq', eq_of_beq hvalue, eq_of_beq hvalue'⟩

end Predicate

end ODataQuery
