import ODataQuery.Proofs.Reading.Parting
import ODataQuery.Proofs.Reading.Renaming

/-!
# Keywords are not reserved

A property can have the keyword of an operator as its name: where a name starts an operand, the
readers never ask whether it is a keyword, and where it is an operator, they never look for a
property.

## Main definitions

- `Renaming.Mirrors` — a cursor at the renamed tokens of another one
- `Renaming.Keeps` — a variable that the new name does not hide
- `Renaming.Takes` — a setting with the renamed metadata of another one

## Main statements

- `Setting.Reads.renamed` — what is read is read under its new name from renamed tokens
- `Expr.readFilter_renamed` — an accepted text is accepted under the new name
-/

namespace ODataQuery

open Setting (PrefixAt)

-- ════════════════════════════════════════════════════════════════════════
-- Renamed tokens
-- ════════════════════════════════════════════════════════════════════════

/-- The token behind the current one. -/
def Cursor.following (c : Cursor) : Spelling := (c.rest.map Token.spelling).headD .ending

namespace Renaming

variable {r : Renaming} {place : Place} {c c' d : Cursor}

/-- A cursor is at the renamed tokens of another one, which stands at a place of a text that ends. The
identifiers of that text are names. -/
structure Mirrors (r : Renaming) (place : Place) (c d : Cursor) : Prop where
  fault : c.fault = none ∧ d.fault = none
  ends : c.Ends
  hasText : c.HasText
  plain : ∀ t ∈ c.tokens, t.kind = .identifier → '/' ∉ t.text.toList
  tokens : d.tokens.map Token.spelling = r.spellings place (c.tokens.map Token.spelling)

namespace Mirrors

theorem current (h : r.Mirrors place c d) :
    d.current.spelling = r.spelling place c.current.spelling c.following := by
  have htokens := h.tokens
  rw [Cursor.tokens, Cursor.tokens, List.map_cons, List.map_cons, spellings] at htokens
  exact (List.cons.inj htokens).1

theorem length_rest (h : r.Mirrors place c d) : d.rest.length = c.rest.length := by
  have hlength := congrArg List.length h.tokens
  rw [length_spellings, List.length_map, List.length_map] at hlength
  exact Nat.succ.inj hlength

theorem kind (h : r.Mirrors place c d) : d.current.kind = c.current.kind := by
  have hkind := congrArg Spelling.kind h.current
  rwa [kind_spelling] at hkind

theorem leadingSpace (h : r.Mirrors place c d) : d.current.leadingSpace = c.current.leadingSpace := by
  have hspace := congrArg Spelling.leadingSpace h.current
  rwa [leadingSpace_spelling] at hspace

/-- The next cursors, and the place that they are at. -/
theorem advance (h : r.Mirrors place c d) (hkind : c.current.kind ≠ .endOfText)
    (hc : c.advance = .ok c') :
    ∃ d', d.advance = .ok d' ∧ c'.current.spelling = c.following ∧
      r.Mirrors (place.behind r.entity c.current.spelling c'.current.spelling) c' d' := by
  have hsuffix := Cursor.tokens_suffix_of_advance hc
  obtain ⟨⟨hfault, hfault'⟩, hends, htext, hplain, htokens⟩ := h
  obtain ⟨t, ts, fault⟩ := c
  obtain ⟨u, us, fault'⟩ := d
  obtain rfl : fault = none := hfault
  obtain rfl : fault' = none := hfault'
  cases ts with
  | nil =>
    obtain ⟨last, hlast, hmem⟩ := hends
    cases hmem.eq_of_length rfl
    exact absurd hlast hkind
  | cons next ts =>
    cases hc
    simp only [Cursor.tokens, List.map_cons, spellings] at htokens
    obtain ⟨_, hrest⟩ := List.cons.inj htokens
    cases us with
    | nil => cases hrest
    | cons next' us =>
      refine ⟨⟨next', us, none⟩, rfl, rfl, ⟨rfl, rfl⟩, hends.of_suffix hsuffix,
        htext.of_suffix hsuffix, fun t ht => hplain t (hsuffix.subset ht), ?_⟩
      simp only [Cursor.tokens, List.map_cons, spellings]
      exact hrest

/-- Behind an opening mark, a comma, a colon, a minus or the name of a function an operand can
start. -/
theorem opening (h : r.Mirrors place c d) {kind : TokenKind} (hkind : c.current.kind = kind)
    (hopens : kind ∈ [TokenKind.leftParen, .comma, .colon, .minus, .functionName])
    (hc : c.advance = .ok c') : ∃ d', d.advance = .ok d' ∧ r.Mirrors .operand c' d' := by
  have hinside : ∀ kind ∈ [TokenKind.leftParen, .comma, .colon, .minus, .functionName],
      kind ≠ .endOfText := by decide
  obtain ⟨d', hd, _, hnext⟩ := h.advance (hkind ▸ hinside kind hopens) hc
  have hplace (next : Spelling) : place.behind r.entity c.current.spelling next = .operand := by
    simp only [List.mem_cons, List.not_mem_nil, or_false] at hopens
    obtain rfl | rfl | rfl | rfl | rfl := hopens <;> simp [Place.behind, Token.spelling, hkind]
  exact ⟨d', hd, hplace _ ▸ hnext⟩

/-- Behind a closing parenthesis or a literal stands an operator. -/
theorem closing (h : r.Mirrors place c d) {kind : TokenKind} (hkind : c.current.kind = kind)
    (hcloses : kind = .rightParen ∨ kind = .literal) (hc : c.advance = .ok c') :
    ∃ d', d.advance = .ok d' ∧ r.Mirrors .operator c' d' := by
  have hinside : kind ≠ .endOfText := by obtain rfl | rfl := hcloses <;> decide
  obtain ⟨d', hd, _, hnext⟩ := h.advance (hkind ▸ hinside) hc
  have hplace (next : Spelling) : place.behind r.entity c.current.spelling next = .operator := by
    obtain rfl | rfl := hcloses <;> simp [Place.behind, Token.spelling, hkind]
  exact ⟨d', hd, hplace _ ▸ hnext⟩

/-- Behind a slash stands the last name of a path or a quantifier. -/
theorem slash (h : r.Mirrors place c d) (hkind : c.current.kind = .slash)
    (hc : c.advance = .ok c') :
    ∃ d', d.advance = .ok d' ∧ r.Mirrors (if place = .it then .rootMember else .member) c' d' := by
  obtain ⟨d', hd, _, hnext⟩ := h.advance (by simp [hkind]) hc
  have hplace (next : Spelling) : place.behind r.entity c.current.spelling next =
      if place = .it then .rootMember else .member := by
    simp [Place.behind, Token.spelling, hkind]
  exact ⟨d', hd, hplace _ ▸ hnext⟩

/-- Behind the last name of a path stands an operator. -/
theorem last (h : r.Mirrors place c d) (hplace : place = .rootMember ∨ place = .member)
    (hkind : c.current.kind = .identifier) (hc : c.advance = .ok c') :
    ∃ d', d.advance = .ok d' ∧ r.Mirrors .operator c' d' := by
  obtain ⟨d', hd, _, hnext⟩ := h.advance (by simp [hkind]) hc
  have hplace (next : Spelling) : place.behind r.entity c.current.spelling next = .operator := by
    obtain rfl | rfl := hplace <;> simp [Place.behind, Token.spelling, hkind]
  exact ⟨d', hd, hplace _ ▸ hnext⟩

/-- Behind an operator an operand starts. -/
theorem keyword (h : r.Mirrors .operator c d) (hname : c.current.isName = true)
    (hc : c.advance = .ok c') : ∃ d', d.advance = .ok d' ∧ r.Mirrors .operand c' d' := by
  obtain hkind | hkind : c.current.kind = .identifier ∨ c.current.kind = .functionName := by
    simpa [Token.isName] using hname
  · obtain ⟨d', hd, _, hnext⟩ := h.advance (by simp [hkind]) hc
    have hplace (next : Spelling) :
        Place.operator.behind r.entity c.current.spelling next = .operand := by
      simp [Place.behind, Token.spelling, hkind]
    exact ⟨d', hd, hplace _ ▸ hnext⟩
  · exact h.opening hkind (by decide) hc

/-- The tokens behind the current ones have white space alike, and are of the same kind. -/
theorem peek (h : r.Mirrors place c d) :
    ∃ t t', c.peek = .ok t ∧ d.peek = .ok t' ∧ t'.leadingSpace = t.leadingSpace ∧ t'.kind = t.kind ∧
      (c.current.kind ≠ .endOfText → t.spelling = c.following) := by
  have hlength := h.length_rest
  have hspace := h.leadingSpace
  have hkind := h.kind
  obtain ⟨⟨hfault, hfault'⟩, hends, htext, hplain, htokens⟩ := h
  obtain ⟨t, ts, fault⟩ := c
  obtain ⟨u, us, fault'⟩ := d
  obtain rfl : fault = none := hfault
  obtain rfl : fault' = none := hfault'
  cases ts with
  | nil =>
    obtain rfl : us = [] := List.eq_nil_of_length_eq_zero hlength
    obtain ⟨last, hlast, hmem⟩ := hends
    cases hmem.eq_of_length rfl
    exact ⟨_, _, rfl, rfl, hspace, hkind, absurd hlast⟩
  | cons next ts =>
    cases us with
    | nil => cases hlength
    | cons next' us =>
      simp only [Cursor.tokens, List.map_cons, spellings] at htokens
      have hnext := (List.cons.inj (List.cons.inj htokens).2).1
      have hspace' := congrArg Spelling.leadingSpace hnext
      have hkind' := congrArg Spelling.kind hnext
      rw [leadingSpace_spelling] at hspace'
      rw [kind_spelling] at hkind'
      exact ⟨next, next', rfl, rfl, hspace', hkind', fun _ => rfl⟩

/-- A token that does not refer to the property is spelled as before. -/
theorem current_eq (h : r.Mirrors place c d)
    (hother : c.current.kind ≠ .identifier ∨ (place ≠ .operand ∧ place ≠ .rootMember) ∨
      c.current.text ≠ r.old) : d.current.spelling = c.current.spelling := by
  rw [h.current]
  exact spelling_eq_self hother

end Mirrors

end Renaming

-- ════════════════════════════════════════════════════════════════════════
-- Keywords
-- ════════════════════════════════════════════════════════════════════════

namespace Setting

variable {c : Cursor} {t : Token}

/-- Whether `not` stands at a cursor depends on its token and the one behind it. -/
theorem isNot_of_peek (h : c.peek = .ok t) :
    isNot c = .ok (c.current.isWord "not" &&
      (c.current.kind == .functionName || (t.leadingSpace && t.kind != .endOfText)), c) := by
  rw [isNot, Reading.current_bind]
  cases hword : c.current.isWord "not" with
  | false => rfl
  | true =>
    by_cases hkind : c.current.kind = .functionName
    · rw [if_pos rfl, if_pos hkind, hkind]
      rfl
    · rw [if_pos rfl, if_neg hkind, beq_false_of_ne hkind, Bool.true_and, Bool.false_or,
        Result.run_bind, Reading.nextToken, h]
      rfl

theorem isName_of_isNot (h : isNot c = .ok (true, c)) : c.current.isName = true := by
  rw [isNot, Reading.current_bind, Reading.ite_eq_ok] at h
  obtain ⟨hword, _⟩ | ⟨_, h⟩ := h
  · exact (Bool.and_eq_true_iff.mp hword).1
  · cases (Reading.pure_eq_ok.mp h).1

/-- Which operator stands there depends on the same tokens. -/
theorem operator_of_peek (h : c.peek = .ok t) :
    operator c = .ok (if c.current.isName && c.current.leadingSpace then
      (Operator.ofKeyword? c.current.text).filter fun _ =>
        c.current.kind != .identifier || t.leadingSpace || t.kind == .endOfText
      else none, c) := by
  rw [operator, Reading.current_bind]
  cases hname : c.current.isName && c.current.leadingSpace with
  | false => rfl
  | true =>
    rw [if_pos rfl, if_pos rfl]
    cases hop : Operator.ofKeyword? c.current.text with
    | none => rfl
    | some op =>
      dsimp only
      by_cases hkind : c.current.kind = .identifier
      · rw [if_pos hkind, hkind, Result.run_bind, Reading.nextToken, h]
        cases hoff : t.leadingSpace || t.kind == .endOfText with
        | false => simp_all [Option.filter]
        | true => simp_all [Option.filter]
      · rw [if_neg hkind]
        simp [Option.filter, hkind]

/-- A literal is read from the spelling of its token. -/
theorem literal?_of_spelling {t t' : Token} {expected : Option StaticType} {v : Value}
    (hv : t.literal? expected = .ok (some v)) (h : t'.spelling = t.spelling) :
    t'.literal? expected = .ok (some v) := by
  have hkind : t'.kind = t.kind := congrArg Spelling.kind h
  have htext : t'.text = t.text := congrArg Spelling.text h
  rw [Token.literal?_eq_ok] at hv ⊢
  rw [hkind, htext]
  exact hv

theorem isWord_of_spelling {t t' : Token} (h : t'.spelling = t.spelling) (word : String) :
    t'.isWord word = t.isWord word := by
  have hkind : t'.kind = t.kind := congrArg Spelling.kind h
  have htext : t'.text = t.text := congrArg Spelling.text h
  rw [Token.isWord, Token.isWord, Token.isName, Token.isName, hkind, htext]

/-- A quantifier is read from the spelling of its token too. -/
theorem quantifier_of_spelling {setting setting' : Setting} {q : Quantifier} {c c' d d' : Cursor}
    (hq : setting.quantifier c = .ok (q, c')) (h : d.current.spelling = c.current.spelling)
    (hd : d.advance = .ok d') : setting'.quantifier d = .ok (q, d') := by
  simp only [quantifier, Reading.current_bind, Reading.ite_eq_ok, unexpected_ne_ok, and_false,
    or_false, isWord_of_spelling h] at hq ⊢
  refine hq.imp (And.imp_right fun hq => ?_) (And.imp_right (And.imp_right fun hq => ?_))
  all_goals
    obtain ⟨_, _, hq⟩ := Reading.advance_bind_eq_ok.mp hq
    obtain ⟨rfl, _⟩ := Reading.pure_eq_ok.mp hq
    exact Reading.advance_bind_eq_ok.mpr ⟨d', hd, rfl⟩

end Setting

namespace Renaming

variable {r : Renaming} {place : Place} {c c' d : Cursor}

namespace Mirrors

/-- An identifier is the operator `not` by its name and the token behind it. -/
theorem isNot_eq (h : r.Mirrors place c d) (hkind : c.current.kind = .identifier) :
    Setting.isNot c = .ok (negates c.current.spelling c.following, c) := by
  obtain ⟨t, _, hpeek, _, _, _, hfollowing⟩ := h.peek
  have hword : c.current.isWord "not" = (c.current.text == "not") := by
    simp [Token.isWord, Token.isName, hkind]
  have hfunction : (c.current.kind == .functionName) = false := by simp [hkind]
  rw [Setting.isNot_of_peek hpeek, hword, hfunction, Bool.false_or, ← hfollowing (by simp [hkind]),
    negates, Bool.and_assoc]
  rfl

/-- The new name is not the word `not`, and a reference that starts an operand is not that
operator. -/
theorem isNot (h : r.Mirrors .operand c d) {b : Bool} (hnot : Setting.isNot c = .ok (b, c)) :
    Setting.isNot d = .ok (b, d) := by
  obtain ⟨t, t', hpeek, hpeek', hspace, hkind, _⟩ := h.peek
  have hcurrent := h.current
  rw [spelling] at hcurrent
  cases hrefers : r.refers .operand c.current.spelling c.following with
  | false =>
    rw [hrefers, if_neg Bool.false_ne_true] at hcurrent
    rw [Setting.isNot_of_peek hpeek] at hnot
    obtain ⟨rfl, _⟩ := Prod.mk.inj (Except.ok.inj hnot)
    rw [Setting.isNot_of_peek hpeek', hspace, hkind, h.kind, Setting.isWord_of_spelling hcurrent]
  | true =>
    rw [hrefers, if_pos rfl] at hcurrent
    have htext : d.current.text = r.new := congrArg Spelling.text hcurrent
    have hword : d.current.isWord "not" = false := by
      rw [Token.isWord, htext, beq_false_of_ne (r.new_ne (by decide)), Bool.and_false]
    simp only [refers, Bool.and_eq_true, beq_iff_eq, Bool.or_eq_true, reduceCtorEq, false_or,
      true_and, Bool.not_eq_true'] at hrefers
    obtain ⟨⟨hidentifier, _⟩, hnegates⟩ := hrefers
    rw [h.isNot_eq hidentifier, hnegates] at hnot
    obtain ⟨rfl, _⟩ := Prod.mk.inj (Except.ok.inj hnot)
    rw [Setting.isNot_of_peek hpeek', hword, Bool.false_and]

/-- The same prefix operator stands in front of a renamed operand. -/
theorem prefixAt (h : r.Mirrors .operand c d) {op? : Option UnaryOp} (hop : PrefixAt c op?) :
    PrefixAt d op? := by
  match op?, hop with
  | none, ⟨hminus, hnot⟩ => exact ⟨h.kind ▸ hminus, h.isNot hnot⟩
  | some .not, ⟨hminus, hnot⟩ => exact ⟨h.kind ▸ hminus, h.isNot hnot⟩
  | some .negate, hminus => exact h.kind.trans hminus

/-- The same operator stands behind a renamed operand. -/
theorem operator (h : r.Mirrors .operator c d) {op? : Option Operator}
    (hop : Setting.operator c = .ok (op?, c)) : Setting.operator d = .ok (op?, d) := by
  obtain ⟨t, t', hpeek, hpeek', hspace, hkind, _⟩ := h.peek
  have hsame := h.current_eq (.inr (.inl (by decide)))
  have hname : d.current.isName = c.current.isName := by
    rw [Token.isName, Token.isName, h.kind]
  have htext : d.current.text = c.current.text := congrArg Spelling.text hsame
  rw [Setting.operator_of_peek hpeek] at hop
  obtain ⟨rfl, _⟩ := Prod.mk.inj (Except.ok.inj hop)
  rw [Setting.operator_of_peek hpeek', hspace, hkind, h.kind, hname, h.leadingSpace, htext]

end Mirrors

-- ════════════════════════════════════════════════════════════════════════
-- References
-- ════════════════════════════════════════════════════════════════════════

/-- A variable in scope with the new name of its path. -/
def frame (r : Renaming) (f : Frame) : Frame := { f with path := r.path f.path }

/-- A variable below the root entity that the new name does not hide. -/
structure Keeps (r : Renaming) (frame : Frame) : Prop where
  rooted : frame.Rooted r.entity
  ne_it : frame.name ≠ "$it"
  ne_new : frame.name ≠ r.new

/-- A setting has the renamed metadata of another one. -/
structure Takes (r : Renaming) (setting setting' : Setting) : Prop where
  entity : setting.entity = r.entity
  entity' : setting'.entity = r.renamedEntity
  allowed' : setting'.allowed = r.allowList setting.allowed

variable {setting setting' : Setting} {scope : List Frame}

theorem find?_frame (r : Renaming) (scope : List Frame) (name : String) :
    Frame.find? (scope.map r.frame) name = (Frame.find? scope name).map r.frame := by
  rw [Frame.find?, Frame.find?, List.find?_map]
  rfl

namespace Takes

/-- Another variable stays free. -/
theorem isTaken (hset : r.Takes setting setting') {name : String}
    (h : setting.isTaken scope name = false) (hnew : name ≠ r.new) :
    name ≠ r.old ∧ setting'.isTaken (scope.map r.frame) name = false := by
  simp only [Setting.isTaken, Bool.or_eq_false_iff, hset.entity, hset.entity'] at h ⊢
  obtain ⟨⟨hit, hproperty⟩, hframe⟩ := h
  have hnone : r.entity.find? name = none := by simpa using hproperty
  have hold := r.ne_old_of_find? hnone
  rw [r.find?_of_ne hold hnew, r.find?_frame, Option.isSome_map]
  exact ⟨hold, ⟨hit, hproperty⟩, hframe⟩

theorem allows (hset : r.Takes setting setting') {path : String}
    (h : setting.allowed.allows path = true) : setting'.allowed.allows (r.path path) = true := by
  rw [hset.allowed']
  exact r.allows_path h

/-- The new name does not hide a free variable of a collection that is referred to. -/
theorem keeps (hset : r.Takes setting setting') {property : Property} {above : String}
    {origin : Option String} {token : Token}
    (hrefers : setting.Refers scope c property above origin token c') (htext : c.HasText)
    (hkind : c.current.kind = .identifier) (hscope : ∀ frame ∈ scope, r.Keeps frame)
    {target : EntityType} {link : Link} (htype : property.type = .collection target link)
    {name : String} (hfresh : setting.isTaken scope name = false) (hnew : name ≠ r.new) :
    r.Keeps ⟨name, target, Setting.pathBelow above property.name⟩ := by
  obtain ⟨_, _, hrooted⟩ := hrefers.path htext hkind fun frame hframe => by
    rw [hset.entity]
    exact (hscope frame hframe).rooted
  simp only [Setting.isTaken, Bool.or_eq_false_iff, beq_eq_false_iff_ne] at hfresh
  exact ⟨hset.entity ▸ hrooted name target link htype, hfresh.1.1, hnew⟩

end Takes

/-- The place behind a name that starts an operand. -/
theorem behind_name {root : EntityType} {s next : Spelling} (hkind : s.kind = .identifier)
    (hnegates : negates s next = false) :
    Place.operand.behind root s next =
      if s.text = "$it" ∧ root.find? "$it" = none then .it else .operator := by
  simp [Place.behind, hkind, hnegates]

/-- An identifier that starts an operand is no prefix operator. -/
theorem Mirrors.negates_eq_false (h : r.Mirrors .operand c d) (hop : PrefixAt c none)
    (hkind : c.current.kind = .identifier) : negates c.current.spelling c.following = false := by
  have hnot := hop.2
  rw [h.isNot_eq hkind] at hnot
  exact (Prod.mk.inj (Except.ok.inj hnot)).1

/-- Behind a prefix operator an operand starts. -/
theorem Mirrors.prefixed (h : r.Mirrors .operand c d) {op : UnaryOp} (hop : PrefixAt c (some op))
    (hc : c.advance = .ok c') : ∃ d', d.advance = .ok d' ∧ r.Mirrors .operand c' d' := by
  cases op with
  | negate =>
    have hminus : c.current.kind = .minus := hop
    exact h.opening hminus (by decide) hc
  | not =>
    have hnot := hop.2
    obtain hidentifier | hkind : c.current.kind = .identifier ∨ c.current.kind = .functionName := by
      simpa [Token.isName] using Setting.isName_of_isNot hnot
    · rw [h.isNot_eq hidentifier] at hnot
      have hnegates := (Prod.mk.inj (Except.ok.inj hnot)).1
      obtain ⟨d', hd, hnext, hmirrors⟩ := h.advance (by simp [hidentifier]) hc
      have hplace : Place.operand.behind r.entity c.current.spelling c.following = .operand := by
        simp [Place.behind, show c.current.spelling.kind = .identifier from hidentifier, hnegates]
      rw [hnext, hplace] at hmirrors
      exact ⟨d', hd, hmirrors⟩
    · exact h.opening hkind (by decide) hc

/-- A name of a property of the root entity is renamed. -/
theorem Mirrors.text_eq (h : r.Mirrors place c d) (hkind : c.current.kind = .identifier)
    (hplace : place = .rootMember ∨
      place = .operand ∧ negates c.current.spelling c.following = false) :
    d.current.text = r.name none c.current.text := by
  have htext := congrArg Spelling.text h.current
  have hrefers : r.refers place c.current.spelling c.following = (c.current.text == r.old) := by
    have hkind : c.current.spelling.kind = .identifier := hkind
    rw [refers, hkind]
    obtain rfl | ⟨rfl, hnegates⟩ := hplace
    · simp [Token.spelling]
    · rw [hnegates]
      simp [Token.spelling]
  rw [spelling, hrefers] at htext
  by_cases hold : c.current.text = r.old
  · rw [hold, beq_self_eq_true, if_pos rfl] at htext
    rw [hold, name_old]
    exact htext
  · rw [beq_false_of_ne hold, if_neg Bool.false_ne_true] at htext
    rw [r.name_of_ne hold]
    exact htext

-- A property can hold an entity type with properties, so the equation does not hold by definition.
theorem property_eta (p : Property) : ⟨p.name, p.source, p.type, p.nullable⟩ = p := by
  obtain ⟨name, source, type, nullable⟩ := p
  rfl

/-- The name of a property of the root entity finds that property under its new name and path. -/
theorem Mirrors.find?_property (h : r.Mirrors place c d) (hkind : c.current.kind = .identifier)
    (hplace : place = .rootMember ∨
      place = .operand ∧ negates c.current.spelling c.following = false)
    {property : Property} (hproperty : r.entity.find? c.current.text = some property) :
    r.renamedEntity.find? d.current.text =
        some { property with name := r.name none property.name } ∧
      Setting.pathBelow "" (r.name none property.name) =
        r.path (Setting.pathBelow "" property.name) := by
  obtain ⟨_, hname⟩ := EntityType.mem_properties_of_find? hproperty
  have hplain : '/' ∉ property.name.toList :=
    hname ▸ h.plain _ List.mem_cons_self hkind
  constructor
  · rw [h.text_eq hkind hplace, r.find?_name (r.new_eq_old_of_find? hproperty), hproperty]
    rfl
  · rw [Setting.pathBelow_root, Setting.pathBelow_root, r.path_name hplain]

/-- A name of something else stays, and finds no property under the new names either. -/
theorem Mirrors.find?_other (h : r.Mirrors place c d) (hnone : r.entity.find? c.current.text = none)
    (hnew : c.current.text ≠ r.new) :
    d.current.text = c.current.text ∧ r.renamedEntity.find? d.current.text = none := by
  have hold := r.ne_old_of_find? hnone
  have htext : d.current.text = c.current.text :=
    congrArg Spelling.text (h.current_eq (.inr (.inr hold)))
  rw [htext, r.find?_of_ne hold hnew]
  exact ⟨rfl, hnone⟩

/-- Behind a name that starts an operand stands an operator, but for the root entity itself. -/
theorem Mirrors.named (h : r.Mirrors .operand c d) (hop : PrefixAt c none)
    (hkind : c.current.kind = .identifier) (hc : c.advance = .ok c') :
    ∃ d', d.advance = .ok d' ∧ r.Mirrors
      (if c.current.text = "$it" ∧ r.entity.find? "$it" = none then .it else .operator) c' d' := by
  obtain ⟨d', hd, hnext, hmirrors⟩ := h.advance (by simp [hkind]) hc
  rw [hnext, behind_name hkind (h.negates_eq_false hop hkind)] at hmirrors
  exact ⟨d', hd, hmirrors⟩

/-- The last name of a path stands behind its slash. -/
theorem Mirrors.pathMember (h : r.Mirrors place c d) {c₁ : Cursor}
    (hslash : c.current.kind = .slash) (hc : c.advance = .ok c₁)
    (hkind : c₁.current.kind = .identifier) (hc₁ : c₁.advance = .ok c') :
    ∃ d₁ d', d.advance = .ok d₁ ∧ r.Mirrors (if place = .it then .rootMember else .member) c₁ d₁ ∧
      d₁.advance = .ok d' ∧ r.Mirrors .operator c' d' := by
  obtain ⟨d₁, hd, h₁⟩ := h.slash hslash hc
  have hplace : (if place = .it then Place.rootMember else .member) = .rootMember ∨
      (if place = .it then Place.rootMember else .member) = .member := by
    by_cases hit : place = .it
    · exact .inl (if_pos hit)
    · exact .inr (if_neg hit)
  obtain ⟨d', hd₁, h'⟩ := h₁.last hplace hkind hc₁
  exact ⟨d₁, d', hd, h₁, hd₁, h'⟩

/-- An identifier refers to the same property under its new name. -/
theorem Mirrors.refers (h : r.Mirrors .operand c d) (hset : r.Takes setting setting')
    {property : Property} {above : String} {origin : Option String} {token : Token}
    (hrefers : setting.Refers scope c property above origin token c') (hop : PrefixAt c none)
    (hkind : c.current.kind = .identifier) (hscope : ∀ frame ∈ scope, r.Keeps frame) :
    ∃ above' token' d',
      setting'.Refers (scope.map r.frame) d { property with name := r.name origin property.name }
        above' origin token' d' ∧
      Setting.pathBelow above' (r.name origin property.name) =
        r.path (Setting.pathBelow above property.name) ∧
      r.Mirrors .operator c' d' := by
  cases hrefers with
  | root hproperty hc =>
    rw [hset.entity] at hproperty
    have hnegates := h.negates_eq_false hop hkind
    obtain ⟨hproperty', hpath⟩ := h.find?_property hkind (.inr ⟨rfl, hnegates⟩) hproperty
    obtain ⟨d', hd, h'⟩ := h.named hop hkind hc
    have hplace : ¬(c.current.text = "$it" ∧ r.entity.find? "$it" = none) := by
      rintro ⟨hit, hnone⟩
      rw [hit, hnone] at hproperty
      cases hproperty
    rw [if_neg hplace] at h'
    rw [← hset.entity'] at hproperty'
    exact ⟨"", d.current, d', .root hproperty' hd, hpath, h'⟩
  | @below frame property c₁ c₂ c' hroot hframe hc hslash hc₁ hidentifier hc₂ hproperty =>
    rw [hset.entity] at hroot
    obtain ⟨hmem, hname⟩ := Frame.mem_of_find? hframe
    obtain ⟨hrooted, hit, hnew⟩ := hscope frame hmem
    obtain ⟨htext, hroot'⟩ := h.find?_other hroot (hname ▸ hnew)
    obtain ⟨d₁, hd, h₁⟩ := h.named hop hkind hc
    rw [if_neg fun hplace => hit (hname.trans hplace.1)] at h₁
    obtain ⟨d₂, d', hd₁, h₂, hd₂, h'⟩ := h₁.pathMember hslash hc₁ hidentifier hc₂
    have hmember : d₂.current.text = c₂.current.text :=
      congrArg Spelling.text (h₂.current_eq (.inr (.inl (by decide))))
    rw [← hset.entity'] at hroot'
    have hframe' : Frame.find? (scope.map r.frame) d.current.text = some (r.frame frame) := by
      rw [htext, find?_frame, hframe]
      rfl
    have hproperty' : (r.frame frame).entity.find? d₂.current.text = some property := by
      rw [hmember]
      exact hproperty
    refine ⟨r.path frame.path, d₂.current, d', ?_, ?_, h'⟩
    · rw [name_some, property_eta]
      exact .below hroot' hframe' hd (h₁.kind.trans hslash) hd₁ (h₂.kind.trans hidentifier) hd₂
        hproperty'
    · rw [name_some, Setting.pathBelow_ne hrooted.1, Setting.pathBelow_ne
        (r.path_ne_empty hrooted.1), r.path_below]
  | @it property c₁ c₂ c' hroot hframe hit hc hslash hc₁ hidentifier hc₂ hproperty =>
    rw [hset.entity] at hroot hproperty
    obtain ⟨htext, hroot'⟩ := h.find?_other hroot (hit ▸ (r.new_ne (by decide)).symm)
    obtain ⟨d₁, hd, h₁⟩ := h.named hop hkind hc
    rw [if_pos ⟨hit, hit ▸ hroot⟩] at h₁
    obtain ⟨d₂, d', hd₁, h₂, hd₂, h'⟩ := h₁.pathMember hslash hc₁ hidentifier hc₂
    obtain ⟨hproperty', hpath⟩ := h₂.find?_property hidentifier (.inl rfl) hproperty
    rw [← hset.entity'] at hroot' hproperty'
    have hframe' : Frame.find? (scope.map r.frame) d.current.text = none := by
      rw [htext, find?_frame, hframe]
      rfl
    exact ⟨"", d₂.current, d', .it hroot' hframe' (htext.trans hit) hd (h₁.kind.trans hslash) hd₁
      (h₂.kind.trans hidentifier) hd₂ hproperty', hpath, h'⟩

/-- The same quantifier with its parenthesis stands behind a renamed navigation. -/
theorem Mirrors.quantifier {c₁ c₂ c₃ c₄ d₁ : Cursor} {q : Quantifier} (h : r.Mirrors .operator c₁ d₁)
    (setting' : Setting) (hslash : c₁.current.kind = .slash) (hc₁ : c₁.advance = .ok c₂)
    (hq : setting.quantifier c₂ = .ok (q, c₃)) (hopen : c₃.current.kind = .leftParen)
    (hc₃ : c₃.advance = .ok c₄) :
    ∃ d₂ d₃ d₄, d₁.advance = .ok d₂ ∧ setting'.quantifier d₂ = .ok (q, d₃) ∧
      d₃.current.kind = .leftParen ∧ d₃.advance = .ok d₄ ∧ r.Mirrors .operand c₄ d₄ := by
  obtain ⟨hname, hc₂⟩ := Setting.isName_of_quantifier hq
  have hinside : c₂.current.kind ≠ .endOfText := by
    intro hend
    simp [Token.isName, hend] at hname
  obtain ⟨d₂, hd₁, h₂⟩ := h.slash hslash hc₁
  obtain ⟨d₃, hd₂, _, h₃⟩ := h₂.advance hinside hc₂
  obtain ⟨d₄, hd₃, h₄⟩ := h₃.opening hopen (by decide) hc₃
  have hq' : setting'.quantifier d₂ = .ok (q, d₃) :=
    Setting.quantifier_of_spelling hq (h₂.current_eq (.inr (.inl (by decide)))) hd₂
  exact ⟨d₂, d₃, d₄, hd₁, hq', h₃.kind.trans hopen, hd₃, h₄⟩

end Renaming

-- ════════════════════════════════════════════════════════════════════════
-- Readings
-- ════════════════════════════════════════════════════════════════════════

namespace Setting

open Renaming (Place)

variable {r : Renaming} {setting setting' : Setting}

theorem ReadsItems.renamed {type : StaticType} {limit : Nat} {vs : List Value} {place : Place}
    {c c' d : Cursor} (h : ReadsItems type limit c vs c') (hm : r.Mirrors place c d) :
    ∃ place' d', ReadsItems type limit d vs d' ∧ r.Mirrors place' c' d' := by
  have hvalue {place : Place} {c d : Cursor} {v : Value} (hm : r.Mirrors place c d)
      (hv : c.current.literal? (some type) = .ok (some v)) :
      d.current.literal? (some type) = .ok (some v) :=
    literal?_of_spelling hv (hm.current_eq (.inl (by simp [kind_of_literal? hv])))
  induction h generalizing place d with
  | exhausted => exact ⟨place, d, .exhausted, hm⟩
  | last hv hnull htype hc hlast =>
    obtain ⟨d', hd, hm'⟩ := hm.closing (kind_of_literal? hv) (.inr rfl) hc
    exact ⟨_, d', .last (hvalue hm hv) hnull htype hd (hm'.kind ▸ hlast), hm'⟩
  | more hv hnull htype hc hcomma hc₁ _ ih =>
    obtain ⟨d₁, hd, hm₁⟩ := hm.closing (kind_of_literal? hv) (.inr rfl) hc
    obtain ⟨d₂, hd₁, hm₂⟩ := hm₁.opening hcomma (by decide) hc₁
    obtain ⟨place', d', hitems, hm'⟩ := ih hm₂
    exact ⟨place', d', .more (hvalue hm hv) hnull htype hd (hm₁.kind.trans hcomma) hd₁ hitems, hm'⟩

theorem ReadsList.renamed {type : StaticType} {list : List Value} {place : Place} {c c' d : Cursor}
    (h : ReadsList type c list c') (hm : r.Mirrors place c d) :
    ∃ d', ReadsList type d list d' ∧ r.Mirrors .operator c' d' := by
  obtain ⟨c₁, c₂, hopen, hc, hsome, hitems, hclose, hc₂⟩ := h
  obtain ⟨d₁, hd, hm₁⟩ := hm.opening hopen (by decide) hc
  obtain ⟨_, d₂, hitems, hm₂⟩ := hitems.renamed hm₁
  obtain ⟨d', hd₂, hm'⟩ := hm₂.closing hclose (.inl rfl) hc₂
  rw [← hm₁.length_rest] at hitems
  exact ⟨d', ⟨d₁, d₂, hm.kind.trans hopen, hd, hm₁.kind ▸ hsome, hitems, hm₂.kind.trans hclose, hd₂⟩,
    hm'⟩

mutual

/-- What is read is read under its new name from renamed tokens. -/
theorem Reads.renamed {levels minimum : Nat} {scope : List Frame} {expected : Option StaticType}
    {c c' d : Cursor} {e : Expr} (h : setting.Reads levels minimum scope expected c e c')
    (hset : r.Takes setting setting') (hm : r.Mirrors .operand c d)
    (hscope : ∀ frame ∈ scope, r.Keeps frame)
    (hbinders : ∀ b ∈ e.binders (scope.map Frame.name), b.binder.bound ≠ r.new) :
    ∃ d', setting'.Reads levels minimum (scope.map r.frame) expected d (r.expr e) d' ∧
      r.Mirrors .operator c' d' := by
  match h with
  | .intro hleft h =>
    obtain ⟨d₁, hleft', hm₁⟩ := ReadsOperand.renamed hleft hset hm hscope fun b hb =>
      hbinders b (h.binders_subset _ hb)
    obtain ⟨d', h', hm'⟩ := ReadsOperations.renamed h hset hm₁ hscope hbinders
    rw [← hm₁.length_rest] at h'
    exact ⟨d', .intro hleft' h', hm'⟩

theorem ReadsOperand.renamed {levels : Nat} {scope : List Frame} {expected : Option StaticType}
    {c c' d : Cursor} {e : Expr} (h : setting.ReadsOperand levels scope expected c e c')
    (hset : r.Takes setting setting') (hm : r.Mirrors .operand c d)
    (hscope : ∀ frame ∈ scope, r.Keeps frame)
    (hbinders : ∀ b ∈ e.binders (scope.map Frame.name), b.binder.bound ≠ r.new) :
    ∃ d', setting'.ReadsOperand levels (scope.map r.frame) expected d (r.expr e) d' ∧
      r.Mirrors .operator c' d' := by
  match h with
  | .prefixed hop hc he htype =>
    obtain ⟨d₁, hd, hm₁⟩ := hm.prefixed hop hc
    obtain ⟨d', he', hm'⟩ := Reads.renamed he hset hm₁ hscope hbinders
    rw [← r.type_expr] at htype
    exact ⟨d', .prefixed (hm.prefixAt hop) hd he' htype, hm'⟩
  | .group hop hkind hc he hclose hc₂ =>
    obtain ⟨d₁, hd, hm₁⟩ := hm.opening hkind (by decide) hc
    obtain ⟨d₂, he', hm₂⟩ := Reads.renamed he hset hm₁ hscope hbinders
    obtain ⟨d', hd₂, hm'⟩ := hm₂.closing hclose (.inl rfl) hc₂
    exact ⟨d', .group (hm.prefixAt hop) (hm.kind.trans hkind) hd he' (hm₂.kind.trans hclose) hd₂, hm'⟩
  | .literal hop hkind hv hc =>
    obtain ⟨d', hd, hm'⟩ := hm.closing hkind (.inr rfl) hc
    have hv' := literal?_of_spelling hv (hm.current_eq (.inl (by simp [hkind])))
    exact ⟨d', .literal (hm.prefixAt hop) (hm.kind.trans hkind) hv' hd, hm'⟩
  | .callNone hop hkind hfunction hc hopen hc₁ hclose hc₂ htype =>
    obtain ⟨d₁, hd, hm₁⟩ := hm.opening hkind (by decide) hc
    obtain ⟨d₂, hd₁, hm₂⟩ := hm₁.opening hopen (by decide) hc₁
    obtain ⟨d', hd₂, hm'⟩ := hm₂.closing hclose (.inl rfl) hc₂
    have htext := congrArg Spelling.text (hm.current_eq (.inl (by simp [hkind])))
    rw [← show d.current.text = c.current.text from htext] at hfunction
    exact ⟨d', .callNone (hm.prefixAt hop) (hm.kind.trans hkind) hfunction hd (hm₁.kind.trans hopen) hd₁
      (hm₂.kind.trans hclose) hd₂ htype, hm'⟩
  | .callSome hop hkind hfunction hc hopen hc₁ hsome hes hclose hc₃ htype =>
    obtain ⟨d₁, hd, hm₁⟩ := hm.opening hkind (by decide) hc
    obtain ⟨d₂, hd₁, hm₂⟩ := hm₁.opening hopen (by decide) hc₁
    obtain ⟨_, d₃, hes', hm₃⟩ := ReadsArguments.renamed hes hset hm₂ hscope hbinders
    obtain ⟨d', hd₃, hm'⟩ := hm₃.closing hclose (.inl rfl) hc₃
    have htext := congrArg Spelling.text (hm.current_eq (.inl (by simp [hkind])))
    rw [← show d.current.text = c.current.text from htext] at hfunction
    rw [← hm₂.length_rest] at hes'
    rw [← r.types_exprs] at htype
    exact ⟨d', .callSome (hm.prefixAt hop) (hm.kind.trans hkind) hfunction hd (hm₁.kind.trans hopen) hd₁
      (hm₂.kind ▸ hsome) hes' (hm₃.kind.trans hclose) hd₃ htype, hm'⟩
  | .field hop hkind hrefers hallowed htype =>
    obtain ⟨above', token', d', hrefers', hpath, hm'⟩ := hm.refers hset hrefers hop hkind hscope
    have hallowed' := hset.allows hallowed
    rw [← hpath] at hallowed'
    exact ⟨d', .field (hm.prefixAt hop) (hm.kind.trans hkind) hrefers' hallowed' htype, hm'⟩
  | .bare hop hkind hrefers hallowed htype hslash hc₁ hany hopen hc₃ hclose hc₄ =>
    obtain ⟨above', token', d₁, hrefers', hpath, hm₁⟩ := hm.refers hset hrefers hop hkind hscope
    have hallowed' := hset.allows hallowed
    rw [← hpath] at hallowed'
    obtain ⟨d₂, d₃, d₄, hd₁, hany', hopen', hd₃, hm₄⟩ := hm₁.quantifier setting' hslash hc₁ hany hopen
      hc₃
    obtain ⟨d', hd₄, hm'⟩ := hm₄.closing hclose (.inl rfl) hc₄
    exact ⟨d', .bare (hm.prefixAt hop) (hm.kind.trans hkind) hrefers' hallowed' htype
      (hm₁.kind.trans hslash) hd₁ hany' hopen' hd₃ (hm₄.kind.trans hclose) hd₄, hm'⟩
  | .lambda hop hkind hrefers hallowed htype hslash hc₁ hquantifier hopen hc₃ hbound hc₄ hfresh hcolon
      hc₅ hbody hboolean hclose hc₇ =>
    rename_i property above origin token c₁ target link c₂ quantifier c₃ c₄ c₅ c₆ body c₇
    obtain ⟨above', token', d₁, hrefers', hpath, hm₁⟩ := hm.refers hset hrefers hop hkind hscope
    have hallowed' := hset.allows hallowed
    rw [← hpath] at hallowed'
    obtain ⟨d₂, d₃, d₄, hd₁, hquantifier', hopen', hd₃, hm₄⟩ :=
      hm₁.quantifier setting' hslash hc₁ hquantifier hopen hc₃
    -- The variable keeps its name, which is neither the old one nor the new one.
    rw [Expr.binders] at hbinders
    obtain ⟨hnew, hbinders⟩ := List.forall_mem_cons.mp hbinders
    obtain ⟨hold, hfresh'⟩ := hset.isTaken hfresh hnew
    have htext : d₄.current.text = c₄.current.text :=
      congrArg Spelling.text (hm₄.current_eq (.inr (.inr hold)))
    have hkeeps := hset.keeps hrefers hm.hasText hkind hscope htype hfresh hnew
    obtain ⟨d₅, hd₄, _, hm₅⟩ := hm₄.advance (by simp [hbound]) hc₄
    obtain ⟨d₆, hd₅, hm₆⟩ := hm₅.opening hcolon (by decide) hc₅
    obtain ⟨d₇, hbody', hm₇⟩ := Reads.renamed hbody hset hm₆
      (List.forall_mem_cons.mpr ⟨hkeeps, hscope⟩) hbinders
    obtain ⟨d', hd₇, hm'⟩ := hm₇.closing hclose (.inl rfl) hc₇
    rw [← htext] at hfresh'
    rw [List.map_cons, Renaming.frame, ← hpath, ← htext] at hbody'
    rw [← r.type_expr] at hboolean
    have hlambda : setting'.ReadsOperand levels (scope.map r.frame) expected d _ d' :=
      .lambda (hm.prefixAt hop) (hm.kind.trans hkind) hrefers' hallowed' htype
        (hm₁.kind.trans hslash) hd₁ hquantifier' hopen' hd₃ (hm₄.kind.trans hbound) hd₄ hfresh'
        (hm₅.kind.trans hcolon) hd₅ hbody' hboolean (hm₇.kind.trans hclose) hd₇
    rw [htext] at hlambda
    exact ⟨d', hlambda, hm'⟩

theorem ReadsOperations.renamed {levels minimum : Nat} {scope : List Frame} {limit : Nat}
    {left : Expr} {c c' d : Cursor} {e : Expr}
    (h : setting.ReadsOperations levels minimum scope limit left c e c')
    (hset : r.Takes setting setting') (hm : r.Mirrors .operator c d)
    (hscope : ∀ frame ∈ scope, r.Keeps frame)
    (hbinders : ∀ b ∈ e.binders (scope.map Frame.name), b.binder.bound ≠ r.new) :
    ∃ d', setting'.ReadsOperations levels minimum (scope.map r.frame) limit (r.expr left) d (r.expr e)
        d' ∧
      r.Mirrors .operator c' d' := by
  match h with
  | .exhausted => exact ⟨d, .exhausted, hm⟩
  | .stop hop hloose => exact ⟨d, .stop (hm.operator hop) hloose, hm⟩
  | .binary hop htight hc hright he h =>
    obtain ⟨d₁, hd, hm₁⟩ := hm.keyword (isName_of_operator hop) hc
    obtain ⟨d₂, hright', hm₂⟩ := Reads.renamed hright hset hm₁ hscope fun b hb => by
      refine hbinders b (h.binders_subset _ ?_)
      rw [Expr.binders_of_combines he]
      exact List.mem_append_right _ hb
    obtain ⟨d', h', hm'⟩ := ReadsOperations.renamed h hset hm₂ hscope hbinders
    rw [← r.type_expr] at hright'
    exact ⟨d', .binary (hm.operator hop) htight hd hright' (r.combines_expr he) h', hm'⟩
  | .membership hop htight hc hlist h =>
    obtain ⟨d₁, hd, hm₁⟩ := hm.keyword (isName_of_operator hop) hc
    obtain ⟨d₂, hlist', hm₂⟩ := hlist.renamed hm₁
    obtain ⟨d', h', hm'⟩ := ReadsOperations.renamed h hset hm₂ hscope hbinders
    rw [← r.type_expr] at hlist'
    rw [Renaming.expr] at h'
    exact ⟨d', .membership (hm.operator hop) htight hd hlist' h', hm'⟩

theorem ReadsArguments.renamed {levels : Nat} {scope : List Frame} {limit : Nat} {c c' d : Cursor}
    {es : List Expr} (h : setting.ReadsArguments levels scope limit c es c')
    (hset : r.Takes setting setting') (hm : r.Mirrors .operand c d)
    (hscope : ∀ frame ∈ scope, r.Keeps frame)
    (hbinders : ∀ b ∈ Expr.argumentBinders (scope.map Frame.name) es, b.binder.bound ≠ r.new) :
    ∃ place d', setting'.ReadsArguments levels (scope.map r.frame) limit d (r.exprs es) d' ∧
      r.Mirrors place c' d' := by
  match h with
  | .exhausted => exact ⟨.operand, d, .exhausted, hm⟩
  | .last he hlast =>
    rw [Expr.argumentBinders, Expr.argumentBinders, List.append_nil] at hbinders
    obtain ⟨d', he', hm'⟩ := Reads.renamed he hset hm hscope hbinders
    exact ⟨.operator, d', .last he' (hm'.kind ▸ hlast), hm'⟩
  | .more he hcomma hc₁ hes =>
    rw [Expr.argumentBinders] at hbinders
    obtain ⟨hfirst, hrest⟩ := List.forall_mem_append.mp hbinders
    obtain ⟨d₁, he', hm₁⟩ := Reads.renamed he hset hm hscope hfirst
    obtain ⟨d₂, hd₁, hm₂⟩ := hm₁.opening hcomma (by decide) hc₁
    obtain ⟨place, d', hes', hm'⟩ := ReadsArguments.renamed hes hset hm₂ hscope hrest
    exact ⟨place, d', .more he' (hm₁.kind.trans hcomma) hd₁ hes', hm'⟩

end

end Setting

-- ════════════════════════════════════════════════════════════════════════
-- Whole texts
-- ════════════════════════════════════════════════════════════════════════

/-- An identifier has no slash. -/
theorem Scan.plain_of_token {space : Bool} {offset : Nat} {cs : List Char} {t : Token}
    (h : (token space offset cs).outcome = .ok t) (hkind : t.kind = .identifier) :
    '/' ∉ t.text.toList := by
  obtain hend | ⟨c, rest, l, _, hl, hlexeme, htext⟩ := token_cases h
  · cases hkind.symm.trans hend
  · obtain ⟨hopens, hname, _⟩ := Lexeme.name_of_ofText hl (.inl (hlexeme.symm.trans hkind))
    rw [htext]
    intro hmem
    obtain rfl | hmem := List.mem_cons.mp hmem
    · exact absurd hopens (by decide)
    · exact absurd (hname _ hmem) (by decide)

/-- Keywords are not reserved. When a property of the root entity gets the keyword of an operator as
its name, which is neither that of another property nor that of a variable, an accepted text with the
new name in the tokens that refer to the property has these tokens, and it is accepted under the
renamed metadata, with the same tree but for the renamed references. -/
theorem Expr.readFilter_renamed (r : Renaming) {text : String} {allowed : AllowList} {maxDepth : Nat}
    {e : Expr} (h : readFilter text r.entity allowed maxDepth = .ok e)
    (hvariables : ∀ b ∈ e.binders [], b.binder.bound ≠ r.new) :
    (scanText (r.text text).toList).1.map Token.spelling =
        r.spellings .operand ((scanText text.toList).1.map Token.spelling) ∧
      readFilter (r.text text) r.renamedEntity (r.allowList allowed) maxDepth = .ok (r.expr e) := by
  obtain ⟨c, c', hc, hinside, hreads, hend, htype⟩ := readFilter_eq_ok.mp h
  obtain ⟨hscan, hfault, hwritten⟩ := Cursor.written_of_ofText hc hreads.tokens_suffix hend
  have hrenamed := hwritten.respell (hreads.parted_of_ofText hc hend) (r.respells .operand _)
  have htext : (r.text text).toList = Spelling.respell (c.tokens.map Token.spelling)
      (r.spellings .operand (c.tokens.map Token.spelling)) text.toList := by
    rw [Renaming.text, hscan]
    exact String.toList_ofList
  rw [← htext] at hrenamed
  obtain ⟨d, hd, hfault', htokens⟩ := hrenamed.exists_cursor
  have hmirrors : r.Mirrors .operand c d :=
    ⟨⟨hfault, hfault'⟩, Cursor.ends_of_ofText hc hreads.tokens_suffix hend,
      Cursor.hasText_of_ofText hc, Cursor.forall_of_ofText Scan.plain_of_token hc, htokens⟩
  have htakes : r.Takes ⟨text.toList, r.entity, allowed, maxDepth⟩
      ⟨(r.text text).toList, r.renamedEntity, r.allowList allowed, maxDepth⟩ := ⟨rfl, rfl, rfl⟩
  obtain ⟨d', hreads', hmirrors'⟩ := hreads.renamed htakes hmirrors (by simp) hvariables
  have hinside' : d.current.kind ≠ .endOfText := hmirrors.kind ▸ hinside
  have hend' := hmirrors'.kind.trans hend
  rw [← r.type_expr] at htype
  constructor
  · rw [(Cursor.written_of_ofText hd hreads'.tokens_suffix hend').1, hscan]
    exact htokens
  · exact readFilter_eq_ok.mpr ⟨d, d', hd, hinside', hreads', hend', htype⟩

/-- A quantity called `eq` behind a minus, in parentheses, in front of the operator of that name and
behind `$it`, next to the quantity of a line, which keeps its name. -/
theorem Expr.readFilter_renamed_quantity :
    let line : EntityType := ⟨"Line", "lines", [⟨"qty", "quantity", .primitive .int32, false⟩]⟩
    let r : Renaming := ⟨⟨"Order", "orders", [⟨"qty", "quantity", .primitive .int32, false⟩,
      ⟨"lines", "", .collection line ⟨"id", "order_id"⟩, false⟩]⟩, "qty", "eq", rfl, rfl, .inl rfl⟩
    let text := "-qty lt 3 and not (qty eq 5) or lines/any(l: l/qty gt $it/qty)"
    let allowed := AllowList.all r.entity
    r.text text = "-eq lt 3 and not (eq eq 5) or lines/any(l: l/qty gt $it/eq)" ∧
      ∃ e, readFilter text r.entity allowed defaultMaxDepth = .ok e ∧
        (∀ b ∈ e.binders [], b.binder.bound ≠ r.new) ∧
        (scanText (r.text text).toList).1.map Token.spelling =
          r.spellings .operand ((scanText text.toList).1.map Token.spelling) ∧
        readFilter (r.text text) r.renamedEntity (r.allowList allowed) defaultMaxDepth =
          .ok (r.expr e) := by
  intro line r text allowed
  have hrun : Result.passes (fun e => decide (∀ b ∈ e.binders [], b.binder.bound ≠ r.new))
      (readFilter text r.entity allowed defaultMaxDepth) = true := by decide +kernel
  obtain ⟨e, h, hvariables⟩ := Result.exists_of_passes hrun
  have hvariables := of_decide_eq_true hvariables
  obtain ⟨htokens, hrenamed⟩ := readFilter_renamed r h hvariables
  exact ⟨by decide +kernel, e, h, hvariables, htokens, hrenamed⟩

end ODataQuery
