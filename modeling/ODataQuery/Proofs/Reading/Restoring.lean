import ODataQuery.Proofs.Reading.Chain
import ODataQuery.Proofs.Reading.Legibility

/-!
# Reading printed parts

The parts of an expression without operators are read from their tokens: literals, lists, references,
calls and lambdas.

## Main definitions

- `Setting.Retrieved` — an expression is read from its tokens

## Main statements

- `Setting.retrieved_literal`, `Setting.retrieved_field`, `Setting.retrieved_bare`,
  `Setting.retrieved_lambda`, `Setting.retrieved_call` — operands are read from their tokens
-/

namespace ODataQuery

open StaticType (steering)
open Spelling (Loose)

-- ════════════════════════════════════════════════════════════════════════
-- First tokens
-- ════════════════════════════════════════════════════════════════════════

namespace Expr

theorem le_deepest (e : Expr) (level : Nat) : level ≤ e.deepest level := by
  cases e <;> simp only [deepest] <;> omega

theorem deepest_le_deepestOf {arguments : List Expr} {e : Expr} (h : e ∈ arguments) (level : Nat) :
    e.deepest level ≤ deepestOf level arguments := by
  induction arguments with
  | nil => cases h
  | cons first rest ih =>
    rw [deepestOf]
    obtain rfl | h := List.mem_cons.mp h
    · omega
    · have := ih h
      omega

/-- A token that can be the first one of an expression. -/
structure IsFirst (s : Spelling) (space : Bool) : Prop where
  leadingSpace : s.leadingSpace = space
  ne_end : s.kind ≠ .endOfText
  ne_close : s.kind ≠ .rightParen

theorem exists_pathSpelling_cons (origin : Option String) (name : String) (space : Bool) :
    ∃ s ls, pathSpelling origin name space = s :: ls ∧ IsFirst s space := by
  cases origin with
  | none => exact ⟨_, _, rfl, rfl, by simp [Spelling.word], by simp [Spelling.word]⟩
  | some root => exact ⟨_, _, rfl, rfl, by simp [Spelling.word], by simp [Spelling.word]⟩

theorem exists_group_cons {spell : Bool → List Spelling} {space : Bool}
    (h : ∃ s ls, spell space = s :: ls ∧ IsFirst s space) (grouped : Bool) :
    ∃ s ls, groupSpelling grouped spell space = s :: ls ∧ IsFirst s space := by
  cases grouped with
  | false => exact h
  | true => exact ⟨_, _, rfl, rfl, by simp [Spelling.opening], by simp [Spelling.opening]⟩

theorem exists_spelling_cons (e : Expr) (space : Bool) :
    ∃ s ls, e.spelling space = s :: ls ∧ IsFirst s space := by
  induction e generalizing space with
  | literal v => exact ⟨_, _, rfl, rfl, by simp [Spelling.literal], by simp [Spelling.literal]⟩
  | field f => exact exists_pathSpelling_cons _ _ _
  | binary op left right ihl _ =>
    obtain ⟨s, ls, hs, hfirst⟩ := exists_group_cons (ihl space)
      (needsGroup (binary op left right) left .left)
    exact ⟨s, _, by rw [spelling, hs, List.cons_append], hfirst⟩
  | unary op operand _ =>
    cases op with
    | not => exact ⟨_, _, rfl, rfl, by simp [Spelling.word], by simp [Spelling.word]⟩
    | negate => exact ⟨_, _, rfl, rfl, by simp [Spelling.minus], by simp [Spelling.minus]⟩
  | membership operand list ih =>
    obtain ⟨s, ls, hs, hfirst⟩ := exists_group_cons (ih space)
      (needsGroup (membership operand list) operand .left)
    exact ⟨s, _, by rw [spelling, hs, List.cons_append], hfirst⟩
  | call function arguments _ =>
    exact ⟨_, _, rfl, rfl, by simp [Spelling.function], by simp [Spelling.function]⟩
  | lambda binder body _ =>
    obtain ⟨s, ls, hs, hfirst⟩ := exists_pathSpelling_cons binder.navigation.origin
      binder.navigation.name space
    exact ⟨s, _, by rw [spelling, binderSpelling, hs, List.cons_append, List.cons_append], hfirst⟩
  | bare binder =>
    obtain ⟨s, ls, hs, hfirst⟩ := exists_pathSpelling_cons binder.navigation.origin
      binder.navigation.name space
    exact ⟨s, _, by rw [spelling, binderSpelling, hs, List.cons_append, List.cons_append], hfirst⟩

end Expr

-- ════════════════════════════════════════════════════════════════════════
-- Literals and lists
-- ════════════════════════════════════════════════════════════════════════

namespace Setting

variable {setting : Setting} {scope : List Frame}

/-- A token that shows a literal is read as the value that the text denotes. -/
theorem literal?_of_shows {c : Cursor} {v w : Value} {space : Bool} {ls : List Spelling}
    {expected : Option StaticType} (hc : c.Shows (.literal v space :: ls))
    (h : Value.ofLiteral expected v.text.toList = .ok w) :
    c.current.literal? expected = .ok (some w) := by
  have hkind : c.current.kind = .literal := hc.kind
  have htext : c.current.text = v.text := hc.text
  rw [← htext] at h
  exact Token.literal?_eq_ok.mpr ⟨hkind, h⟩

/-- A literal in front of other tokens is an operand. -/
theorem readsOperand_literal {levels : Nat} {c : Cursor} {v w : Value} {space : Bool}
    {ls : List Spelling} {expected : Option StaticType} (hc : c.Shows (.literal v space :: ls))
    (h : Value.ofLiteral expected v.text.toList = .ok w) :
    ∃ c', setting.ReadsOperand levels scope expected c (.literal w) c' ∧ c'.Shows ls := by
  obtain ⟨c', hadvance, hls, _⟩ := hc.advance
  have hkind : c.current.kind = .literal := hc.kind
  have hmark : PrefixAt c none := prefixAt_none (by simp [hkind]) (hc.isWord "not")
  exact ⟨c', .literal hmark hkind (literal?_of_shows hc h) hadvance, hls⟩

/-- The items of a list are read from their tokens. -/
theorem exists_readsItems {type : StaticType} {list : List Value} (hne : list ≠ [])
    (h : ∀ v ∈ list, Value.ofLiteral (some type) v.text.toList = .ok v ∧ v.isNull = false ∧
      type.isComparableWith (v.typeAgainst (some type)) = true)
    {limit : Nat} {c : Cursor} {space : Bool} {ls : List Spelling} (hlimit : c.rest.length < limit)
    (hc : c.Shows (Expr.itemSpelling space list ++ .closing :: ls)) :
    ∃ c', ReadsItems type limit c list c' ∧ c'.Shows (.closing :: ls) := by
  induction list using Expr.itemEvents.induct generalizing c space limit with
  | case1 => exact absurd rfl hne
  | case2 v =>
    obtain ⟨hv, hnull, htype⟩ := h v List.mem_cons_self
    obtain ⟨c', hadvance, hls, _⟩ := hc.advance
    have hlast : c'.current.kind = .rightParen := hls.kind
    cases limit with
    | zero => omega
    | succ limit =>
      exact ⟨c', .last (literal?_of_shows hc hv) hnull htype hadvance (by simp [hlast]), hls⟩
  | case3 v vs hvs ih =>
    obtain ⟨hv, hnull, htype⟩ := h v List.mem_cons_self
    rw [Expr.itemSpelling.eq_3 space v vs hvs] at hc
    obtain ⟨c₁, hadvance, hls, hlength⟩ := hc.advance
    obtain ⟨c₂, hadvance₁, hls₁, hlength₁⟩ := hls.advance
    cases limit with
    | zero => omega
    | succ limit =>
      have hbound : c₂.rest.length < limit := by omega
      obtain ⟨c', hrest, hls'⟩ := ih hvs (fun v' hv' => h v' (List.mem_cons_of_mem _ hv')) hbound hls₁
      exact ⟨c', .more (literal?_of_shows hc hv) hnull htype hadvance hls.kind hadvance₁ hrest, hls'⟩

theorem exists_itemSpelling_cons {list : List Value} (hne : list ≠ []) (space : Bool) :
    ∃ v ls, Expr.itemSpelling space list = .literal v space :: ls := by
  induction list using Expr.itemEvents.induct with
  | case1 => exact absurd rfl hne
  | case2 v => exact ⟨v, _, rfl⟩
  | case3 v vs hvs _ => exact ⟨v, _, Expr.itemSpelling.eq_3 space v vs hvs⟩

/-- A list in parentheses is read from its tokens. -/
theorem exists_readsList {type : StaticType} {list : List Value} (hne : list ≠ [])
    (h : ∀ v ∈ list, Value.ofLiteral (some type) v.text.toList = .ok v ∧ v.isNull = false ∧
      type.isComparableWith (v.typeAgainst (some type)) = true)
    {c : Cursor} {space : Bool} {ls : List Spelling}
    (hc : c.Shows (.opening space :: (Expr.itemSpelling false list ++ .closing :: ls))) :
    ∃ c', ReadsList type c list c' ∧ c'.Shows ls := by
  obtain ⟨c₁, hadvance, hls, _⟩ := hc.advance
  obtain ⟨c₂, hitems, hls₂⟩ := exists_readsItems hne h (Nat.lt_succ_self _) hls
  obtain ⟨c', hadvance₂, hls', _⟩ := hls₂.advance
  obtain ⟨v, ls₁, hcons⟩ := exists_itemSpelling_cons hne false
  have hkind : c₁.current.kind = .literal := by
    rw [hcons] at hls
    exact hls.kind
  exact ⟨c', ⟨c₁, c₂, hc.kind, hadvance, by simp [hkind], hitems, hls₂.kind, hadvance₂⟩, hls'⟩

-- ════════════════════════════════════════════════════════════════════════
-- Expressions
-- ════════════════════════════════════════════════════════════════════════

variable (setting scope) in
/-- An expression is read from its tokens, in front of operators that do not bind tighter, wherever
the expected type steers literals alike. A level of the expression may take two of the reader, for
the operand and for the parentheses around it. -/
def Retrieved (expected : Option StaticType) (e : Expr) : Prop :=
  ∀ ⦃levels level minimum expected' ls c space⦄, 2 * e.deepest level ≤ levels + 2 * level →
    steering expected' = steering expected → minimum ≤ e.strength → Loose (e.strength + 1) ls →
    c.Shows (e.spelling space ++ ls) → setting.Restores levels minimum scope expected' c e ls

/-- Up to tokens that are no operators, an expression is read as a whole. -/
theorem Retrieved.reads {expected : Option StaticType} {e : Expr}
    (h : setting.Retrieved scope expected e) {levels level : Nat}
    (hlevels : 2 * e.deepest level ≤ levels + 2 * level) {c : Cursor} {space : Bool}
    {ls : List Spelling} (hls : Loose 0 ls) (hc : c.Shows (e.spelling space ++ ls)) :
    ∃ c', setting.Reads (levels + 1) 0 scope expected c e c' ∧ c'.Shows ls :=
  (h hlevels rfl (Nat.zero_le _) (hls.mono (Nat.zero_le _)) hc).reads hls

theorem retrieved_literal {expected : Option StaticType} {v : Value}
    (h : Value.ofLiteral expected v.text.toList = .ok v) :
    setting.Retrieved scope expected (.literal v) := by
  intro levels level minimum expected' ls c space _ hexpected _ _ hc
  rw [← Value.ofLiteral_congr hexpected] at h
  obtain ⟨c', hoperand, hls⟩ := readsOperand_literal hc h
  exact hoperand.restores hls

-- ════════════════════════════════════════════════════════════════════════
-- References
-- ════════════════════════════════════════════════════════════════════════

/-- The path of a reference leads to the property that its names denote. -/
theorem exists_refers {origin : Option String} {above : String} {property : Property}
    (h : Expr.Denotes setting.entity scope origin above property) {c : Cursor} {space : Bool}
    {ls : List Spelling} (hc : c.Shows (Expr.pathSpelling origin property.name space ++ ls)) :
    ∃ token c', setting.Refers scope c property above origin token c' ∧ c'.Shows ls ∧
      c.current.kind = .identifier := by
  cases h with
  | root hproperty _ =>
    obtain ⟨c', hadvance, hls, _⟩ := hc.advance
    have htext : c.current.text = property.name := hc.text
    exact ⟨_, c', .root (by rw [htext, hproperty]) hadvance, hls, hc.kind⟩
  | @below frame _ hroot hframe hproperty _ _ =>
    obtain ⟨c₁, hadvance, hls₁, _⟩ := hc.advance
    obtain ⟨c₂, hadvance₁, hls₂, _⟩ := hls₁.advance
    obtain ⟨c', hadvance₂, hls, _⟩ := hls₂.advance
    have howner : c.current.text = frame.name := hc.text
    have htext : c₂.current.text = property.name := hls₂.text
    rw [← howner] at hroot hframe
    rw [← htext] at hproperty
    have hrefers := Refers.below hroot hframe hadvance hls₁.kind hadvance₁ hls₂.kind hadvance₂
      hproperty
    exact ⟨_, c', hrefers, hls, hc.kind⟩

/-- No prefix operator stands at a path, if the path is not the name of one. -/
theorem prefixAt_path {origin : Option String} {name : String} {c : Cursor} {space : Bool}
    {ls : List Spelling} (hname : origin = none → name ≠ "not" ∨ ∃ rest, ls = .slash :: rest)
    (hc : c.Shows (Expr.pathSpelling origin name space ++ ls)) : PrefixAt c none := by
  cases origin with
  | some root => exact prefixAt_slash hc
  | none =>
    obtain hne | ⟨rest, rfl⟩ := hname rfl
    · have hkind : c.current.kind = .identifier := hc.kind
      have hnot : c.current.isWord "not" = false := by
        have htext : c.current.text = name := hc.text
        simp [Token.isWord, htext, hne]
      exact prefixAt_none (by simp [hkind]) hnot
    · exact prefixAt_slash hc

theorem retrieved_field {expected : Option StaticType} {origin : Option String} {above : String}
    {property : Property} {type : StaticType}
    (h : Expr.Denotes setting.entity scope origin above property)
    (hallowed : setting.allowed.allows (pathBelow above property.name) = true)
    (htype : property.type.scalar? = some type)
    (hname : origin = none → property.name ≠ "not") :
    setting.Retrieved scope expected (.field ⟨property.name, property.source, origin, type⟩) := by
  intro levels level minimum expected' ls c space _ _ _ _ hc
  obtain ⟨token, c', hrefers, hls, hkind⟩ := exists_refers h hc
  have hmark := prefixAt_path (fun horigin => .inl (hname horigin)) hc
  exact (ReadsOperand.field hmark hkind hrefers hallowed htype).restores hls

/-- The quantifier of a lambda is read. -/
theorem quantifier_of_shows {q : Quantifier} {c : Cursor} {space : Bool} {ls : List Spelling}
    (hc : c.Shows (.function q.keyword space :: ls)) {c' : Cursor} (hadvance : c.advance = .ok c') :
    setting.quantifier c = .ok (q, c') := by
  have hword (text : String) : c.current.isWord text = (q.keyword == text) := hc.isWord text
  rw [quantifier, Reading.current_bind]
  cases q with
  | any =>
    have hany : c.current.isWord "any" = true := hword "any"
    rw [if_pos hany]
    exact Reading.advance_bind_eq_ok.mpr ⟨c', hadvance, rfl⟩
  | all =>
    have hany : c.current.isWord "any" = false := hword "any"
    have hall : c.current.isWord "all" = true := hword "all"
    rw [hany, if_neg Bool.false_ne_true, if_pos hall]
    exact Reading.advance_bind_eq_ok.mpr ⟨c', hadvance, rfl⟩

/-- The tokens of a binder lead to its collection and behind the opening parenthesis. -/
theorem exists_refers_binder {b : Binder} {above : String} {property : Property}
    (h : Expr.Denotes setting.entity scope b.navigation.origin above property)
    (hname : b.navigation.name = property.name) {c : Cursor} {space : Bool} {ls : List Spelling}
    (hc : c.Shows (Expr.binderSpelling b space ++ ls)) :
    ∃ token c₁ c₂ c₃ c', PrefixAt c none ∧ c.current.kind = .identifier ∧
      setting.Refers scope c property above b.navigation.origin token c₁ ∧
      c₁.current.kind = .slash ∧ c₁.advance = .ok c₂ ∧
      setting.quantifier c₂ = .ok (b.quantifier, c₃) ∧ c₃.current.kind = .leftParen ∧
      c₃.advance = .ok c' ∧ c'.Shows ls := by
  rw [Expr.binderSpelling, List.append_assoc, hname] at hc
  have hmark := prefixAt_path (fun _ => .inr ⟨_, rfl⟩) hc
  obtain ⟨token, c₁, hrefers, hls₁, hkind⟩ := exists_refers h hc
  obtain ⟨c₂, hadvance₁, hls₂, _⟩ := hls₁.advance
  obtain ⟨c₃, hadvance₂, hls₃, _⟩ := hls₂.advance
  obtain ⟨c', hadvance₃, hls, _⟩ := hls₃.advance
  exact ⟨token, c₁, c₂, c₃, c', hmark, hkind, hrefers, hls₁.kind, hadvance₁,
    quantifier_of_shows hls₂ hadvance₂, hls₃.kind, hadvance₃, hls⟩

theorem retrieved_bare {expected : Option StaticType} {origin : Option String} {above : String}
    {property : Property} {target : EntityType} {link : Link}
    (h : Expr.Denotes setting.entity scope origin above property)
    (hallowed : setting.allowed.allows (pathBelow above property.name) = true)
    (htype : property.type = .collection target link) :
    setting.Retrieved scope expected
      (.bare ⟨⟨property.name, property.source, origin, target, link⟩, .any, ""⟩) := by
  intro levels level minimum expected' ls c space _ _ _ _ hc
  rw [Expr.spelling, List.append_assoc] at hc
  obtain ⟨token, c₁, c₂, c₃, c₄, hmark, hkind, hrefers, hslash, hadvance₁, hany, hopen, hadvance₃,
    hls₄⟩ := exists_refers_binder h rfl hc
  obtain ⟨c', hadvance₄, hls, _⟩ := hls₄.advance
  exact (ReadsOperand.bare hmark hkind hrefers hallowed htype hslash hadvance₁ hany hopen hadvance₃
    hls₄.kind hadvance₄).restores hls

theorem retrieved_lambda {expected : Option StaticType} {origin : Option String} {above : String}
    {property : Property} {target : EntityType} {link : Link} {quantifier : Quantifier}
    {bound : String} {body : Expr} (h : Expr.Denotes setting.entity scope origin above property)
    (hallowed : setting.allowed.allows (pathBelow above property.name) = true)
    (htype : property.type = .collection target link) (hfresh : setting.isTaken scope bound = false)
    (hbody : setting.Retrieved (⟨bound, target, pathBelow above property.name⟩ :: scope) none body)
    (hboolean : body.type.isBoolean = true) :
    setting.Retrieved scope expected
      (.lambda ⟨⟨property.name, property.source, origin, target, link⟩, quantifier, bound⟩ body) := by
  intro levels level minimum expected' ls c space hlevels _ _ _ hc
  rw [Expr.spelling, List.append_assoc, List.cons_append, List.cons_append, List.append_assoc] at hc
  obtain ⟨token, c₁, c₂, c₃, c₄, hmark, hkind, hrefers, hslash, hadvance₁, hquantifier, hopen,
    hadvance₃, hls₄⟩ := exists_refers_binder h rfl hc
  obtain ⟨c₅, hadvance₄, hls₅, _⟩ := hls₄.advance
  obtain ⟨c₆, hadvance₅, hls₆, _⟩ := hls₅.advance
  have hbound : c₄.current.text = bound := hls₄.text
  rw [Expr.deepest] at hlevels
  have hinner := body.le_deepest (level + 1)
  obtain ⟨inner, rfl⟩ : ∃ inner, levels = inner + 1 := ⟨levels - 1, by omega⟩
  have hdepth : 2 * body.deepest (level + 1) ≤ inner + 2 * (level + 1) := by omega
  obtain ⟨c₇, hreads, hls₇⟩ := hbody.reads hdepth Spelling.loose_closing hls₆
  obtain ⟨c', hadvance₇, hls, _⟩ := hls₇.advance
  rw [← hbound] at hfresh hreads
  refine ReadsOperand.restores ?_ hls
  rw [← hbound]
  exact .lambda hmark hkind hrefers hallowed htype hslash hadvance₁ hquantifier hopen hadvance₃
    hls₄.kind hadvance₄ hfresh hls₅.kind hadvance₅ hreads hboolean hls₇.kind hadvance₇

-- ════════════════════════════════════════════════════════════════════════
-- Calls
-- ════════════════════════════════════════════════════════════════════════

/-- Arguments are read from their tokens. -/
theorem exists_readsArguments {arguments : List Expr} (hne : arguments ≠ [])
    (h : ∀ e ∈ arguments, setting.Retrieved scope none e) {levels level : Nat}
    (hlevels : ∀ e ∈ arguments, 2 * e.deepest level ≤ levels + 2 * level) {limit : Nat} {c : Cursor}
    {space : Bool} {ls : List Spelling} (hlimit : c.rest.length < limit)
    (hc : c.Shows (Expr.argumentSpelling space arguments ++ .closing :: ls)) :
    ∃ c', setting.ReadsArguments (levels + 1) scope limit c arguments c' ∧
      c'.Shows (.closing :: ls) := by
  induction arguments using Expr.argumentEvents.induct generalizing c space limit with
  | case1 => exact absurd rfl hne
  | case2 e =>
    obtain ⟨c', he, hls⟩ := (h e List.mem_cons_self).reads (hlevels e List.mem_cons_self)
      Spelling.loose_closing hc
    have hlast : c'.current.kind = .rightParen := hls.kind
    cases limit with
    | zero => omega
    | succ limit => exact ⟨c', .last he (by simp [hlast]), hls⟩
  | case3 e es hes ih =>
    rw [Expr.argumentSpelling.eq_3 space e es hes, List.append_assoc, List.cons_append] at hc
    obtain ⟨c₁, he, hls₁⟩ := (h e List.mem_cons_self).reads (hlevels e List.mem_cons_self)
      Spelling.loose_comma hc
    obtain ⟨c₂, hadvance₁, hls₂, hlength⟩ := hls₁.advance
    have := he.length_rest_le
    cases limit with
    | zero => omega
    | succ limit =>
      have hbound : c₂.rest.length < limit := by omega
      obtain ⟨c', hrest, hls⟩ := ih hes (fun e' he' => h e' (List.mem_cons_of_mem _ he'))
        (fun e' he' => hlevels e' (List.mem_cons_of_mem _ he')) hbound hls₂
      exact ⟨c', .more he hls₁.kind hadvance₁ hrest, hls⟩

theorem exists_argumentSpelling_cons {arguments : List Expr} (hne : arguments ≠ []) (space : Bool) :
    ∃ s ls, Expr.argumentSpelling space arguments = s :: ls ∧ Expr.IsFirst s space := by
  induction arguments using Expr.argumentEvents.induct with
  | case1 => exact absurd rfl hne
  | case2 e => exact e.exists_spelling_cons space
  | case3 e es hes _ =>
    obtain ⟨s, ls, hs, hfirst⟩ := e.exists_spelling_cons space
    exact ⟨s, _, by rw [Expr.argumentSpelling.eq_3 space e es hes, hs, List.cons_append], hfirst⟩

theorem retrieved_call {expected : Option StaticType} {function : Function} {arguments : List Expr}
    {t : StaticType} (h : ∀ e ∈ arguments, setting.Retrieved scope none e)
    (htype : function.check (Expr.types arguments) = .ok t) :
    setting.Retrieved scope expected (.call function arguments) := by
  intro levels level minimum expected' ls c space hlevels _ _ _ hc
  rw [Expr.spelling, List.cons_append, List.cons_append, List.append_assoc] at hc
  obtain ⟨c₁, hadvance, hls₁, _⟩ := hc.advance
  obtain ⟨c₂, hadvance₁, hls₂, _⟩ := hls₁.advance
  have hkind : c.current.kind = .functionName := hc.kind
  have htext : c.current.text = function.name := hc.text
  have hfunction : Function.ofName? c.current.text = some function := by
    rw [htext]
    cases function <;> decide
  have hmark : PrefixAt c none := by
    refine prefixAt_none (by simp [hkind]) ?_
    rw [Token.isWord, htext]
    have hname : (function.name == "not") = false := by cases function <;> decide
    rw [hname, Bool.and_false]
  cases arguments with
  | nil =>
    obtain ⟨c', hadvance₂, hls, _⟩ := hls₂.advance
    exact (ReadsOperand.callNone hmark hkind hfunction hadvance hls₁.kind hadvance₁ hls₂.kind
      hadvance₂ htype).restores hls
  | cons e es =>
    have hne : e :: es ≠ [] := by simp
    rw [Expr.deepest] at hlevels
    have hfirst := e.le_deepest (level + 1)
    have hmem : e ∈ e :: es := List.mem_cons_self
    have hhead := Expr.deepest_le_deepestOf hmem (level + 1)
    obtain ⟨inner, rfl⟩ : ∃ inner, levels = inner + 1 := ⟨levels - 1, by omega⟩
    have hdepth : ∀ e' ∈ e :: es, 2 * e'.deepest (level + 1) ≤ inner + 2 * (level + 1) := by
      intro e' he'
      have := Expr.deepest_le_deepestOf he' (level + 1)
      omega
    obtain ⟨c₃, hes, hls₃⟩ := exists_readsArguments hne h hdepth (Nat.lt_succ_self _) hls₂
    obtain ⟨c', hadvance₃, hls, _⟩ := hls₃.advance
    have hsome : c₂.current.kind ≠ .rightParen := by
      obtain ⟨s, ls', hs, hfirst⟩ := exists_argumentSpelling_cons hne false
      rw [hs] at hls₂
      rw [hls₂.kind]
      exact hfirst.ne_close
    exact (ReadsOperand.callSome hmark hkind hfunction hadvance hls₁.kind hadvance₁ hsome hes
      hls₃.kind hadvance₃ htype).restores hls

end Setting

end ODataQuery
