import ODataQuery.Proofs.Reading.Rules

/-!
# Readings as derivations

The readers of expressions follow the rules: a reading that succeeds is a derivation and the
other way round, so facts about what is read are inductions over derivations.

## Main definitions

- `Setting.Follows` — a subreader that follows the rules at a number of levels

## Main statements

- `Setting.expression_follows` — the reader of expressions follows the rules
-/

namespace ODataQuery

namespace Setting

-- ════════════════════════════════════════════════════════════════════════
-- Steps that do not nest
-- ════════════════════════════════════════════════════════════════════════

section Steps

variable {setting : Setting} {c c' : Cursor}

/-- Looking for an operator does not move the cursor. -/
theorem cursor_eq_of_operator {op? : Option Operator} (h : operator c = .ok (op?, c')) :
    c' = c := by
  simp only [operator, Reading.current_bind, Reading.ite_eq_ok] at h
  obtain ⟨_, h⟩ | ⟨_, h⟩ := h
  · cases hkeyword : Operator.ofKeyword? c.current.text with
    | none =>
      simp only [hkeyword] at h
      exact (Reading.pure_eq_ok.mp h).2.symm
    | some op =>
      simp only [hkeyword, Reading.ite_eq_ok] at h
      obtain ⟨_, h⟩ | ⟨_, h⟩ := h
      · obtain ⟨_, _, hnext, h⟩ := Reading.bind_eq_ok.mp h
        obtain ⟨_, rfl⟩ := Reading.nextToken_eq_ok.mp hnext
        exact (Reading.pure_eq_ok.mp h).2.symm
      · exact (Reading.pure_eq_ok.mp h).2.symm
  · exact (Reading.pure_eq_ok.mp h).2.symm

/-- Looking for the operator `not` does not move the cursor. -/
theorem cursor_eq_of_isNot {b : Bool} (h : isNot c = .ok (b, c')) : c' = c := by
  simp only [isNot, Reading.current_bind, Reading.ite_eq_ok] at h
  obtain ⟨_, ⟨_, h⟩ | ⟨_, h⟩⟩ | ⟨_, h⟩ := h
  · exact (Reading.pure_eq_ok.mp h).2.symm
  · obtain ⟨_, _, hnext, h⟩ := Reading.bind_eq_ok.mp h
    obtain ⟨_, rfl⟩ := Reading.nextToken_eq_ok.mp hnext
    exact (Reading.pure_eq_ok.mp h).2.symm
  · exact (Reading.pure_eq_ok.mp h).2.symm

theorem settle_eq_ok {e : Expr} {other : StaticType} {offset : Nat} {r : Expr × StaticType} :
    setting.settle e other offset c = .ok (r, c') ↔ e.settled? other = some r ∧ c = c' := by
  cases e with
  | literal v => cases h : v.coerce? other <;> simp [settle, Expr.settled?, h]
  | _ => simp [settle, Expr.settled?]

theorem combine_eq_ok {op : BinaryOp} {left right e : Expr} {offset : Nat} :
    setting.combine op left right offset c = .ok (e, c') ↔
      Expr.Combines op left right e ∧ c = c' := by
  constructor
  · intro h
    obtain ⟨⟨l, lt⟩, _, hleft, h⟩ := Reading.bind_eq_ok.mp h
    obtain ⟨hl, rfl⟩ := settle_eq_ok.mp hleft
    obtain ⟨⟨r, rt⟩, _, hright, h⟩ := Reading.bind_eq_ok.mp h
    obtain ⟨hr, rfl⟩ := settle_eq_ok.mp hright
    obtain ⟨haccepts, h⟩ | ⟨_, h⟩ := Reading.ite_eq_ok.mp h
    · obtain ⟨rfl, hc⟩ := Reading.pure_eq_ok.mp h
      exact ⟨⟨l, lt, r, rt, hl, hr, haccepts, rfl⟩, hc⟩
    · exact absurd h mismatch_ne_ok
  · rintro ⟨⟨l, lt, r, rt, hl, hr, haccepts, rfl⟩, rfl⟩
    refine Reading.bind_eq_ok.mpr ⟨(l, lt), c, settle_eq_ok.mpr ⟨hl, rfl⟩, ?_⟩
    refine Reading.bind_eq_ok.mpr ⟨(r, rt), c, settle_eq_ok.mpr ⟨hr, rfl⟩, ?_⟩
    exact Reading.ite_eq_ok.mpr (.inl ⟨haccepts, by simp⟩)

theorem memberAfterSlash_eq_ok {owner t : Token} :
    setting.memberAfterSlash owner c = .ok (t, c') ↔
      ∃ c₁, c.current.kind = .slash ∧ c.advance = .ok c₁ ∧ c₁.current.kind = .identifier ∧
        c₁.current = t ∧ c₁.advance = .ok c' := by
  simp only [memberAfterSlash, Reading.current_bind, Reading.ite_eq_ok,
    Reading.advance_bind_eq_ok, expect_eq_ok, mismatch_ne_ok, and_false, or_false]
  constructor
  · rintro ⟨hslash, c₁, hc, hkind, ht, hc₁⟩
    exact ⟨c₁, hslash, hc, hkind, ht, hc₁⟩
  · rintro ⟨c₁, hslash, hc, hkind, ht, hc₁⟩
    exact ⟨hslash, c₁, hc, hkind, ht, hc₁⟩

theorem checkedCall_eq_ok {function : Function} {es : List Expr} {offset : Nat} {e : Expr} :
    setting.checkedCall function es offset c = .ok (e, c') ↔
      ∃ t, function.check (Expr.types es) = .ok t ∧ e = .call function es ∧ c = c' := by
  cases h : function.check (Expr.types es) with
  | ok t => simp [checkedCall, h, eq_comm]
  | error fault => cases fault <;> simp [checkedCall, h]

theorem literalValue_eq_ok {expected : Option StaticType} {v : Value} :
    setting.literalValue expected c = .ok (v, c') ↔
      c.current.literal? expected = .ok (some v) ∧ c = c' := by
  simp only [literalValue, Reading.current_bind, Reading.bind_eq_ok, Reading.outcome_eq_ok]
  constructor
  · rintro ⟨v?, _, ⟨hv, rfl⟩, h⟩
    cases v? with
    | none => exact absurd h unexpected_ne_ok
    | some w =>
      obtain ⟨rfl, rfl⟩ := Reading.pure_eq_ok.mp h
      exact ⟨hv, rfl⟩
  · rintro ⟨hv, rfl⟩
    exact ⟨some v, c, ⟨hv, rfl⟩, rfl⟩

theorem literal_eq_ok {expected : Option StaticType} {e : Expr} :
    setting.literal expected c = .ok (e, c') ↔
      ∃ v c₁, c.advance = .ok c₁ ∧ c.current.literal? expected = .ok (some v) ∧
        e = .literal v ∧ c' = c₁ := by
  constructor
  · intro h
    obtain ⟨v, _, hvalue, h⟩ := Reading.bind_eq_ok.mp h
    obtain ⟨hv, rfl⟩ := literalValue_eq_ok.mp hvalue
    obtain ⟨c₁, hc, h⟩ := Reading.advance_bind_eq_ok.mp h
    obtain ⟨rfl, rfl⟩ := Reading.pure_eq_ok.mp h
    exact ⟨v, c₁, hc, hv, rfl, rfl⟩
  · rintro ⟨v, c₁, hc, hv, rfl, rfl⟩
    refine Reading.bind_eq_ok.mpr ⟨v, c, literalValue_eq_ok.mpr ⟨hv, rfl⟩, ?_⟩
    exact Reading.advance_bind_eq_ok.mpr ⟨c', hc, rfl⟩

theorem item_eq_ok {type : StaticType} {v : Value} :
    setting.item type c = .ok (v, c') ↔
      c.current.literal? (some type) = .ok (some v) ∧ v.isNull = false ∧
        type.isComparableWith (v.typeAgainst (some type)) = true ∧ c.advance = .ok c' := by
  rw [item, Reading.current_bind, Reading.bind_eq_ok]
  simp only [literalValue_eq_ok, Reading.ite_eq_ok, fail_ne_ok, mismatch_ne_ok, and_false,
    false_or, or_false, Bool.not_eq_true]
  constructor
  · rintro ⟨w, _, ⟨hw, rfl⟩, hnull, htype, h⟩
    obtain ⟨c₁, hc, h⟩ := Reading.advance_bind_eq_ok.mp h
    obtain ⟨rfl, rfl⟩ := Reading.pure_eq_ok.mp h
    exact ⟨hw, hnull, htype, hc⟩
  · rintro ⟨hv, hnull, htype, hc⟩
    exact ⟨v, c, ⟨hv, rfl⟩, hnull, htype, Reading.advance_bind_eq_ok.mpr ⟨c', hc, rfl⟩⟩

theorem items_eq_ok {type : StaticType} {limit : Nat} {vs : List Value} :
    setting.items type limit c = .ok (vs, c') ↔ ReadsItems type limit c vs c' := by
  induction limit generalizing c vs with
  | zero =>
    constructor
    · intro h
      obtain ⟨rfl, rfl⟩ := Reading.pure_eq_ok.mp h
      exact .exhausted
    · rintro ⟨⟩
      rfl
  | succ limit ih =>
    rw [items, Reading.bind_eq_ok]
    simp only [item_eq_ok, Reading.current_bind, Reading.ite_eq_ok]
    constructor
    · rintro ⟨v, c₁, ⟨hv, hnull, htype, hc⟩, ⟨hcomma, h⟩ | ⟨hlast, h⟩⟩
      · obtain ⟨c₂, hc₁, h⟩ := Reading.advance_bind_eq_ok.mp h
        obtain ⟨vs', _, hvs, h⟩ := Reading.bind_eq_ok.mp h
        obtain ⟨rfl, rfl⟩ := Reading.pure_eq_ok.mp h
        exact .more hv hnull htype hc hcomma hc₁ (ih.mp hvs)
      · obtain ⟨rfl, rfl⟩ := Reading.pure_eq_ok.mp h
        exact .last hv hnull htype hc hlast
    · intro h
      cases h with
      | last hv hnull htype hc hlast =>
        exact ⟨_, _, ⟨hv, hnull, htype, hc⟩, .inr ⟨hlast, rfl⟩⟩
      | more hv hnull htype hc hcomma hc₁ h =>
        refine ⟨_, _, ⟨hv, hnull, htype, hc⟩, .inl ⟨hcomma, ?_⟩⟩
        refine Reading.advance_bind_eq_ok.mpr ⟨_, hc₁, ?_⟩
        exact Reading.bind_eq_ok.mpr ⟨_, _, ih.mpr h, rfl⟩

theorem membership_eq_ok {left e : Expr} :
    setting.membership left c = .ok (e, c') ↔
      ∃ list, ReadsList left.type c list c' ∧ e = .membership left list := by
  constructor
  · intro h
    obtain ⟨_, c₁, hopen, h⟩ := Reading.bind_eq_ok.mp h
    obtain ⟨hopen, _, hc⟩ := expect_eq_ok.mp hopen
    simp only [Reading.current_bind, Reading.remaining_bind, Reading.ite_eq_ok, fail_ne_ok,
      and_false, false_or] at h
    obtain ⟨hsome, h⟩ := h
    obtain ⟨list, c₂, hlist, h⟩ := Reading.bind_eq_ok.mp h
    obtain ⟨_, c₃, hclose, h⟩ := Reading.bind_eq_ok.mp h
    obtain ⟨hclose, _, hc₂⟩ := expect_eq_ok.mp hclose
    obtain ⟨rfl, rfl⟩ := Reading.pure_eq_ok.mp h
    exact ⟨list, ⟨c₁, c₂, hopen, hc, hsome, items_eq_ok.mp hlist, hclose, hc₂⟩, rfl⟩
  · rintro ⟨list, ⟨c₁, c₂, hopen, hc, hsome, hlist, hclose, hc₂⟩, rfl⟩
    refine Reading.bind_eq_ok.mpr ⟨_, c₁, expect_eq_ok.mpr ⟨hopen, rfl, hc⟩, ?_⟩
    simp only [Reading.current_bind, Reading.remaining_bind, Reading.ite_eq_ok, fail_ne_ok,
      and_false, false_or]
    refine ⟨hsome, Reading.bind_eq_ok.mpr ⟨list, c₂, items_eq_ok.mpr hlist, ?_⟩⟩
    exact Reading.bind_eq_ok.mpr ⟨_, c', expect_eq_ok.mpr ⟨hclose, rfl, hc₂⟩, rfl⟩

/-- A reference is resolved from what its identifiers refer to. -/
theorem reference_eq_ok {sub : Subreader} {scope : List Frame} {e : Expr} :
    setting.reference sub scope c = .ok (e, c') ↔
      ∃ property above origin token c₁, setting.Refers scope c property above origin token c₁ ∧
        setting.resolve sub scope property above origin token c₁ = .ok (e, c') := by
  constructor
  · intro h
    obtain ⟨c₁, hc, h⟩ := Reading.advance_bind_eq_ok.mp h
    cases hroot : setting.entity.find? c.current.text with
    | some property =>
      simp only [hroot] at h
      exact ⟨_, _, _, _, _, .root hroot hc, h⟩
    | none =>
      cases hframe : Frame.find? scope c.current.text with
      | some frame =>
        simp only [hroot, hframe] at h
        obtain ⟨_, c₂, hmember, h⟩ := Reading.bind_eq_ok.mp h
        obtain ⟨c₃, hslash, hc₁, hname, rfl, hc₂⟩ := memberAfterSlash_eq_ok.mp hmember
        cases hproperty : frame.entity.find? c₃.current.text with
        | some property =>
          simp only [hproperty] at h
          exact ⟨_, _, _, _, _, .below hroot hframe hc hslash hc₁ hname hc₂ hproperty, h⟩
        | none => simp [hproperty] at h
      | none =>
        simp only [hroot, hframe] at h
        obtain ⟨hit, h⟩ | ⟨_, h⟩ := Reading.ite_eq_ok.mp h
        · obtain ⟨_, c₂, hmember, h⟩ := Reading.bind_eq_ok.mp h
          obtain ⟨c₃, hslash, hc₁, hname, rfl, hc₂⟩ := memberAfterSlash_eq_ok.mp hmember
          cases hproperty : setting.entity.find? c₃.current.text with
          | some property =>
            simp only [hproperty] at h
            exact ⟨_, _, _, _, _, .it hroot hframe hit hc hslash hc₁ hname hc₂ hproperty, h⟩
          | none => simp [hproperty] at h
        · simp [Reading.ite_eq_ok] at h
  · rintro ⟨property, above, origin, token, c₁, hrefers, h⟩
    cases hrefers with
    | root hroot hc =>
      exact Reading.advance_bind_eq_ok.mpr ⟨c₁, hc, by simp only [hroot]; exact h⟩
    | below hroot hframe hc hslash hc₁ hname hc₂ hproperty =>
      refine Reading.advance_bind_eq_ok.mpr ⟨_, hc, ?_⟩
      simp only [hroot, hframe]
      refine Reading.bind_eq_ok.mpr ⟨_, c₁, memberAfterSlash_eq_ok.mpr
        ⟨_, hslash, hc₁, hname, rfl, hc₂⟩, ?_⟩
      simp only [hproperty]
      exact h
    | it hroot hframe hit hc hslash hc₁ hname hc₂ hproperty =>
      refine Reading.advance_bind_eq_ok.mpr ⟨_, hc, ?_⟩
      simp only [hroot, hframe]
      refine Reading.ite_eq_ok.mpr (.inl ⟨hit, ?_⟩)
      refine Reading.bind_eq_ok.mpr ⟨_, c₁, memberAfterSlash_eq_ok.mpr
        ⟨_, hslash, hc₁, hname, rfl, hc₂⟩, ?_⟩
      simp only [hproperty]
      exact h

end Steps

-- ════════════════════════════════════════════════════════════════════════
-- Readers and rules
-- ════════════════════════════════════════════════════════════════════════

variable (setting : Setting)

/-- A subreader follows the rules at a number of levels. -/
def Follows (levels : Nat) (sub : Subreader) : Prop :=
  ∀ {minimum scope expected c e c'}, sub minimum scope expected c = .ok (e, c') ↔
    setting.Reads levels minimum scope expected c e c'

namespace Follows

variable {setting : Setting} {levels : Nat} {sub : Subreader} {scope : List Frame}
  {c c' : Cursor} {e : Expr}

theorem arguments_eq_ok (hsub : setting.Follows levels sub) {limit : Nat} {es : List Expr} :
    arguments sub scope limit c = .ok (es, c') ↔
      setting.ReadsArguments levels scope limit c es c' := by
  induction limit generalizing c es with
  | zero =>
    constructor
    · intro h
      obtain ⟨rfl, rfl⟩ := Reading.pure_eq_ok.mp h
      exact .exhausted
    · rintro ⟨⟩
      rfl
  | succ limit ih =>
    rw [arguments, Reading.bind_eq_ok]
    simp only [Reading.current_bind, Reading.ite_eq_ok, Reading.advance_bind_eq_ok]
    constructor
    · rintro ⟨e, c₁, he, ⟨hcomma, c₂, hc₁, h⟩ | ⟨hlast, h⟩⟩
      · obtain ⟨es', _, hes, h⟩ := Reading.bind_eq_ok.mp h
        obtain ⟨rfl, rfl⟩ := Reading.pure_eq_ok.mp h
        exact .more (hsub.mp he) hcomma hc₁ (ih.mp hes)
      · obtain ⟨rfl, rfl⟩ := Reading.pure_eq_ok.mp h
        exact .last (hsub.mp he) hlast
    · intro h
      cases h with
      | last he hlast => exact ⟨_, _, hsub.mpr he, .inr ⟨hlast, rfl⟩⟩
      | more he hcomma hc₁ hes =>
        refine ⟨_, _, hsub.mpr he, .inl ⟨hcomma, _, hc₁, ?_⟩⟩
        exact Reading.bind_eq_ok.mpr ⟨_, _, ih.mpr hes, rfl⟩

theorem lambdaBody_eq_ok (hsub : setting.Follows levels sub) {navigation : Navigation}
    {path : String} {quantifier : Quantifier} :
    setting.lambdaBody sub scope navigation path quantifier c = .ok (e, c') ↔
      ∃ c₁ c₂ c₃ body c₄, c.current.kind = .identifier ∧ c.advance = .ok c₁ ∧
        setting.isTaken scope c.current.text = false ∧ c₁.current.kind = .colon ∧
        c₁.advance = .ok c₂ ∧
        setting.Reads levels 0 (⟨c.current.text, navigation.target, path⟩ :: scope) none c₂
          body c₃ ∧
        body.type.isBoolean = true ∧ c₃.current.kind = .rightParen ∧ c₃.advance = .ok c₄ ∧
        e = .lambda ⟨navigation, quantifier, c.current.text⟩ body ∧ c' = c₄ := by
  rw [lambdaBody, Reading.bind_eq_ok]
  simp only [expect_eq_ok, Reading.ite_eq_ok, fail_ne_ok, and_false, false_or,
    Bool.not_eq_true]
  constructor
  · rintro ⟨t, c₁, ⟨hkind, rfl, hc⟩, hfresh, h⟩
    obtain ⟨_, c₂, hcolon, h⟩ := Reading.bind_eq_ok.mp h
    obtain ⟨hcolon, _, hc₁⟩ := expect_eq_ok.mp hcolon
    obtain ⟨body, c₃, hbody, h⟩ := Reading.bind_eq_ok.mp h
    obtain ⟨hboolean, h⟩ | ⟨_, h⟩ := Reading.ite_eq_ok.mp h
    · obtain ⟨_, c₄, hclose, h⟩ := Reading.bind_eq_ok.mp h
      obtain ⟨hclose, _, hc₃⟩ := expect_eq_ok.mp hclose
      obtain ⟨rfl, rfl⟩ := Reading.pure_eq_ok.mp h
      exact ⟨c₁, c₂, c₃, body, c₄, hkind, hc, hfresh, hcolon, hc₁, hsub.mp hbody, hboolean,
        hclose, hc₃, rfl, rfl⟩
    · exact absurd h mismatch_ne_ok
  · rintro ⟨c₁, c₂, c₃, body, c₄, hkind, hc, hfresh, hcolon, hc₁, hbody, hboolean, hclose, hc₃,
      rfl, rfl⟩
    refine ⟨_, c₁, ⟨hkind, rfl, hc⟩, hfresh, ?_⟩
    refine Reading.bind_eq_ok.mpr ⟨_, c₂, expect_eq_ok.mpr ⟨hcolon, rfl, hc₁⟩, ?_⟩
    refine Reading.bind_eq_ok.mpr ⟨body, c₃, hsub.mpr hbody, ?_⟩
    refine Reading.ite_eq_ok.mpr (.inl ⟨hboolean, ?_⟩)
    exact Reading.bind_eq_ok.mpr ⟨_, c', expect_eq_ok.mpr ⟨hclose, rfl, hc₃⟩, rfl⟩

theorem call_eq_ok (hsub : setting.Follows levels sub) :
    setting.call sub scope c = .ok (e, c') ↔
      ∃ function c₁ c₂ es c₃ t, Function.ofName? c.current.text = some function ∧
        c.advance = .ok c₁ ∧ c₁.current.kind = .leftParen ∧ c₁.advance = .ok c₂ ∧
        (c₂.current.kind = .rightParen ∧ es = [] ∧ c₂ = c₃ ∨
          c₂.current.kind ≠ .rightParen ∧
            setting.ReadsArguments levels scope (c₂.rest.length + 1) c₂ es c₃) ∧
        c₃.current.kind = .rightParen ∧ c₃.advance = .ok c' ∧
        function.check (Expr.types es) = .ok t ∧ e = .call function es := by
  have hclosed : ∀ {function es c₃}, (do
      let _ ← setting.expect .rightParen "',' or ')'"
      setting.checkedCall function es c.current.offset) c₃ = .ok (e, c') ↔
        ∃ t, c₃.current.kind = .rightParen ∧ c₃.advance = .ok c' ∧
          function.check (Expr.types es) = .ok t ∧ e = .call function es := by
    intro function es c₃
    simp only [Reading.bind_eq_ok, expect_eq_ok, checkedCall_eq_ok]
    constructor
    · rintro ⟨_, c₄, ⟨hclose, _, hc₃⟩, t, htype, he, rfl⟩
      exact ⟨t, hclose, hc₃, htype, he⟩
    · rintro ⟨t, hclose, hc₃, htype, he⟩
      exact ⟨_, c', ⟨hclose, rfl, hc₃⟩, t, htype, he, rfl⟩
  constructor
  · intro h
    obtain ⟨c₁, hc, h⟩ := Reading.advance_bind_eq_ok.mp h
    cases hfunction : Function.ofName? c.current.text with
    | none => simp [hfunction] at h
    | some function =>
      simp only [hfunction] at h
      obtain ⟨_, c₂, hopen, h⟩ := Reading.bind_eq_ok.mp h
      obtain ⟨hopen, _, hc₁⟩ := expect_eq_ok.mp hopen
      simp only [Reading.current_bind, Reading.remaining_bind, Reading.ite_eq_ok] at h
      obtain ⟨hnone, h⟩ | ⟨hsome, h⟩ := h
      · obtain ⟨t, h⟩ := hclosed.mp h
        exact ⟨function, c₁, c₂, [], c₂, t, rfl, hc, hopen, hc₁, .inl ⟨hnone, rfl, rfl⟩, h⟩
      · obtain ⟨es, c₃, hes, h⟩ := Reading.bind_eq_ok.mp h
        obtain ⟨t, h⟩ := hclosed.mp h
        exact ⟨function, c₁, c₂, es, c₃, t, rfl, hc, hopen, hc₁,
          .inr ⟨hsome, hsub.arguments_eq_ok.mp hes⟩, h⟩
  · rintro ⟨function, c₁, c₂, es, c₃, t, hfunction, hc, hopen, hc₁, hes, h⟩
    refine Reading.advance_bind_eq_ok.mpr ⟨c₁, hc, ?_⟩
    simp only [hfunction]
    refine Reading.bind_eq_ok.mpr ⟨_, c₂, expect_eq_ok.mpr ⟨hopen, rfl, hc₁⟩, ?_⟩
    simp only [Reading.current_bind, Reading.remaining_bind, Reading.ite_eq_ok]
    obtain ⟨hnone, rfl, rfl⟩ | ⟨hsome, hes⟩ := hes
    · exact .inl ⟨hnone, hclosed.mpr ⟨t, h⟩⟩
    · refine .inr ⟨hsome, Reading.bind_eq_ok.mpr ⟨es, c₃, hsub.arguments_eq_ok.mpr hes, ?_⟩⟩
      exact hclosed.mpr ⟨t, h⟩

theorem prefixed_eq_ok (hsub : setting.Follows levels sub) {op : UnaryOp} :
    setting.prefixed sub scope op c = .ok (e, c') ↔
      ∃ c₁ operand, c.advance = .ok c₁ ∧
        setting.Reads levels Operator.membershipPrecedence scope none c₁ operand c' ∧
        acceptsOperand op operand.type = true ∧ e = .unary op operand := by
  constructor
  · intro h
    obtain ⟨c₁, hc, h⟩ := Reading.advance_bind_eq_ok.mp h
    obtain ⟨operand, c₂, he, h⟩ := Reading.bind_eq_ok.mp h
    obtain ⟨htype, h⟩ | ⟨_, h⟩ := Reading.ite_eq_ok.mp h
    · obtain ⟨rfl, rfl⟩ := Reading.pure_eq_ok.mp h
      exact ⟨c₁, operand, hc, hsub.mp he, htype, rfl⟩
    · exact absurd h mismatch_ne_ok
  · rintro ⟨c₁, operand, hc, he, htype, rfl⟩
    refine Reading.advance_bind_eq_ok.mpr ⟨c₁, hc, ?_⟩
    refine Reading.bind_eq_ok.mpr ⟨operand, c', hsub.mpr he, ?_⟩
    exact Reading.ite_eq_ok.mpr (.inl ⟨htype, rfl⟩)

theorem group_eq_ok (hsub : setting.Follows levels sub) {expected : Option StaticType} :
    setting.group sub scope expected c = .ok (e, c') ↔
      ∃ c₁ c₂, c.advance = .ok c₁ ∧ setting.Reads levels 0 scope expected c₁ e c₂ ∧
        c₂.current.kind = .rightParen ∧ c₂.advance = .ok c' := by
  constructor
  · intro h
    obtain ⟨c₁, hc, h⟩ := Reading.advance_bind_eq_ok.mp h
    obtain ⟨operand, c₂, he, h⟩ := Reading.bind_eq_ok.mp h
    obtain ⟨_, h⟩ | ⟨_, h⟩ := Reading.ite_eq_ok.mp h
    · exact absurd h fail_ne_ok
    · obtain ⟨_, c₃, hclose, h⟩ := Reading.bind_eq_ok.mp h
      obtain ⟨hclose, _, hc₂⟩ := expect_eq_ok.mp hclose
      obtain ⟨rfl, rfl⟩ := Reading.pure_eq_ok.mp h
      exact ⟨c₁, c₂, hc, hsub.mp he, hclose, hc₂⟩
  · rintro ⟨c₁, c₂, hc, he, hclose, hc₂⟩
    refine Reading.advance_bind_eq_ok.mpr ⟨c₁, hc, ?_⟩
    refine Reading.bind_eq_ok.mpr ⟨e, c₂, hsub.mpr he, ?_⟩
    refine Reading.ite_eq_ok.mpr (.inr ⟨by simp [hclose], ?_⟩)
    exact Reading.bind_eq_ok.mpr ⟨_, c', expect_eq_ok.mpr ⟨hclose, rfl, hc₂⟩, rfl⟩

theorem lambda_eq_ok (hsub : setting.Follows levels sub) {navigation : Navigation}
    {path : String} :
    setting.lambda sub scope navigation path c = .ok (e, c') ↔
      ∃ quantifier c₁ c₂, setting.quantifier c = .ok (quantifier, c₁) ∧
        c₁.current.kind = .leftParen ∧ c₁.advance = .ok c₂ ∧
        (quantifier = .any ∧ c₂.current.kind = .rightParen ∧ c₂.advance = .ok c' ∧
            e = .bare ⟨navigation, .any, ""⟩ ∨
          setting.lambdaBody sub scope navigation path quantifier c₂ = .ok (e, c')) := by
  constructor
  · intro h
    obtain ⟨quantifier, c₁, hquantifier, h⟩ := Reading.bind_eq_ok.mp h
    obtain ⟨_, c₂, hopen, h⟩ := Reading.bind_eq_ok.mp h
    obtain ⟨hopen, _, hc₁⟩ := expect_eq_ok.mp hopen
    refine ⟨quantifier, c₁, c₂, hquantifier, hopen, hc₁, ?_⟩
    simp only [Reading.current_bind, Reading.ite_eq_ok, Reading.advance_bind_eq_ok] at h
    obtain ⟨⟨rfl, hclose⟩, c₃, hc₂, h⟩ | ⟨_, h⟩ := h
    · obtain ⟨rfl, rfl⟩ := Reading.pure_eq_ok.mp h
      exact .inl ⟨rfl, hclose, hc₂, rfl⟩
    · exact .inr h
  · rintro ⟨quantifier, c₁, c₂, hquantifier, hopen, hc₁, h⟩
    refine Reading.bind_eq_ok.mpr ⟨quantifier, c₁, hquantifier, ?_⟩
    refine Reading.bind_eq_ok.mpr ⟨_, c₂, expect_eq_ok.mpr ⟨hopen, rfl, hc₁⟩, ?_⟩
    simp only [Reading.current_bind, Reading.ite_eq_ok, Reading.advance_bind_eq_ok]
    obtain ⟨rfl, hclose, hc₂, rfl⟩ | h := h
    · exact .inl ⟨⟨rfl, hclose⟩, c', hc₂, rfl⟩
    · obtain ⟨_, _, _, _, _, hbound, _⟩ := hsub.lambdaBody_eq_ok.mp h
      exact .inr ⟨by simp [hbound], h⟩

theorem resolve_eq_ok {property : Property} {above : String} {origin : Option String}
    {token : Token} :
    setting.resolve sub scope property above origin token c = .ok (e, c') ↔
      setting.allowed.allows (pathBelow above property.name) = true ∧
        ((∃ type, property.type.scalar? = some type ∧
            e = .field ⟨property.name, property.source, origin, type⟩ ∧ c = c') ∨
          ∃ target link c₁, property.type = .collection target link ∧
            c.current.kind = .slash ∧ c.advance = .ok c₁ ∧
            setting.lambda sub scope ⟨property.name, property.source, origin, target, link⟩
              (pathBelow above property.name) c₁ = .ok (e, c')) := by
  simp only [resolve, Reading.ite_eq_ok, fail_ne_ok, and_false, or_false, and_congr_right_iff]
  intro _
  cases htype : property.type with
  | primitive kind => simp [PropertyType.scalar?, eq_comm]
  | enumeration type => simp [PropertyType.scalar?, eq_comm]
  | collection target link =>
    simp only [Reading.current_bind, Reading.ite_eq_ok, mismatch_ne_ok, and_false, or_false,
      Reading.advance_bind_eq_ok, PropertyType.scalar?, reduceCtorEq, false_and, exists_false,
      false_or, PropertyType.collection.injEq]
    constructor
    · rintro ⟨hslash, c₁, hc, h⟩
      exact ⟨target, link, c₁, ⟨rfl, rfl⟩, hslash, hc, h⟩
    · rintro ⟨_, _, c₁, ⟨rfl, rfl⟩, hslash, hc, h⟩
      exact ⟨hslash, c₁, hc, h⟩

theorem operand_of_prefixAt {expected : Option StaticType} (hop : PrefixAt c none) :
    setting.operand sub scope expected c = setting.primary sub scope expected c := by
  obtain ⟨hminus, hnot⟩ := hop
  rw [operand, Reading.current_bind, if_neg hminus, Result.run_bind, hnot]
  rfl

theorem operand_of_prefixAt_some {expected : Option StaticType} {op : UnaryOp}
    (hop : PrefixAt c (some op)) :
    setting.operand sub scope expected c = setting.prefixed sub scope op c := by
  rw [operand, Reading.current_bind]
  cases op with
  | negate =>
    have hminus : c.current.kind = .minus := hop
    rw [if_pos hminus]
  | not =>
    obtain ⟨hminus, hnot⟩ := hop
    rw [if_neg hminus, Result.run_bind, hnot]
    rfl

/-- What stands in front of an operand is decided by the cursor. -/
theorem exists_prefixAt_of_operand {expected : Option StaticType}
    (h : setting.operand sub scope expected c = .ok (e, c')) : ∃ op?, PrefixAt c op? := by
  simp only [operand, Reading.current_bind, Reading.ite_eq_ok] at h
  obtain ⟨hminus, -⟩ | ⟨hminus, h⟩ := h
  · exact ⟨some .negate, hminus⟩
  · obtain ⟨b, c₁, hnot, -⟩ := Reading.bind_eq_ok.mp h
    obtain rfl := cursor_eq_of_isNot hnot
    cases b with
    | true => exact ⟨some .not, hminus, hnot⟩
    | false => exact ⟨none, hminus, hnot⟩

theorem operand_of_identifier {expected : Option StaticType} (hop : PrefixAt c none)
    (hkind : c.current.kind = .identifier) :
    setting.operand sub scope expected c = setting.reference sub scope c := by
  rw [operand_of_prefixAt hop]
  simp only [primary, Reading.current_bind, hkind]

/-- A reference that is read is a field, or a lambda with or without a body. -/
theorem readsOperand_of_reference (hsub : setting.Follows levels sub)
    {expected : Option StaticType} (hop : PrefixAt c none)
    (hkind : c.current.kind = .identifier)
    (h : setting.reference sub scope c = .ok (e, c')) :
    setting.ReadsOperand levels scope expected c e c' := by
  obtain ⟨property, above, origin, token, c₁, hrefers, h⟩ := reference_eq_ok.mp h
  obtain ⟨hallowed, ⟨type, htype, rfl, rfl⟩ | ⟨target, link, c₂, htype, hslash, hc₁, h⟩⟩ :=
    resolve_eq_ok.mp h
  · exact .field hop hkind hrefers hallowed htype
  obtain ⟨quantifier, c₃, c₄, hquantifier, hopen, hc₃, h⟩ := hsub.lambda_eq_ok.mp h
  obtain ⟨rfl, hclose, hc₄, rfl⟩ | h := h
  · exact .bare hop hkind hrefers hallowed htype hslash hc₁ hquantifier hopen hc₃ hclose hc₄
  · obtain ⟨c₅, c₆, c₇, body, c₈, hbound, hc₄, hfresh, hcolon, hc₅, hbody, hboolean, hclose,
      hc₇, rfl, rfl⟩ := hsub.lambdaBody_eq_ok.mp h
    exact .lambda hop hkind hrefers hallowed htype hslash hc₁ hquantifier hopen hc₃ hbound hc₄
      hfresh hcolon hc₅ hbody hboolean hclose hc₇

/-- An operand with nothing in front is read by the rule that its first token names. -/
theorem readsOperand_of_primary (hsub : setting.Follows levels sub)
    {expected : Option StaticType} (hop : PrefixAt c none)
    (h : setting.primary sub scope expected c = .ok (e, c')) :
    setting.ReadsOperand levels scope expected c e c' := by
  simp only [primary, Reading.current_bind] at h
  cases hkind : c.current.kind with
  | leftParen =>
    simp only [hkind] at h
    obtain ⟨c₁, c₂, hc, he, hclose, hc₂⟩ := hsub.group_eq_ok.mp h
    exact .group hop hkind hc he hclose hc₂
  | literal =>
    simp only [hkind] at h
    obtain ⟨v, c₁, hc, hv, rfl, rfl⟩ := literal_eq_ok.mp h
    exact .literal hop hkind hv hc
  | functionName =>
    simp only [hkind] at h
    obtain ⟨function, c₁, c₂, es, c₃, t, hfunction, hc, hopen, hc₁, hes, hclose, hc₃, htype,
      rfl⟩ := hsub.call_eq_ok.mp h
    obtain ⟨hnone, rfl, rfl⟩ | ⟨hsome, hes⟩ := hes
    · exact .callNone hop hkind hfunction hc hopen hc₁ hnone hc₃ htype
    · exact .callSome hop hkind hfunction hc hopen hc₁ hsome hes hclose hc₃ htype
  | identifier =>
    simp only [hkind] at h
    exact hsub.readsOperand_of_reference hop hkind h
  | _ => simp [hkind] at h

/-- Operands are read by the rules. -/
theorem operand_eq_ok (hsub : setting.Follows levels sub) {expected : Option StaticType} :
    setting.operand sub scope expected c = .ok (e, c') ↔
      setting.ReadsOperand levels scope expected c e c' := by
  constructor
  · intro h
    obtain ⟨op?, hop⟩ := exists_prefixAt_of_operand h
    cases op? with
    | none => exact hsub.readsOperand_of_primary hop (operand_of_prefixAt hop ▸ h)
    | some op =>
      rw [operand_of_prefixAt_some hop] at h
      obtain ⟨c₁, operand, hc, he, htype, rfl⟩ := hsub.prefixed_eq_ok.mp h
      exact .prefixed hop hc he htype
  · intro h
    cases h with
    | prefixed hop hc he htype =>
      rw [operand_of_prefixAt_some hop]
      exact hsub.prefixed_eq_ok.mpr ⟨_, _, hc, he, htype, rfl⟩
    | group hop hkind hc he hclose hc₂ =>
      rw [operand_of_prefixAt hop]
      simp only [primary, Reading.current_bind, hkind]
      exact hsub.group_eq_ok.mpr ⟨_, _, hc, he, hclose, hc₂⟩
    | literal hop hkind hv hc =>
      rw [operand_of_prefixAt hop]
      simp only [primary, Reading.current_bind, hkind]
      exact literal_eq_ok.mpr ⟨_, _, hc, hv, rfl, rfl⟩
    | callNone hop hkind hfunction hc hopen hc₁ hclose hc₂ htype =>
      rw [operand_of_prefixAt hop]
      simp only [primary, Reading.current_bind, hkind]
      exact hsub.call_eq_ok.mpr ⟨_, _, _, [], _, _, hfunction, hc, hopen, hc₁,
        .inl ⟨hclose, rfl, rfl⟩, hclose, hc₂, htype, rfl⟩
    | callSome hop hkind hfunction hc hopen hc₁ hsome hes hclose hc₃ htype =>
      rw [operand_of_prefixAt hop]
      simp only [primary, Reading.current_bind, hkind]
      exact hsub.call_eq_ok.mpr ⟨_, _, _, _, _, _, hfunction, hc, hopen, hc₁,
        .inr ⟨hsome, hes⟩, hclose, hc₃, htype, rfl⟩
    | field hop hkind hrefers hallowed htype =>
      rw [operand_of_identifier hop hkind]
      exact reference_eq_ok.mpr ⟨_, _, _, _, _, hrefers,
        resolve_eq_ok.mpr ⟨hallowed, .inl ⟨_, htype, rfl, rfl⟩⟩⟩
    | bare hop hkind hrefers hallowed htype hslash hc₁ hany hopen hc₃ hclose hc₄ =>
      rw [operand_of_identifier hop hkind]
      refine reference_eq_ok.mpr ⟨_, _, _, _, _, hrefers,
        resolve_eq_ok.mpr ⟨hallowed, .inr ⟨_, _, _, htype, hslash, hc₁, ?_⟩⟩⟩
      exact hsub.lambda_eq_ok.mpr ⟨_, _, _, hany, hopen, hc₃, .inl ⟨rfl, hclose, hc₄, rfl⟩⟩
    | lambda hop hkind hrefers hallowed htype hslash hc₁ hquantifier hopen hc₃ hbound hc₄ hfresh
        hcolon hc₅ hbody hboolean hclose hc₇ =>
      rw [operand_of_identifier hop hkind]
      refine reference_eq_ok.mpr ⟨_, _, _, _, _, hrefers,
        resolve_eq_ok.mpr ⟨hallowed, .inr ⟨_, _, _, htype, hslash, hc₁, ?_⟩⟩⟩
      refine hsub.lambda_eq_ok.mpr ⟨_, _, _, hquantifier, hopen, hc₃, .inr ?_⟩
      exact hsub.lambdaBody_eq_ok.mpr ⟨_, _, _, _, _, hbound, hc₄, hfresh, hcolon, hc₅, hbody,
        hboolean, hclose, hc₇, rfl, rfl⟩

/-- An operation is read by the rules. -/
theorem operation_eq_ok (hsub : setting.Follows levels sub) {op : Operator} {left : Expr} :
    setting.operation sub scope op left c = .ok (e, c') ↔
      ∃ c₁, c.advance = .ok c₁ ∧
        ((op = .membership ∧ setting.membership left c₁ = .ok (e, c')) ∨
          ∃ bop right, op = .binary bop ∧
            setting.Reads levels (bop.precedence + 1) scope
              (if bop.isComparison then some left.type else none) c₁ right c' ∧
            Expr.Combines bop left right e) := by
  rw [operation, Reading.advance_bind_eq_ok]
  refine exists_congr fun c₁ => and_congr_right fun _ => ?_
  cases op with
  | membership => simp
  | unary u => simp
  | binary bop =>
    simp only [reduceCtorEq, false_and, Operator.binary.injEq, false_or]
    constructor
    · intro h
      obtain ⟨right, c₂, hright, h⟩ := Reading.bind_eq_ok.mp h
      obtain ⟨he, rfl⟩ := combine_eq_ok.mp h
      exact ⟨bop, right, rfl, hsub.mp hright, he⟩
    · rintro ⟨_, right, rfl, hright, he⟩
      exact Reading.bind_eq_ok.mpr ⟨right, c', hsub.mpr hright, combine_eq_ok.mpr ⟨he, rfl⟩⟩

/-- Operations behind an operand are read by the rules. -/
theorem climb_eq_ok (hsub : setting.Follows levels sub) {minimum limit : Nat} {left : Expr} :
    setting.climb sub minimum scope limit left c = .ok (e, c') ↔
      setting.ReadsOperations levels minimum scope limit left c e c' := by
  induction limit generalizing c left with
  | zero =>
    constructor
    · intro h
      obtain ⟨rfl, rfl⟩ := Reading.pure_eq_ok.mp h
      exact .exhausted
    · rintro ⟨⟩
      rfl
  | succ limit ih =>
    constructor
    · intro h
      obtain ⟨op?, c₀, hop, h⟩ := Reading.bind_eq_ok.mp h
      obtain rfl : c = c₀ := (cursor_eq_of_operator hop).symm
      cases op? with
      | none =>
        obtain ⟨rfl, rfl⟩ := Reading.pure_eq_ok.mp h
        exact .stop hop (by simp)
      | some op =>
        obtain ⟨hloose, h⟩ | ⟨htight, h⟩ := Reading.ite_eq_ok.mp h
        · obtain ⟨rfl, rfl⟩ := Reading.pure_eq_ok.mp h
          exact .stop hop (by simpa using hloose)
        · obtain ⟨e', c₂, hoperation, hrest⟩ := Reading.bind_eq_ok.mp h
          have htight := Nat.not_lt.mp htight
          obtain ⟨c₁, hc, ⟨rfl, he⟩ | ⟨bop, right, rfl, hright, he⟩⟩ :=
            hsub.operation_eq_ok.mp hoperation
          · obtain ⟨list, hlist, rfl⟩ := membership_eq_ok.mp he
            exact .membership hop htight hc hlist (ih.mp hrest)
          · exact .binary hop htight hc hright he (ih.mp hrest)
    · intro h
      cases h with
      | @stop _ _ _ _ _ _ op? hop hloose =>
        refine Reading.bind_eq_ok.mpr ⟨_, _, hop, ?_⟩
        cases op? with
        | none => rfl
        | some op => exact Reading.ite_eq_ok.mpr (.inl ⟨hloose op rfl, rfl⟩)
      | binary hop htight hc hright he h =>
        refine Reading.bind_eq_ok.mpr ⟨_, _, hop, ?_⟩
        refine Reading.ite_eq_ok.mpr (.inr ⟨Nat.not_lt.mpr htight, ?_⟩)
        exact Reading.bind_eq_ok.mpr ⟨_, _, hsub.operation_eq_ok.mpr
          ⟨_, hc, .inr ⟨_, _, rfl, hright, he⟩⟩, ih.mpr h⟩
      | membership hop htight hc hlist h =>
        refine Reading.bind_eq_ok.mpr ⟨_, _, hop, ?_⟩
        refine Reading.ite_eq_ok.mpr (.inr ⟨Nat.not_lt.mpr htight, ?_⟩)
        exact Reading.bind_eq_ok.mpr ⟨_, _, hsub.operation_eq_ok.mpr
          ⟨_, hc, .inl ⟨rfl, membership_eq_ok.mpr ⟨_, hlist, rfl⟩⟩⟩, ih.mpr h⟩

end Follows

/-- The reader of expressions follows the rules. -/
theorem expression_follows (levels : Nat) :
    setting.Follows levels (setting.expression levels) := by
  induction levels with
  | zero =>
    intro minimum scope expected c e c'
    constructor
    · intro h
      simp [expression] at h
    · rintro ⟨⟩
  | succ levels ih =>
    intro minimum scope expected c e c'
    constructor
    · intro h
      obtain ⟨left, c₁, hleft, h⟩ := Reading.bind_eq_ok.mp h
      exact .intro (ih.operand_eq_ok.mp hleft) (ih.climb_eq_ok.mp h)
    · rintro ⟨hleft, h⟩
      exact Reading.bind_eq_ok.mpr
        ⟨_, _, ih.operand_eq_ok.mpr hleft, ih.climb_eq_ok.mpr h⟩

-- ════════════════════════════════════════════════════════════════════════
-- Whole texts
-- ════════════════════════════════════════════════════════════════════════

variable {setting}

theorem expectEnd_eq_ok {c c' : Cursor} :
    setting.expectEnd c = .ok ((), c') ↔ c.current.kind = .endOfText ∧ c = c' := by
  rw [expectEnd, Reading.current_bind]
  cases hkind : c.current.kind <;> simp

/-- A complete predicate is an expression up to the end of the text, of Boolean type. -/
theorem filter_eq_ok {c c' : Cursor} {e : Expr} :
    setting.filter c = .ok (e, c') ↔
      setting.Reads setting.maxDepth 0 [] none c e c' ∧ c'.current.kind = .endOfText ∧
        e.type = .boolean := by
  constructor
  · intro h
    obtain ⟨e', c₁, he, h⟩ := Reading.bind_eq_ok.mp h
    obtain ⟨_, c₂, hexpect, h⟩ := Reading.bind_eq_ok.mp h
    obtain ⟨hend, rfl⟩ := expectEnd_eq_ok.mp hexpect
    obtain ⟨htype, h⟩ | ⟨_, h⟩ := Reading.ite_eq_ok.mp h
    · obtain ⟨rfl, rfl⟩ := Reading.pure_eq_ok.mp h
      exact ⟨(setting.expression_follows _).mp he, hend, htype⟩
    · exact absurd h mismatch_ne_ok
  · rintro ⟨he, hend, htype⟩
    refine Reading.bind_eq_ok.mpr ⟨e, c', (setting.expression_follows _).mpr he, ?_⟩
    refine Reading.bind_eq_ok.mpr ⟨(), c', expectEnd_eq_ok.mpr ⟨hend, rfl⟩, ?_⟩
    exact Reading.ite_eq_ok.mpr (.inl ⟨htype, rfl⟩)

theorem computeItems_eq_ok {limit : Nat} {taken : List String} {c c' : Cursor}
    {items : List ComputeItem} :
    setting.computeItems limit taken c = .ok (items, c') ↔
      setting.ReadsCompute limit taken c items c' := by
  induction limit generalizing taken c items with
  | zero =>
    constructor
    · intro h
      obtain ⟨rfl, rfl⟩ := Reading.pure_eq_ok.mp h
      exact .exhausted
    · rintro ⟨⟩
      rfl
  | succ limit ih =>
    constructor
    · intro h
      obtain ⟨e, c₁, he, h⟩ := Reading.bind_eq_ok.mp h
      obtain ⟨name, c₂, hname, h⟩ := Reading.bind_eq_ok.mp h
      simp only [Reading.current_bind, Reading.ite_eq_ok] at h
      obtain ⟨hcomma, h⟩ | ⟨hlast, h⟩ := h
      · obtain ⟨c₃, hc₂, h⟩ := Reading.advance_bind_eq_ok.mp h
        obtain ⟨rest, _, hrest, h⟩ := Reading.bind_eq_ok.mp h
        obtain ⟨rfl, rfl⟩ := Reading.pure_eq_ok.mp h
        exact .more ((setting.expression_follows _).mp he) hname hcomma hc₂ (ih.mp hrest)
      · obtain ⟨rfl, rfl⟩ := Reading.pure_eq_ok.mp h
        exact .last ((setting.expression_follows _).mp he) hname hlast
    · intro h
      cases h with
      | last he hname hlast =>
        refine Reading.bind_eq_ok.mpr ⟨_, _, (setting.expression_follows _).mpr he, ?_⟩
        refine Reading.bind_eq_ok.mpr ⟨_, _, hname, ?_⟩
        exact Reading.ite_eq_ok.mpr (.inr ⟨hlast, rfl⟩)
      | more he hname hcomma hc₂ hitems =>
        refine Reading.bind_eq_ok.mpr ⟨_, _, (setting.expression_follows _).mpr he, ?_⟩
        refine Reading.bind_eq_ok.mpr ⟨_, _, hname, ?_⟩
        refine Reading.ite_eq_ok.mpr (.inl ⟨hcomma, ?_⟩)
        refine Reading.advance_bind_eq_ok.mpr ⟨_, hc₂, ?_⟩
        exact Reading.bind_eq_ok.mpr ⟨_, _, ih.mpr hitems, rfl⟩

/-- Complete compute items are read up to the end of the text. -/
theorem compute_eq_ok {c c' : Cursor} {items : List ComputeItem} :
    setting.compute c = .ok (items, c') ↔
      setting.ReadsCompute (c.rest.length + 1) [] c items c' ∧
        c'.current.kind = .endOfText := by
  constructor
  · intro h
    rw [compute, Reading.remaining_bind] at h
    obtain ⟨_, c₁, hitems, h⟩ := Reading.bind_eq_ok.mp h
    obtain ⟨_, c₂, hexpect, h⟩ := Reading.bind_eq_ok.mp h
    obtain ⟨hend, rfl⟩ := expectEnd_eq_ok.mp hexpect
    obtain ⟨rfl, rfl⟩ := Reading.pure_eq_ok.mp h
    exact ⟨computeItems_eq_ok.mp hitems, hend⟩
  · rintro ⟨hitems, hend⟩
    rw [compute, Reading.remaining_bind]
    refine Reading.bind_eq_ok.mpr ⟨items, c', computeItems_eq_ok.mpr hitems, ?_⟩
    exact Reading.bind_eq_ok.mpr ⟨(), c', expectEnd_eq_ok.mpr ⟨hend, rfl⟩, rfl⟩

/-- A run reads from the first token of a text that is not empty. -/
theorem run_eq_ok {α : Type} {reading : Reading α} {x : α} :
    setting.run reading = .ok x ↔
      ∃ c c', Cursor.ofText setting.text = .ok c ∧ c.current.kind ≠ .endOfText ∧
        reading c = .ok (x, c') := by
  cases hc : Cursor.ofText setting.text with
  | error err => simp [run, hc]
  | ok c =>
    by_cases hend : c.current.kind = .endOfText
    · simp [run, hc, hend]
    · cases hr : reading c with
      | error err => simp [run, hc, hend, hr, Except.map]
      | ok r => simp [run, hc, hend, hr, Except.map, Prod.ext_iff]

end Setting

/-- An accepted predicate is a boolean expression read from the first token to the last. -/
theorem Expr.readFilter_eq_ok {text : String} {entity : EntityType} {allowed : AllowList}
    {maxDepth : Nat} {e : Expr} :
    readFilter text entity allowed maxDepth = .ok e ↔
      ∃ c c', Cursor.ofText text.toList = .ok c ∧ c.current.kind ≠ .endOfText ∧
        Setting.Reads ⟨text.toList, entity, allowed, maxDepth⟩ maxDepth 0 [] none c e c' ∧
        c'.current.kind = .endOfText ∧ e.type = .boolean := by
  rw [readFilter, Setting.run_eq_ok]
  simp only [Setting.filter_eq_ok]

end ODataQuery
