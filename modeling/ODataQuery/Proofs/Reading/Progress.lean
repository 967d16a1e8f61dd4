import ODataQuery.Proofs.Reading.Rules
import ODataQuery.Proofs.Token.Scan

/-!
# Readings move forward

What is behind a cursor after a reading was behind it before: no rule moves back.

## Main statements

- `Setting.Reads.tokens_suffix` — the tokens behind an expression are a suffix of those before
-/

namespace ODataQuery

variable {setting : Setting} {c c' : Cursor}

/-- Moving to the next token keeps a suffix of the tokens. -/
theorem Cursor.tokens_suffix_of_advance (h : c.advance = .ok c') : c'.tokens <:+ c.tokens := by
  obtain ⟨current, rest, fault⟩ := c
  cases rest with
  | cons t ts =>
    cases h
    exact List.suffix_cons current (t :: ts)
  | nil =>
    cases fault with
    | some err => cases h
    | none =>
      cases h
      exact List.suffix_refl _

theorem Cursor.HasText.of_suffix (h : c.HasText) (hsuffix : c'.tokens <:+ c.tokens) :
    c'.HasText :=
  fun t ht => h t (hsuffix.subset ht)

theorem Cursor.HasText.of_advance (h : c.HasText) (hc : c.advance = .ok c') : c'.HasText :=
  h.of_suffix (tokens_suffix_of_advance hc)

theorem Cursor.HasIdentifiers.of_suffix (h : c.HasIdentifiers) (hsuffix : c'.tokens <:+ c.tokens) :
    c'.HasIdentifiers :=
  fun t ht => h t (hsuffix.subset ht)

theorem Cursor.HasIdentifiers.of_advance (h : c.HasIdentifiers) (hc : c.advance = .ok c') :
    c'.HasIdentifiers :=
  h.of_suffix (tokens_suffix_of_advance hc)

/-- An identifier at a cursor is a name. -/
theorem Cursor.HasIdentifiers.current (h : c.HasIdentifiers) (hkind : c.current.kind = .identifier) :
    Lexeme.IsIdentifier c.current.text :=
  h _ List.mem_cons_self hkind

/-- The name at a cursor is not empty. -/
theorem Cursor.HasText.text_ne_empty (h : c.HasText) (hkind : c.current.kind = .identifier) :
    c.current.text ≠ "" :=
  h _ List.mem_cons_self (by simp [hkind])

namespace Setting

theorem cursor_suffix_of_quantifier {q : Quantifier}
    (h : setting.quantifier c = .ok (q, c')) : c'.tokens <:+ c.tokens := by
  simp only [quantifier, Reading.current_bind, Reading.ite_eq_ok, unexpected_ne_ok, and_false,
    or_false] at h
  obtain ⟨_, h⟩ | ⟨_, _, h⟩ := h
  · obtain ⟨_, hc, h⟩ := Reading.advance_bind_eq_ok.mp h
    obtain ⟨_, rfl⟩ := Reading.pure_eq_ok.mp h
    exact Cursor.tokens_suffix_of_advance hc
  · obtain ⟨_, hc, h⟩ := Reading.advance_bind_eq_ok.mp h
    obtain ⟨_, rfl⟩ := Reading.pure_eq_ok.mp h
    exact Cursor.tokens_suffix_of_advance hc

open Cursor (tokens_suffix_of_advance)

theorem cursor_suffix_of_resultName {taken : List String} {name : String}
    (h : setting.resultName taken c = .ok (name, c')) : c'.tokens <:+ c.tokens := by
  simp only [resultName, Reading.current_bind, Reading.ite_eq_ok, unexpected_ne_ok, and_false,
    or_false] at h
  obtain ⟨_, c₁, hc, h⟩ := h.imp_right Reading.advance_bind_eq_ok.mp
  obtain ⟨_, c₂, hname, h⟩ := Reading.bind_eq_ok.mp h
  simp only [Reading.ite_eq_ok, fail_ne_ok, and_false, false_or] at h
  obtain ⟨_, rfl⟩ := Reading.pure_eq_ok.mp h.2
  exact (tokens_suffix_of_advance (expect_eq_ok.mp hname).2.2).trans (tokens_suffix_of_advance hc)

theorem ReadsItems.tokens_suffix {type : StaticType} {limit : Nat} {vs : List Value}
    (h : ReadsItems type limit c vs c') : c'.tokens <:+ c.tokens := by
  induction h with
  | exhausted => exact List.suffix_refl _
  | last _ _ _ hc _ => exact tokens_suffix_of_advance hc
  | more _ _ _ hc _ hc₁ _ ih =>
    exact ih.trans ((tokens_suffix_of_advance hc₁).trans (tokens_suffix_of_advance hc))

theorem ReadsList.tokens_suffix {type : StaticType} {list : List Value}
    (h : ReadsList type c list c') : c'.tokens <:+ c.tokens := by
  obtain ⟨c₁, c₂, _, hc, _, hlist, _, hc₂⟩ := h
  exact (tokens_suffix_of_advance hc₂).trans
    (hlist.tokens_suffix.trans (tokens_suffix_of_advance hc))

theorem Refers.tokens_suffix {scope : List Frame} {property : Property} {above : String}
    {origin : Option String} {token : Token}
    (h : setting.Refers scope c property above origin token c') :
    c'.tokens <:+ c.tokens := by
  cases h with
  | root _ hc => exact tokens_suffix_of_advance hc
  | below _ _ hc _ hc₁ _ hc₂ _ | it _ _ _ hc _ hc₁ _ hc₂ _ =>
    exact (tokens_suffix_of_advance hc₂).trans
      ((tokens_suffix_of_advance hc₁).trans (tokens_suffix_of_advance hc))

mutual

/-- The tokens behind an expression are a suffix of those before it. -/
theorem Reads.tokens_suffix {levels minimum : Nat} {scope : List Frame}
    {expected : Option StaticType} {c c' : Cursor} {e : Expr}
    (h : setting.Reads levels minimum scope expected c e c') : c'.tokens <:+ c.tokens := by
  match h with
  | .intro hleft h =>
    exact (ReadsOperations.tokens_suffix h).trans (ReadsOperand.tokens_suffix hleft)

theorem ReadsOperand.tokens_suffix {levels : Nat} {scope : List Frame}
    {expected : Option StaticType} {c c' : Cursor} {e : Expr}
    (h : setting.ReadsOperand levels scope expected c e c') : c'.tokens <:+ c.tokens := by
  match h with
  | .prefixed _ hc he _ => exact (Reads.tokens_suffix he).trans (tokens_suffix_of_advance hc)
  | .group _ _ hc he _ hc₂ =>
    exact (tokens_suffix_of_advance hc₂).trans
      ((Reads.tokens_suffix he).trans (tokens_suffix_of_advance hc))
  | .literal _ _ _ hc => exact tokens_suffix_of_advance hc
  | .callNone _ _ _ hc _ hc₁ _ hc₂ _ =>
    exact (tokens_suffix_of_advance hc₂).trans
      ((tokens_suffix_of_advance hc₁).trans (tokens_suffix_of_advance hc))
  | .callSome _ _ _ hc _ hc₁ _ hes _ hc₃ _ =>
    exact (tokens_suffix_of_advance hc₃).trans ((ReadsArguments.tokens_suffix hes).trans
      ((tokens_suffix_of_advance hc₁).trans (tokens_suffix_of_advance hc)))
  | .field _ _ hrefers _ _ => exact hrefers.tokens_suffix
  | .bare _ _ hrefers _ _ _ hc₁ hany _ hc₃ _ hc₄ =>
    have hhead := (tokens_suffix_of_advance hc₁).trans hrefers.tokens_suffix
    exact (tokens_suffix_of_advance hc₄).trans ((tokens_suffix_of_advance hc₃).trans
      ((cursor_suffix_of_quantifier hany).trans hhead))
  | .lambda _ _ hrefers _ _ _ hc₁ hquantifier _ hc₃ _ hc₄ _ _ hc₅ hbody _ _ hc₇ =>
    have hhead := (cursor_suffix_of_quantifier hquantifier).trans
      ((tokens_suffix_of_advance hc₁).trans hrefers.tokens_suffix)
    have hbinder := (tokens_suffix_of_advance hc₅).trans
      ((tokens_suffix_of_advance hc₄).trans (tokens_suffix_of_advance hc₃))
    exact (tokens_suffix_of_advance hc₇).trans
      ((Reads.tokens_suffix hbody).trans (hbinder.trans hhead))

theorem ReadsOperations.tokens_suffix {levels minimum limit : Nat} {scope : List Frame}
    {c c' : Cursor} {left e : Expr}
    (h : setting.ReadsOperations levels minimum scope limit left c e c') :
    c'.tokens <:+ c.tokens := by
  match h with
  | .exhausted => exact List.suffix_refl _
  | .stop _ _ => exact List.suffix_refl _
  | .binary _ _ hc hright _ h =>
    have hoperand := (Reads.tokens_suffix hright).trans (tokens_suffix_of_advance hc)
    exact (ReadsOperations.tokens_suffix h).trans hoperand
  | .membership _ _ hc hlist h =>
    have hitems := hlist.tokens_suffix.trans (tokens_suffix_of_advance hc)
    exact (ReadsOperations.tokens_suffix h).trans hitems

theorem ReadsArguments.tokens_suffix {levels limit : Nat} {scope : List Frame}
    {c c' : Cursor} {es : List Expr}
    (h : setting.ReadsArguments levels scope limit c es c') : c'.tokens <:+ c.tokens := by
  match h with
  | .exhausted => exact List.suffix_refl _
  | .last he _ => exact Reads.tokens_suffix he
  | .more he _ hc₁ hes =>
    have hfirst := (tokens_suffix_of_advance hc₁).trans (Reads.tokens_suffix he)
    exact (ReadsArguments.tokens_suffix hes).trans hfirst

end

end Setting

end ODataQuery
