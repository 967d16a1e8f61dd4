import ODataQuery.Proofs.Reading.Precedence
import ODataQuery.Proofs.Reading.Units
import ODataQuery.Proofs.Token.Respelling

/-!
# Accepted tokens do not run into each other

In an accepted text, behind each name and each literal stands white space, a punctuation mark or the
end: the readers ask for white space around the keywords of operators, and nothing else stands
between operands.

## Main definitions

- `Cursor.Parted` — from a cursor on, no token runs into the next one

## Main statements

- `Setting.Reads.parted` — the tokens of an expression do not run into each other
- `Cursor.written_of_ofText` — a text whose end is reached consists of its tokens
- `Setting.Reads.parted_of_ofText` — those of an accepted predicate do not run into each other
-/

namespace ODataQuery

namespace Cursor

open Spelling (IsApart)

/-- From the current token on, no token runs into the next one. -/
def Parted (c : Cursor) : Prop := (c.tokens.map Token.spelling).IsChain Spelling.Parted

variable {c c' : Cursor}

theorem Parted.of_advance (h : c'.Parted) (hc : c.advance = .ok c')
    (hparted : c.current.spelling.Parted c'.current.spelling) : c.Parted := by
  obtain ⟨current, rest, fault⟩ := c
  cases rest with
  | cons t ts =>
    cases hc
    exact List.isChain_cons_cons.mpr ⟨hparted, h⟩
  | nil =>
    cases fault with
    | some err => cases hc
    | none =>
      cases hc
      exact h

theorem Parted.of_apart (h : c'.Parted) (hc : c.advance = .ok c')
    (hapart : c'.current.spelling.IsApart) : c.Parted :=
  h.of_advance hc fun _ => hapart

/-- Only names and literals run into the next token. -/
theorem Parted.of_kind (h : c'.Parted) (hc : c.advance = .ok c')
    (hkind : c.current.kind ≠ .identifier ∧ c.current.kind ≠ .literal) : c.Parted :=
  h.of_advance hc fun hword => (hword.elim hkind.1 hkind.2).elim

theorem isApart_of_isMark {kind : TokenKind} (hkind : c.current.kind = kind)
    (hmark : Lexeme.isMark kind = true) : c.current.spelling.IsApart :=
  .inr (.inl ((congrArg Lexeme.isMark hkind).trans hmark))

/-- A keyword has white space around it. -/
theorem HasKeyword.isApart {op : Operator} (h : c.HasKeyword op) : c.current.spelling.IsApart :=
  .inl h.2.1

theorem Parted.of_hasKeyword {op : Operator} (h : c'.Parted) (hop : c.HasKeyword op)
    (hc : c.advance = .ok c') : c.Parted := by
  obtain ⟨_, _, _, hfunction | ⟨t, hpeek, hoff⟩⟩ := hop
  · exact h.of_kind hc (by simp [hfunction])
  · rw [peek, hc] at hpeek
    cases hpeek
    exact h.of_apart hc (hoff.imp_right .inr)

/-- So has a prefix operator that is a word, unless a parenthesis stands behind it. -/
theorem Parted.of_prefixAt {op : UnaryOp} (h : c'.Parted) (hop : Setting.PrefixAt c (some op))
    (hc : c.advance = .ok c') : c.Parted := by
  cases op with
  | negate =>
    have hminus : c.current.kind = .minus := hop
    exact h.of_kind hc (by simp [hminus])
  | not =>
    have hnot := hop.2
    simp only [Setting.isNot, Reading.current_bind, Reading.ite_eq_ok] at hnot
    obtain ⟨_, ⟨hfunction, _⟩ | ⟨_, hnot⟩⟩ | ⟨_, hnot⟩ := hnot
    · exact h.of_kind hc (by simp [hfunction])
    · obtain ⟨t, _, hnext, hspace⟩ := Reading.bind_eq_ok.mp hnot
      obtain ⟨hpeek, _⟩ := Reading.nextToken_eq_ok.mp hnext
      rw [peek, hc] at hpeek
      cases hpeek
      have hspace := (Bool.and_eq_true_iff.mp (Reading.pure_eq_ok.mp hspace).1).1
      exact h.of_apart hc (.inl hspace)
    · cases (Reading.pure_eq_ok.mp hnot).1

end Cursor

namespace Setting

open Cursor (isApart_of_isMark)

variable {setting : Setting}

theorem ReadsItems.parted {type : StaticType} {limit : Nat} {vs : List Value} {c c' : Cursor}
    (h : ReadsItems type limit c vs c') (hapart : c'.current.spelling.IsApart) (hc' : c'.Parted) :
    c.Parted := by
  induction h with
  | exhausted => exact hc'
  | last _ _ _ hc _ => exact hc'.of_apart hc hapart
  | more _ _ _ hc hcomma hc₁ _ ih =>
    have hc₂ := (ih hapart hc').of_kind hc₁ (by simp [hcomma])
    exact hc₂.of_apart hc (isApart_of_isMark hcomma rfl)

theorem ReadsList.parted {type : StaticType} {list : List Value} {c c' : Cursor}
    (h : ReadsList type c list c') (hc' : c'.Parted) : c.Parted := by
  obtain ⟨c₁, c₂, hopen, hc, _, hitems, hclose, hc₂⟩ := h
  have hc₂ := hc'.of_kind hc₂ (by simp [hclose])
  exact (hitems.parted (isApart_of_isMark hclose rfl) hc₂).of_kind hc (by simp [hopen])

theorem Refers.parted {scope : List Frame} {property : Property} {above : String}
    {origin : Option String} {token : Token} {c c' : Cursor}
    (h : setting.Refers scope c property above origin token c')
    (hapart : c'.current.spelling.IsApart) (hc' : c'.Parted) : c.Parted := by
  cases h with
  | root _ hc => exact hc'.of_apart hc hapart
  | below _ _ hc hslash hc₁ _ hc₂ _ | it _ _ _ hc hslash hc₁ _ hc₂ _ =>
    have hc₂ := (hc'.of_apart hc₂ hapart).of_kind hc₁ (by simp [hslash])
    exact hc₂.of_apart hc (isApart_of_isMark hslash rfl)

/-- A quantifier stands in front of its parenthesis. -/
theorem parted_of_quantifier {q : Quantifier} {c c' : Cursor}
    (h : setting.quantifier c = .ok (q, c')) (hopen : c'.current.kind = .leftParen)
    (hc' : c'.Parted) : c.Parted :=
  hc'.of_apart (isName_of_quantifier h).2 (isApart_of_isMark hopen rfl)

mutual

/-- The tokens of an expression do not run into each other. -/
theorem Reads.parted {levels minimum : Nat} {scope : List Frame} {expected : Option StaticType}
    {c c' : Cursor} {e : Expr} (h : setting.Reads levels minimum scope expected c e c')
    (hapart : c'.current.spelling.IsApart) (hc' : c'.Parted) : c.Parted := by
  match h with
  | .intro hleft h =>
    obtain ⟨hapart₁, hc₁⟩ := ReadsOperations.parted h hapart hc'
    exact ReadsOperand.parted hleft hapart₁ hc₁

theorem ReadsOperand.parted {levels : Nat} {scope : List Frame} {expected : Option StaticType}
    {c c' : Cursor} {e : Expr} (h : setting.ReadsOperand levels scope expected c e c')
    (hapart : c'.current.spelling.IsApart) (hc' : c'.Parted) : c.Parted := by
  match h with
  | .prefixed hop hc he _ => exact (Reads.parted he hapart hc').of_prefixAt hop hc
  | .group _ hkind hc he hclose hc₂ =>
    have hc₂ := hc'.of_kind hc₂ (by simp [hclose])
    exact (Reads.parted he (isApart_of_isMark hclose rfl) hc₂).of_kind hc (by simp [hkind])
  | .literal _ _ _ hc => exact hc'.of_apart hc hapart
  | .callNone _ hkind _ hc hopen hc₁ hclose hc₂ _ =>
    have hc₂ := hc'.of_kind hc₂ (by simp [hclose])
    exact (hc₂.of_kind hc₁ (by simp [hopen])).of_kind hc (by simp [hkind])
  | .callSome _ hkind _ hc hopen hc₁ _ hes hclose hc₃ _ =>
    have hc₃ := hc'.of_kind hc₃ (by simp [hclose])
    have hc₂ := ReadsArguments.parted hes (isApart_of_isMark hclose rfl) hc₃
    exact (hc₂.of_kind hc₁ (by simp [hopen])).of_kind hc (by simp [hkind])
  | .field _ _ hrefers _ _ => exact hrefers.parted hapart hc'
  | .bare _ _ hrefers _ _ hslash hc₁ hany hopen hc₃ hclose hc₄ =>
    have hc₃ := (hc'.of_kind hc₄ (by simp [hclose])).of_kind hc₃ (by simp [hopen])
    have hc₁ := (parted_of_quantifier hany hopen hc₃).of_kind hc₁ (by simp [hslash])
    exact hrefers.parted (isApart_of_isMark hslash rfl) hc₁
  | .lambda _ _ hrefers _ _ hslash hc₁ hquantifier hopen hc₃ hbound hc₄ _ hcolon hc₅ hbody _ hclose
      hc₇ =>
    have hc₇ := hc'.of_kind hc₇ (by simp [hclose])
    have hc₅ := (Reads.parted hbody (isApart_of_isMark hclose rfl) hc₇).of_kind hc₅ (by simp [hcolon])
    have hc₄ := hc₅.of_apart hc₄ (isApart_of_isMark hcolon rfl)
    have hc₃ := hc₄.of_kind hc₃ (by simp [hopen])
    have hc₁ := (parted_of_quantifier hquantifier hopen hc₃).of_kind hc₁ (by simp [hslash])
    exact hrefers.parted (isApart_of_isMark hslash rfl) hc₁

theorem ReadsOperations.parted {levels minimum : Nat} {scope : List Frame} {limit : Nat}
    {left : Expr} {c c' : Cursor} {e : Expr}
    (h : setting.ReadsOperations levels minimum scope limit left c e c')
    (hapart : c'.current.spelling.IsApart) (hc' : c'.Parted) :
    c.current.spelling.IsApart ∧ c.Parted := by
  match h with
  | .exhausted | .stop _ _ => exact ⟨hapart, hc'⟩
  | .binary hop _ hc hright _ h =>
    obtain ⟨hapart₂, hc₂⟩ := ReadsOperations.parted h hapart hc'
    have hop := Cursor.hasKeyword_iff.mp hop
    exact ⟨hop.isApart, (Reads.parted hright hapart₂ hc₂).of_hasKeyword hop hc⟩
  | .membership hop _ hc hlist h =>
    obtain ⟨_, hc₂⟩ := ReadsOperations.parted h hapart hc'
    have hop := Cursor.hasKeyword_iff.mp hop
    exact ⟨hop.isApart, (hlist.parted hc₂).of_hasKeyword hop hc⟩

theorem ReadsArguments.parted {levels : Nat} {scope : List Frame} {limit : Nat} {c c' : Cursor}
    {es : List Expr} (h : setting.ReadsArguments levels scope limit c es c')
    (hapart : c'.current.spelling.IsApart) (hc' : c'.Parted) : c.Parted := by
  match h with
  | .exhausted => exact hc'
  | .last he _ => exact Reads.parted he hapart hc'
  | .more he hcomma hc₁ hes =>
    have hc₁ := (ReadsArguments.parted hes hapart hc').of_kind hc₁ (by simp [hcomma])
    exact Reads.parted he (isApart_of_isMark hcomma rfl) hc₁

end

end Setting

-- ════════════════════════════════════════════════════════════════════════
-- Whole texts
-- ════════════════════════════════════════════════════════════════════════

/-- A text whose end is reached consists of its tokens. -/
theorem Cursor.written_of_ofText {text : List Char} {c c' : Cursor} (h : ofText text = .ok c)
    (hsuffix : c'.tokens <:+ c.tokens) (hend : c'.current.kind = .endOfText) :
    scanText text = (c.tokens, none) ∧ c.fault = none ∧
      Spelling.Written text (c.tokens.map Token.spelling) := by
  rcases hscan : scanText text with ⟨ts, fault⟩
  rw [ofText, hscan] at h
  cases ts with
  | cons t ts =>
    cases h
    have hmem : c'.current ∈ t :: ts := hsuffix.subset List.mem_cons_self
    obtain ⟨rfl, hwritten⟩ := Spelling.written_of_tokensFrom hscan ⟨_, hmem, hend⟩
    exact ⟨rfl, rfl, hwritten⟩
  | nil =>
    cases fault with
    | some err => cases h
    | none =>
      rw [scanText, Scan.tokensFrom] at hscan
      dsimp only at hscan
      split at hscan
      · cases hscan
      · split at hscan <;> cases hscan

/-- The tokens of an accepted predicate do not run into each other. -/
theorem Setting.Reads.parted_of_ofText {setting : Setting} {text : List Char} {c c' : Cursor}
    {levels minimum : Nat} {scope : List Frame} {expected : Option StaticType} {e : Expr}
    (hc : Cursor.ofText text = .ok c) (h : setting.Reads levels minimum scope expected c e c')
    (hend : c'.current.kind = .endOfText) : c.Parted := by
  have hsuffix := h.tokens_suffix
  obtain ⟨_, _, hwritten⟩ := Cursor.written_of_ofText hc hsuffix hend
  obtain ⟨front, hfront⟩ := hsuffix
  have hrest : c'.rest.map Token.spelling = [] := by
    rw [← hfront, List.map_append] at hwritten
    exact hwritten.eq_nil_of_kind hend
  refine h.parted (.inr (.inr hend)) ?_
  rw [Cursor.Parted, Cursor.tokens, List.map_cons, hrest]
  exact .singleton _

end ODataQuery
