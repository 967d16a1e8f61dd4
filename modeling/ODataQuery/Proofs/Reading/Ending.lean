import ODataQuery.Proofs.Reading.Chain

/-!
# Where expressions end

An expression ends in front of an operator that binds too loose for it, never because the bound on the
number of operations is used up: each operation takes a token, and the end of the text is none.

## Main definitions

- `Cursor.Ends` — the last token of a cursor is the end of the text
- `Setting.LooseAt` — no operator that binds tight stands at a cursor

## Main statements

- `Cursor.ends_of_ofText` — a text whose end can be reached ends there
- `Setting.Reads.looseAt` — behind an expression stands no operator that belongs to it
-/

namespace ODataQuery

-- ════════════════════════════════════════════════════════════════════════
-- The end of the text
-- ════════════════════════════════════════════════════════════════════════

namespace Scan

/-- The end of the text is the last token. -/
theorem suffix_tokensFrom {text : List Char} {limit offset : Nat} {cs : List Char} {t : Token}
    (h : t ∈ (tokensFrom text limit offset cs).1) (hkind : t.kind = .endOfText) :
    [t] <:+ (tokensFrom text limit offset cs).1 := by
  induction limit generalizing offset cs with
  | zero => cases h
  | succ limit ih =>
    simp only [tokensFrom] at h ⊢
    split at h
    · cases h
    · next first _ =>
      split at h
      · next hend =>
        rw [if_pos hend]
        obtain rfl := List.mem_singleton.mp h
        exact List.suffix_refl _
      · next hmore =>
        rw [if_neg hmore]
        obtain rfl | h := List.mem_cons.mp h
        · exact absurd hkind hmore
        · exact (ih h).trans (List.suffix_cons _ _)

end Scan

namespace Cursor

variable {c c' : Cursor}

/-- The last token is the end of the text. -/
def Ends (c : Cursor) : Prop := ∃ t, t.kind = .endOfText ∧ [t] <:+ c.tokens

theorem Ends.of_suffix (h : c.Ends) (hsuffix : c'.tokens <:+ c.tokens) : c'.Ends := by
  obtain ⟨t, hkind, hlast⟩ := h
  have hlength : [t].length ≤ c'.tokens.length := by simp [tokens]
  exact ⟨t, hkind, List.suffix_of_suffix_length_le hlast hsuffix hlength⟩

theorem Ends.of_advance (h : c.Ends) (hc : c.advance = .ok c') : c'.Ends :=
  h.of_suffix (tokens_suffix_of_advance hc)

/-- Behind a name there are less tokens than before it. -/
theorem Ends.length_rest_lt (h : c.Ends) (hname : c.current.isName = true)
    (hc : c.advance = .ok c') : c'.rest.length < c.rest.length := by
  obtain ⟨t, hkind, hlast⟩ := h
  obtain ⟨current, rest, fault⟩ := c
  cases rest with
  | nil =>
    cases hlast.eq_of_length rfl
    rw [Token.isName, hkind] at hname
    cases hname
  | cons next rest =>
    cases hc
    exact Nat.lt_succ_self _

/-- A cursor of a text ends if its end can be reached. -/
theorem ends_of_ofText {text : List Char} (h : ofText text = .ok c)
    (hsuffix : c'.tokens <:+ c.tokens) (hend : c'.current.kind = .endOfText) : c.Ends := by
  have hmem : c'.current ∈ c.tokens := hsuffix.subset List.mem_cons_self
  refine ⟨c'.current, hend, ?_⟩
  rcases hscan : scanText text with ⟨ts, fault⟩
  have hts : ts = (Scan.tokensFrom text (text.length + 1) 0 text).1 := (congrArg Prod.fst hscan).symm
  rw [ofText, hscan] at h
  cases ts with
  | cons t ts =>
    cases h
    rw [tokens, hts] at hmem ⊢
    exact Scan.suffix_tokensFrom hmem hend
  | nil =>
    cases fault with
    | some err => cases h
    | none =>
      cases h
      have hlast := List.mem_singleton.mp hmem
      exact hlast ▸ List.suffix_refl _

end Cursor

-- ════════════════════════════════════════════════════════════════════════
-- Operators behind an expression
-- ════════════════════════════════════════════════════════════════════════

namespace Setting

/-- An operator at a cursor binds less tight than a bound. -/
def LooseAt (bound : Nat) (c : Cursor) : Prop :=
  ∀ op, operator c = .ok (some op, c) → op.precedence < bound

/-- An operator is a name. -/
theorem isName_of_operator {c : Cursor} {op : Operator} (h : operator c = .ok (some op, c)) :
    c.current.isName = true := by
  cases hname : c.current.isName with
  | true => rfl
  | false =>
    rw [operator, Reading.current_bind, hname, Bool.false_and] at h
    cases h

variable {setting : Setting} {levels minimum limit : Nat} {scope : List Frame}
  {expected : Option StaticType} {c c' : Cursor} {left e : Expr}

/-- Operations end in front of an operator that binds too loose, since a bound above the number of
tokens is never used up. -/
theorem ReadsOperations.looseAt
    (h : setting.ReadsOperations levels minimum scope limit left c e c') (hends : c.Ends)
    (hlimit : c.rest.length < limit) : LooseAt minimum c' := by
  induction limit generalizing left c with
  | zero => omega
  | succ limit ih =>
    cases h with
    | stop hop hloose =>
      intro op hop'
      rw [hop] at hop'
      cases hop'
      exact hloose op rfl
    | binary hop htight hc hright he h =>
      have hends₁ := hends.of_advance hc
      have hlength := hends.length_rest_lt (isName_of_operator hop) hc
      have hrest := hright.length_rest_le
      exact ih h (hends₁.of_suffix hright.tokens_suffix) (by omega)
    | membership hop htight hc hlist h =>
      have hends₁ := hends.of_advance hc
      have hlength := hends.length_rest_lt (isName_of_operator hop) hc
      have hrest := hlist.length_rest_le
      exact ih h (hends₁.of_suffix hlist.tokens_suffix) (by omega)

/-- Behind an expression stands no operator that binds tight enough to belong to it. -/
theorem Reads.looseAt (h : setting.Reads levels minimum scope expected c e c') (hends : c.Ends) :
    LooseAt minimum c' := by
  cases h with
  | intro hleft h => exact h.looseAt (hends.of_suffix hleft.tokens_suffix) (Nat.lt_succ_self _)

end Setting

end ODataQuery
