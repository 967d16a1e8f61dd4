import ODataQuery.Proofs.Reading.Chain

/-!
# Units of expressions

Which parts of a text are operands can be told from its tokens alone: names and literals, what stands
in parentheses, the lists behind `in`, and the prefix operators in front. What is left between these
units are the binary operators.

## Main definitions

- `Cursor.HasKeyword` — a keyword set off by white space stands at a cursor
- `Cursor.ClosesTo` — the tokens up to the end of a parenthesis
- `Cursor.UnitTo` — a unit: an operand with its prefix operators and its lists
- `Cursor.ChainTo` — units with binary operators between them

## Main statements

- `Cursor.hasKeyword_iff` — the readers find the operators that are set off
- `Cursor.ChainTo.unique` — a text is a chain of units in at most one way
-/

namespace ODataQuery

open Setting (operator PrefixAt)

namespace Cursor

-- ════════════════════════════════════════════════════════════════════════
-- Keywords
-- ════════════════════════════════════════════════════════════════════════

/-- An operator keyword stands at the cursor, set off by white space in front of it, and white space, a
parenthesis or the end of the text behind it. -/
def HasKeyword (c : Cursor) (op : Operator) : Prop :=
  c.current.isName = true ∧ c.current.leadingSpace = true ∧
    Operator.ofKeyword? c.current.text = some op ∧
    (c.current.kind = .functionName ∨
      ∃ t, c.peek = .ok t ∧ (t.leadingSpace = true ∨ t.kind = .endOfText))

section

variable {c c₁ c₂ : Cursor} {op : Operator}

/-- The operators that the readers find are the keywords that are set off. -/
theorem hasKeyword_iff : operator c = .ok (some op, c) ↔ c.HasKeyword op := by
  constructor
  · intro h
    simp only [operator, Reading.current_bind, Reading.ite_eq_ok, Bool.and_eq_true] at h
    obtain ⟨⟨hname, hspace⟩, h⟩ | ⟨_, h⟩ := h
    · cases hkeyword : Operator.ofKeyword? c.current.text with
      | none =>
        rw [hkeyword] at h
        cases h
      | some op' =>
        simp only [hkeyword, Reading.ite_eq_ok] at h
        obtain ⟨_, h⟩ | ⟨hkind, h⟩ := h
        · obtain ⟨t, c₁, hnext, h⟩ := Reading.bind_eq_ok.mp h
          obtain ⟨hpeek, rfl⟩ := Reading.nextToken_eq_ok.mp hnext
          obtain ⟨hop, _⟩ := Reading.pure_eq_ok.mp h
          split at hop
          · next hoff =>
            cases hop
            refine ⟨hname, hspace, hkeyword, .inr ⟨t, hpeek, ?_⟩⟩
            simpa using hoff
          · cases hop
        · obtain ⟨hop, _⟩ := Reading.pure_eq_ok.mp h
          cases hop
          refine ⟨hname, hspace, hkeyword, .inl ?_⟩
          simpa [Token.isName, hkind] using hname
    · cases h
  · rintro ⟨hname, hspace, hkeyword, hoff⟩
    rw [operator, Reading.current_bind, if_pos (by rw [hname, hspace]; rfl)]
    simp only [hkeyword]
    by_cases hkind : c.current.kind = .identifier
    · obtain hfunction | ⟨t, hpeek, hoff⟩ := hoff
      · cases hkind.symm.trans hfunction
      · rw [if_pos hkind]
        refine Reading.bind_eq_ok.mpr ⟨t, c, Reading.nextToken_eq_ok.mpr ⟨hpeek, rfl⟩, ?_⟩
        have hset : (t.leadingSpace || t.kind == .endOfText) = true := by simpa using hoff
        rw [if_pos hset]
        rfl
    · rw [if_neg hkind]
      rfl

theorem HasKeyword.unique {op' : Operator} (h : c.HasKeyword op) (h' : c.HasKeyword op') :
    op = op' := by
  obtain ⟨_, _, hkeyword, _⟩ := h
  obtain ⟨_, _, hkeyword', _⟩ := h'
  exact Option.some.inj (hkeyword.symm.trans hkeyword')

/-- A cursor leads to one next cursor. -/
theorem advance_unique (h : c.advance = .ok c₁) (h' : c.advance = .ok c₂) : c₁ = c₂ :=
  Except.ok.inj (h.symm.trans h')

end

-- ════════════════════════════════════════════════════════════════════════
-- Parentheses
-- ════════════════════════════════════════════════════════════════════════

/-- From inside a parenthesis and so many more around it, the tokens up to the one that closes them all,
whatever stands between. -/
inductive ClosesTo : (depth : Nat) → Cursor → Cursor → Prop
  | last {c c'} (hkind : c.current.kind = .rightParen) (hc : c.advance = .ok c') : ClosesTo 0 c c'
  | closing {depth c c₁ c'} (hkind : c.current.kind = .rightParen) (hc : c.advance = .ok c₁)
      (h : ClosesTo depth c₁ c') : ClosesTo (depth + 1) c c'
  | opening {depth c c₁ c'} (hkind : c.current.kind = .leftParen) (hc : c.advance = .ok c₁)
      (h : ClosesTo (depth + 1) c₁ c') : ClosesTo depth c c'
  | other {depth c c₁ c'} (hleft : c.current.kind ≠ .leftParen)
      (hright : c.current.kind ≠ .rightParen) (hc : c.advance = .ok c₁)
      (h : ClosesTo depth c₁ c') : ClosesTo depth c c'

-- ════════════════════════════════════════════════════════════════════════
-- Units
-- ════════════════════════════════════════════════════════════════════════

/-- Names with slashes between them, of which the last one may have a parenthesis: a path, a call or a
lambda. -/
inductive NamesTo : Cursor → Cursor → Prop
  | name {c c'} (hname : c.current.isName = true) (hc : c.advance = .ok c') : NamesTo c c'
  | call {c c₁ c₂ c'} (hname : c.current.isName = true) (hc : c.advance = .ok c₁)
      (hopen : c₁.current.kind = .leftParen) (hc₁ : c₁.advance = .ok c₂) (h : ClosesTo 0 c₂ c') :
      NamesTo c c'
  | more {c c₁ c₂ c'} (hname : c.current.isName = true) (hc : c.advance = .ok c₁)
      (hslash : c₁.current.kind = .slash) (hc₁ : c₁.advance = .ok c₂) (h : NamesTo c₂ c') :
      NamesTo c c'

/-- An operand without prefix operators and lists. -/
inductive OperandTo : Cursor → Cursor → Prop
  | literal {c c'} (hkind : c.current.kind = .literal) (hc : c.advance = .ok c') : OperandTo c c'
  | group {c c₁ c'} (hkind : c.current.kind = .leftParen) (hc : c.advance = .ok c₁)
      (h : ClosesTo 0 c₁ c') : OperandTo c c'
  | names {c c'} (h : NamesTo c c') : OperandTo c c'

/-- Any number of lists, each behind `in`. -/
inductive ListsTo : Cursor → Cursor → Prop
  | nil {c} : ListsTo c c
  | cons {c c₁ c₂ c₃ c'} (hin : c.HasKeyword .membership) (hc : c.advance = .ok c₁)
      (hopen : c₁.current.kind = .leftParen) (hc₁ : c₁.advance = .ok c₂) (h : ClosesTo 0 c₂ c₃)
      (hrest : ListsTo c₃ c') : ListsTo c c'

/-- A unit: an operand with the lists behind it, or a prefix operator in front of a unit. -/
inductive UnitTo : Cursor → Cursor → Prop
  | operand {c c₁ c'} (hop : PrefixAt c none) (h : OperandTo c c₁) (hlists : ListsTo c₁ c') :
      UnitTo c c'
  | prefixed {c op c₁ c'} (hop : PrefixAt c (some op)) (hc : c.advance = .ok c₁)
      (h : UnitTo c₁ c') : UnitTo c c'

/-- A unit and further ones, each behind a binary operator that is set off. A unit is given by the
cursors at its start and behind its end. -/
inductive ChainTo : Cursor → Cursor × Cursor → List (BinaryOp × (Cursor × Cursor)) → Cursor → Prop
  | last {c c'} (h : UnitTo c c') : ChainTo c (c, c') [] c'
  | more {c c₁ op c₂ unit units c'} (h : UnitTo c c₁) (hop : c₁.HasKeyword (.binary op))
      (hc : c₁.advance = .ok c₂) (hrest : ChainTo c₂ unit units c') :
      ChainTo c (c, c₁) ((op, unit) :: units) c'

variable {c c' c₁ c₂ : Cursor} {op : Operator}

/-- More lists behind lists. -/
theorem ListsTo.trans (h : ListsTo c c₁) (h' : ListsTo c₁ c') : ListsTo c c' := by
  induction h with
  | nil => exact h'
  | cons hin hc hopen hc₁ hclose _ ih => exact .cons hin hc hopen hc₁ hclose (ih h')

/-- A chain behind a chain with an operator between them. -/
theorem ChainTo.append {unit unit' : Cursor × Cursor}
    {units units' : List (BinaryOp × (Cursor × Cursor))} {op : BinaryOp} (h : ChainTo c unit units c₁)
    (hop : c₁.HasKeyword (.binary op)) (hc : c₁.advance = .ok c₂)
    (h' : ChainTo c₂ unit' units' c') : ChainTo c unit (units ++ (op, unit') :: units') c' := by
  induction h with
  | last h => exact .more h hop hc h'
  | more h hop' hc' _ ih => exact .more h hop' hc' (ih hop hc)

-- ════════════════════════════════════════════════════════════════════════
-- Uniqueness
-- ════════════════════════════════════════════════════════════════════════

theorem ClosesTo.unique {depth : Nat} (h : ClosesTo depth c c₁) (h' : ClosesTo depth c c₂) :
    c₁ = c₂ := by
  induction h with
  | last hkind hc =>
    cases h' with
    | last _ hc' => exact advance_unique hc hc'
    | opening hkind' => cases hkind.symm.trans hkind'
    | other _ hright => exact absurd hkind hright
  | closing hkind hc _ ih =>
    cases h' with
    | closing _ hc' h' =>
      cases advance_unique hc hc'
      exact ih h'
    | opening hkind' => cases hkind.symm.trans hkind'
    | other _ hright => exact absurd hkind hright
  | opening hkind hc _ ih =>
    cases h' with
    | opening _ hc' h' =>
      cases advance_unique hc hc'
      exact ih h'
    | last hkind' | closing hkind' => cases hkind.symm.trans hkind'
    | other hleft => exact absurd hkind hleft
  | other hleft hright hc _ ih =>
    cases h' with
    | other _ _ hc' h' =>
      cases advance_unique hc hc'
      exact ih h'
    | last hkind | closing hkind => exact absurd hkind hright
    | opening hkind => exact absurd hkind hleft

/-- A unit ends here: at the end of the text or at a binary operator. -/
def Stops (c : Cursor) : Prop :=
  c.current.kind = .endOfText ∨ ∃ op, c.HasKeyword (.binary op)

theorem HasKeyword.kind_ne (h : c.HasKeyword op) {kind : TokenKind}
    (hkind : kind ≠ .identifier ∧ kind ≠ .functionName) : c.current.kind ≠ kind := by
  obtain ⟨hname, _⟩ := h
  rintro rfl
  simp [Token.isName, hkind.1, hkind.2] at hname

theorem Stops.kind_ne (h : c.Stops) {kind : TokenKind}
    (hkind : kind ≠ .identifier ∧ kind ≠ .functionName) (hend : kind ≠ .endOfText) :
    c.current.kind ≠ kind := by
  obtain h | ⟨op, h⟩ := h
  · rw [h]
    exact hend.symm
  · exact h.kind_ne hkind

/-- Where a unit ends, no list follows. -/
theorem Stops.not_membership (h : c.Stops) : ¬c.HasKeyword .membership := by
  intro hin
  obtain h | ⟨op, h⟩ := h
  · exact hin.kind_ne (by decide) h
  · cases hin.unique h

/-- Lists start at no parenthesis and at no slash. -/
theorem ListsTo.kind_ne (h : ListsTo c c') (hstops : c'.Stops) {kind : TokenKind}
    (hkind : kind ≠ .identifier ∧ kind ≠ .functionName) (hend : kind ≠ .endOfText) :
    c.current.kind ≠ kind := by
  cases h with
  | nil => exact hstops.kind_ne hkind hend
  | cons hin => exact hin.kind_ne hkind

theorem ListsTo.unique (h : ListsTo c c₁) (h' : ListsTo c c₂) (h₁ : c₁.Stops) (h₂ : c₂.Stops) :
    c₁ = c₂ := by
  induction h with
  | nil =>
    cases h' with
    | nil => rfl
    | cons hin => exact absurd hin h₁.not_membership
  | cons hin hc _ hc₁ hclose _ ih =>
    cases h' with
    | nil => exact absurd hin h₂.not_membership
    | cons _ hc' _ hc₁' hclose' hrest' =>
      cases advance_unique hc hc'
      cases advance_unique hc₁ hc₁'
      cases hclose.unique hclose'
      exact ih hrest' h₁

/-- Names go on at a slash, and at a parenthesis. -/
theorem NamesTo.unique (h : NamesTo c c₁) (h' : NamesTo c c₂)
    (h₁ : ∀ kind ∈ [TokenKind.slash, .leftParen], c₁.current.kind ≠ kind)
    (h₂ : ∀ kind ∈ [TokenKind.slash, .leftParen], c₂.current.kind ≠ kind) : c₁ = c₂ := by
  induction h with
  | name _ hc =>
    cases h' with
    | name _ hc' => exact advance_unique hc hc'
    | call _ hc' hopen =>
      cases advance_unique hc hc'
      exact absurd hopen (h₁ _ (by decide))
    | more _ hc' hslash =>
      cases advance_unique hc hc'
      exact absurd hslash (h₁ _ (by decide))
  | call _ hc hopen hc₁ hclose =>
    cases h' with
    | name _ hc' =>
      cases advance_unique hc hc'
      exact absurd hopen (h₂ _ (by decide))
    | call _ hc' _ hc₁' hclose' =>
      cases advance_unique hc hc'
      cases advance_unique hc₁ hc₁'
      exact hclose.unique hclose'
    | more _ hc' hslash =>
      cases advance_unique hc hc'
      cases hopen.symm.trans hslash
  | more _ hc hslash hc₁ _ ih =>
    cases h' with
    | name _ hc' =>
      cases advance_unique hc hc'
      exact absurd hslash (h₂ _ (by decide))
    | call _ hc' hopen =>
      cases advance_unique hc hc'
      cases hopen.symm.trans hslash
    | more _ hc' _ hc₁' hrest' =>
      cases advance_unique hc hc'
      cases advance_unique hc₁ hc₁'
      exact ih hrest' h₁

theorem NamesTo.isName (h : NamesTo c c') : c.current.isName = true := by
  cases h with
  | name hname | call hname | more hname => exact hname

theorem OperandTo.unique (h : OperandTo c c₁) (h' : OperandTo c c₂)
    (h₁ : ∀ kind ∈ [TokenKind.slash, .leftParen], c₁.current.kind ≠ kind)
    (h₂ : ∀ kind ∈ [TokenKind.slash, .leftParen], c₂.current.kind ≠ kind) : c₁ = c₂ := by
  have hnot {c c' : Cursor} (h : NamesTo c c') {kind : TokenKind}
      (hkind : kind ≠ .identifier ∧ kind ≠ .functionName) : c.current.kind ≠ kind := by
    have hname := h.isName
    rintro rfl
    simp [Token.isName, hkind.1, hkind.2] at hname
  cases h with
  | literal hkind hc =>
    cases h' with
    | literal _ hc' => exact advance_unique hc hc'
    | group hkind' => cases hkind.symm.trans hkind'
    | names h' => exact absurd hkind (hnot h' (by decide))
  | group hkind hc hclose =>
    cases h' with
    | literal hkind' => cases hkind.symm.trans hkind'
    | group _ hc' hclose' =>
      cases advance_unique hc hc'
      exact hclose.unique hclose'
    | names h' => exact absurd hkind (hnot h' (by decide))
  | names h =>
    cases h' with
    | literal hkind | group hkind => exact absurd hkind (hnot h (by decide))
    | names h' => exact h.unique h' h₁ h₂

/-- From a cursor leads one unit to where units end. -/
theorem UnitTo.unique (h : UnitTo c c₁) (h' : UnitTo c c₂) (h₁ : c₁.Stops) (h₂ : c₂.Stops) :
    c₁ = c₂ := by
  have hends {c c' : Cursor} (h : ListsTo c c') (hstops : c'.Stops) :
      ∀ kind ∈ [TokenKind.slash, .leftParen], c.current.kind ≠ kind := by
    simp only [List.forall_mem_cons]
    exact ⟨h.kind_ne hstops (by decide) (by decide), h.kind_ne hstops (by decide) (by decide), nofun⟩
  induction h with
  | operand hop hoperand hlists =>
    cases h' with
    | operand _ hoperand' hlists' =>
      cases hoperand.unique hoperand' (hends hlists h₁) (hends hlists' h₂)
      exact hlists.unique hlists' h₁ h₂
    | prefixed hop' => cases hop.unique hop'
  | prefixed hop hc _ ih =>
    cases h' with
    | operand hop' => cases hop.unique hop'
    | prefixed _ hc' h' =>
      cases advance_unique hc hc'
      exact ih h' h₁

/-- A text is a chain of units in at most one way. -/
theorem ChainTo.unique {unit unit' : Cursor × Cursor}
    {units units' : List (BinaryOp × (Cursor × Cursor))} (h : ChainTo c unit units c₁)
    (h' : ChainTo c unit' units' c₂) (h₁ : c₁.current.kind = .endOfText)
    (h₂ : c₂.current.kind = .endOfText) : unit = unit' ∧ units = units' := by
  have hend {c : Cursor} {op : Operator} (h : c.current.kind = .endOfText) : ¬c.HasKeyword op :=
    fun hop => hop.kind_ne (by decide) h
  induction h generalizing unit' units' with
  | last h =>
    cases h' with
    | last h' =>
      cases h.unique h' (.inl h₁) (.inl h₂)
      exact ⟨rfl, rfl⟩
    | more h' hop' =>
      cases h.unique h' (.inl h₁) (.inr ⟨_, hop'⟩)
      exact absurd hop' (hend h₁)
  | more h hop hc _ ih =>
    cases h' with
    | last h' =>
      cases h.unique h' (.inr ⟨_, hop⟩) (.inl h₂)
      exact absurd hop (hend h₂)
    | more h' hop' hc' hrest' =>
      cases h.unique h' (.inr ⟨_, hop⟩) (.inr ⟨_, hop'⟩)
      cases hop.unique hop'
      cases advance_unique hc hc'
      obtain ⟨rfl, rfl⟩ := ih hrest' h₁
      exact ⟨rfl, rfl⟩

end Cursor

end ODataQuery
