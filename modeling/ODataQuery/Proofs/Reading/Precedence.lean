import ODataQuery.Proofs.Reading.Nesting
import ODataQuery.Proofs.Reading.Units

/-!
# Precedence and association

A reader that climbs over operators never looks at more than the next one. What it makes of a chain of
units is all the same the tree that is told from all operators: its root is the last one among those
that bind least tight, and both sides of the root are made in the same way.

## Main definitions

- `Expr.Standard` — the tree of a chain by precedence, operators of the same precedence from left to right
- `Setting.ReadsUnit` — what a unit denotes: prefix operators apply to all of the unit behind them
- `Setting.Climbed` — what holds of an expression at each step of a climb

## Main statements

- `Expr.Standard.unique` — a chain has one such tree
- `Setting.ReadsOperand.readsUnit` — an operand is read from its unit
- `Setting.Climbed.binary` — one more operation keeps what holds of the climb
- `Setting.Reads.arranges` — an expression is the tree of its chain
- `Expr.standard_of_readFilter` — so is every predicate that is read from a text

## Design notes

A literal can change when it is combined: it is fitted to the type of the other operand. So it is the
settled operands that stand in the tree.
-/

namespace ODataQuery

open Setting (operator PrefixAt)

-- ════════════════════════════════════════════════════════════════════════
-- Standard trees
-- ════════════════════════════════════════════════════════════════════════

namespace Expr

/-- The tree of a unit and further ones behind operators. Its root is the last one among the operators of
least precedence; what stands before it and what stands behind it are trees of the same sort. -/
inductive Standard {α : Type} (leaf : α → Expr → Prop) : α → List (BinaryOp × α) → Expr → Prop
  | unit {u e} (h : leaf u e) : Standard leaf u [] e
  | node {u before op v after l r}
      (hbefore : ∀ p ∈ before, op.precedence ≤ p.1.precedence)
      (hafter : ∀ p ∈ after, op.precedence < p.1.precedence)
      (hl : Standard leaf u before l) (hr : Standard leaf v after r) :
      Standard leaf u (before ++ (op, v) :: after) (.binary op l r)

/-- The last one among the operators of least precedence stands at one place. -/
theorem Standard.root_unique {α : Type} {op op' : BinaryOp} {v v' : α}
    {before after before' after' : List (BinaryOp × α)}
    (h : before ++ (op, v) :: after = before' ++ (op', v') :: after')
    (hbefore : ∀ p ∈ before, op.precedence ≤ p.1.precedence)
    (hafter : ∀ p ∈ after, op.precedence < p.1.precedence)
    (hbefore' : ∀ p ∈ before', op'.precedence ≤ p.1.precedence)
    (hafter' : ∀ p ∈ after', op'.precedence < p.1.precedence) :
    before = before' ∧ op = op' ∧ v = v' ∧ after = after' := by
  -- Elsewhere, one of the two operators would stand before the other one and behind it.
  obtain ⟨between, hbetween, hrest⟩ | ⟨between, hbetween, hrest⟩ := List.append_eq_append_iff.mp h
  · cases between with
    | nil =>
      cases hrest
      exact ⟨by rw [hbetween, List.append_nil], rfl, rfl, rfl⟩
    | cons p between =>
      obtain ⟨rfl, rfl⟩ := List.cons.inj hrest
      have hle : op'.precedence ≤ op.precedence :=
        hbefore' _ (hbetween ▸ List.mem_append_right _ List.mem_cons_self)
      have hlt : op.precedence < op'.precedence :=
        hafter _ (List.mem_append_right _ List.mem_cons_self)
      omega
  · cases between with
    | nil =>
      cases hrest
      exact ⟨by rw [hbetween, List.append_nil], rfl, rfl, rfl⟩
    | cons p between =>
      obtain ⟨rfl, rfl⟩ := List.cons.inj hrest
      have hle : op.precedence ≤ op'.precedence :=
        hbefore _ (hbetween ▸ List.mem_append_right _ List.mem_cons_self)
      have hlt : op'.precedence < op.precedence :=
        hafter' _ (List.mem_append_right _ List.mem_cons_self)
      omega

/-- A chain has one such tree if its units have one leaf each. -/
theorem Standard.unique {α : Type} {leaf : α → Expr → Prop} {u : α} {us : List (BinaryOp × α)}
    {e e' : Expr} (hleaf : ∀ u e e', leaf u e → leaf u e' → e = e') (h : Standard leaf u us e)
    (h' : Standard leaf u us e') : e = e' := by
  induction h generalizing e' with
  | unit h =>
    generalize hus : [] = us at h'
    cases h' with
    | unit h' => exact hleaf _ _ _ h h'
    | node => simp at hus
  | @node u before op v after l r hbefore hafter _ _ ihl ihr =>
    generalize hus : before ++ (op, v) :: after = us at h'
    cases h' with
    | unit => simp at hus
    | node hbefore' hafter' hl' hr' =>
      obtain ⟨rfl, rfl, rfl, rfl⟩ := root_unique hus hbefore hafter hbefore' hafter'
      rw [ihl hl', ihr hr']

-- ════════════════════════════════════════════════════════════════════════
-- Settled operands
-- ════════════════════════════════════════════════════════════════════════

/-- An expression as it stands in an operation, or alone: a literal may be fitted to the type of the
other operand. -/
def Settles (e e' : Expr) : Prop := e' = e ∨ ∃ other type, e.settled? other = some (e', type)

/-- Operations stay what they are. -/
theorem Settles.eq_of_binary {op : BinaryOp} {l r e : Expr} (h : (binary op l r).Settles e) :
    e = binary op l r := by
  obtain rfl | ⟨_, _, h⟩ := h
  · rfl
  · cases h
    rfl

end Expr

-- ════════════════════════════════════════════════════════════════════════
-- Parentheses around what is read
-- ════════════════════════════════════════════════════════════════════════

namespace Cursor

/-- What closes a parenthesis behind some tokens closes it in front of them: the tokens have as many
opening as closing parentheses. -/
def Skips (c c' : Cursor) : Prop := ∀ ⦃depth c''⦄, ClosesTo depth c' c'' → ClosesTo depth c c''

variable {c c₁ c₂ c' : Cursor}

theorem Skips.refl : Skips c c := fun _ _ hclose => hclose

theorem Skips.trans (h : Skips c c₁) (h' : Skips c₁ c') : Skips c c' := fun _ _ hclose => h (h' hclose)

/-- A token that is no parenthesis. -/
theorem skips_of_kind {kind : TokenKind} (hkind : c.current.kind = kind)
    (hparen : kind ≠ .leftParen ∧ kind ≠ .rightParen) (hc : c.advance = .ok c') : Skips c c' :=
  fun _ _ hclose => .other (hkind ▸ hparen.1) (hkind ▸ hparen.2) hc hclose

theorem skips_of_isName (hname : c.current.isName = true) (hc : c.advance = .ok c') : Skips c c' := by
  rw [Token.isName, Bool.or_eq_true, beq_iff_eq, beq_iff_eq] at hname
  obtain hkind | hkind := hname
  · exact skips_of_kind hkind (by decide) hc
  · exact skips_of_kind hkind (by decide) hc

/-- Tokens in parentheses. -/
theorem Skips.group (hopen : c.current.kind = .leftParen) (hc : c.advance = .ok c₁) (h : Skips c₁ c₂)
    (hclose : c₂.current.kind = .rightParen) (hc₂ : c₂.advance = .ok c') : Skips c c' :=
  fun _ _ hrest => .opening hopen hc (h (.closing hclose hc₂ hrest))

/-- What stands in parentheses is closed behind them. -/
theorem Skips.closesTo (h : Skips c c₁) (hclose : c₁.current.kind = .rightParen)
    (hc₁ : c₁.advance = .ok c') : ClosesTo 0 c c' :=
  h (.last hclose hc₁)

end Cursor

namespace Setting

open Cursor (skips_of_kind skips_of_isName)

variable {setting : Setting} {c c' : Cursor}

theorem isName_of_kind {t : Token} (h : t.kind = .identifier ∨ t.kind = .functionName) :
    t.isName = true := by
  rw [Token.isName, Bool.or_eq_true, beq_iff_eq, beq_iff_eq]
  exact h

theorem kind_of_literal? {t : Token} {expected : Option StaticType} {v : Value}
    (h : t.literal? expected = .ok (some v)) : t.kind = .literal := (Token.literal?_eq_ok.mp h).1

/-- A quantifier is a name. -/
theorem isName_of_quantifier {q : Quantifier} (h : setting.quantifier c = .ok (q, c')) :
    c.current.isName = true ∧ c.advance = .ok c' := by
  have hname {word : String} (h : c.current.isWord word = true) : c.current.isName = true :=
    (Bool.and_eq_true_iff.mp h).1
  simp only [quantifier, Reading.current_bind, Reading.ite_eq_ok, unexpected_ne_ok, and_false,
    or_false] at h
  obtain ⟨hword, h⟩ | ⟨_, hword, h⟩ := h
  all_goals
    obtain ⟨_, hc, h⟩ := Reading.advance_bind_eq_ok.mp h
    obtain ⟨_, rfl⟩ := Reading.pure_eq_ok.mp h
    exact ⟨hname hword, hc⟩

/-- A prefix operator is no parenthesis. -/
theorem PrefixAt.skips {op : UnaryOp} (h : PrefixAt c (some op)) (hc : c.advance = .ok c') :
    c.Skips c' := by
  obtain hkind | hword := h.minus_or_not
  · exact skips_of_kind hkind (by decide) hc
  · exact skips_of_isName (Bool.and_eq_true_iff.mp hword).1 hc

theorem ReadsItems.skips {type : StaticType} {limit : Nat} {vs : List Value}
    (h : ReadsItems type limit c vs c') : c.Skips c' := by
  induction h with
  | exhausted => exact .refl
  | last hv _ _ hc _ => exact skips_of_kind (kind_of_literal? hv) (by decide) hc
  | more hv _ _ hc hcomma hc₁ _ ih =>
    exact (skips_of_kind (kind_of_literal? hv) (by decide) hc).trans
      ((skips_of_kind hcomma (by decide) hc₁).trans ih)

theorem ReadsList.skips {type : StaticType} {list : List Value} (h : ReadsList type c list c') :
    c.Skips c' := by
  obtain ⟨c₁, c₂, hopen, hc, _, hitems, hclose, hc₂⟩ := h
  exact .group hopen hc hitems.skips hclose hc₂

theorem Refers.skips {scope : List Frame} {property : Property} {above : String}
    {origin : Option String} {token : Token} (hkind : c.current.kind = .identifier)
    (h : setting.Refers scope c property above origin token c') : c.Skips c' := by
  cases h with
  | root _ hc => exact skips_of_kind hkind (by decide) hc
  | below _ _ hc hslash hc₁ hname hc₂ _ | it _ _ _ hc hslash hc₁ hname hc₂ _ =>
    exact (skips_of_kind hkind (by decide) hc).trans
      ((skips_of_kind hslash (by decide) hc₁).trans (skips_of_kind hname (by decide) hc₂))

mutual

/-- An expression has as many opening as closing parentheses. -/
theorem Reads.skips {levels minimum : Nat} {scope : List Frame} {expected : Option StaticType}
    {c c' : Cursor} {e : Expr} (h : setting.Reads levels minimum scope expected c e c') :
    c.Skips c' := by
  match h with
  | .intro hleft h => exact (ReadsOperand.skips hleft).trans (ReadsOperations.skips h)

theorem ReadsOperand.skips {levels : Nat} {scope : List Frame} {expected : Option StaticType}
    {c c' : Cursor} {e : Expr} (h : setting.ReadsOperand levels scope expected c e c') :
    c.Skips c' := by
  match h with
  | .prefixed hop hc he _ => exact (hop.skips hc).trans (Reads.skips he)
  | .group _ hkind hc he hclose hc₂ => exact .group hkind hc (Reads.skips he) hclose hc₂
  | .literal _ hkind _ hc => exact skips_of_kind hkind (by decide) hc
  | .callNone _ hkind _ hc hopen hc₁ hclose hc₂ _ =>
    exact (skips_of_kind hkind (by decide) hc).trans (.group hopen hc₁ .refl hclose hc₂)
  | .callSome _ hkind _ hc hopen hc₁ _ hes hclose hc₃ _ =>
    exact (skips_of_kind hkind (by decide) hc).trans
      (.group hopen hc₁ (ReadsArguments.skips hes) hclose hc₃)
  | .field _ hkind hrefers _ _ => exact hrefers.skips hkind
  | .bare _ hkind hrefers _ _ hslash hc₁ hany hopen hc₃ hclose hc₄ =>
    obtain ⟨hname, hc₂⟩ := isName_of_quantifier hany
    exact (hrefers.skips hkind).trans ((skips_of_kind hslash (by decide) hc₁).trans
      ((skips_of_isName hname hc₂).trans (.group hopen hc₃ .refl hclose hc₄)))
  | .lambda _ hkind hrefers _ _ hslash hc₁ hquantifier hopen hc₃ hbound hc₄ _ hcolon hc₅ hbody _
      hclose hc₇ =>
    obtain ⟨hname, hc₂⟩ := isName_of_quantifier hquantifier
    have hinside := (skips_of_kind hbound (by decide) hc₄).trans
      ((skips_of_kind hcolon (by decide) hc₅).trans (Reads.skips hbody))
    exact (hrefers.skips hkind).trans ((skips_of_kind hslash (by decide) hc₁).trans
      ((skips_of_isName hname hc₂).trans (.group hopen hc₃ hinside hclose hc₇)))

theorem ReadsOperations.skips {levels minimum limit : Nat} {scope : List Frame} {c c' : Cursor}
    {left e : Expr} (h : setting.ReadsOperations levels minimum scope limit left c e c') :
    c.Skips c' := by
  match h with
  | .exhausted => exact .refl
  | .stop _ _ => exact .refl
  | .binary hop _ hc hright _ h =>
    exact (skips_of_isName (isName_of_operator hop) hc).trans
      ((Reads.skips hright).trans (ReadsOperations.skips h))
  | .membership hop _ hc hlist h =>
    exact (skips_of_isName (isName_of_operator hop) hc).trans
      (hlist.skips.trans (ReadsOperations.skips h))

theorem ReadsArguments.skips {levels limit : Nat} {scope : List Frame} {c c' : Cursor}
    {es : List Expr} (h : setting.ReadsArguments levels scope limit c es c') : c.Skips c' := by
  match h with
  | .exhausted => exact .refl
  | .last he _ => exact Reads.skips he
  | .more he hcomma hc₁ hes =>
    exact (Reads.skips he).trans
      ((skips_of_kind hcomma (by decide) hc₁).trans (ReadsArguments.skips hes))

end

-- ════════════════════════════════════════════════════════════════════════
-- What units denote
-- ════════════════════════════════════════════════════════════════════════

section

variable (setting : Setting) (scope : List Frame)

/-- What a unit denotes. The lists belong to the operand in front of them, and a prefix operator applies
to all of the unit behind it. -/
inductive ReadsUnit : (expected : Option StaticType) → Cursor → Expr → Cursor → Prop
  | operand {expected levels c e c'} (hop : PrefixAt c none)
      (h : setting.ReadsOperand levels scope expected c e c') : ReadsUnit expected c e c'
  | list {expected c e c₁ c₂ list c'} (hop : PrefixAt c none) (h : ReadsUnit expected c e c₁)
      (hin : c₁.HasKeyword .membership) (hc : c₁.advance = .ok c₂)
      (hlist : ReadsList e.type c₂ list c') : ReadsUnit expected c (.membership e list) c'
  | prefixed {expected c op c₁ e c'} (hop : PrefixAt c (some op)) (hc : c.advance = .ok c₁)
      (h : ReadsUnit none c₁ e c') : ReadsUnit expected c (.unary op e) c'

/-- The leaf for a unit: what it denotes, as it is settled. -/
def ReadsLeaf (unit : Cursor × Cursor) (e : Expr) : Prop :=
  ∃ expected e₀, setting.ReadsUnit scope expected unit.1 e₀ unit.2 ∧ e₀.Settles e

/-- The expression is the tree of the chain between two cursors, and all operators of the chain satisfy a
condition. -/
def Arranges (condition : BinaryOp → Prop) (c : Cursor) (e : Expr) (c' : Cursor) : Prop :=
  ∃ unit units, c.ChainTo unit units c' ∧ Expr.Standard (setting.ReadsLeaf scope) unit units e ∧
    ∀ p ∈ units, condition p.1

end

variable {levels minimum limit : Nat} {scope : List Frame} {expected : Option StaticType}
  {c₀ c₁ c₂ : Cursor} {left right e : Expr}

theorem Refers.namesTo {property : Property} {above : String} {origin : Option String} {token : Token}
    (hkind : c.current.kind = .identifier)
    (h : setting.Refers scope c property above origin token c') : c.NamesTo c' := by
  have hname := isName_of_kind (.inl hkind)
  cases h with
  | root _ hc => exact .name hname hc
  | below _ _ hc hslash hc₁ hkind₂ hc₂ _ | it _ _ _ hc hslash hc₁ hkind₂ hc₂ _ =>
    exact .more hname hc hslash hc₁ (.name (isName_of_kind (.inl hkind₂)) hc₂)

/-- More names behind those of a reference. -/
theorem Refers.namesTo_more {property : Property} {above : String} {origin : Option String}
    {token : Token} (hkind : c.current.kind = .identifier)
    (h : setting.Refers scope c property above origin token c₁) (hslash : c₁.current.kind = .slash)
    (hc₁ : c₁.advance = .ok c₂) (hrest : c₂.NamesTo c') : c.NamesTo c' := by
  have hname := isName_of_kind (.inl hkind)
  cases h with
  | root _ hc => exact .more hname hc hslash hc₁ hrest
  | below _ _ hc hslash' hc₁' hkind₂ hc₂ _ | it _ _ _ hc hslash' hc₁' hkind₂ hc₂ _ =>
    exact .more hname hc hslash' hc₁'
      (.more (isName_of_kind (.inl hkind₂)) hc₂ hslash hc₁ hrest)

/-- What is read as an operand without prefix operators is one by its tokens. -/
theorem ReadsOperand.operandTo (h : setting.ReadsOperand levels scope expected c e c')
    (hop : PrefixAt c none) : c.OperandTo c' := by
  cases h with
  | prefixed hop' => cases hop.unique hop'
  | group _ hkind hc he hclose hc₂ => exact .group hkind hc (he.skips.closesTo hclose hc₂)
  | literal _ hkind _ hc => exact .literal hkind hc
  | callNone _ hkind _ hc hopen hc₁ hclose hc₂ _ =>
    exact .names (.call (isName_of_kind (.inr hkind)) hc hopen hc₁ (.last hclose hc₂))
  | callSome _ hkind _ hc hopen hc₁ _ hes hclose hc₃ _ =>
    exact .names (.call (isName_of_kind (.inr hkind)) hc hopen hc₁ (hes.skips.closesTo hclose hc₃))
  | field _ hkind hrefers _ _ => exact .names (hrefers.namesTo hkind)
  | bare _ hkind hrefers _ _ hslash hc₁ hany hopen hc₃ hclose hc₄ =>
    obtain ⟨hname, hc₂⟩ := isName_of_quantifier hany
    exact .names (hrefers.namesTo_more hkind hslash hc₁
      (.call hname hc₂ hopen hc₃ (.last hclose hc₄)))
  | lambda _ hkind hrefers _ _ hslash hc₁ hquantifier hopen hc₃ hbound hc₄ _ hcolon hc₅ hbody _ hclose
      hc₇ =>
    obtain ⟨hname, hc₂⟩ := isName_of_quantifier hquantifier
    have hinside := (skips_of_kind hbound (by decide) hc₄).trans
      ((skips_of_kind hcolon (by decide) hc₅).trans hbody.skips)
    exact .names (hrefers.namesTo_more hkind hslash hc₁
      (.call hname hc₂ hopen hc₃ (hinside.closesTo hclose hc₇)))

/-- What denotes something as a unit is one by its tokens. -/
theorem ReadsUnit.unitTo (h : setting.ReadsUnit scope expected c e c') : c.UnitTo c' := by
  induction h with
  | operand hop h => exact .operand hop (h.operandTo hop) .nil
  | list hop _ hin hc hlist ih =>
    obtain ⟨c₃, c₄, hopen, hc₃, _, hitems, hclose, hc₄⟩ := hlist
    cases ih with
    | operand _ hoperand hlists =>
      refine .operand hop hoperand (hlists.trans ?_)
      exact .cons hin hc hopen hc₃ (hitems.skips.closesTo hclose hc₄) .nil
    | prefixed hop' => cases hop.unique hop'
  | prefixed hop hc _ ih => exact .prefixed hop hc ih

/-- Operators that bind as tight as membership are lists of the unit in front of them. -/
theorem ReadsOperations.readsUnit
    (h : setting.ReadsOperations levels Operator.membershipPrecedence scope limit left c e c')
    (hunit : setting.ReadsUnit scope expected c₀ left c)
    (hnone : c.HasKeyword .membership → PrefixAt c₀ none) :
    setting.ReadsUnit scope expected c₀ e c' := by
  induction limit generalizing left c with
  | zero =>
    cases h
    exact hunit
  | succ limit ih =>
    cases h with
    | stop => exact hunit
    | @binary _ _ _ _ _ _ op _ _ _ _ _ _ _ htight =>
      exact absurd htight (Nat.not_le_of_lt op.precedence_lt_membership)
    | membership hop _ hc hlist h =>
      have hin := Cursor.hasKeyword_iff.mp hop
      exact ih h (.list (hnone hin) hunit hin hc hlist) fun _ => hnone hin

/-- An operand is read from its unit. Lists can only follow it if it has no prefix operator. -/
theorem ReadsOperand.readsUnit (h : setting.ReadsOperand levels scope expected c e c')
    (hends : c.Ends) :
    setting.ReadsUnit scope expected c e c' ∧ (c'.HasKeyword .membership → PrefixAt c none) := by
  induction levels generalizing scope expected c e c' with
  | zero =>
    cases id h with
    | prefixed _ _ he => cases he
    | group hop | literal hop | callNone hop | callSome hop | field hop | bare hop | lambda hop =>
      exact ⟨.operand hop h, fun _ => hop⟩
  | succ levels ih =>
    cases id h with
    | prefixed hop hc he =>
      have hends₁ := hends.of_advance hc
      refine ⟨.prefixed hop hc ?_, fun hin => ?_⟩
      · cases he with
        | intro hleft hoperations =>
          obtain ⟨hunit, hnone⟩ := ih hleft hends₁
          exact hoperations.readsUnit hunit hnone
      · exact absurd (he.looseAt hends₁ _ (Cursor.hasKeyword_iff.mpr hin)) (Nat.lt_irrefl _)
    | group hop | literal hop | callNone hop | callSome hop | field hop | bare hop | lambda hop =>
      exact ⟨.operand hop h, fun _ => hop⟩

-- ════════════════════════════════════════════════════════════════════════
-- Climbing
-- ════════════════════════════════════════════════════════════════════════

section

variable (setting scope expected minimum)

/-- What has been read from a cursor is the tree of a chain, however it is settled. The operators of the
chain bind at least as tight as the operator that follows; if that is membership, the chain is a unit that
takes the list. -/
structure Climbed (c₀ : Cursor) (e : Expr) (c : Cursor) : Prop where
  arranges : ∀ e', e.Settles e' → setting.Arranges scope
    (fun op => minimum ≤ op.precedence ∧
      ∀ op', c.HasKeyword (.binary op') → op'.precedence ≤ op.precedence) c₀ e' c
  unit : c.HasKeyword .membership → PrefixAt c₀ none ∧ setting.ReadsUnit scope expected c₀ e c

end

/-- A unit is a chain of its own. -/
theorem Climbed.of_readsUnit (h : setting.ReadsUnit scope expected c₀ e c)
    (hnone : c.HasKeyword .membership → PrefixAt c₀ none) :
    setting.Climbed minimum scope expected c₀ e c where
  arranges _ he' :=
    ⟨(c₀, c), [], .last h.unitTo, .unit ⟨expected, e, h, he'⟩, fun _ hp => absurd hp List.not_mem_nil⟩
  unit hin := ⟨hnone hin, h⟩

/-- One more list. -/
theorem Climbed.membership {list : List Value}
    (h : setting.Climbed minimum scope expected c₀ left c) (hin : c.HasKeyword .membership)
    (hc : c.advance = .ok c₁) (hlist : ReadsList left.type c₁ list c') :
    setting.Climbed minimum scope expected c₀ (.membership left list) c' := by
  obtain ⟨hnone, hunit⟩ := h.unit hin
  exact of_readsUnit (.list hnone hunit hin hc hlist) fun _ => hnone

/-- One more operation: the operators so far bind at least as tight as its own, and those of the right
operand tighter, so it becomes the root. -/
theorem Climbed.binary {op : BinaryOp} (h : setting.Climbed minimum scope expected c₀ left c)
    (hop : c.HasKeyword (.binary op)) (htight : minimum ≤ op.precedence) (hc : c.advance = .ok c₁)
    (hright : ∀ r, right.Settles r →
      setting.Arranges scope (op.precedence + 1 ≤ ·.precedence) c₁ r c')
    (hloose : LooseAt (op.precedence + 1) c') (he : Expr.Combines op left right e) :
    setting.Climbed minimum scope expected c₀ e c' := by
  obtain ⟨l, lt, r, rt, hl, hr, _, rfl⟩ := he
  obtain ⟨unit, units, hchain, hstandard, hunits⟩ := h.arranges l (.inr ⟨_, _, hl⟩)
  obtain ⟨unit', units', hchain', hstandard', hunits'⟩ := hright r (.inr ⟨_, _, hr⟩)
  refine ⟨fun e' he' => ⟨unit, units ++ (op, unit') :: units', ?_, ?_, fun p hp => ?_⟩, fun hin => ?_⟩
  · exact hchain.append hop hc hchain'
  · rw [he'.eq_of_binary]
    exact .node (fun p hp => (hunits p hp).2 op hop) hunits' hstandard hstandard'
  · have hp : minimum ≤ p.1.precedence ∧ op.precedence ≤ p.1.precedence := by
      rw [List.mem_append, List.mem_cons] at hp
      obtain hp | rfl | hp := hp
      · exact ⟨(hunits p hp).1, (hunits p hp).2 op hop⟩
      · exact ⟨htight, Nat.le_refl _⟩
      · have := hunits' p hp
        omega
    refine ⟨hp.1, fun op' hop' => ?_⟩
    have hnext : op'.precedence < op.precedence + 1 := hloose _ (Cursor.hasKeyword_iff.mpr hop')
    omega
  · have hnext : Operator.membershipPrecedence < op.precedence + 1 :=
      hloose _ (Cursor.hasKeyword_iff.mpr hin)
    have := op.precedence_lt_membership
    omega

/-- A climb along operations keeps what holds of it, given what holds of the right operands. -/
theorem ReadsOperations.climbed
    (hright : ∀ {minimum expected c e c'}, setting.Reads levels minimum scope expected c e c' →
      c.Ends → ∀ e', e.Settles e' → setting.Arranges scope (minimum ≤ ·.precedence) c e' c')
    (h : setting.ReadsOperations levels minimum scope limit left c e c') (hends : c.Ends)
    (hleft : setting.Climbed minimum scope expected c₀ left c) :
    setting.Climbed minimum scope expected c₀ e c' := by
  induction limit generalizing left c with
  | zero =>
    cases h
    exact hleft
  | succ limit ih =>
    cases h with
    | stop => exact hleft
    | binary hop htight hc hreads he h =>
      have hends₁ := hends.of_advance hc
      exact ih h (hends₁.of_suffix hreads.tokens_suffix)
        (hleft.binary (Cursor.hasKeyword_iff.mp hop) htight hc (hright hreads hends₁)
          (hreads.looseAt hends₁) he)
    | membership hop htight hc hlist h =>
      have hends₁ := hends.of_advance hc
      exact ih h (hends₁.of_suffix hlist.tokens_suffix)
        (hleft.membership (Cursor.hasKeyword_iff.mp hop) hc hlist)

/-- An expression is the tree of its chain, however it is settled, and all operators of the chain bind at
least as tight as they have to. -/
theorem Reads.arranges (h : setting.Reads levels minimum scope expected c e c') (hends : c.Ends) :
    ∀ e', e.Settles e' → setting.Arranges scope (minimum ≤ ·.precedence) c e' c' := by
  induction levels generalizing minimum expected c e c' with
  | zero => cases h
  | succ levels ih =>
    cases h with
    | intro hleft hoperations =>
      obtain ⟨hunit, hnone⟩ := hleft.readsUnit hends
      have hclimbed := hoperations.climbed ih (hends.of_suffix hleft.tokens_suffix)
        (Climbed.of_readsUnit hunit hnone)
      intro e' he'
      obtain ⟨unit, units, hchain, hstandard, hunits⟩ := hclimbed.arranges e' he'
      exact ⟨unit, units, hchain, hstandard, fun p hp => (hunits p hp).1⟩

end Setting

/-- A predicate that is read from a text is the tree of its units by precedence: the text is a chain of
units, in one way only, and the leaves of the tree are read from them in their order. -/
theorem Expr.standard_of_readFilter {text : String} {entity : EntityType} {allowed : AllowList}
    {maxDepth : Nat} {e : Expr} (h : readFilter text entity allowed maxDepth = .ok e) :
    ∃ c, Cursor.ofText text.toList = .ok c ∧
      (∃ unit units c', c.ChainTo unit units c' ∧ c'.current.kind = .endOfText) ∧
      ∀ unit units c', c.ChainTo unit units c' → c'.current.kind = .endOfText →
        Standard (Setting.ReadsLeaf ⟨text.toList, entity, allowed, maxDepth⟩ []) unit units e := by
  obtain ⟨c, c', hc, _, hfilter⟩ := Setting.run_eq_ok.mp h
  obtain ⟨hreads, hend, _⟩ := Setting.filter_eq_ok.mp hfilter
  have hends := Cursor.ends_of_ofText hc hreads.tokens_suffix hend
  obtain ⟨unit, units, hchain, hstandard, _⟩ := hreads.arranges hends e (.inl rfl)
  refine ⟨c, hc, ⟨unit, units, c', hchain, hend⟩, fun unit' units' c'' hchain' hend' => ?_⟩
  obtain ⟨rfl, rfl⟩ := hchain.unique hchain' hend hend'
  exact hstandard

/-- Five operators of five precedences, and a unit with two prefix operators and a list. -/
theorem Expr.standard_of_readFilter_order :
    let order : EntityType := ⟨"Order", "orders", [⟨"paid", "paid", .primitive .boolean, false⟩,
      ⟨"qty", "quantity", .primitive .int32, false⟩]⟩
    let text := "not not qty in (1, 2) or 1 add 2 mul 3 ge -qty and paid"
    ∃ e c unit units c', readFilter text order (.all order) defaultMaxDepth = .ok e ∧
      e.text = "(not (not (qty in (1, 2)))) or 1 add 2 mul 3 ge (-qty) and paid" ∧
      Cursor.ofText text.toList = .ok c ∧ c.ChainTo unit units c' ∧ c'.current.kind = .endOfText ∧
      Standard (Setting.ReadsLeaf ⟨text.toList, order, .all order, defaultMaxDepth⟩ []) unit units e := by
  intro order text
  have hrun : Result.passes
      (fun e => e.text == "(not (not (qty in (1, 2)))) or 1 add 2 mul 3 ge (-qty) and paid")
      (readFilter text order (.all order) defaultMaxDepth) = true := by decide +kernel
  obtain ⟨e, h, htext⟩ := Result.exists_of_passes hrun
  obtain ⟨c, hc, ⟨unit, units, c', hchain, hend⟩, hstandard⟩ := standard_of_readFilter h
  exact ⟨e, c, unit, units, c', h, eq_of_beq htext, hc, hchain, hend,
    hstandard unit units c' hchain hend⟩

end ODataQuery
