import ODataQuery.Proofs.Reading.Deepening
import ODataQuery.Proofs.Reading.Derivation
import ODataQuery.Proofs.Reading.Restoring

/-!
# Reading printed expressions

The text of an expression that was read denotes it again, if it is legible and no number in it is
printed like one of another kind that its place expects.

## Main definitions

- `Setting.Recovers` — an operand that was fitted to the other one is read as one that fits alike

## Main statements

- `Setting.Recovers.group` — the same in parentheses
- `Expr.Admitted.retrieved` — an expression that can be read is read from its tokens
- `Expr.readFilter_text` — a predicate is read from its text
-/

namespace ODataQuery

open StaticType (steering)
open Spelling (Loose)

-- ════════════════════════════════════════════════════════════════════════
-- Types that steer alike
-- ════════════════════════════════════════════════════════════════════════

namespace Value

theorem ofNumber?_of_not_isNumeric {kind : Kind} (h : kind.isNumeric = false) (cs : List Char) :
    ofNumber? kind cs = none := by
  cases kind <;> first | rfl | cases h

theorem isSteady_congr {expected expected' : Option StaticType}
    (h : steering expected = steering expected') {v : Value} (hv : v.IsSteady expected) :
    v.IsSteady expected' := by
  intro kind hkind hnumeric wanted hwanted
  cases hwantedNumeric : wanted.isNumeric with
  | false => exact .inr (ofNumber?_of_not_isNumeric hwantedNumeric _)
  | true =>
    have hprimitive : expected' = some (.primitive wanted) := by
      rcases expected' with _ | _ | k | T
      · cases hwanted
      · cases hwanted
      · cases hwanted
        rfl
      · cases hwanted
        cases hwantedNumeric
    rw [hprimitive, steering, if_pos hwantedNumeric] at h
    refine hv kind hkind hnumeric wanted ?_
    rcases expected with _ | _ | k | T
    · cases h
    · cases h
    · rw [steering] at h
      split at h
      · cases h
        rfl
      · cases h
    · cases h

end Value

namespace Expr

theorem isSteady_congr {expected expected' : Option StaticType}
    (h : steering expected = steering expected') {e : Expr} (he : e.IsSteady expected) :
    e.IsSteady expected' := by
  induction e with
  | literal v => exact List.forall_mem_singleton.mpr (Value.isSteady_congr h (he _ List.mem_cons_self))
  | binary op left right ihl _ =>
    obtain ⟨hl, hr⟩ := List.forall_mem_append.mp he
    exact List.forall_mem_append.mpr ⟨ihl hl, hr⟩
  | membership operand list ih =>
    obtain ⟨hoperand, hlist⟩ := List.forall_mem_append.mp he
    exact List.forall_mem_append.mpr ⟨ih hoperand, hlist⟩
  | field | unary | call | lambda | bare => exact he

/-- An operand stays what it is where the other one has no enumeration type. -/
theorem settled?_of_ne_enumeration {other : StaticType} (h : ∀ T, other ≠ .enumeration T) (e : Expr) :
    e.settled? other = some (e, e.type) := by
  cases e with
  | literal v =>
    have hcoerce : v.coerce? other = some v := by
      cases other with
      | enumeration T => exact absurd rfl (h T)
      | null | primitive => rfl
    have htype : v.typeAgainst (some other) = .ofValue v := by
      cases other with
      | enumeration T => exact absurd rfl (h T)
      | null | primitive => cases v <;> rfl
    rw [settled?, hcoerce, Option.map_some, htype, type]
  | _ => rfl

theorem ofValue_ne_enumeration (v : Value) (T : EnumType) : StaticType.ofValue v ≠ .enumeration T := by
  unfold StaticType.ofValue
  split <;> simp

/-- Fitting an operand to a type does not change how its type steers the reading of the other one. -/
theorem steering_type_of_settled? {e e' : Expr} {other t : StaticType}
    (h : e.settled? other = some (e', t)) : steering (some e'.type) = steering (some e.type) := by
  obtain ⟨v, w, rfl, hw, rfl, _⟩ | ⟨_, rfl, _⟩ := settled?_cases h
  · unfold Value.coerce? at hw
    split at hw
    · obtain ⟨names, _, hvalue⟩ := Option.bind_eq_some_iff.mp hw
      obtain ⟨_, rfl⟩ := EnumType.exists_of_value? hvalue
      rfl
    · split at hw
      · obtain ⟨_, rfl⟩ := EnumType.exists_of_value? hw
        rfl
      · cases hw
        rfl
    · cases hw
      rfl
  · rfl

end Expr

-- ════════════════════════════════════════════════════════════════════════
-- Operands of operators
-- ════════════════════════════════════════════════════════════════════════

namespace Setting

variable {setting : Setting} {scope : List Frame} {expected : Option StaticType} {e₀ e : Expr}
  {other t : StaticType}

variable (setting scope) in
/-- An operand that was fitted to a type is read from its tokens as an operand that fits to it alike,
and whose type steers the reading of the other operand alike. -/
def Recovers (expected : Option StaticType) (e₀ e : Expr) (other t : StaticType) : Prop :=
  ∀ ⦃levels level minimum expected' ls c space⦄, 2 * e.deepest level ≤ levels + 2 * level →
    steering expected' = steering expected → minimum ≤ e.strength → Loose (e.strength + 1) ls →
    c.Shows (e.spelling space ++ ls) →
    ∃ e₁, setting.Restores levels minimum scope expected' c e₁ ls ∧
      e₁.settled? other = some (e, t) ∧ steering (some e₁.type) = steering (some e₀.type)

theorem Retrieved.recovers (h : setting.Retrieved scope expected e)
    (hsettled : e.settled? other = some (e, t)) : setting.Recovers scope expected e e other t := by
  intro levels level minimum expected' ls c space hlevels hexpected hminimum hls hc
  exact ⟨e, h hlevels hexpected hminimum hls hc, hsettled, rfl⟩

/-- A fitted operand is recovered if the operand itself is retrieved. -/
theorem recovers_of_settled?
    (h : Expr.Admitted setting.entity setting.allowed scope expected e₀)
    (hsettled : e₀.settled? other = some (e, t)) (hlegible : e.IsLegible) (hsteady : e.IsSteady expected)
    (hback : e₀.IsLegible → e₀.IsSteady expected → setting.Retrieved scope expected e₀) :
    setting.Recovers scope expected e₀ e other t := by
  obtain ⟨v, w, rfl, hw, rfl, rfl⟩ | ⟨_, rfl, _⟩ := Expr.settled?_cases hsettled
  · intro levels level minimum expected' ls c space _ hexpected _ _ hc
    have hw' := hlegible _ (Expr.mem_nodes _)
    have hwsteady : w.IsSteady expected := hsteady (expected, w) List.mem_cons_self
    obtain ⟨v', hvalue, hcoerce, hsteering⟩ :=
      Value.exists_ofLiteral_of_coerce? h.literalAt hw hw' hwsteady
    rw [← Value.ofLiteral_congr hexpected] at hvalue
    obtain ⟨c', hoperand, hls⟩ := readsOperand_literal hc hvalue
    refine ⟨.literal v', hoperand.restores hls, ?_, hsteering⟩
    rw [Expr.settled?, hcoerce]
    rfl
  · have hretrieved : setting.Retrieved scope expected e₀ := hback hlegible hsteady
    exact hretrieved.recovers hsettled

/-- A recovered operand is recovered in parentheses, too. -/
theorem Recovers.group (h : setting.Recovers scope expected e₀ e other t) {grouped : Bool}
    {levels level minimum : Nat} {expected' : Option StaticType} {ls : List Spelling} {c : Cursor}
    {space : Bool} (hlevels : 2 * e.deepest level + grouped.toNat ≤ levels + 2 * level)
    (hexpected : steering expected' = steering expected)
    (hminimum : grouped = false → minimum ≤ e.strength)
    (hls : grouped = false → Loose (e.strength + 1) ls)
    (hc : c.Shows (Expr.groupSpelling grouped e.spelling space ++ ls)) :
    ∃ e₁, setting.Restores levels minimum scope expected' c e₁ ls ∧
      e₁.settled? other = some (e, t) ∧ steering (some e₁.type) = steering (some e₀.type) := by
  cases grouped with
  | false => exact h hlevels hexpected (hminimum rfl) (hls rfl) hc
  | true =>
    rw [Expr.groupSpelling_true, List.cons_append, List.append_assoc] at hc
    have hpositive := e.le_deepest level
    rw [Bool.toNat_true] at hlevels
    obtain ⟨inner, rfl⟩ : ∃ inner, levels = inner + 1 := ⟨levels - 1, by omega⟩
    have hinner : 2 * e.deepest level ≤ inner + 2 * level := by omega
    obtain ⟨c₁, hadvance, hls₁, _⟩ := hc.advance
    obtain ⟨e₁, hrestores, hsettled, hsteering⟩ :=
      h hinner hexpected (Nat.zero_le _) Spelling.loose_closing hls₁
    obtain ⟨c₂, hreads, hls₂⟩ := hrestores.reads Spelling.loose_closing
    obtain ⟨c', hadvance₂, hls', _⟩ := hls₂.advance
    have hkind : c.current.kind = .leftParen := hc.kind
    have hmark : PrefixAt c none := prefixAt_none (by simp [hkind]) (hc.isWord "not")
    have hoperand := ReadsOperand.group hmark hkind hadvance hreads hls₂.kind hadvance₂
    exact ⟨e₁, hoperand.restores hls', hsettled, hsteering⟩

/-- An operand that is not fitted is read from its tokens, with the parentheses around it. -/
theorem Retrieved.group (h : setting.Retrieved scope expected e) {grouped : Bool}
    {levels level minimum : Nat} {expected' : Option StaticType} {ls : List Spelling} {c : Cursor}
    {space : Bool} (hlevels : 2 * e.deepest level + grouped.toNat ≤ levels + 2 * level)
    (hexpected : steering expected' = steering expected)
    (hminimum : grouped = false → minimum ≤ e.strength)
    (hls : grouped = false → Loose (e.strength + 1) ls)
    (hc : c.Shows (Expr.groupSpelling grouped e.spelling space ++ ls)) :
    setting.Restores levels minimum scope expected' c e ls := by
  have hnull : ∀ T, StaticType.null ≠ .enumeration T := fun T hT => by cases hT
  obtain ⟨e₁, hrestores, hsettled, _⟩ :=
    (h.recovers (Expr.settled?_of_ne_enumeration hnull e)).group hlevels hexpected hminimum hls hc
  rw [Expr.settled?_of_ne_enumeration hnull e₁] at hsettled
  cases hsettled
  exact hrestores

-- ════════════════════════════════════════════════════════════════════════
-- Operators
-- ════════════════════════════════════════════════════════════════════════

/-- A left operand has the levels of its operator, one of which parentheses take. -/
theorem levels_left {levels level : Nat} {grouped : Bool}
    (h : 2 * e.deepest (Expr.operandLevel level grouped .left) ≤ levels + 2 * level) :
    2 * e.deepest (Expr.operandLevel level grouped .left) + grouped.toNat ≤
      levels + 2 * Expr.operandLevel level grouped .left := by
  cases grouped with
  | false => exact h
  | true =>
    have hlevel : Expr.operandLevel level true .left = level + 1 := by simp [Expr.operandLevel]
    rw [hlevel] at h ⊢
    rw [Bool.toNat_true]
    omega

/-- A right operand takes a level of the reader, and its parentheses may take another one. -/
theorem levels_right {levels level : Nat} {grouped : Bool}
    (h : 2 * e.deepest (Expr.operandLevel level grouped .right) ≤ levels + 2 * level) :
    ∃ inner, levels = inner + 1 ∧
      2 * e.deepest (level + 1) + grouped.toNat ≤ inner + 2 * (level + 1) := by
  have hlevel : Expr.operandLevel level grouped .right = level + 1 := by simp [Expr.operandLevel]
  have hdeepest := e.le_deepest (level + 1)
  have hgrouped := grouped.toNat_le
  rw [hlevel] at h
  exact ⟨levels - 1, by omega, by omega⟩

theorem retrieved_unary {op : UnaryOp} (h : setting.Retrieved scope none e)
    (htype : acceptsOperand op e.type = true) :
    setting.Retrieved scope expected (.unary op e) := by
  intro levels level minimum expected' ls c space hlevels _ _ hls hc
  rw [Expr.deepest] at hlevels
  have hdeepest : 2 * e.deepest (Expr.operandLevel level (Expr.needsGroup (.unary op e) e .right)
      .right) ≤ levels + 2 * level := by omega
  obtain ⟨inner, rfl, hdepth⟩ := levels_right hdeepest
  have htight (hgroup : Expr.needsGroup (.unary op e) e .right = false) :
      e.strength = Operator.membershipPrecedence + 1 :=
    Expr.strength_of_precedence_none (Expr.precedence_of_needsGroup_prefixed (.unary op e) rfl rfl hgroup)
  have hinner (c₁ : Cursor) (space' : Bool)
      (hc₁ : c₁.Shows (Expr.groupSpelling (Expr.needsGroup (.unary op e) e .right) e.spelling space' ++ ls)) :
      ∃ c', setting.Reads (inner + 1) Operator.membershipPrecedence scope none c₁ e c' ∧ c'.Shows ls := by
    refine (h.group hdepth rfl (fun hgroup => ?_) (fun hgroup => ?_) hc₁).reads hls
    · rw [htight hgroup]
      omega
    · rw [htight hgroup]
      have hle : (Expr.unary op e).strength + 1 ≤ Operator.membershipPrecedence + 1 + 1 := by
        rw [Expr.strength_of_precedence rfl]
        decide
      exact hls.mono hle
  cases op with
  | not =>
    rw [Expr.spelling, List.cons_append] at hc
    obtain ⟨c₁, hadvance, hls₁, _⟩ := hc.advance
    obtain ⟨c', hreads, hls'⟩ := hinner c₁ true hls₁
    obtain ⟨s, rest, hs, hfirst⟩ := Expr.exists_group_cons (e.exists_spelling_cons true)
      (Expr.needsGroup (.unary .not e) e .right)
    rw [hs] at hc
    have hmark := prefixAt_not hc hfirst.leadingSpace hfirst.ne_end
    exact (ReadsOperand.prefixed hmark hadvance hreads htype).restores hls'
  | negate =>
    rw [Expr.spelling, List.cons_append] at hc
    obtain ⟨c₁, hadvance, hls₁, _⟩ := hc.advance
    obtain ⟨c', hreads, hls'⟩ := hinner c₁ false hls₁
    have hmark : PrefixAt c (some .negate) := hc.kind
    exact (ReadsOperand.prefixed hmark hadvance hreads htype).restores hls'

theorem retrieved_membership {list : List Value} (h : setting.Retrieved scope expected e)
    (hne : list ≠ [])
    (hlist : ∀ v ∈ list, Value.ofLiteral (some e.type) v.text.toList = .ok v ∧ v.isNull = false ∧
      e.type.isComparableWith (v.typeAgainst (some e.type)) = true) :
    setting.Retrieved scope expected (.membership e list) := by
  intro levels level minimum expected' ls c space hlevels hexpected hminimum _ hc
  rw [Expr.spelling, List.append_assoc, List.cons_append, List.cons_append, List.append_assoc] at hc
  have hkeyword : Operator.ofKeyword? "in" = some .membership := by decide
  rw [Expr.deepest] at hlevels
  have hdepth : 2 * e.deepest (Expr.operandLevel level (Expr.needsGroup (.membership e list) e .left)
      .left) ≤ levels + 2 * level := by omega
  have hstrength (hgroup : Expr.needsGroup (.membership e list) e .left = false) :
      Operator.membershipPrecedence ≤ e.strength :=
    Expr.le_strength_of_needsGroup_left (.membership e list) rfl hgroup
  obtain ⟨left, c₁, c₂, hoperand, hchain, hls₂⟩ := h.group (levels_left hdepth) hexpected
    (fun hgroup => Nat.le_trans hminimum (hstrength hgroup))
    (fun hgroup => Spelling.loose_keyword hkeyword rfl (Nat.lt_succ_of_le (hstrength hgroup))) hc
  have hop := hls₂.operator_eq_some hkeyword rfl
  obtain ⟨c₃, hadvance₂, hls₃, hlength⟩ := hls₂.advance
  obtain ⟨c', hreads, hls'⟩ := exists_readsList hne hlist hls₃
  exact ⟨left, c₁, c', hoperand, hchain.trans (.membership hop hminimum hadvance₂ hlength hreads), hls'⟩

/-- Operands that are recovered are combined as before. -/
theorem combines_of_recovered {op : BinaryOp} {left₀ right₀ left₁ right₁ l r : Expr}
    {lt rt : StaticType} (hl₀ : left₀.settled? right₀.type = some (l, lt))
    (hr₀ : right₀.settled? lt = some (r, rt)) (hl₁ : left₁.settled? right₀.type = some (l, lt))
    (hr₁ : right₁.settled? lt = some (r, rt)) (hop : acceptsOperands op lt rt = true) :
    Expr.Combines op left₁ right₁ (.binary op l r) := by
  refine ⟨l, lt, r, rt, ?_, hr₁, hop, rfl⟩
  obtain ⟨v, w, rfl, _, rfl, _⟩ | ⟨hne, rfl, _⟩ := Expr.settled?_cases hr₀
  · -- Both right operands are literals, to which no left operand is fitted.
    obtain ⟨v₁, _, rfl, _, _, _⟩ | ⟨hne, _, _⟩ := Expr.settled?_cases hr₁
    · have hsettled (v : Value) :
          left₁.settled? (Expr.literal v).type = some (left₁, left₁.type) :=
        Expr.settled?_of_ne_enumeration (Expr.ofValue_ne_enumeration v) left₁
      rw [hsettled v] at hl₁
      rw [hsettled v₁, hl₁]
    · exact absurd rfl (hne w)
  · -- The right operands are the same one.
    obtain ⟨_, w, _, _, rfl, _⟩ | ⟨_, rfl, _⟩ := Expr.settled?_cases hr₁
    · exact absurd rfl (hne w)
    · exact hl₁

theorem retrieved_binary {op : BinaryOp} {left₀ right₀ l r : Expr} {lt rt : StaticType}
    (hleft : setting.Recovers scope expected left₀ l right₀.type lt)
    (hright : setting.Recovers scope (if op.isComparison then some left₀.type else none) right₀ r lt rt)
    (hl₀ : left₀.settled? right₀.type = some (l, lt)) (hr₀ : right₀.settled? lt = some (r, rt))
    (hop : acceptsOperands op lt rt = true) :
    setting.Retrieved scope expected (.binary op l r) := by
  intro levels level minimum expected' ls c space hlevels hexpected hminimum hls hc
  rw [Expr.spelling, List.append_assoc, List.cons_append] at hc
  rw [Expr.deepest] at hlevels
  have hkeyword : Operator.ofKeyword? op.keyword = some (.binary op) := by cases op <;> decide
  have hstrength : (Expr.binary op l r).strength = op.precedence := Expr.strength_of_precedence rfl
  rw [hstrength] at hminimum hls
  -- The left operand, in front of the operator.
  have hdepth : 2 * l.deepest (Expr.operandLevel level (Expr.needsGroup (.binary op l r) l .left) .left)
      ≤ levels + 2 * level := by omega
  have htight (hgroup : Expr.needsGroup (.binary op l r) l .left = false) :
      op.precedence ≤ l.strength :=
    Expr.le_strength_of_needsGroup_left (.binary op l r) rfl hgroup
  obtain ⟨s, rest, hs, hfirst⟩ := Expr.exists_group_cons (r.exists_spelling_cons true)
    (Expr.needsGroup (.binary op l r) r .right)
  have hloose (hgroup : Expr.needsGroup (.binary op l r) l .left = false) : Loose (l.strength + 1)
      (.word op.keyword true ::
        (Expr.groupSpelling (Expr.needsGroup (.binary op l r) r .right) r.spelling true ++ ls)) := by
    rw [hs, List.cons_append]
    exact Spelling.loose_keyword hkeyword hfirst.leadingSpace (Nat.lt_succ_of_le (htight hgroup))
  obtain ⟨left₁, ⟨operand, c₁, c₂, hoperand, hchain, hls₂⟩, hl₁, hsteering⟩ :=
    hleft.group (levels_left hdepth) hexpected
      (fun hgroup => Nat.le_trans hminimum (htight hgroup)) hloose hc
  obtain ⟨c₃, hadvance₂, hls₃, hlength⟩ := hls₂.advance
  have hoperator : operator c₂ = .ok (some (.binary op), c₂) := by
    rw [hs, List.cons_append] at hls₂
    exact hls₂.operator_eq_some hkeyword hfirst.leadingSpace
  -- The right operand, in front of operators that bind no tighter.
  have hrexpected : steering (if op.isComparison then some left₁.type else none) =
      steering (if op.isComparison then some left₀.type else none) := by
    split
    · exact hsteering
    · rfl
  have hrdepth : 2 * r.deepest (Expr.operandLevel level (Expr.needsGroup (.binary op l r) r .right)
      .right) ≤ levels + 2 * level := by omega
  obtain ⟨inner, rfl, hinner⟩ := levels_right hrdepth
  have hrtight (hgroup : Expr.needsGroup (.binary op l r) r .right = false) :
      op.precedence < r.strength :=
    Expr.lt_strength_of_needsGroup_right (.binary op l r) rfl hgroup
  obtain ⟨right₁, hrestores, hr₁, _⟩ := hright.group hinner hrexpected hrtight
    (fun hgroup => hls.mono (Nat.le_succ_of_le (hrtight hgroup))) hls₃
  obtain ⟨c', hreads, hls'⟩ := hrestores.reads hls
  have hcombines := combines_of_recovered hl₀ hr₀ hl₁ hr₁ hop
  exact ⟨operand, c₁, c', hoperand,
    hchain.trans (.binary hoperator hminimum hadvance₂ hlength hreads hcombines), hls'⟩

end Setting

-- ════════════════════════════════════════════════════════════════════════
-- Whole expressions
-- ════════════════════════════════════════════════════════════════════════

/-- An expression that can be read is read from its tokens. -/
theorem Expr.Admitted.retrieved {setting : Setting} {scope : List Frame}
    {expected : Option StaticType} {e : Expr}
    (h : Admitted setting.entity setting.allowed scope expected e) (hlegible : e.IsLegible)
    (hsteady : e.IsSteady expected) : setting.Retrieved scope expected e := by
  induction h with
  | @literal _ expected v h =>
    have hv : v.IsSteady expected := hsteady (expected, v) List.mem_cons_self
    exact Setting.retrieved_literal (Value.ofLiteral_text h (hlegible _ (mem_nodes _)) hv)
  | field h hallowed htype =>
    exact Setting.retrieved_field h hallowed htype (hlegible _ (mem_nodes _)).2
  | @binary _ _ op left right _ hleft hright h ihl ihr =>
    obtain ⟨l, lt, r, rt, hl, hr, hop, rfl⟩ := h
    obtain ⟨_, hparts⟩ := List.forall_mem_cons.mp hlegible
    obtain ⟨hlegiblel, hlegibler⟩ := List.forall_mem_append.mp hparts
    obtain ⟨hsteadyl, hsteadyr⟩ := List.forall_mem_append.mp hsteady
    have hsteering : StaticType.steering (if op.isComparison then some l.type else none) =
        StaticType.steering (if op.isComparison then some left.type else none) := by
      split
      · exact steering_type_of_settled? hl
      · rfl
    have hrecoversl := Setting.recovers_of_settled? hleft hl hlegiblel hsteadyl ihl
    have hrecoversr := Setting.recovers_of_settled? hright hr hlegibler
      (isSteady_congr hsteering hsteadyr) ihr
    exact Setting.retrieved_binary hrecoversl hrecoversr hl hr hop
  | unary h htype ih =>
    obtain ⟨_, hparts⟩ := List.forall_mem_cons.mp hlegible
    exact Setting.retrieved_unary (ih hparts hsteady) htype
  | @membership _ _ operand list h hne hliteral hnull htype ih =>
    obtain ⟨hnode, hparts⟩ := List.forall_mem_cons.mp hlegible
    obtain ⟨hoperand, hlist⟩ := List.forall_mem_append.mp hsteady
    refine Setting.retrieved_membership (ih hparts hoperand) hne fun v hv => ?_
    have hv' : v.IsSteady (some operand.type) := hlist _ (List.mem_map_of_mem hv)
    exact ⟨Value.ofLiteral_text (hliteral v hv) (hnode v hv) hv', hnull v hv, htype v hv⟩
  | call _ htype ih =>
    obtain ⟨_, hparts⟩ := List.forall_mem_cons.mp hlegible
    refine Setting.retrieved_call (fun e he => ?_) htype
    exact ih e he (fun n hn => hparts n (mem_argumentNodes.mpr ⟨e, he, hn⟩))
      fun p hp => hsteady p (mem_argumentLiterals.mpr ⟨e, he, hp⟩)
  | bare h hallowed htype => exact Setting.retrieved_bare h hallowed htype
  | lambda h hallowed htype _ hfresh _ hboolean ih =>
    obtain ⟨_, hparts⟩ := List.forall_mem_cons.mp hlegible
    exact Setting.retrieved_lambda h hallowed htype hfresh (ih hparts hsteady) hboolean

/-- A predicate that was read is read again from its text, with room for two levels of nesting where
the predicate has one. -/
theorem Expr.readFilter_text {text : String} {entity : EntityType} {allowed : AllowList}
    {maxDepth : Nat} {e : Expr} (h : readFilter text entity allowed maxDepth = .ok e)
    (hlegible : e.IsLegible) (hsteady : e.IsSteady none) {depth : Nat}
    (hdepth : 2 * e.deepest 1 ≤ depth) : readFilter e.text entity allowed depth = .ok e := by
  have hadmitted := admitted_of_readFilter h
  have htype : e.type = .boolean := by
    obtain ⟨_, _, _, _, hfilter⟩ := Setting.run_eq_ok.mp h
    exact (Setting.filter_eq_ok.mp hfilter).2.2
  obtain ⟨c, hc, hshows⟩ := exists_cursor_text (hadmitted.isPrintable hlegible)
  obtain ⟨s, ls, hs, hfirst⟩ := e.exists_spelling_cons false
  have hstart : c.current.kind ≠ .endOfText := by
    rw [hs] at hshows
    rw [hshows.kind]
    exact hfirst.ne_end
  have hpositive := e.le_deepest 1
  obtain ⟨levels, rfl⟩ : ∃ levels, depth = levels + 1 := ⟨depth - 1, by omega⟩
  have hlevels : 2 * e.deepest 1 ≤ levels + 2 * 1 := by omega
  have hretrieved : Setting.Retrieved ⟨e.text.toList, entity, allowed, levels + 1⟩ [] none e :=
    Admitted.retrieved hadmitted hlegible hsteady
  rw [← List.append_nil (e.spelling false)] at hshows
  obtain ⟨c', hreads, hend⟩ := hretrieved.reads hlevels Spelling.loose_nil hshows
  refine Setting.run_eq_ok.mpr ⟨c, c', hc, hstart, ?_⟩
  exact Setting.filter_eq_ok.mpr ⟨hreads, hend.kind_nil, htype⟩

-- ════════════════════════════════════════════════════════════════════════
-- Parcels with labels
-- ════════════════════════════════════════════════════════════════════════

namespace Parcels

/-- How a parcel is sent. -/
def service : EnumType := ⟨"Post.Service", ["Slow", "Fast"], false⟩

/-- Labels of parcels. -/
def label : EntityType := ⟨"Label", "labels",
  [⟨"code", "code", .primitive .string, true⟩, ⟨"not", "negated", .primitive .boolean, false⟩]⟩

/-- Parcels. -/
def parcel : EntityType := ⟨"Parcel", "parcels",
  [⟨"weight", "weight", .primitive .byte, false⟩, ⟨"service", "service", .enumeration service, false⟩,
    ⟨"labels", "labels", .collection label ⟨"id", "parcel_id"⟩, false⟩]⟩

end Parcels

open Parcels in
/-- Groups, prefix operators, a list, a call and a lambda are read again, as is a member of an
enumeration type that is only known from the operand behind it. -/
theorem Expr.readFilter_text_parcels :
    ∃ e, readFilter ("not ($it/weight mul (2 add -weight) gt 7) and ('Fast' eq service or " ++
        "labels/any(l:not (l/not) or toupper(l/code) in ('O''NEIL', 'A, B')))") parcel (.all parcel)
        defaultMaxDepth = .ok e ∧
      e.IsLegible ∧ e.IsSteady none ∧ 2 * e.deepest 1 ≤ defaultMaxDepth ∧
      readFilter e.text parcel (.all parcel) defaultMaxDepth = .ok e := by
  have hread : Result.passes
      (fun e => decide (e.IsLegible ∧ e.IsSteady none ∧ 2 * e.deepest 1 ≤ defaultMaxDepth))
      (readFilter ("not ($it/weight mul (2 add -weight) gt 7) and ('Fast' eq service or " ++
        "labels/any(l:not (l/not) or toupper(l/code) in ('O''NEIL', 'A, B')))") parcel (.all parcel)
        defaultMaxDepth) = true := by decide +kernel
  obtain ⟨e, hread, htest⟩ := Result.exists_of_passes hread
  obtain ⟨hlegible, hsteady, hdepth⟩ := of_decide_eq_true htest
  exact ⟨e, hread, hlegible, hsteady, hdepth, readFilter_text hread hlegible hsteady hdepth⟩

open Parcels in
/-- A decimal that is rounded to a whole number is printed as one, and is then read as a weight: no
bound on nesting lets `weight in (79228162514264337593543950335.4)` be read again from its text. -/
theorem Expr.readFilter_text_rounded :
    ∃ e, readFilter "weight in (79228162514264337593543950335.4)" parcel (.all parcel)
        defaultMaxDepth = .ok e ∧
      e.IsLegible ∧ ∀ depth, readFilter e.text parcel (.all parcel) depth ≠ .ok e := by
  have hread : Result.passes (fun e => decide e.IsLegible &&
      Result.passes (fun e' => decide (e'.text ≠ e.text)) (readFilter e.text parcel (.all parcel) 1))
      (readFilter "weight in (79228162514264337593543950335.4)" parcel (.all parcel)
        defaultMaxDepth) = true := by decide +kernel
  obtain ⟨e, hread, htest⟩ := Result.exists_of_passes hread
  obtain ⟨hlegible, hother⟩ := Bool.and_eq_true_iff.mp htest
  obtain ⟨e', hother, hne⟩ := Result.exists_of_passes hother
  refine ⟨e, hread, of_decide_eq_true hlegible, fun depth hsame => ?_⟩
  -- Under the larger of the two bounds both readings succeed.
  have hdeep := readFilter_deeper hsame (Nat.le_max_left depth 1)
  rw [readFilter_deeper hother (Nat.le_max_right depth 1)] at hdeep
  cases hdeep
  exact of_decide_eq_true hne rfl

end ODataQuery
