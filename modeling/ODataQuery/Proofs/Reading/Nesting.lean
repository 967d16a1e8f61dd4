import ODataQuery.Proofs.Expr.Height
import ODataQuery.Proofs.Expr.Typing
import ODataQuery.Proofs.Reading.Ending

/-!
# Levels of reading and levels of walking

A reader counts a level for each of its recursive calls, a walk for each operand that does not share
the level of its operator. They differ at a prefix operation in front of an operator: no call is made
for the group in which the walk puts it. Such an operation takes two levels of the walk and is read in
one; as its operand holds no loose operators, a parenthesis and with it a second level is needed before
the same can happen again.

## Main definitions

- `Expr.Fits` — a bound on the height of an expression that is read within some levels
- `Setting.FitsOperand`, `Setting.FitsBefore` — the same for an operand, and for an expression in front
  of the operations that follow

## Main statements

- `Setting.ReadsOperations.fits` — one more operation keeps the bound
- `Setting.Reads.fits` — what is read fits
-/

namespace ODataQuery

theorem BinaryOp.precedence_lt_membership (op : BinaryOp) :
    op.precedence < Operator.membershipPrecedence :=
  Nat.lt_succ_of_lt op.precedence_lt_unary

/-- No operator binds tighter than membership. -/
theorem Operator.precedence_le_membership (op : Operator) :
    op.precedence ≤ Operator.membershipPrecedence := by
  cases op with
  | binary op => exact Nat.le_of_lt op.precedence_lt_membership
  | unary op => exact Nat.le_succ _
  | membership => exact Nat.le_refl _

/-- Half a level that an expression spares whose operators all bind as tight as membership. -/
def Expr.spare (minimum : Nat) : Nat := if Operator.membershipPrecedence ≤ minimum then 1 else 0

/-- The bound on the height of an expression that is read within some levels: three levels of the walk
for two of the reader, and as many if no prefix operation stands in front of an operator. -/
structure Expr.Fits (levels minimum : Nat) (e : Expr) : Prop where
  walk : 2 * (e.height + 1) + spare minimum ≤ 3 * levels
  plain : e.leadsWithPrefix = false → e.height < levels

theorem Expr.spare_le (minimum : Nat) : spare minimum ≤ 1 := by
  unfold spare
  split <;> omega

/-- An operand that was read one level below. -/
theorem Expr.Fits.of_operand {levels minimum : Nat} {e : Expr} (hwalk : 2 * e.height ≤ 3 * levels)
    (hplain : e.leadsWithPrefix = false → e.height ≤ levels) : e.Fits (levels + 1) minimum := by
  have hspare := spare_le minimum
  exact ⟨by omega, fun h => Nat.lt_succ_of_le (hplain h)⟩

namespace Setting

-- ════════════════════════════════════════════════════════════════════════
-- Operands and chains of operations
-- ════════════════════════════════════════════════════════════════════════

/-- The bound on the height of an operand. -/
inductive FitsOperand (levels : Nat) (c : Cursor) : Expr → Prop
  | atom {e} (hatom : e.precedence? = none) (hwalk : 2 * e.height ≤ 3 * levels)
      (hplain : e.leadsWithPrefix = false → e.height ≤ levels) : FitsOperand levels c e
  /-- No membership follows a prefix operation. -/
  | prefixed {e} (hprefixed : e.isPrefixed = true) (hwalk : 2 * e.height + 1 ≤ 3 * levels)
      (hplain : e.leadsWithPrefix = false → e.height ≤ levels)
      (hloose : LooseAt Operator.membershipPrecedence c) : FitsOperand levels c e
  | grouped {e} (h : e.Fits levels 0) : FitsOperand levels c e

/-- The bound on the height of an expression in front of operations: it holds of the expression alone,
and where the expression becomes the left operand of the operator that follows. -/
structure FitsBefore (levels minimum : Nat) (c : Cursor) (e : Expr) : Prop where
  self : e.Fits (levels + 1) minimum
  walk : ∀ op, operator c = .ok (some op, c) → minimum ≤ op.precedence →
    2 * (e.heightBefore op.precedence + 1) + Expr.spare minimum ≤ 3 * (levels + 1)
  plain : ∀ op, operator c = .ok (some op, c) → minimum ≤ op.precedence →
    e.isPrefixed = false → e.leadsWithPrefix = false → e.heightBefore op.precedence ≤ levels

variable {setting : Setting} {levels minimum limit : Nat} {scope : List Frame}
  {expected : Option StaticType} {c c' : Cursor} {left right e : Expr} {op : BinaryOp}

/-- An expression that needs no group in front of the operator that follows. -/
theorem FitsBefore.of_not_grouped (h : e.Fits (levels + 1) minimum)
    (hgroup : ∀ op, operator c = .ok (some op, c) → e.isGroupedBefore op.precedence = false) :
    FitsBefore levels minimum c e := by
  refine ⟨h, fun op hop _ => ?_, fun op hop _ _ hplain => ?_⟩
  · rw [Expr.heightBefore_eq (hgroup op hop)]
    exact h.walk
  · rw [Expr.heightBefore_eq (hgroup op hop)]
    exact Nat.le_of_lt_succ (h.plain hplain)

theorem FitsOperand.before (h : FitsOperand levels c e) : FitsBefore levels minimum c e := by
  cases h with
  | atom hatom hwalk hplain =>
    exact .of_not_grouped (.of_operand hwalk hplain) fun op _ => Expr.isGroupedBefore_of_atom hatom
  | prefixed hprefixed hwalk hplain hloose =>
    have hself : e.Fits (levels + 1) minimum := .of_operand (by omega) hplain
    refine ⟨hself, fun op hop htight => ?_, fun op _ _ hprefixed' _ => ?_⟩
    · have hlt := hloose op hop
      have hspare : Expr.spare minimum = 0 := if_neg (by omega)
      have hbefore : e.heightBefore op.precedence ≤ e.height + 1 := Expr.heightBefore_le
      omega
    · rw [hprefixed] at hprefixed'
      cases hprefixed'
  | grouped h =>
    have hwalk := h.walk
    have hbefore (op : Operator) : e.heightBefore op.precedence ≤ e.height + 1 :=
      Expr.heightBefore_le
    have hself : e.Fits (levels + 1) minimum :=
      .of_operand (by omega) fun hplain => Nat.le_of_lt (h.plain hplain)
    refine ⟨hself, fun op _ _ => ?_, fun op _ _ _ hplain => ?_⟩
    · have hspare := Expr.spare_le minimum
      have := hbefore op
      omega
    · exact Nat.le_trans (hbefore op) (h.plain hplain)

-- ════════════════════════════════════════════════════════════════════════
-- Steps
-- ════════════════════════════════════════════════════════════════════════

/-- Fitting a literal changes neither its height nor its groups. -/
theorem settled_shape {e' : Expr} {other type : StaticType} (h : e.settled? other = some (e', type)) :
    e'.height = e.height ∧ e'.leadsWithPrefix = e.leadsWithPrefix ∧ e'.isPrefixed = e.isPrefixed ∧
      ∀ precedence, e'.isGroupedBefore precedence = e.isGroupedBefore precedence := by
  obtain ⟨v, w, rfl, _, rfl, _⟩ | ⟨_, rfl, _⟩ := Expr.settled?_cases h
  · exact ⟨rfl, rfl, rfl, fun _ => rfl⟩
  · exact ⟨rfl, rfl, rfl, fun _ => rfl⟩

/-- An operation fits if the operator that follows binds no tighter. -/
theorem FitsBefore.binary (hleft : FitsBefore levels minimum c left)
    (hop : operator c = .ok (some (.binary op), c)) (htight : minimum ≤ op.precedence)
    (hright : right.Fits levels 0) (he : Expr.Combines op left right e)
    (hloose : LooseAt (op.precedence + 1) c') : FitsBefore levels minimum c' e := by
  obtain ⟨l, lt, r, rt, hl, hr, _, rfl⟩ := he
  obtain ⟨hlheight, hlplain, hlprefixed, hlgroup⟩ := settled_shape hl
  obtain ⟨hrheight, hrplain, _, _⟩ := settled_shape hr
  have hbefore : l.heightBefore op.precedence = left.heightBefore op.precedence := by
    rw [Expr.heightBefore, hlheight, hlgroup]
    rfl
  have hspare : Expr.spare minimum = 0 :=
    if_neg (Nat.not_le_of_lt (Nat.lt_of_le_of_lt htight op.precedence_lt_membership))
  have hself : (Expr.binary op l r).Fits (levels + 1) minimum := by
    have hwalk : 2 * (left.heightBefore op.precedence + 1) + Expr.spare minimum ≤ 3 * (levels + 1) :=
      hleft.walk (.binary op) hop htight
    have hwalk' := hright.walk
    constructor
    · rw [Expr.height_binary, hbefore, hrheight, hspare]
      omega
    · intro hplain
      simp only [Expr.leadsWithPrefix, Bool.or_eq_false_iff] at hplain
      obtain ⟨⟨hprefixed, hplainLeft⟩, hplainRight⟩ := hplain
      rw [hlprefixed] at hprefixed
      rw [hlplain] at hplainLeft
      rw [hrplain] at hplainRight
      have hnest : left.heightBefore op.precedence ≤ levels :=
        hleft.plain (.binary op) hop htight hprefixed hplainLeft
      have hnest' := hright.plain hplainRight
      rw [Expr.height_binary, hbefore, hrheight]
      omega
  refine .of_not_grouped hself fun op' hop' => ?_
  have hlt := hloose op' hop'
  exact Expr.isGroupedBefore_of_le rfl rfl (Nat.le_of_lt_succ hlt)

/-- A membership fits, as no operator binds tighter. -/
theorem FitsBefore.membership {list : List Value} (hleft : FitsBefore levels minimum c left)
    (hop : operator c = .ok (some .membership, c))
    (htight : minimum ≤ Operator.membershipPrecedence) :
    FitsBefore levels minimum c' (.membership left list) := by
  have hself : (Expr.membership left list).Fits (levels + 1) minimum := by
    constructor
    · rw [Expr.height_membership]
      exact hleft.walk .membership hop htight
    · intro hplain
      simp only [Expr.leadsWithPrefix, Bool.or_eq_false_iff] at hplain
      rw [Expr.height_membership]
      exact Nat.lt_succ_of_le (hleft.plain .membership hop htight hplain.1 hplain.2)
  exact .of_not_grouped hself fun op' _ =>
    Expr.isGroupedBefore_of_le rfl rfl op'.precedence_le_membership

-- ════════════════════════════════════════════════════════════════════════
-- Readings
-- ════════════════════════════════════════════════════════════════════════

/-- A call takes one level more than its arguments. -/
theorem fitsOperand_call {function : Function} {arguments : List Expr}
    (h : ∀ e ∈ arguments, e.Fits levels 0) : FitsOperand levels c (.call function arguments) := by
  refine .atom rfl ?_ fun hplain => ?_
  · have hbound : ∀ e ∈ arguments, e.height < 3 * levels / 2 := by
      intro e he
      have := (h e he).walk
      omega
    have := Expr.heightOf_le hbound
    rw [Expr.height]
    omega
  · exact Expr.heightOf_le fun e he => (h e he).plain (Expr.leadsWithPrefix_of_mem hplain e he)

mutual

/-- What is read fits in the levels of the reader. -/
theorem Reads.fits {levels minimum : Nat} {scope : List Frame} {expected : Option StaticType}
    {c c' : Cursor} {e : Expr} (h : setting.Reads levels minimum scope expected c e c')
    (hends : c.Ends) : e.Fits levels minimum := by
  match h with
  | .intro hleft h =>
    have hends₁ := hends.of_suffix hleft.tokens_suffix
    exact ReadsOperations.fits h hends₁ (ReadsOperand.fits hleft hends).before

theorem ReadsOperand.fits {levels : Nat} {scope : List Frame} {expected : Option StaticType}
    {c c' : Cursor} {e : Expr} (h : setting.ReadsOperand levels scope expected c e c')
    (hends : c.Ends) : FitsOperand levels c' e := by
  match h with
  | .prefixed _ hc he _ =>
    have hends₁ := hends.of_advance hc
    have hfits := Reads.fits he hends₁
    have hwalk := hfits.walk
    have hspare : Expr.spare Operator.membershipPrecedence = 1 := rfl
    refine .prefixed rfl ?_ (fun hplain => hfits.plain hplain) (he.looseAt hends₁)
    rw [Expr.height]
    omega
  | .group _ _ hc he _ _ => exact .grouped (Reads.fits he (hends.of_advance hc))
  | .literal _ _ _ _ => exact .atom rfl (Nat.zero_le _) fun _ => Nat.zero_le _
  | .callNone _ _ _ _ _ _ _ _ _ => exact fitsOperand_call (List.forall_mem_nil _)
  | .callSome _ _ _ hc _ hc₁ _ hes _ _ _ =>
    have hends₂ := (hends.of_advance hc).of_advance hc₁
    exact fitsOperand_call (ReadsArguments.fits hes hends₂)
  | .field _ _ _ _ _ => exact .atom rfl (Nat.zero_le _) fun _ => Nat.zero_le _
  | .bare _ _ _ _ _ _ _ _ _ _ _ _ => exact .atom rfl (Nat.zero_le _) fun _ => Nat.zero_le _
  | .lambda _ _ hrefers _ _ _ hc₁ hquantifier _ hc₃ _ hc₄ _ _ hc₅ hbody _ _ _ =>
    have hends₂ := (hends.of_suffix hrefers.tokens_suffix).of_advance hc₁
    have hends₃ := hends₂.of_suffix (cursor_suffix_of_quantifier hquantifier)
    have hends₆ := ((hends₃.of_advance hc₃).of_advance hc₄).of_advance hc₅
    have hfits := Reads.fits hbody hends₆
    have hwalk := hfits.walk
    refine .atom rfl ?_ fun hplain => hfits.plain hplain
    rw [Expr.height]
    omega

theorem ReadsOperations.fits {levels minimum limit : Nat} {scope : List Frame} {c c' : Cursor}
    {left e : Expr} (h : setting.ReadsOperations levels minimum scope limit left c e c')
    (hends : c.Ends) (hleft : FitsBefore levels minimum c left) : e.Fits (levels + 1) minimum := by
  match h with
  | .exhausted => exact hleft.self
  | .stop _ _ => exact hleft.self
  | .binary hop htight hc hright he h =>
    have hends₁ := hends.of_advance hc
    have hright' := Reads.fits hright hends₁
    have hfits : Expr.Fits _ 0 _ := ⟨Nat.le_trans (Nat.le_add_right _ _) hright'.walk, hright'.plain⟩
    exact ReadsOperations.fits h (hends₁.of_suffix hright.tokens_suffix)
      (hleft.binary hop htight hfits he (hright.looseAt hends₁))
  | .membership hop htight hc hlist h =>
    have hends₁ := hends.of_advance hc
    exact ReadsOperations.fits h (hends₁.of_suffix hlist.tokens_suffix) (hleft.membership hop htight)

theorem ReadsArguments.fits {levels limit : Nat} {scope : List Frame} {c c' : Cursor}
    {es : List Expr} (h : setting.ReadsArguments levels scope limit c es c') (hends : c.Ends) :
    ∀ e ∈ es, e.Fits levels 0 := by
  match h with
  | .exhausted => exact List.forall_mem_nil _
  | .last he _ => exact List.forall_mem_singleton.mpr (Reads.fits he hends)
  | .more he _ hc₁ hes =>
    have hends₂ := (hends.of_suffix he.tokens_suffix).of_advance hc₁
    exact List.forall_mem_cons.mpr ⟨Reads.fits he hends, ReadsArguments.fits hes hends₂⟩

end

end Setting

end ODataQuery
