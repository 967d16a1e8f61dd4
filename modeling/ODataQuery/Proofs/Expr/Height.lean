import ODataQuery.Proofs.Expr.Induction

/-!
# Heights of expressions

How many levels an expression takes below the one that it stands at. A left operand shares the level
of its operator unless it is grouped, so the height depends on where groups stand.

## Main definitions

- `Expr.isGroupedBefore` — whether an expression is grouped as the left operand of an operator
- `Expr.height` — the levels of an expression below its own
- `Expr.heightBefore` — the same as the left operand of an operator
- `Expr.leadsWithPrefix` — whether a prefix operation is a left operand somewhere

## Main statements

- `Expr.deepest_eq` — the deepest level in terms of the height
-/

namespace ODataQuery

namespace Expr

/-- Whether the expression is grouped as the left operand of an operator of this precedence. -/
def isGroupedBefore (e : Expr) (precedence : Nat) : Bool :=
  match e.precedence? with
  | some q => e.isPrefixed || q < precedence
  | none => false

mutual

/-- The levels of an expression below its own. -/
def height : Expr → Nat
  | literal _ | field _ | bare _ => 0
  | binary op left right =>
    max (left.height + (left.isGroupedBefore op.precedence).toNat) (right.height + 1)
  | unary _ operand => operand.height + 1
  | membership operand _ =>
    operand.height + (operand.isGroupedBefore Operator.membershipPrecedence).toNat
  | call _ arguments => heightOf arguments
  | lambda _ body => body.height + 1

/-- The levels of arguments below that of their call. -/
def heightOf : List Expr → Nat
  | [] => 0
  | e :: es => max (e.height + 1) (heightOf es)

end

/-- The levels of a left operand below that of its operator, whose precedence is given. -/
def heightBefore (e : Expr) (precedence : Nat) : Nat :=
  e.height + (e.isGroupedBefore precedence).toNat

mutual

/-- Whether a prefix operation is the left operand of an operator somewhere. -/
def leadsWithPrefix : Expr → Bool
  | literal _ | field _ | bare _ => false
  | binary _ left right => left.isPrefixed || left.leadsWithPrefix || right.leadsWithPrefix
  | unary _ operand => operand.leadsWithPrefix
  | membership operand _ => operand.isPrefixed || operand.leadsWithPrefix
  | call _ arguments => leadsWithPrefixOf arguments
  | lambda _ body => body.leadsWithPrefix

/-- Whether a prefix operation is the left operand of an operator in some argument. -/
def leadsWithPrefixOf : List Expr → Bool
  | [] => false
  | e :: es => e.leadsWithPrefix || leadsWithPrefixOf es

end

-- ════════════════════════════════════════════════════════════════════════
-- Groups
-- ════════════════════════════════════════════════════════════════════════

variable {e operand left right : Expr} {op : BinaryOp} {precedence : Nat}

/-- Whether a left operand is grouped depends on the precedence of the operator alone. -/
theorem needsGroup_left (parent : Expr) (hprefixed : parent.isPrefixed = false)
    (h : parent.precedence? = some precedence) :
    needsGroup parent operand .left = operand.isGroupedBefore precedence := by
  rw [needsGroup, isGroupedBefore, h, hprefixed]
  cases operand.precedence? with
  | none => rfl
  | some q => simp

/-- Only operations are grouped. -/
theorem isGroupedBefore_of_atom (h : e.precedence? = none) : e.isGroupedBefore precedence = false := by
  rw [isGroupedBefore, h]

/-- An operation between operands is not grouped before an operator that binds no tighter. -/
theorem isGroupedBefore_of_le {q : Nat} (hprefixed : e.isPrefixed = false) (h : e.precedence? = some q)
    (hle : precedence ≤ q) : e.isGroupedBefore precedence = false := by
  have hlt : ¬q < precedence := by omega
  simp [isGroupedBefore, h, hprefixed, hlt]

theorem height_binary :
    (binary op left right).height = max (left.heightBefore op.precedence) (right.height + 1) := rfl

theorem height_membership {list : List Value} :
    (membership operand list).height = operand.heightBefore Operator.membershipPrecedence := rfl

theorem heightBefore_le : e.heightBefore precedence ≤ e.height + 1 := by
  rw [heightBefore]
  have := Bool.toNat_le (e.isGroupedBefore precedence)
  omega

theorem heightBefore_eq (h : e.isGroupedBefore precedence = false) :
    e.heightBefore precedence = e.height := by
  rw [heightBefore, h]
  rfl

-- ════════════════════════════════════════════════════════════════════════
-- Arguments
-- ════════════════════════════════════════════════════════════════════════

theorem heightOf_le {arguments : List Expr} {bound : Nat}
    (h : ∀ e ∈ arguments, e.height < bound) : heightOf arguments ≤ bound := by
  induction arguments with
  | nil => exact Nat.zero_le _
  | cons e es ih =>
    obtain ⟨he, hes⟩ := List.forall_mem_cons.mp h
    have := ih hes
    rw [heightOf]
    omega

theorem leadsWithPrefix_of_mem {arguments : List Expr}
    (h : leadsWithPrefixOf arguments = false) : ∀ e ∈ arguments, e.leadsWithPrefix = false := by
  induction arguments with
  | nil => exact List.forall_mem_nil _
  | cons e es ih =>
    rw [leadsWithPrefixOf, Bool.or_eq_false_iff] at h
    exact List.forall_mem_cons.mpr ⟨h.1, ih h.2⟩

-- ════════════════════════════════════════════════════════════════════════
-- Levels
-- ════════════════════════════════════════════════════════════════════════

theorem operandLevel_left (level : Nat) (grouped : Bool) :
    operandLevel level grouped .left = level + grouped.toNat := by
  cases grouped <;> rfl

theorem operandLevel_right (level : Nat) (grouped : Bool) :
    operandLevel level grouped .right = level + 1 := rfl

/-- The arguments of a call stand one level below it. -/
theorem deepestOf_eq {arguments : List Expr} (hne : arguments ≠ [])
    (h : ∀ e ∈ arguments, ∀ level, e.deepest level = level + e.height) (level : Nat) :
    deepestOf (level + 1) arguments = level + heightOf arguments := by
  induction arguments with
  | nil => exact absurd rfl hne
  | cons e es ih =>
    obtain ⟨he, hes⟩ := List.forall_mem_cons.mp h
    rw [deepestOf, heightOf, he]
    cases es with
    | nil =>
      rw [deepestOf, heightOf]
      omega
    | cons e' es =>
      rw [ih (List.cons_ne_nil _ _) hes]
      omega

/-- The deepest level of an expression is its own and its height together. -/
theorem deepest_eq (e : Expr) (level : Nat) : e.deepest level = level + e.height := by
  induction e generalizing level with
  | literal v => rfl
  | field f => rfl
  | bare binder => rfl
  | binary op left right ihl ihr =>
    rw [deepest, height, needsGroup_left (binary op left right) rfl rfl, operandLevel_left, operandLevel_right, ihl, ihr]
    omega
  | unary op operand ih =>
    rw [deepest, height, operandLevel_right, ih]
    omega
  | membership operand list ih =>
    rw [deepest, height, needsGroup_left (membership operand list) rfl rfl, operandLevel_left, ih]
    omega
  | call function arguments ih =>
    rw [deepest, height]
    cases arguments with
    | nil =>
      rw [deepestOf, heightOf]
      omega
    | cons e es =>
      rw [deepestOf_eq (List.cons_ne_nil _ _) ih]
      omega
  | lambda binder body ih =>
    rw [deepest, height, ih]
    omega

end Expr

end ODataQuery
