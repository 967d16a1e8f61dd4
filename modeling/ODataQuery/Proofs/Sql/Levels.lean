import ODataQuery.Proofs.Document.Portability
import ODataQuery.Proofs.Event.Walk
import ODataQuery.Proofs.Expr.Operands
import ODataQuery.Proofs.Sql.Spelling

/-!
# Levels of rendered operations

Parentheses are placed by the strengths of the operators of expressions, and clauses are read by the
levels of those of a dialect. The two orders differ in membership and negation only, and the types
of operands leave few places where that matters.

## Main definitions

- `Dialect.level`, `Dialect.chains` — the level of an operator in a clause
- `Expr.KeepsQuantifiers`, `Expr.KeepsOperands` — nodes whose operands are not torn apart
- `Expr.lowest`, `Expr.reach` — which operators the text of an expression stands next to

## Main statements

- `Dialect.binaryAt?_words` — the words of an operator are read as the operator
- `Expr.left_bounds`, `Expr.right_bounds`, `Expr.membership_bounds` — operands without parentheses
  stay together
-/

namespace ODataQuery

-- ════════════════════════════════════════════════════════════════════════
-- Levels
-- ════════════════════════════════════════════════════════════════════════

namespace Dialect

/-- The level of an operator between operands. -/
def level (dialect : Dialect) (op : BinaryOp) : Nat :=
  match op with
  | .or => 1
  | .and => 2
  | .eq | .ne => 4
  | .gt | .ge | .lt | .le => 5
  | .add | .sub =>
    match dialect with
    | sqlite => 6
    | postgres => 7
  | .mul | .div | .divby | .mod =>
    match dialect with
    | sqlite => 7
    | postgres => 8

/-- Whether operators of the level may follow each other. -/
def chains (dialect : Dialect) (op : BinaryOp) : Bool := dialect == .sqlite || !op.isComparison

/-- The level of membership. -/
def membershipLevel : Dialect → Nat
  | sqlite => 4
  | postgres => 6

/-- A level above those of all operators. -/
def top : Nat := 10

/-- The operator between operands that is written for one that does not divide. -/
def operation (dialect : Dialect) (op : BinaryOp) : SqlInfix :=
  ⟨dialect.words op, dialect.level op, dialect.chains op, false⟩

variable {dialect : Dialect} {op op' : BinaryOp}

/-- Operators between operands are ordered as in expressions. -/
theorem level_lt_level (h : op.precedence < op'.precedence) :
    dialect.level op < dialect.level op' := by
  have hsqlite (op : BinaryOp) :
      sqlite.level op = op.precedence + if 3 ≤ op.precedence then 1 else 0 := by cases op <;> rfl
  have hpostgres (op : BinaryOp) : postgres.level op =
      op.precedence + (if 3 ≤ op.precedence then 1 else 0) +
        if 5 ≤ op.precedence then 1 else 0 := by
    cases op <;> rfl
  cases dialect with
  | sqlite =>
    rw [hsqlite, hsqlite]
    split <;> split <;> omega
  | postgres =>
    rw [hpostgres, hpostgres]
    split <;> split <;> split <;> split <;> omega

theorem level_le_level (h : op.precedence ≤ op'.precedence) :
    dialect.level op ≤ dialect.level op' := by
  obtain hlt | heq := Nat.lt_or_eq_of_le h
  · exact Nat.le_of_lt (level_lt_level hlt)
  · have hlevel : dialect.level op = dialect.level op' := by
      cases op <;> cases op' <;> first | rfl | cases heq
    exact Nat.le_of_eq hlevel

/-- Only the comparisons of PostgreSQL do not chain. -/
theorem chains_eq_false (h : dialect.chains op = false) :
    dialect = .postgres ∧ op.isComparison = true := by
  cases dialect with
  | sqlite => cases h
  | postgres => exact ⟨rfl, by simpa [chains] using h⟩

theorem level_lt_top (dialect : Dialect) (op : BinaryOp) : dialect.level op + 1 < top := by
  cases dialect <;> cases op <;> decide

theorem behindWords_not {fs : List SqlForm} (h : fs.head? ≠ some (.word "NOT")) :
    SqlForm.behindWords ["NOT"] fs = none := by
  cases fs with
  | nil => rfl
  | cons f fs =>
    cases f with
    | word s =>
      have hs : s ≠ "NOT" := fun hs => h (congrArg (fun s => some (SqlForm.word s)) hs)
      rw [SqlForm.behindWords, if_neg hs]
    | _ => rfl

/-- Forms that start with the words of an operator start with the operator. -/
theorem binaryAt?_words (hop : op.isDivision = false) {fs : List SqlForm}
    (hnot : dialect = .sqlite → op = .eq → fs.head? ≠ some (.word "NOT")) :
    SqlForm.binaryAt? dialect (SqlForm.ofWords (dialect.words op) ++ fs) =
      some (dialect.operation op, fs) := by
  cases op with
  | div | divby | mod => cases hop
  | eq =>
    cases dialect with
    | postgres => rfl
    | sqlite =>
      have hnone := behindWords_not (hnot rfl rfl)
      have hwords : SqlForm.ofWords (sqlite.words .eq) ++ fs = .word "IS" :: fs := rfl
      rw [hwords, SqlForm.binaryAt?, infixes, SqlInfix.sqlite]
      simp [SqlForm.behindWords, SqlInfix.chaining, hnone, operation, words, level, chains]
  | _ => cases dialect <;> rfl

end Dialect

namespace Expr

-- ════════════════════════════════════════════════════════════════════════
-- Nodes whose operands keep together
-- ════════════════════════════════════════════════════════════════════════

/-- Whether the expression is a membership test. -/
def isMembership : Expr → Bool
  | membership _ _ => true
  | _ => false

/-- Whether the expression is `all` with a body, which is written with `NOT` in front. -/
def isUniversal : Expr → Bool
  | lambda binder _ => binder.quantifier == .all
  | _ => false

/-- Whether the expression is an equality test that ends with such an `all`. -/
def endsUniversal : Expr → Bool
  | binary op _ right => op.isEquality && right.isUniversal
  | _ => false

/-- Whether the expression compares a value with a membership test at the right. -/
def equatesMembership : Expr → Bool
  | binary op _ right => op.isEquality && right.isMembership
  | _ => false

/-- The node does not tear apart the `NOT` of such an `all` and what it negates. In SQLite an `IS`
in front of the `NOT` would take it, and an operator behind the whole test would take what it
negates. -/
def KeepsQuantifiers (dialect : Dialect) : Expr → Prop
  | binary op left right => op.isEquality = true → left.isUniversal = false ∧
    (dialect = .sqlite → left.endsUniversal = false ∧ (op = .eq → right.isUniversal = false))
  | membership operand _ => operand.isUniversal = false
  | _ => True

instance decidableKeepsQuantifiers (dialect : Dialect) : DecidablePred (KeepsQuantifiers dialect)
  | binary _ _ _ => inferInstanceAs (Decidable (_ → _))
  | membership _ _ => inferInstanceAs (Decidable (_ = _))
  | literal _ | field _ | unary _ _ | call _ _ | lambda _ _ | bare _ =>
    inferInstanceAs (Decidable True)

/-- The texts of the operands of the node are not torn apart, neither by its operator nor by their
own. -/
structure KeepsOperands (dialect : Dialect) (e : Expr) : Prop where
  quantifiers : e.KeepsQuantifiers dialect
  /-- SQLite has membership on the level of equality. -/
  membership : dialect = .sqlite → e.equatesMembership = false

/-- The lowest level of the operators of the text of an expression that stand outside of
parentheses, as far as they matter to an operator in front of it. -/
def lowest (dialect : Dialect) : Expr → Nat
  | binary op _ _ => if dialect = .sqlite ∧ op = .mod then Dialect.top else dialect.level op
  | membership _ _ => dialect.membershipLevel
  | _ => Dialect.top

/-- The level from which on operators behind the text of an expression tear it apart. -/
def reach (dialect : Dialect) : Expr → Nat
  | binary op _ right =>
    if dialect = .sqlite ∧ op = .mod then Dialect.top
    else if op.isEquality && right.isUniversal then Dialect.notLevel
    else if dialect.chains op then dialect.level op + 1
    else dialect.level op
  | membership _ _ => dialect.membershipLevel + 1
  | unary _ _ => 0
  | lambda binder _ => if binder.quantifier = .all then Dialect.notLevel else Dialect.top
  | _ => Dialect.top

section Bounds

variable {root : EntityType} {scope : List Frame} {dialect : Dialect} {op : BinaryOp}
  {left right : Expr}

/-- Numbers and values that are compared by order are no truth values. -/
theorem Settled.ne_boolean (h : Settled op left right)
    (hop : op.isArithmetic = true ∨ op.isRelational = true) :
    left.type ≠ .boolean ∧ right.type ≠ .boolean := by
  obtain hop | hop := hop
  · obtain ⟨hl, hr⟩ := h.isNumeric hop
    constructor
    · intro htype
      rw [htype] at hl
      cases hl
    · intro htype
      rw [htype] at hr
      cases hr
  · obtain ⟨hl, hr⟩ := h.isOrdered hop
    constructor
    · intro htype
      rw [htype] at hl
      cases hl .boolean rfl
    · intro htype
      rw [htype] at hr
      cases hr .boolean rfl

theorem type_of_isComparison (h : op.isComparison = true) :
    (binary op left right).type = .boolean := by
  rw [type, if_neg]
  cases op with
  | add | sub | mul | div | divby | mod => cases h
  | _ => exact Bool.false_ne_true

/-- The kinds of operators are those of their strengths. -/
theorem classify (op : BinaryOp) :
    (op.isLogical = true ∧ op.precedence ≤ 2) ∨ (op.isEquality = true ∧ op.precedence = 3) ∨
      (op.isRelational = true ∧ op.precedence = 4) ∨
        (op.isArithmetic = true ∧ 5 ≤ op.precedence) := by
  cases op <;> decide

/-- Only equality tests and connectives have truth values as operands. -/
theorem Settled.isEquality_or_isLogical (h : Settled op left right)
    (htype : left.type = .boolean ∨ right.type = .boolean) :
    op.isEquality = true ∨ op.isLogical = true := by
  have hnone (hop : op.isArithmetic = true ∨ op.isRelational = true) : False :=
    htype.elim (h.ne_boolean hop).1 (h.ne_boolean hop).2
  obtain ⟨hop, _⟩ | ⟨hop, _⟩ | ⟨hop, _⟩ | ⟨hop, _⟩ := classify op
  · exact .inr hop
  · exact .inl hop
  · exact (hnone (.inr hop)).elim
  · exact (hnone (.inl hop)).elim

theorem precedence_lt_of_isLogical {op op' : BinaryOp} (h : op.isLogical = true)
    (h' : op'.isComparison = true) : op.precedence < op'.precedence := by
  cases op with
  | and | or =>
    cases op' with
    | eq | ne | gt | ge | lt | le => decide
    | _ => cases h'
  | _ => cases h

theorem isLogical_of_precedence_lt (h : op.precedence < BinaryOp.eq.precedence) :
    op.isLogical = true := by
  obtain ⟨hop, _⟩ | ⟨_, hop⟩ | ⟨_, hop⟩ | ⟨_, hop⟩ := classify op
  · exact hop
  all_goals
    have h : op.precedence < 3 := h
    omega

theorem level_of_isLogical (h : op.isLogical = true) : dialect.level op + 1 ≤ Dialect.notLevel := by
  cases op with
  | and => exact Nat.le_refl 3
  | or => exact Nat.le_succ 2
  | _ => cases h

theorem level_of_isEquality (h : op.isEquality = true) : dialect.level op = 4 := by
  cases op with
  | eq | ne => rfl
  | _ => cases h

/-- Operators of the same level tear an operation apart only if the level does not chain. -/
theorem reach_le (hmod : ¬(dialect = .sqlite ∧ op = .mod)) :
    (binary op left right).reach dialect ≤
      if dialect.chains op then dialect.level op + 1 else dialect.level op := by
  rw [reach, if_neg hmod]
  split
  · next huniversal =>
    have hlevel : dialect.level op = 4 := level_of_isEquality (Bool.and_eq_true_iff.mp huniversal).1
    rw [hlevel]
    split <;> decide
  · exact Nat.le_refl _

theorem reach_le_succ (hmod : ¬(dialect = .sqlite ∧ op = .mod)) :
    (binary op left right).reach dialect ≤ dialect.level op + 1 := by
  refine Nat.le_trans (reach_le hmod) ?_
  split
  · exact Nat.le_refl _
  · exact Nat.le_succ _

/-- A left operand without parentheses ends in front of its operator. -/
theorem left_bounds (hsettled : Settled op left right)
    (hkeeps : KeepsOperands dialect (binary op left right))
    (hgroup : needsGroup (binary op left right) left .left = false)
    (hwrap : ¬(dialect = .postgres ∧ op.isEquality = true ∧ left.isEquality = true)) :
    dialect.level op ≤ left.lowest dialect ∧ dialect.level op < left.reach dialect := by
  have htop : dialect.level op < Dialect.top := Nat.lt_of_succ_lt (Dialect.level_lt_top dialect op)
  have hboolean (htype : left.type = .boolean) : op.isEquality = true ∨ op.isLogical = true :=
    hsettled.isEquality_or_isLogical (.inl htype)
  cases left with
  | literal | field | call | bare => exact ⟨Nat.le_of_lt htop, htop⟩
  | unary u operand =>
    cases precedence_of_needsGroup_prefixed (binary op (unary u operand) right) rfl rfl hgroup
  | lambda binder body =>
    refine ⟨Nat.le_of_lt htop, ?_⟩
    rw [reach]
    split
    · next hall =>
      have huniversal : (lambda binder body).isUniversal = true := beq_iff_eq.mpr hall
      obtain hop | hop := hboolean rfl
      · rw [(hkeeps.quantifiers hop).1] at huniversal
        cases huniversal
      · exact level_of_isLogical hop
    · exact htop
  | membership operand list =>
    have hlevel : dialect.level op ≤ 4 := by
      obtain hop | hop := hboolean rfl
      · exact Nat.le_of_eq (level_of_isEquality hop)
      · exact Nat.le_of_lt (Nat.lt_of_lt_of_le (level_of_isLogical hop) (by decide))
    have hmembership : 4 ≤ dialect.membershipLevel := by
      cases dialect <;> decide
    exact ⟨Nat.le_trans hlevel hmembership, Nat.lt_succ_of_le (Nat.le_trans hlevel hmembership)⟩
  | binary op' l r =>
    have hle : op.precedence ≤ op'.precedence :=
      le_strength_of_needsGroup_left (binary op (binary op' l r) right) rfl hgroup
    rw [lowest, reach]
    split
    · exact ⟨Nat.le_of_lt htop, htop⟩
    · refine ⟨Dialect.level_le_level hle, ?_⟩
      split
      · next huniversal =>
        have hop' : op'.isEquality = true := (Bool.and_eq_true_iff.mp huniversal).1
        obtain hop | hop := hboolean (type_of_isComparison (Bool.or_eq_true_iff.mpr (.inl hop')))
        · cases dialect with
          | sqlite =>
            have hends := ((hkeeps.quantifiers hop).2 rfl).1
            rw [endsUniversal, huniversal] at hends
            cases hends
          | postgres => exact absurd ⟨rfl, hop, hop'⟩ hwrap
        · exact level_of_isLogical hop
      · split
        · exact Nat.lt_succ_of_le (Dialect.level_le_level hle)
        · next hchains =>
          obtain hlt | heq := Nat.lt_or_eq_of_le hle
          · exact Dialect.level_lt_level hlt
          · obtain ⟨hdialect, hop'⟩ := Dialect.chains_eq_false (Bool.eq_false_iff.mpr hchains)
            obtain hop | hop := hboolean (type_of_isComparison hop')
            · have hleft : op'.isEquality = true := by
                rw [BinaryOp.isEquality_eq] at hop ⊢
                rwa [← heq]
              exact absurd ⟨hdialect, hop, hleft⟩ hwrap
            · exact absurd heq (Nat.ne_of_lt (precedence_lt_of_isLogical hop hop'))

/-- A right operand without parentheses starts behind its operator and is not torn apart by the next
one. -/
theorem right_bounds (hsettled : Settled op left right)
    (hkeeps : KeepsOperands dialect (binary op left right))
    (hgroup : needsGroup (binary op left right) right .right = false)
    (hmod : ¬(dialect = .sqlite ∧ op = .mod)) :
    dialect.level op < right.lowest dialect ∧
      (binary op left right).reach dialect ≤ right.reach dialect := by
  have htop := Dialect.level_lt_top dialect op
  have hnext : (binary op left right).reach dialect ≤ dialect.level op + 1 := reach_le_succ hmod
  have hboolean (htype : right.type = .boolean) : op.isEquality = true ∨ op.isLogical = true :=
    hsettled.isEquality_or_isLogical (.inr htype)
  cases right with
  | literal | field | call | bare =>
    exact ⟨Nat.lt_of_succ_lt htop, Nat.le_trans hnext (Nat.le_of_lt htop)⟩
  | unary u operand =>
    cases precedence_of_needsGroup_prefixed (binary op left (unary u operand)) rfl rfl hgroup
  | lambda binder body =>
    refine ⟨Nat.lt_of_succ_lt htop, ?_⟩
    rw [reach.eq_def dialect (lambda binder body)]
    dsimp only
    split
    · next hall =>
      have huniversal : (lambda binder body).isUniversal = true := beq_iff_eq.mpr hall
      obtain hop | hop := hboolean rfl
      · refine Nat.le_of_eq ?_
        rw [reach, if_neg hmod, if_pos (Bool.and_eq_true_iff.mpr ⟨hop, huniversal⟩)]
      · exact Nat.le_trans hnext (level_of_isLogical hop)
    · exact Nat.le_trans hnext (Nat.le_of_lt htop)
  | membership operand list =>
    have hlevel : dialect.level op < dialect.membershipLevel := by
      obtain hop | hop := hboolean rfl
      · rw [level_of_isEquality hop]
        cases dialect with
        | sqlite =>
          have hequates := hkeeps.membership rfl
          rw [equatesMembership, hop] at hequates
          cases hequates
        | postgres => decide
      · refine Nat.lt_of_lt_of_le (level_of_isLogical hop) ?_
        cases dialect <;> decide
    exact ⟨hlevel, Nat.le_trans hnext (Nat.succ_le_succ (Nat.le_of_lt hlevel))⟩
  | binary op' l r =>
    have hlt : op.precedence < op'.precedence :=
      lt_strength_of_needsGroup_right (binary op left (binary op' l r)) rfl hgroup
    have hlevel : dialect.level op < dialect.level op' := Dialect.level_lt_level hlt
    rw [lowest, reach.eq_def dialect (binary op' l r)]
    dsimp only
    split
    · exact ⟨Nat.lt_of_succ_lt htop, Nat.le_trans hnext (Nat.le_of_lt htop)⟩
    · refine ⟨hlevel, ?_⟩
      split
      · next huniversal =>
        have hop' : op'.isEquality = true := (Bool.and_eq_true_iff.mp huniversal).1
        rw [BinaryOp.isEquality_eq, beq_iff_eq] at hop'
        have hop : op.isLogical = true := isLogical_of_precedence_lt (hop' ▸ hlt)
        exact Nat.le_trans hnext (level_of_isLogical hop)
      · split
        · exact Nat.le_trans hnext (Nat.le_of_lt (Nat.succ_lt_succ hlevel))
        · exact Nat.le_trans hnext hlevel

/-- Below a prefix operator stands what has no operator outside of parentheses but `NOT`. -/
theorem bounds_of_precedence (dialect : Dialect) {e : Expr} (h : e.precedence? = none) :
    Dialect.top ≤ e.lowest dialect ∧ Dialect.notLevel ≤ e.reach dialect := by
  have hnot : Dialect.notLevel ≤ Dialect.top := by decide
  cases e with
  | literal | field | call | bare => exact ⟨Nat.le_refl _, hnot⟩
  | lambda binder body =>
    refine ⟨Nat.le_refl _, ?_⟩
    rw [reach]
    split
    · exact Nat.le_refl _
    · exact hnot
  | unary | binary | membership => cases h

/-- The operand of a membership test ends in front of the test. -/
theorem membership_bounds {operand : Expr} {list : List Value}
    (hkeeps : KeepsQuantifiers dialect (membership operand list))
    (hgroup : needsGroup (membership operand list) operand .left = false) :
    dialect.membershipLevel ≤ operand.lowest dialect ∧
      dialect.membershipLevel + 1 ≤ operand.reach dialect := by
  have htop : dialect.membershipLevel + 1 ≤ Dialect.top := by cases dialect <;> decide
  cases operand with
  | literal | field | call | bare => exact ⟨Nat.le_of_succ_le htop, htop⟩
  | lambda binder body =>
    refine ⟨Nat.le_of_succ_le htop, ?_⟩
    rw [reach, if_neg fun hall => Bool.false_ne_true (hkeeps.symm.trans (beq_iff_eq.mpr hall))]
    exact htop
  | membership operand list => exact ⟨Nat.le_refl _, Nat.le_refl _⟩
  | unary u operand =>
    cases precedence_of_needsGroup_prefixed (membership (unary u operand) list) rfl rfl hgroup
  | binary op l r =>
    have hle : Operator.membershipPrecedence ≤ op.precedence :=
      le_strength_of_needsGroup_left (membership (binary op l r) list) rfl hgroup
    cases op <;> exact absurd hle (by decide)

/-- Whether the text of the expression may start with `NOT`. -/
def mayStartWithNot : Expr → Bool
  | unary _ _ | membership _ _ => true
  | lambda binder _ => binder.quantifier == .all
  | binary op _ _ => op.isLogical || op.isEquality
  | _ => false

theorem tight_of_precedence (h : BinaryOp.eq.precedence < op.precedence) :
    (op.isLogical || op.isEquality) = false := by
  cases op with
  | eq | ne | and | or => exact absurd h (by decide)
  | _ => rfl

theorem precedence_of_tight (h : op.isArithmetic = true ∨ op.isRelational = true) :
    BinaryOp.eq.precedence < op.precedence := by
  cases op with
  | eq | ne | and | or => exact absurd h (by decide)
  | _ => decide

/-- No number and no value that is compared by order starts with `NOT`. -/
theorem left_starts (hsettled : Settled op left right)
    (hop : op.isArithmetic = true ∨ op.isRelational = true)
    (hgroup : needsGroup (binary op left right) left .left = false) :
    left.mayStartWithNot = false := by
  have htype := (hsettled.ne_boolean hop).1
  cases left with
  | literal | field | call | bare => rfl
  | membership operand list => exact absurd rfl htype
  | unary u operand =>
    cases precedence_of_needsGroup_prefixed (binary op (unary u operand) right) rfl rfl hgroup
  | lambda binder body => exact absurd rfl htype
  | binary op' l r =>
    have hle : op.precedence ≤ op'.precedence :=
      le_strength_of_needsGroup_left (binary op (binary op' l r) right) rfl hgroup
    exact tight_of_precedence (Nat.lt_of_lt_of_le (precedence_of_tight hop) hle)

/-- In SQLite, no right operand of `IS` starts with `NOT`. -/
theorem right_starts (hkeeps : KeepsOperands .sqlite (binary .eq left right))
    (hgroup : needsGroup (binary .eq left right) right .right = false) :
    right.mayStartWithNot = false := by
  obtain ⟨_, huniversal⟩ := (hkeeps.quantifiers rfl).2 rfl
  cases right with
  | literal | field | call | bare => rfl
  | membership operand list => cases hkeeps.membership rfl
  | unary u operand =>
    cases precedence_of_needsGroup_prefixed (binary .eq left (unary u operand)) rfl rfl hgroup
  | lambda binder body => exact huniversal rfl
  | binary op' l r =>
    have hlt : BinaryOp.eq.precedence < op'.precedence :=
      lt_strength_of_needsGroup_right (binary .eq left (binary op' l r)) rfl hgroup
    exact tight_of_precedence hlt

end Bounds

end Expr

end ODataQuery
