import ODataQuery.Proofs.Sql.Levels
import ODataQuery.Proofs.Sql.Numbering

/-!
# Grouping

The text that a typed expression is rendered to is read as a term with the operands of the
expression, as long as no node tears its operands apart.

## Main definitions

- `Expr.Groups` — terms that group operands as an expression does
- `Expr.Regroups` — pieces are read as such a term among other forms

## Main statements

- `Expr.Typed.regroups` — the pieces that a typed expression is rendered to are read so
- `SqlClause.groups_of_ofExpr`, `SqlClause.groups_of_ofItems` — conditions and columns

## Design notes

Pieces tell next to which operators they are read so: those in front are below the lowest level that
the pieces have outside of parentheses, and those behind are below their reach. Each node hands
its operands on with the bounds of its own operator.
-/

namespace ODataQuery

-- ════════════════════════════════════════════════════════════════════════
-- Grouping
-- ════════════════════════════════════════════════════════════════════════

namespace Expr

open SqlTerm (readAll)

/-- The term of a text groups operands as the expression does: each operator has the terms of its
operands, and the contents of parentheses and the arguments of calls are read in the same way. -/
inductive Groups (dialect : Dialect) (rootAlias : String) : Expr → SqlTerm → Prop
  | literal {v} : Groups dialect rootAlias (literal v) (.operand [.ofLiteral v])
  | field {f} : Groups dialect rootAlias (field f)
      (.operand (SqlForm.column (f.origin.getD rootAlias) f.source))
  /-- Parentheses group nothing else. -/
  | group {e fs t} (hread : readAll dialect fs = some t) (h : Groups dialect rootAlias e t) :
      Groups dialect rootAlias e (.operand [.bracket fs])
  | binary {op left right l r} (hop : op.isDivision = false)
      (hl : Groups dialect rootAlias left l) (hr : Groups dialect rootAlias right r) :
      Groups dialect rootAlias (binary op left right) (.binary (dialect.words op) l r)
  | div {left right l r fs} (hl : Groups dialect rootAlias left l)
      (hread : readAll dialect fs = some r) (hr : Groups dialect rootAlias right r) :
      Groups dialect rootAlias (binary .div left right)
        (.binary ["/"] l (.operand (SqlForm.divisor fs)))
  | divby {left right l r fs} (hl : Groups dialect rootAlias left l)
      (hread : readAll dialect fs = some r) (hr : Groups dialect rootAlias right r) :
      Groups dialect rootAlias (binary .divby left right)
        (.binary ["/"] (.binary ["*"] l (.operand [.word "1.0"])) (.operand (SqlForm.divisor fs)))
  | mod {left right l r fs} (hdialect : dialect = .postgres)
      (hl : Groups dialect rootAlias left l)
      (hread : readAll dialect fs = some r) (hr : Groups dialect rootAlias right r) :
      Groups dialect rootAlias (binary .mod left right)
        (.binary ["%"] l (.operand (SqlForm.divisor fs)))
  | modulo {left right l r fs gs} (hdialect : dialect = .sqlite)
      (hreadₗ : readAll dialect fs = some l) (hl : Groups dialect rootAlias left l)
      (hreadᵣ : readAll dialect gs = some r) (hr : Groups dialect rootAlias right r) :
      Groups dialect rootAlias (binary .mod left right) (.operand (SqlForm.modulo fs gs))
  | not {e t} (h : Groups dialect rootAlias e t) :
      Groups dialect rootAlias (unary .not e) (.prefixed "NOT" t)
  | negate {e t} (h : Groups dialect rootAlias e t) :
      Groups dialect rootAlias (unary .negate e) (.prefixed "-" t)
  | membership {e list t} (h : Groups dialect rootAlias e t) :
      Groups dialect rootAlias (membership e list)
        (.binary ["IN"] t (.operand [.bracket (SqlForm.ofItems list)]))
  | call {function} {arguments : List Expr} {template outline} {fss : List (List SqlForm)}
      {ts : List SqlTerm}
      (htemplate : dialect.template? function arguments.length = some template)
      (houtline : template.outline? = some outline)
      (hread : List.Forall₂ (fun fs t => readAll dialect fs = some t) fss ts)
      (hlength : ts.length = arguments.length)
      (h : ∀ (i : Nat) e t, arguments[i]? = some e → ts[i]? = some t →
        Groups dialect rootAlias e t) :
      Groups dialect rootAlias (call function arguments) (.operand (SqlForm.fillAll fss outline))
  /-- The bounds of instants are parameters. -/
  | bound {function arguments} (h : function = .minDateTime ∨ function = .maxDateTime) :
      Groups dialect rootAlias (call function arguments) (.operand [.parameter])
  | any {navigation bound body fs t} (hread : readAll dialect fs = some t)
      (h : Groups dialect rootAlias body t) :
      Groups dialect rootAlias (lambda ⟨navigation, .any, bound⟩ body)
        (.operand (SqlForm.subquery
          (SqlForm.head rootAlias ⟨navigation, .any, bound⟩ ++ SqlForm.holding fs)))
  | all {navigation bound body fs t} (hread : readAll dialect fs = some t)
      (h : Groups dialect rootAlias body t) :
      Groups dialect rootAlias (lambda ⟨navigation, .all, bound⟩ body)
        (.prefixed "NOT"
          (.operand (SqlForm.subquery
            (SqlForm.head rootAlias ⟨navigation, .all, bound⟩ ++ SqlForm.failing fs))))
  | bare {binder} :
      Groups dialect rootAlias (bare binder)
        (.operand (SqlForm.ofBare binder.quantifier (SqlForm.head rootAlias binder)))

-- ════════════════════════════════════════════════════════════════════════
-- Reading what is rendered
-- ════════════════════════════════════════════════════════════════════════

open SqlTerm (Reads IsOperand)
open SqlPiece (Spells)

/-- Pieces are read as a term that groups as the expression does, among operators of at most a level
and in front of operators below another one. They start with `NOT` only if the flag is set. -/
def Regroups (dialect : Dialect) (rootAlias : String) (e : Expr) (level reach : Nat)
    (negated : Bool) (ps : List SqlPiece) : Prop :=
  ∃ fs t, Spells dialect ps fs ∧ e.Groups dialect rootAlias t ∧ Reads dialect fs t level reach ∧
    (negated = false → fs.head? ≠ some (.word "NOT"))

section Regroups

variable {dialect : Dialect} {rootAlias : String} {e left right : Expr} {op : BinaryOp}
  {ps l r : List SqlPiece} {level reach level' reach' : Nat} {negated negated' : Bool}

theorem word_ne {s s' : String} (h : s ≠ s') : some (SqlForm.word s) ≠ some (.word s') :=
  fun heq => h (SqlForm.word.inj (Option.some.inj heq))

theorem Regroups.mono (h : Regroups dialect rootAlias e level reach negated ps)
    (hlevel : level' ≤ level) (hreach : reach' ≤ reach)
    (hnegated : negated' = false → negated = false) :
    Regroups dialect rootAlias e level' reach' negated' ps := by
  obtain ⟨fs, t, hspells, hgroups, hreads, hstarts⟩ := h
  exact ⟨fs, t, hspells, hgroups, hreads.mono hlevel hreach, fun h => hstarts (hnegated h)⟩

/-- What is an operand of its own stands anywhere. -/
theorem regroups_operand {fs : List SqlForm} (hspells : Spells dialect ps fs)
    (hgroups : e.Groups dialect rootAlias (.operand fs)) (hoperand : IsOperand dialect fs)
    (hstarts : fs.head? ≠ some (.word "NOT")) :
    Regroups dialect rootAlias e level reach negated ps :=
  ⟨fs, _, hspells, hgroups, .operand hoperand, fun _ => hstarts⟩

/-- An operand stands in parentheses, or where it is read as it is. -/
theorem Regroups.operand (h : Regroups dialect rootAlias e level reach negated ps) {g : Bool}
    (hopen : g = false → level' ≤ level ∧ reach' ≤ reach ∧ (negated' = false → negated = false)) :
    Regroups dialect rootAlias e level' reach' negated' (SqlPiece.grouped g ps) := by
  cases g with
  | false =>
    obtain ⟨hlevel, hreach, hnegated⟩ := hopen rfl
    exact h.mono hlevel hreach hnegated
  | true =>
    obtain ⟨fs, t, hspells, hgroups, hreads, _⟩ := h
    exact regroups_operand hspells.parenthesized (.group hreads.readAll hgroups)
      (SqlTerm.isOperand_bracket fs) nofun

theorem isOperand_of_isCall {fs : List SqlForm} (h : SqlForm.isCall fs = true) :
    IsOperand dialect fs := by
  unfold SqlForm.isCall at h
  split at h
  · exact SqlTerm.isOperand_bracket _
  · exact SqlTerm.isOperand_call (by simpa using h) _
  · cases h

theorem head?_of_isCall {fs : List SqlForm} (h : SqlForm.isCall fs = true) :
    fs.head? ≠ some (.word "NOT") := by
  unfold SqlForm.isCall at h
  split at h
  · nofun
  · exact word_ne (by rintro rfl; cases h)
  · cases h

theorem regroups_binary (hop : op.isDivision = false)
    (hl : Regroups dialect rootAlias left (dialect.level op) (dialect.level op + 1) negated l)
    (hr : Regroups dialect rootAlias right (dialect.level op + 1) reach
      (!(dialect == .sqlite && op == .eq)) r)
    (hreach : reach ≤ if dialect.chains op then dialect.level op + 1 else dialect.level op) :
    Regroups dialect rootAlias (binary op left right) (dialect.level op) reach negated
      (l ++ .text (dialect.operator op) :: r) := by
  obtain ⟨fl, tl, hspellsₗ, hgroupsₗ, hreadsₗ, hstartsₗ⟩ := hl
  obtain ⟨fr, tr, hspellsᵣ, hgroupsᵣ, hreadsᵣ, hstartsᵣ⟩ := hr
  obtain ⟨w, ws, hwords⟩ : ∃ w ws, SqlForm.ofWords (dialect.words op) = w :: ws := by
    cases dialect <;> cases op <;> exact ⟨_, _, rfl⟩
  have hat (rest : List SqlForm) : SqlForm.binaryAt? dialect (w :: (ws ++ (fr ++ rest))) =
      some (dialect.operation op, fr ++ rest) := by
    rw [← List.cons_append, ← hwords]
    refine Dialect.binaryAt?_words hop fun hdialect heq => ?_
    rw [List.head?_append_of_ne_nil _ hreadsᵣ.ne_nil]
    refine hstartsᵣ ?_
    rw [hdialect, heq]
    rfl
  refine ⟨_, _, SqlPiece.spells_binary hspellsₗ hspellsᵣ hop, .binary hop hgroupsₗ hgroupsᵣ, ?_, ?_⟩
  · rw [hwords, List.cons_append]
    exact hreadsₗ.binary hreadsᵣ hat rfl (Nat.lt_succ_self _) (Nat.lt_succ_self _) (Nat.le_refl _)
      (Nat.le_refl _) hreach (Nat.le_refl _)
  · intro hnegated
    rw [List.head?_append_of_ne_nil _ hreadsₗ.ne_nil]
    exact hstartsₗ hnegated

theorem reads_divisor (fs : List SqlForm) :
    Reads dialect (SqlForm.divisor fs) (.operand (SqlForm.divisor fs)) level reach :=
  .operand (SqlTerm.isOperand_call (by decide) _)

/-- The signs of products and quotients stand on one level. -/
theorem reads_product {fl fr : List SqlForm} {tl tr : SqlTerm} {w : String}
    (hw : w = "*" ∨ w = "/" ∨ w = "%")
    (hl : Reads dialect fl tl (dialect.level .mul) (dialect.level .mul + 1))
    (hr : Reads dialect fr tr Dialect.top Dialect.top) :
    Reads dialect (fl ++ .word w :: fr) (.binary [w] tl tr) (dialect.level .mul)
      (dialect.level .mul + 1) := by
  have htop := Dialect.level_lt_top dialect .mul
  have hat (rest : List SqlForm) : SqlForm.binaryAt? dialect (.word w :: ([] ++ (fr ++ rest))) =
      some (.chaining [w] (dialect.level .mul), fr ++ rest) := by
    obtain rfl | rfl | rfl := hw <;> cases dialect <;> rfl
  exact hl.binary hr hat rfl (Nat.lt_succ_self _) (Nat.lt_of_succ_lt htop) (Nat.le_refl _)
    (Nat.le_refl _) (Nat.le_refl _) (Nat.le_of_lt htop)

/-- A division goes on with the operand `NULLIF`. -/
theorem regroups_division (hop : op.isDivision = true) (hmod : ¬(dialect = .sqlite ∧ op = .mod))
    (hl : Regroups dialect rootAlias left (dialect.level op) (dialect.level op + 1) negated l)
    (hr : Regroups dialect rootAlias right level reach negated' r) (chained : Bool) :
    Regroups dialect rootAlias (binary op left right) (dialect.level op) (dialect.level op + 1)
      negated (SqlPiece.operation dialect op chained l r) := by
  obtain ⟨fl, tl, hspellsₗ, hgroupsₗ, hreadsₗ, hstartsₗ⟩ := hl
  obtain ⟨fr, tr, hspellsᵣ, hgroupsᵣ, hreadsᵣ, _⟩ := hr
  have hspells := SqlPiece.spells_division hspellsₗ hspellsᵣ hop hmod chained
  have hstarts (gs : List SqlForm) (hnegated : negated = false) :
      (fl ++ gs).head? ≠ some (.word "NOT") := by
    rw [List.head?_append_of_ne_nil _ hreadsₗ.ne_nil]
    exact hstartsₗ hnegated
  cases op with
  | div =>
    exact ⟨_, _, hspells, .div hgroupsₗ hreadsᵣ.readAll hgroupsᵣ,
      reads_product (.inr (.inl rfl)) hreadsₗ (reads_divisor fr), hstarts _⟩
  | divby =>
    have hnumber : Reads dialect [.word "1.0"] (.operand [.word "1.0"]) Dialect.top Dialect.top :=
      .operand (SqlTerm.isOperand_word (by decide))
    have hreads := reads_product (.inr (.inl rfl)) (reads_product (.inl rfl) hreadsₗ hnumber)
      (reads_divisor fr)
    rw [List.append_assoc] at hreads
    exact ⟨_, _, hspells, .divby hgroupsₗ hreadsᵣ.readAll hgroupsᵣ, hreads, hstarts _⟩
  | mod =>
    cases dialect with
    | sqlite => exact absurd ⟨rfl, rfl⟩ hmod
    | postgres =>
      exact ⟨_, _, hspells, .mod rfl hgroupsₗ hreadsᵣ.readAll hgroupsᵣ,
        reads_product (.inr (.inr rfl)) hreadsₗ (reads_divisor fr), hstarts _⟩
  | _ => cases hop

theorem regroups_modulo (hl : Regroups .sqlite rootAlias left level reach negated l)
    (hr : Regroups .sqlite rootAlias right level' reach' negated' r) (chained : Bool) :
    Regroups .sqlite rootAlias (binary .mod left right) Dialect.top Dialect.top false
      (SqlPiece.operation .sqlite .mod chained l r) := by
  obtain ⟨fl, tl, hspellsₗ, hgroupsₗ, hreadsₗ, _⟩ := hl
  obtain ⟨fr, tr, hspellsᵣ, hgroupsᵣ, hreadsᵣ, _⟩ := hr
  exact regroups_operand (SqlPiece.spells_modulo hspellsₗ hspellsᵣ chained)
    (.modulo rfl hreadsₗ.readAll hgroupsₗ hreadsᵣ.readAll hgroupsᵣ)
    (SqlTerm.isOperand_bracket _) nofun

theorem regroups_membership
    (h : Regroups dialect rootAlias e dialect.membershipLevel (dialect.membershipLevel + 1) negated
      ps)
    (list : List Value) :
    Regroups dialect rootAlias (membership e list) dialect.membershipLevel
      (dialect.membershipLevel + 1) true (ps ++ .text " IN " :: SqlPiece.ofItems list) := by
  obtain ⟨fs, t, hspells, hgroups, hreads, _⟩ := h
  refine ⟨_, _, SqlPiece.spells_membership hspells list, .membership hgroups, ?_, nofun⟩
  exact hreads.inList (.membership dialect.membershipLevel) (fun rest => by cases dialect <;> rfl)
    rfl (Nat.lt_succ_self _) (Nat.le_refl _) (Nat.le_refl _) (Nat.le_refl _)

theorem regroups_unary (u : UnaryOp)
    (h : Regroups dialect rootAlias e Dialect.top Dialect.notLevel negated ps) :
    Regroups dialect rootAlias (unary u e) Dialect.top 0 true (.ofPrefix u :: ps) := by
  obtain ⟨fs, t, hspells, hgroups, hreads, _⟩ := h
  have hspells := SqlPiece.spells_unary hspells u
  cases u with
  | not =>
    exact ⟨_, _, hspells, .not hgroups,
      hreads.prefixed (fun _ => rfl) (by decide) (Nat.zero_le _) (Nat.zero_le _), nofun⟩
  | negate =>
    exact ⟨_, _, hspells, .negate hgroups,
      hreads.prefixed (fun _ => rfl) (by cases dialect <;> decide) (Nat.zero_le _) (Nat.zero_le _),
      nofun⟩

theorem regroups_lambda (binder : Binder)
    (h : Regroups dialect rootAlias e level reach negated ps) :
    Regroups dialect rootAlias (lambda binder e) Dialect.top ((lambda binder e).reach dialect)
      (lambda binder e).mayStartWithNot (SqlPiece.ofLambda binder.quantifier
        ((SqlWriter.start dialect rootAlias).subqueryHead binder) ps) := by
  obtain ⟨fs, t, hspells, hgroups, hreads, _⟩ := h
  have hspells := SqlPiece.spells_lambda rootAlias binder hspells
  obtain ⟨navigation, quantifier, bound⟩ := binder
  have hexists (gs : List SqlForm) : IsOperand dialect (SqlForm.subquery gs) :=
    SqlTerm.isOperand_call (by decide) gs
  cases quantifier with
  | any =>
    exact regroups_operand hspells (.any hreads.readAll hgroups) (hexists _) (word_ne (by decide))
  | all =>
    have hoperand : Reads dialect (SqlForm.subquery
        (SqlForm.head rootAlias ⟨navigation, .all, bound⟩ ++ SqlForm.failing fs)) _ Dialect.notLevel
          Dialect.notLevel := .operand (hexists _)
    exact ⟨_, _, hspells, .all hreads.readAll hgroups,
      hoperand.prefixed (fun _ => rfl) (Nat.le_refl _) (Nat.le_refl _) (Nat.le_refl _), nofun⟩

theorem regroups_bare (binder : Binder) :
    Regroups dialect rootAlias (bare binder) Dialect.top Dialect.top false
      (SqlPiece.ofBare binder.quantifier
        ((SqlWriter.start dialect rootAlias).subqueryHead binder)) := by
  refine regroups_operand (SqlPiece.spells_bare binder) .bare ?_ ?_
  · cases binder.quantifier with
    | any => exact SqlTerm.isOperand_call (by decide) _
    | all => exact SqlTerm.isOperand_bracket _
  · cases binder.quantifier with
    | any => exact word_ne (by decide)
    | all => nofun

theorem regroups_literal (v : Value) :
    Regroups dialect rootAlias (literal v) Dialect.top Dialect.top false [SqlWriter.literal v] := by
  refine regroups_operand (SqlPiece.spells_literal v) .literal ?_ ?_
  · unfold SqlForm.ofLiteral
    split
    · exact SqlTerm.isOperand_word (by decide)
    · exact SqlTerm.isOperand_parameter
  · unfold SqlForm.ofLiteral
    split
    · exact word_ne (by decide)
    · nofun

theorem regroups_field (f : Field) :
    Regroups dialect rootAlias (field f) Dialect.top Dialect.top false
      [.text ((SqlWriter.start dialect rootAlias).column f)] :=
  regroups_operand (SqlPiece.spells_column _ _) .field (fun _ _ => ⟨rfl, rfl⟩) nofun

/-- The arguments of a call are read one by one. -/
theorem exists_arguments {es : List Expr} {pss : List (List SqlPiece)}
    (h : List.Forall₂ (fun e ps => ∃ level reach negated,
      Regroups dialect rootAlias e level reach negated ps) es pss) :
    ∃ fss ts, List.Forall₂ (Spells dialect) pss fss ∧
      List.Forall₂ (fun fs t => SqlTerm.readAll dialect fs = some t) fss ts ∧
      ts.length = es.length ∧
      ∀ (i : Nat) e t, es[i]? = some e → ts[i]? = some t → e.Groups dialect rootAlias t := by
  induction h with
  | nil => exact ⟨[], [], .nil, .nil, rfl, nofun⟩
  | cons hfirst _ ih =>
    obtain ⟨level, reach, negated, fs, t, hspells, hgroups, hreads, _⟩ := hfirst
    obtain ⟨fss, ts, hspellss, hreadss, hlength, hgroupss⟩ := ih
    refine ⟨fs :: fss, t :: ts, .cons hspells hspellss, .cons hreads.readAll hreadss,
      congrArg (· + 1) hlength, ?_⟩
    intro i e t' he ht
    cases i with
    | zero =>
      cases he
      cases ht
      exact hgroups
    | succ i => exact hgroupss i e t' he ht

/-- A call is written by the template of its function. -/
theorem regroups_call {function : Function} {arguments : List Expr} {pss : List (List SqlPiece)}
    (h : List.Forall₂ (fun e ps => ∃ level reach negated,
      Regroups dialect rootAlias e level reach negated ps) arguments pss)
    (hps : SqlPiece.ofCall dialect function pss = .ok ps) :
    Regroups dialect rootAlias (call function arguments) Dialect.top Dialect.top false ps := by
  have htemplate (hps : SqlWriter.ofTemplate dialect function pss.length pss = .ok ps) :
      Regroups dialect rootAlias (call function arguments) Dialect.top Dialect.top false ps := by
    rw [← h.length_eq] at hps
    unfold SqlWriter.ofTemplate at hps
    split at hps
    · cases hps
    · next template htemplate =>
      split at hps
      · next ps' hexpand =>
        cases hps
        obtain ⟨fss, ts, hspells, hreads, hlength, hgroups⟩ := exists_arguments h
        obtain ⟨_, outline, houtline, hcall⟩ := SqlTemplate.exists_outline htemplate
        have hcall := SqlForm.isCall_fillAll hcall fss
        exact regroups_operand (SqlPiece.spells_template htemplate houtline hspells hexpand)
          (.call htemplate houtline hreads hlength hgroups) (isOperand_of_isCall hcall)
          (head?_of_isCall hcall)
      · cases hps
  cases function with
  | minDateTime =>
    cases hps
    exact regroups_operand (SqlPiece.spells_param _) (.bound (.inl rfl)) SqlTerm.isOperand_parameter
      nofun
  | maxDateTime =>
    cases hps
    exact regroups_operand (SqlPiece.spells_param _) (.bound (.inr rfl)) SqlTerm.isOperand_parameter
      nofun
  | _ => exact htemplate hps

end Regroups

variable {root : EntityType} {dialect : Dialect} {rootAlias : String}

/-- An operation that does not divide stands between its operands. In PostgreSQL an equality test at
the left is put into parentheses. -/
theorem operation_eq {op : BinaryOp} (hop : op.isDivision = false) (equality g : Bool)
    (l r : List SqlPiece) :
    SqlPiece.operation dialect op (equality && !g) (SqlPiece.grouped g l) r =
      SqlPiece.grouped (g || (dialect == .postgres && op.isEquality && equality)) l ++
        .text (dialect.operator op) :: r := by
  have hmod : ¬(dialect = .sqlite ∧ op = .mod) := by
    rintro ⟨_, rfl⟩
    cases hop
  rw [SqlPiece.operation, if_neg hmod, if_neg (by rw [hop]; exact Bool.false_ne_true)]
  cases g with
  | true =>
    rw [if_neg (by simp)]
    rfl
  | false =>
    cases dialect <;> cases op.isEquality <;> cases equality <;> rfl

/-- A left operand without parentheses starts with `NOT` only where the operation may. -/
theorem mayStartWithNot_left {op : BinaryOp} {left right : Expr} (hsettled : Settled op left right)
    (hgroup : needsGroup (binary op left right) left .left = false)
    (hstarts : (binary op left right).mayStartWithNot = false) : left.mayStartWithNot = false := by
  refine left_starts hsettled ?_ hgroup
  obtain ⟨h, _⟩ | ⟨h, _⟩ | ⟨h, _⟩ | ⟨h, _⟩ := classify op
  · rw [mayStartWithNot, h] at hstarts
    cases hstarts
  · rw [mayStartWithNot, h, Bool.or_true] at hstarts
    cases hstarts
  · exact .inr h
  · exact .inl h

/-- The left operand stays within the bounds of its operator, in parentheses or without them. -/
theorem Regroups.left_operand {op : BinaryOp} {left right : Expr} {l : List SqlPiece}
    (hl : Regroups dialect rootAlias left (left.lowest dialect) (left.reach dialect)
      left.mayStartWithNot l)
    (hsettled : Settled op left right) (hkeeps : KeepsOperands dialect (binary op left right))
    {g : Bool} (hgroup : g = false → needsGroup (binary op left right) left .left = false)
    (hwrap : g = false →
      ¬(dialect = .postgres ∧ op.isEquality = true ∧ left.isEquality = true)) :
    Regroups dialect rootAlias left (dialect.level op) (dialect.level op + 1)
      (binary op left right).mayStartWithNot (SqlPiece.grouped g l) := by
  refine hl.operand fun hg => ?_
  obtain ⟨hlowest, hreach⟩ := left_bounds hsettled hkeeps (hgroup hg) (hwrap hg)
  exact ⟨hlowest, hreach, mayStartWithNot_left hsettled (hgroup hg)⟩

/-- An operation is read as it is grouped, if it does not tear its operands apart. -/
theorem regroups_operation {op : BinaryOp} {left right : Expr} {l r : List SqlPiece}
    (hsettled : Settled op left right) (hkeeps : KeepsOperands dialect (binary op left right))
    (hl : Regroups dialect rootAlias left (left.lowest dialect) (left.reach dialect)
      left.mayStartWithNot l)
    (hr : Regroups dialect rootAlias right (right.lowest dialect) (right.reach dialect)
      right.mayStartWithNot r) :
    Regroups dialect rootAlias (binary op left right) ((binary op left right).lowest dialect)
      ((binary op left right).reach dialect) (binary op left right).mayStartWithNot
      (SqlPiece.operation dialect op
        (left.isEquality && !needsGroup (binary op left right) left .left)
        (SqlPiece.grouped (needsGroup (binary op left right) left .left) l)
        (SqlPiece.grouped (needsGroup (binary op left right) right .right) r)) := by
  by_cases hmod : dialect = .sqlite ∧ op = .mod
  · obtain ⟨rfl, rfl⟩ := hmod
    have hl := hl.operand (g := needsGroup (binary .mod left right) left .left)
      fun _ => ⟨Nat.le_refl _, Nat.le_refl _, id⟩
    have hr := hr.operand (g := needsGroup (binary .mod left right) right .right)
      fun _ => ⟨Nat.le_refl _, Nat.le_refl _, id⟩
    exact regroups_modulo hl hr _
  · have hlowest : (binary op left right).lowest dialect = dialect.level op := by
      rw [lowest, if_neg hmod]
    rw [hlowest]
    cases hop : op.isDivision with
    | true =>
      have hequality : ¬op.isEquality = true := by
        cases op with
        | div | divby | mod => exact Bool.false_ne_true
        | _ => cases hop
      have hl := hl.left_operand hsettled hkeeps id fun _ hwrap => hequality hwrap.2.1
      have hr := hr.operand (g := needsGroup (binary op left right) right .right)
        fun _ => ⟨Nat.le_refl _, Nat.le_refl _, id⟩
      exact (regroups_division hop hmod hl hr _).mono (Nat.le_refl _) (reach_le_succ hmod) id
    | false =>
      rw [operation_eq hop]
      refine regroups_binary hop (hl.left_operand hsettled hkeeps ?_ ?_)
        (hr.operand fun hgroup => ?_) (reach_le hmod)
      · exact fun hg => (Bool.or_eq_false_iff.mp hg).1
      · rintro hg ⟨rfl, hequality, hleft⟩
        rw [hequality, hleft, Bool.or_eq_false_iff] at hg
        cases hg.2
      · obtain ⟨hbehind, hreach⟩ := right_bounds hsettled hkeeps hgroup hmod
        refine ⟨hbehind, hreach, fun hstarts => ?_⟩
        obtain ⟨hdialect, heq⟩ : dialect = .sqlite ∧ op = .eq := by simpa using hstarts
        subst hdialect heq
        exact right_starts hkeeps hgroup

/-- What a typed expression is rendered to is read as a term that groups as the expression does, if
no node tears its operands apart. -/
theorem Typed.regroups {scope : List Frame} {e : Expr} (h : Typed root scope e)
    (hkeeps : ∀ p ∈ e.parts, p.KeepsOperands dialect) {ps : List SqlPiece}
    (hps : e.render dialect rootAlias = .ok ps) :
    Regroups dialect rootAlias e (e.lowest dialect) (e.reach dialect) e.mayStartWithNot ps := by
  induction h generalizing ps with
  | literal =>
    cases hps
    exact regroups_literal _
  | field =>
    cases hps
    exact regroups_field _
  | @binary scope op left right hleft hright hsettled ihl ihr =>
    obtain ⟨hself, hparts⟩ := List.forall_mem_cons.mp hkeeps
    obtain ⟨hkeepsₗ, hkeepsᵣ⟩ := List.forall_mem_append.mp hparts
    obtain ⟨l, hrenderₗ, hps⟩ := Result.bind_eq_ok.mp hps
    obtain ⟨r, hrenderᵣ, hps⟩ := Result.bind_eq_ok.mp hps
    cases hps
    exact regroups_operation hsettled hself (ihl hkeepsₗ hrenderₗ) (ihr hkeepsᵣ hrenderᵣ)
  | @unary scope u operand _ _ ih =>
    obtain ⟨_, hparts⟩ := List.forall_mem_cons.mp hkeeps
    obtain ⟨qs, hrender, hps⟩ := Result.bind_eq_ok.mp hps
    cases hps
    have hoperand : Regroups dialect rootAlias operand Dialect.top Dialect.notLevel true
        (SqlPiece.grouped (needsGroup (Expr.unary u operand) operand .right) qs) := by
      refine (ih hparts hrender).operand fun hgroup => ?_
      obtain ⟨hlowest, hreach⟩ := bounds_of_precedence dialect
        (precedence_of_needsGroup_prefixed (Expr.unary u operand) rfl rfl hgroup)
      exact ⟨hlowest, hreach, nofun⟩
    exact regroups_unary u hoperand
  | @membership scope operand list _ _ ih =>
    obtain ⟨hself, hparts⟩ := List.forall_mem_cons.mp hkeeps
    obtain ⟨qs, hrender, hps⟩ := Result.bind_eq_ok.mp hps
    cases hps
    have hoperand : Regroups dialect rootAlias operand dialect.membershipLevel
        (dialect.membershipLevel + 1) true
        (SqlPiece.grouped (needsGroup (Expr.membership operand list) operand .left) qs) := by
      refine (ih hparts hrender).operand fun hgroup => ?_
      obtain ⟨hlowest, hreach⟩ := membership_bounds hself.quantifiers hgroup
      exact ⟨hlowest, hreach, nofun⟩
    exact regroups_membership hoperand list
  | @call scope function arguments type _ _ ih =>
    obtain ⟨_, hparts⟩ := List.forall_mem_cons.mp hkeeps
    obtain ⟨pss, hrender, hps⟩ := Result.bind_eq_ok.mp hps
    exact regroups_call (forall₂_renderAll (fun e he ps hps => ⟨_, _, _, ih e he
      (fun p hp => hparts p (parts_subset_partsOfAll he hp)) hps⟩) hrender) hps
  | @lambda scope origin entity p target link quantifier frame body _ _ _ _ _ _ ih =>
    obtain ⟨_, hparts⟩ := List.forall_mem_cons.mp hkeeps
    obtain ⟨qs, hrender, hps⟩ := Result.bind_eq_ok.mp hps
    cases hps
    exact regroups_lambda _ (ih hparts hrender)
  | bare =>
    cases hps
    exact regroups_bare _

end Expr

-- ════════════════════════════════════════════════════════════════════════
-- Clauses
-- ════════════════════════════════════════════════════════════════════════

namespace SqlPiece

open SqlForm (flattenAll)

variable {dialect : Dialect} {ps qs : List SqlPiece} {fs : List SqlForm}

/-- The forms of a clause are those that its pieces spell. -/
theorem Spells.forms?_ofPieces (h : Spells dialect ps fs) :
    (SqlClause.ofPieces dialect ps).forms? = some fs := by
  have htext := h 0 [] rfl
  have hnest := SqlForm.nest_flattenAll [] [] fs []
  rw [List.append_nil] at htext hnest
  rw [SqlClause.forms?]
  show SqlForm.nest [] [] (SqlLexeme.ofText (chars dialect 0 ps)) = _
  rw [htext]
  exact (congrArg (SqlForm.nest [] []) (List.append_nil _)).trans (hnest.trans rfl)

theorem chars_append_congr {qs' : List SqlPiece}
    (h : ∀ count, chars dialect count qs = chars dialect count qs') (count : Nat)
    (ps : List SqlPiece) : chars dialect count (ps ++ qs) = chars dialect count (ps ++ qs') := by
  induction ps generalizing count with
  | nil => exact h count
  | cons p ps ih =>
    cases p with
    | text s => rw [List.cons_append, List.cons_append, chars_text, chars_text, ih]
    | param v => rw [List.cons_append, List.cons_append, chars_param, chars_param, ih]

theorem spells_column_item (h : Spells dialect ps fs) (name : String) :
    Spells dialect (ps ++ [.text (" AS " ++ SqlWriter.quote name)])
      (fs ++ [.word "AS", .name name]) :=
  (spells_between " AS " ["AS"] h (spells_name name) (by decide +kernel) (by decide +kernel)
    (by decide +kernel)).congr fun count =>
      chars_append_congr (fun count => chars_text_append dialect count " AS " _ []) count ps

/-- Columns are spelled with commas between them. -/
theorem spells_columns {items : List ComputeItem} {rendered : List (List SqlPiece)}
    {fss : List (List SqlForm)} (hlength : items.length = rendered.length)
    (h : List.Forall₂ (Spells dialect) rendered fss) :
    Spells dialect (columns items rendered)
      (SqlTerm.ofColumns (fss.zip (items.map ComputeItem.resultName))) := by
  induction h generalizing items with
  | nil =>
    cases items with
    | nil => exact fun _ _ _ => rfl
    | cons item items => cases hlength
  | @cons ps fs rendered fss hfirst hrest ih =>
    cases items with
    | nil => cases hlength
    | cons item items =>
      have hmore := ih (Nat.succ.inj hlength)
      have hitem := spells_column_item hfirst item.resultName
      cases hrest with
      | nil =>
        cases items with
        | cons item' items => cases hlength
        | nil =>
          have hcolumns : columns [item] [ps] =
              ps ++ [.text (" AS " ++ SqlWriter.quote item.resultName)] := List.append_nil _
          rw [hcolumns]
          exact hitem
      | @cons ps' fs' rendered fss hsecond hrest =>
        cases items with
        | nil => cases hlength
        | cons item' items =>
          have hspells := spells_between ", " [","] hitem hmore (by decide +kernel)
            (by decide +kernel) (by decide +kernel)
          rw [List.append_assoc fs] at hspells
          exact hspells

end SqlPiece

namespace SqlClause

variable {root entity : EntityType} {options : SqlOptions} {c : SqlClause} {maxDepth : Nat}

/-- The condition of an accepted expression is read as a term that groups as the expression does, if
no node tears its operands apart. -/
theorem groups_of_ofExpr {e : Expr} (he : e.Accepted entity maxDepth)
    (hkeeps : ∀ p ∈ e.parts, p.KeepsOperands options.dialect)
    (h : ofExpr e entity options = .ok c) :
    ∃ t, c.term? options.dialect = some t ∧
      e.Groups options.dialect (options.tableAlias.getD entity.source) t := by
  obtain ⟨ps, hps, hc⟩ := Result.bind_eq_ok.mp h
  cases hc
  obtain ⟨fs, t, hspells, hgroups, hreads, _⟩ :=
    he.typed.regroups hkeeps (he.typed.render_of_piecesOf hps)
  refine ⟨t, ?_, hgroups⟩
  rw [term?, hspells.forms?_ofPieces]
  exact hreads.readAll

/-- The terms of columns whose forms are given. -/
theorem columnTerms?_of_forms? {dialect : Dialect} {columns : List (List SqlForm × String)}
    {terms : List (SqlTerm × String)} (hforms : c.forms? = some (SqlTerm.ofColumns columns))
    (h : List.Forall₂ (fun (column : List SqlForm × String) (term : SqlTerm × String) =>
      term.2 = column.2 ∧ ∃ level reach, SqlTerm.Reads dialect column.1 term.1 level reach)
      columns terms) :
    c.columnTerms? dialect = some terms := by
  rw [columnTerms?, hforms, Option.bind_some]
  by_cases hne : columns = []
  · subst hne
    cases h
    rfl
  · rw [if_neg (fun hempty => SqlTerm.ofColumns_ne_nil hne (List.isEmpty_iff.mp hempty))]
    exact SqlTerm.readColumns_ofColumns h hne (SqlTerm.length_le_ofColumns columns)

/-- The terms of columns whose expressions are read among other forms. -/
theorem exists_terms {dialect : Dialect} {rootAlias : String} {items : List ComputeItem}
    {rendered : List (List SqlPiece)}
    (h : List.Forall₂ (fun item ps => ∃ level reach negated,
      item.expr.Regroups dialect rootAlias level reach negated ps) items rendered) :
    ∃ fss terms, List.Forall₂ (SqlPiece.Spells dialect) rendered fss ∧
      List.Forall₂ (fun (column : List SqlForm × String) (term : SqlTerm × String) =>
        term.2 = column.2 ∧ ∃ level reach, SqlTerm.Reads dialect column.1 term.1 level reach)
        (fss.zip (items.map ComputeItem.resultName)) terms ∧
      List.Forall₂ (fun item (term : SqlTerm × String) => term.2 = item.resultName ∧
        item.expr.Groups dialect rootAlias term.1) items terms := by
  induction h with
  | nil => exact ⟨[], [], .nil, .nil, .nil⟩
  | @cons item ps items rendered hfirst _ ih =>
    obtain ⟨level, reach, negated, fs, t, hspells, hgroups, hreads, _⟩ := hfirst
    obtain ⟨fss, terms, hspellss, hreadss, hgroupss⟩ := ih
    exact ⟨fs :: fss, (t, item.resultName) :: terms, .cons hspells hspellss,
      .cons ⟨rfl, level, reach, hreads⟩ hreadss, .cons ⟨rfl, hgroups⟩ hgroupss⟩

/-- The columns of accepted expressions are read as terms that group as the expressions do, each
with its name. -/
theorem groups_of_ofItems {items : List ComputeItem}
    (hitems : ∀ item ∈ items, item.expr.Accepted entity maxDepth)
    (hkeeps : ∀ item ∈ items, ∀ p ∈ item.expr.parts, p.KeepsOperands options.dialect)
    (h : ofItems items entity options = .ok c) :
    ∃ terms, c.columnTerms? options.dialect = some terms ∧
      List.Forall₂ (fun item (term : SqlTerm × String) => term.2 = item.resultName ∧
        item.expr.Groups options.dialect (options.tableAlias.getD entity.source) term.1)
        items terms := by
  obtain ⟨pss, hpss, hc⟩ := Result.bind_eq_ok.mp h
  cases hc
  obtain ⟨rendered, hrendered, rfl⟩ :=
    exists_rendered_of_mapM (fun item hitem => (hitems item hitem).typed) hpss
  have hregroups : List.Forall₂ (fun item ps => ∃ level reach negated, item.expr.Regroups
      options.dialect (options.tableAlias.getD entity.source) level reach negated ps)
      items rendered := by
    have hboth := (List.forall₂_and_left _ _).mpr
      ⟨fun item hitem => And.intro (hitems item hitem).typed (hkeeps item hitem), hrendered⟩
    exact hboth.imp fun item ps h => ⟨_, _, _, h.1.1.regroups h.1.2 h.2⟩
  obtain ⟨fss, terms, hspells, hreads, hgroups⟩ := exists_terms hregroups
  refine ⟨terms, ?_, hgroups⟩
  exact columnTerms?_of_forms?
    (SqlPiece.spells_columns hrendered.length_eq hspells).forms?_ofPieces hreads

end SqlClause

end ODataQuery
