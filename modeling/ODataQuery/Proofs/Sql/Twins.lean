import Mathlib.Data.List.Forall2
import ODataQuery.Proofs.Expr.Skeleton
import ODataQuery.Proofs.Result
import ODataQuery.Sql.Clause

/-!
# Two clauses written side by side

A relation between parameters extends to everything that is written: the texts are equal, and the
parameters are related wherever they stand. Writing keeps the relation, event by event.

## Main definitions

- `SqlPiece.Twin`, `SqlFrame.Twin`, `SqlWriter.Twin` — equal but for related parameters
- `Event.Twin` — events that are equal but for literals with related parameters

## Main statements

- `SqlWriter.handle_twin` — a step keeps the relation
- `SqlWriter.feed_twin` — so does a run
- `SqlClause.textFrom_twin` — the clauses have the same text
-/

namespace ODataQuery

variable {R : SqlValue → SqlValue → Prop}

-- ════════════════════════════════════════════════════════════════════════
-- Pieces
-- ════════════════════════════════════════════════════════════════════════

/-- The same text, or two related parameters. -/
inductive SqlPiece.Twin (R : SqlValue → SqlValue → Prop) : SqlPiece → SqlPiece → Prop
  | text (s : String) : Twin R (.text s) (.text s)
  | param {v v' : SqlValue} (h : R v v') : Twin R (.param v) (.param v')

/-- Pieces that are equal but for related parameters. -/
abbrev SqlPiece.Twins (R : SqlValue → SqlValue → Prop) := List.Forall₂ (SqlPiece.Twin R)

namespace SqlPiece

variable {ps ps' qs qs' : List SqlPiece}

theorem twins_text (s : String) : Twins R [.text s] [.text s] := .cons (.text s) .nil

theorem Twins.append (h : Twins R ps ps') (h' : Twins R qs qs') :
    Twins R (ps ++ qs) (ps' ++ qs') := List.rel_append h h'

theorem Twins.mono {S : SqlValue → SqlValue → Prop} (h : Twins R ps ps')
    (hRS : ∀ v v', R v v' → S v v') : Twins S ps ps' :=
  h.imp fun _ _ hpiece => match hpiece with
    | .text s => .text s
    | .param hv => .param (hRS _ _ hv)

/-- Text around pieces. -/
theorem Twins.between (h : Twins R ps ps') (before behind : String) :
    Twins R (.text before :: (ps ++ [.text behind])) (.text before :: (ps' ++ [.text behind])) :=
  .cons (.text before) (h.append (twins_text behind))

theorem Twins.isEmpty_eq (h : Twins R ps ps') : ps.isEmpty = ps'.isEmpty := by
  cases h <;> rfl

end SqlPiece

namespace SqlTemplate

variable {args args' : List (List SqlPiece)}

theorem expandPart?_twins (h : List.Forall₂ (SqlPiece.Twins R) args args') (part : TemplatePart) :
    Option.Rel (SqlPiece.Twins R) (expandPart? args part) (expandPart? args' part) := by
  cases part with
  | text s => exact .some (SqlPiece.twins_text s)
  | slot index =>
    show Option.Rel _ args[index]? args'[index]?
    induction h generalizing index with
    | nil => exact .none
    | cons hfirst _ ih =>
      cases index with
      | zero => exact .some hfirst
      | succ index => exact ih index

/-- A template takes related arguments to related pieces. -/
theorem expand?_twins (h : List.Forall₂ (SqlPiece.Twins R) args args') (template : SqlTemplate) :
    Option.Rel (SqlPiece.Twins R) (template.expand? args) (template.expand? args') := by
  have hparts : Option.Rel (List.Forall₂ (SqlPiece.Twins R))
      (template.mapM (expandPart? args)) (template.mapM (expandPart? args')) := by
    induction template with
    | nil => exact .some .nil
    | cons part parts ih =>
      rw [List.mapM_cons, List.mapM_cons]
      have hpart := expandPart?_twins h part
      revert hpart
      cases expandPart? args part <;> cases expandPart? args' part <;> intro hpart <;> cases hpart
      · exact .none
      · rename_i hpart
        revert ih
        cases parts.mapM (expandPart? args) <;> cases parts.mapM (expandPart? args') <;>
          intro ih <;> cases ih
        · exact .none
        · rename_i hrest
          exact .some (.cons hpart hrest)
  unfold expand?
  revert hparts
  cases template.mapM (expandPart? args) <;> cases template.mapM (expandPart? args') <;>
    intro hparts <;> cases hparts
  · exact .none
  · rename_i hparts
    exact .some (List.rel_flatten hparts)

end SqlTemplate

-- ════════════════════════════════════════════════════════════════════════
-- Frames
-- ════════════════════════════════════════════════════════════════════════

/-- Frames that are equal but for related parameters. The parameter of a constant call that is open
is related to itself. -/
structure SqlFrame.Twin (R : SqlValue → SqlValue → Prop) (f f' : SqlFrame) : Prop where
  scope : f.scope = f'.scope
  constant : ∀ function arity, f.scope = .call function arity → ∀ v ∈ function.parameter?, R v v
  pieces : SqlPiece.Twins R f.pieces f'.pieces
  arguments : List.Forall₂ (SqlPiece.Twins R) f.arguments f'.arguments
  isDivisor : f.isDivisor = f'.isDivisor
  dividend : Option.Rel (SqlPiece.Twins R) f.dividend f'.dividend
  operators : f.operators = f'.operators

namespace SqlFrame

variable {f f' : SqlFrame} {ps ps' : List SqlPiece}

theorem twin_opened {scope : SqlScope}
    (h : ∀ function arity, scope = .call function arity → ∀ v ∈ function.parameter?, R v v) :
    Twin R (opened scope) (opened scope) := ⟨rfl, h, .nil, .nil, rfl, .none, rfl⟩

theorem Twin.write (h : Twin R f f') (hps : SqlPiece.Twins R ps ps') :
    Twin R (f.write ps) (f'.write ps') := { h with pieces := h.pieces.append hps }

theorem Twin.closeDivisor (h : Twin R f f') : Twin R f.closeDivisor f'.closeDivisor := by
  unfold SqlFrame.closeDivisor
  rw [← h.isDivisor]
  split
  · exact { h.write (SqlPiece.twins_text ", 0)") with isDivisor := rfl }
  · exact h

theorem Twin.operand (h : Twin R f f') (hps : SqlPiece.Twins R ps ps') :
    Result.Alike (Twin R) (f.operand ps) (f'.operand ps') := by
  have hdividend := h.dividend
  unfold SqlFrame.operand
  revert hdividend
  cases f.dividend <;> cases f'.dividend <;> intro hdividend <;> cases hdividend
  · exact .ok (h.write hps).closeDivisor
  · rename_i dividend dividend' hdividend
    have harguments : List.Forall₂ (SqlPiece.Twins R) [dividend, ps] [dividend', ps'] :=
      .cons hdividend (.cons hps .nil)
    have hexpanded := SqlTemplate.expand?_twins harguments SqlTemplate.sqliteModulo
    revert hexpanded
    dsimp only
    cases SqlTemplate.sqliteModulo.expand? [dividend, ps] <;>
      cases SqlTemplate.sqliteModulo.expand? [dividend', ps'] <;>
      intro hexpanded <;> cases hexpanded
    · exact .error _
    · rename_i hexpanded
      have hcleared : Twin R { f with dividend := none } { f' with dividend := none } :=
        { h with dividend := .none }
      exact .ok (hcleared.write hexpanded).closeDivisor

theorem Twin.operandStart (h : Twin R f f') (precedence : Nat) :
    f.operandStart precedence = f'.operandStart precedence := by
  rw [SqlFrame.operandStart, SqlFrame.operandStart, h.operators]

theorem Twin.hasEquality (h : Twin R f f') (start : Nat) :
    f.hasEquality start = f'.hasEquality start := by
  rw [SqlFrame.hasEquality, SqlFrame.hasEquality, h.operators]

theorem Twin.takeDividend (h : Twin R f f') (start : Nat) :
    Twin R (f.takeDividend start) (f'.takeDividend start) :=
  { h with
    pieces := List.forall₂_take start h.pieces
    dividend := .some (List.forall₂_drop start h.pieces)
    operators := congrArg (List.filter _) h.operators }

theorem Twin.wrap (h : Twin R f f') (start : Nat) : Twin R (f.wrap start) (f'.wrap start) :=
  { h with
    pieces := List.rel_append (List.forall₂_take start h.pieces)
      (SqlPiece.Twins.between (List.forall₂_drop start h.pieces) "(" ")")
    operators := congrArg (List.filter _) h.operators }

theorem Twin.placeOperator (h : Twin R f f') (dialect : Dialect) (op : BinaryOp) :
    Twin R (f.placeOperator dialect op) (f'.placeOperator dialect op) := by
  have hwritten := h.write (SqlPiece.twins_text (dialect.operator op))
  have hlength := hwritten.pieces.length_eq
  refine { hwritten with isDivisor := ?_, operators := ?_ }
  · show (f.isDivisor || op.isDivision) = (f'.isDivisor || op.isDivision)
    rw [h.isDivisor]
  · show _ :: f.operators = _ :: f'.operators
    rw [hlength, h.operators]

theorem Twin.binary (h : Twin R f f') (dialect : Dialect) (op : BinaryOp) :
    Twin R (f.binary dialect op) (f'.binary dialect op) := by
  unfold SqlFrame.binary
  simp only [← h.operandStart, ← h.hasEquality]
  split
  · exact h.takeDividend _
  · split
    · exact (h.wrap _).placeOperator dialect op
    · exact h.placeOperator dialect op

end SqlFrame

-- ════════════════════════════════════════════════════════════════════════
-- Operands of closed frames
-- ════════════════════════════════════════════════════════════════════════

namespace SqlWriter

variable {f f' : SqlFrame}

theorem ofGroup_twin (h : f.Twin R f') :
    Result.Alike (SqlPiece.Twins R) (ofGroup f) (ofGroup f') := by
  unfold ofGroup
  rw [← h.scope]
  split
  · exact .ok (h.pieces.between "(" ")")
  · exact .error _

theorem ofList_twin (h : f.Twin R f') :
    Result.Alike (SqlPiece.Twins R) (ofList f) (ofList f') := by
  unfold ofList
  rw [← h.scope]
  split
  · exact .ok (h.pieces.between "(" ")")
  · exact .error _

theorem ofTemplate_twin {args args' : List (List SqlPiece)}
    (h : List.Forall₂ (SqlPiece.Twins R) args args') (dialect : Dialect) (function : Function)
    (arity : Nat) :
    Result.Alike (SqlPiece.Twins R) (ofTemplate dialect function arity args)
      (ofTemplate dialect function arity args') := by
  unfold ofTemplate
  cases dialect.template? function arity with
  | none => exact .error _
  | some template =>
    have hexpanded := SqlTemplate.expand?_twins h template
    revert hexpanded
    dsimp only
    cases template.expand? args <;> cases template.expand? args' <;> intro hexpanded <;>
      cases hexpanded
    · exact .error _
    · rename_i hexpanded
      exact .ok hexpanded

theorem ofCall_twin (h : f.Twin R f') (dialect : Dialect) :
    Result.Alike (SqlPiece.Twins R) (ofCall dialect f) (ofCall dialect f') := by
  have hconstant := h.constant
  unfold ofCall
  rw [← h.scope]
  split
  · rename_i function arity hscope
    have harguments : List.Forall₂ (SqlPiece.Twins R)
        (if arity = 0 then f.arguments else f.arguments ++ [f.pieces])
        (if arity = 0 then f'.arguments else f'.arguments ++ [f'.pieces]) := by
      split
      · exact h.arguments
      · exact List.rel_append h.arguments (.cons h.pieces .nil)
    cases function with
    | minDateTime | maxDateTime =>
      exact .ok (.cons (.param (hconstant _ _ hscope _ rfl)) .nil)
    | _ => exact ofTemplate_twin harguments dialect _ arity
  · exact .error _

theorem ofLambda_twin (h : f.Twin R f') :
    Result.Alike (SqlPiece.Twins R) (ofLambda f) (ofLambda f') := by
  unfold ofLambda
  rw [← h.scope]
  split
  · exact .ok (SqlPiece.twins_text _)
  · exact .ok (SqlPiece.twins_text _)
  · exact .ok (h.pieces.between _ _)
  · exact .ok (h.pieces.between _ _)
  · exact .error _

end SqlWriter

-- ════════════════════════════════════════════════════════════════════════
-- Events
-- ════════════════════════════════════════════════════════════════════════

/-- The same event, or two literals with related parameters. The parameter of a constant call is
related to itself. -/
inductive Event.Twin (R : SqlValue → SqlValue → Prop) : Event → Event → Prop
  | literal {v v' : Value} (hnull : v.isNull = v'.isNull)
      (h : v.isNull = false → R v.toSql v'.toSql) : Twin R (.literal v) (.literal v')
  | same {e : Event} (hliteral : ∀ v, e ≠ .literal v)
      (hconstant : ∀ v ∈ e.parameter?, R v v) : Twin R e e

theorem Event.Twin.mono {S : SqlValue → SqlValue → Prop} {e e' : Event} (h : e.Twin R e')
    (hRS : ∀ v v', R v v' → S v v') : e.Twin S e' := by
  cases h with
  | literal hnull hv => exact .literal hnull fun hnotNull => hRS _ _ (hv hnotNull)
  | same hliteral hconstant => exact .same hliteral fun v hv => hRS _ _ (hconstant v hv)

/-- Clauses that are equal but for related parameters. -/
structure SqlWriter.Twin (R : SqlValue → SqlValue → Prop) (w w' : SqlWriter) : Prop where
  dialect : w.dialect = w'.dialect
  rootAlias : w.rootAlias = w'.rootAlias
  current : w.current.Twin R w'.current
  outer : List.Forall₂ (SqlFrame.Twin R) w.outer w'.outer

namespace SqlWriter

variable {w w' : SqlWriter} {ps ps' : List SqlPiece}

theorem twin_start (dialect : Dialect) (rootAlias : String) :
    Twin R (start dialect rootAlias) (start dialect rootAlias) :=
  ⟨rfl, rfl, SqlFrame.twin_opened (fun _ _ h => nomatch h), .nil⟩

theorem Twin.openFrame (h : Twin R w w') {scope : SqlScope}
    (hscope : ∀ function arity, scope = .call function arity → ∀ v ∈ function.parameter?, R v v) :
    Twin R (w.openFrame scope) (w'.openFrame scope) :=
  { h with current := SqlFrame.twin_opened hscope, outer := .cons h.current h.outer }

theorem Twin.write (h : Twin R w w') (hps : SqlPiece.Twins R ps ps') :
    Twin R (w.write ps) (w'.write ps') := { h with current := h.current.write hps }

theorem Twin.operand (h : Twin R w w') (hps : SqlPiece.Twins R ps ps') :
    Result.Alike (Twin R) (w.operand ps) (w'.operand ps') :=
  (h.current.operand hps).bind fun _ _ hcurrent => .ok { h with current := hcurrent }

theorem Twin.close (h : Twin R w w') {run : SqlFrame → Except CompileError (List SqlPiece)}
    (hrun : ∀ f f', f.Twin R f' → Result.Alike (SqlPiece.Twins R) (run f) (run f')) :
    Result.Alike (Twin R) (w.close run) (w'.close run) := by
  have houter := h.outer
  unfold SqlWriter.close
  revert houter
  cases w.outer <;> cases w'.outer <;> intro houter <;> cases houter
  · exact .error _
  · rename_i hfirst hrest
    refine (hrun _ _ h.current).bind fun ps ps' hps => ?_
    exact Twin.operand ⟨h.dialect, h.rootAlias, hfirst, hrest⟩ hps

theorem Twin.aliasOf (h : Twin R w w') (origin : Option String) :
    w.aliasOf origin = w'.aliasOf origin := by
  rw [SqlWriter.aliasOf, SqlWriter.aliasOf, h.rootAlias]

theorem Twin.subqueryHead (h : Twin R w w') (binder : Binder) :
    w.subqueryHead binder = w'.subqueryHead binder := by
  unfold SqlWriter.subqueryHead
  dsimp only
  rw [h.aliasOf]

theorem Twin.separator (h : Twin R w w') :
    Result.Alike (Twin R) w.separator w'.separator := by
  unfold SqlWriter.separator
  rw [← h.current.scope]
  split
  · exact .ok (h.write (SqlPiece.twins_text ", "))
  · refine .ok { h with current := { h.current with pieces := .nil, arguments := ?_, operators := rfl } }
    exact List.rel_append h.current.arguments (.cons h.current.pieces .nil)
  · exact .error _

/-- The pieces of two literals. -/
theorem literal_twins {v v' : Value} (hnull : v.isNull = v'.isNull)
    (h : v.isNull = false → R v.toSql v'.toSql) :
    SqlPiece.Twins R [literal v] [literal v'] := by
  unfold literal
  rw [← hnull]
  cases hv : v.isNull with
  | true => exact SqlPiece.twins_text "NULL"
  | false => exact .cons (.param (h hv)) .nil

theorem handle_literal_twin (h : Twin R w w') {v v' : Value} (hnull : v.isNull = v'.isNull)
    (hv : v.isNull = false → R v.toSql v'.toSql) :
    Result.Alike (Twin R) (w.handle (.literal v)) (w'.handle (.literal v')) := by
  have hpieces := literal_twins hnull hv
  simp only [handle, ← h.current.scope]
  split
  · exact .ok (h.write hpieces)
  · exact h.operand hpieces

/-- An event keeps two clauses equal but for related parameters. -/
theorem handle_twin (h : Twin R w w') {e e' : Event} (he : e.Twin R e') :
    Result.Alike (Twin R) (w.handle e) (w'.handle e') := by
  cases he with
  | literal hnull hv => exact handle_literal_twin h hnull hv
  | same hliteral hconstant =>
    have hscope {scope : SqlScope} (hcall : ∀ function arity, scope ≠ .call function arity) :
        ∀ function arity, scope = .call function arity → ∀ v ∈ function.parameter?, R v v :=
      fun function arity hscope => absurd hscope (hcall function arity)
    cases e with
    | literal v => exact absurd rfl (hliteral v)
    | groupOpen => exact .ok (h.openFrame (hscope (by simp)))
    | groupClose => exact h.close fun _ _ => ofGroup_twin
    | operator op =>
      cases op with
      | binary op =>
        refine .ok ⟨h.dialect, h.rootAlias, ?_, h.outer⟩
        rw [← h.dialect]
        exact h.current.binary w.dialect op
      | unary op => cases op <;> exact .ok (h.write (SqlPiece.twins_text _))
      | membership => exact .ok (h.write (SqlPiece.twins_text _))
    | field f =>
      have hcolumn : w.column f = w'.column f := by
        rw [column, column, h.aliasOf]
      simp only [handle, hcolumn]
      exact h.operand (SqlPiece.twins_text _)
    | functionOpen function arity =>
      refine .ok (h.openFrame fun function' arity' hcall => ?_)
      cases hcall
      exact hconstant
    | separator => exact h.separator
    | functionClose =>
      simp only [handle, ← h.dialect]
      exact h.close fun _ _ hf => ofCall_twin hf w.dialect
    | listOpen => exact .ok (h.openFrame (hscope (by simp)))
    | listClose => exact h.close fun _ _ => ofList_twin
    | lambdaOpen binder hasBody =>
      simp only [handle, h.subqueryHead]
      exact .ok (h.openFrame (hscope (by simp)))
    | lambdaClose => exact h.close fun _ _ => ofLambda_twin

/-- A run keeps two clauses equal but for related parameters. -/
theorem feed_twin (dialect : Dialect) (rootAlias : String) (h : Twin R w w') {es es' : List Event}
    (hes : List.Forall₂ (Event.Twin R) es es') :
    Result.Alike (Twin R) ((listener dialect rootAlias).feed w es)
      ((listener dialect rootAlias).feed w' es') := by
  induction hes generalizing w w' with
  | nil => exact .ok h
  | cons he _ ih => exact (handle_twin h he).bind fun _ _ hnext => ih hnext

theorem pieces_twin (h : Twin R w w') :
    Result.Alike (SqlPiece.Twins R) w.pieces w'.pieces := by
  have houter : w.outer.isEmpty = w'.outer.isEmpty := by
    have := h.outer
    revert this
    cases w.outer <;> cases w'.outer <;> intro houter <;> cases houter <;> rfl
  unfold pieces
  rw [← houter, ← h.current.pieces.isEmpty_eq]
  split
  · exact .error _
  · split
    · exact .error _
    · exact .ok h.current.pieces

end SqlWriter

-- ════════════════════════════════════════════════════════════════════════
-- Clauses
-- ════════════════════════════════════════════════════════════════════════

namespace SqlClause

variable {ps ps' : List SqlPiece}

theorem textFrom_twin (h : SqlPiece.Twins R ps ps') (dialect : Dialect) (count : Nat) :
    textFrom dialect count ps = textFrom dialect count ps' := by
  induction h generalizing count with
  | nil => rfl
  | cons hfirst _ ih =>
    cases hfirst with
    | text s => rw [textFrom, textFrom, ih]
    | param hv => rw [textFrom, textFrom, ih]

end SqlClause

end ODataQuery
