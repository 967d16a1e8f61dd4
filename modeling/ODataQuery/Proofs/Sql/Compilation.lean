import ODataQuery.Proofs.Event.Failure
import ODataQuery.Proofs.Expr.Operands
import ODataQuery.Proofs.Sql.Names
import ODataQuery.Proofs.Sql.Writing

/-!
# Compiling typed expressions to SQL

A clause is refused only by the bound on the walk, or since the dialect has no template for a
function: the slots of a template all have arguments, and every expression writes something.

## Main definitions

- `SqlTemplate.slotsWithin` — whether all slots of a template have arguments
- `SqlPiece.Rendered` — something that is written, or a function that a dialect does not have

## Main statements

- `SqlTemplate.fits_template` — templates fit the arities of their functions
- `Expr.Typed.rendered` — rendering a typed expression
- `SqlClause.eq_unsupported_of_ofExpr`, `SqlClause.eq_unsupported_of_ofItems` — the errors of
  compilation
-/

namespace ODataQuery

-- ════════════════════════════════════════════════════════════════════════
-- Templates
-- ════════════════════════════════════════════════════════════════════════

namespace SqlTemplate

/-- Whether each slot of the template has one of so many arguments. -/
def slotsWithin (arity : Nat) (template : SqlTemplate) : Bool :=
  template.all fun
    | .text _ => true
    | .slot index => index < arity

/-- Whether the template starts with text. -/
def startsWithText : SqlTemplate → Bool
  | .text _ :: _ => true
  | _ => false

theorem slotsWithin_separated {arity : Nat} {indices : List Nat} (h : ∀ i ∈ indices, i < arity) :
    slotsWithin arity
      ((indices.map TemplatePart.slot).intersperse (.text " || ") ++ [.text ")"]) = true := by
  induction indices with
  | nil => rfl
  | cons index indices ih =>
    obtain ⟨hindex, hindices⟩ := List.forall_mem_cons.mp h
    have hrest := ih hindices
    cases indices with
    | nil => simpa [slotsWithin] using hindex
    | cons index' indices =>
      rw [List.map_cons, List.map_cons, List.intersperse_cons_cons]
      rw [slotsWithin, List.cons_append, List.all_cons, List.cons_append, List.all_cons]
      exact Bool.and_eq_true_iff.mpr ⟨decide_eq_true hindex, hrest⟩

/-- The slots of the template of a function all have arguments, and the template starts with text. -/
theorem fits_template {dialect : Dialect} {function : Function} {arity : Nat}
    {template : SqlTemplate} (harity : function.arity.accepts arity = true)
    (h : dialect.template? function arity = some template) :
    slotsWithin arity template = true ∧ template.startsWithText = true := by
  have hsubstring (harity : Function.substring.arity.accepts arity = true) :
      arity = 2 ∨ arity = 3 := by
    obtain ⟨hleast, hmost⟩ := Bool.and_eq_true_iff.mp harity
    have hleast : 2 ≤ arity := of_decide_eq_true hleast
    have hmost : arity ≤ 3 := of_decide_eq_true hmost
    omega
  have hfixed : function ≠ .concat → function ≠ .substring →
      arity = function.parameters.length := (Function.eq_length_of_accepts · · harity)
  cases dialect with
  | sqlite =>
    cases function with
    | concat =>
      cases h
      exact ⟨slotsWithin_separated fun _ => List.mem_range.mp, rfl⟩
    | substring =>
      cases h
      obtain rfl | rfl := hsubstring harity <;> decide
    | matchesPattern | totalOffsetMinutes | minDateTime | maxDateTime => cases h
    | _ =>
      cases hfixed nofun nofun
      cases h
      decide +kernel
  | postgres =>
    cases function with
    | concat =>
      cases h
      exact ⟨slotsWithin_separated fun _ => List.mem_range.mp, rfl⟩
    | substring =>
      cases h
      obtain rfl | rfl := hsubstring harity <;> decide
    | totalOffsetMinutes | minDateTime | maxDateTime => cases h
    | _ =>
      cases hfixed nofun nofun
      cases h
      decide +kernel

/-- A template is filled if each slot has an argument. -/
theorem exists_expand {template : SqlTemplate} {args : List (List SqlPiece)}
    (h : slotsWithin args.length template = true) : ∃ ps, template.expand? args = some ps := by
  induction template with
  | nil => exact ⟨[], rfl⟩
  | cons part template ih =>
    obtain ⟨hpart, hrest⟩ := Bool.and_eq_true_iff.mp h
    obtain ⟨ps, hps⟩ := ih hrest
    obtain ⟨pss, hpss, _⟩ := Option.map_eq_some_iff.mp hps
    have hexpanded : ∃ qs, expandPart? args part = some qs := by
      cases part with
      | text s => exact ⟨_, rfl⟩
      | slot index => exact ⟨_, List.getElem?_eq_getElem (of_decide_eq_true hpart)⟩
    obtain ⟨qs, hqs⟩ := hexpanded
    refine ⟨(qs :: pss).flatten, ?_⟩
    rw [expand?, List.mapM_cons, hqs, hpss]
    rfl

/-- What starts with text is not empty. -/
theorem ne_nil_of_expand? {template : SqlTemplate} {args : List (List SqlPiece)}
    {ps : List SqlPiece} (htext : template.startsWithText = true)
    (h : template.expand? args = some ps) : ps ≠ [] := by
  cases template with
  | nil => cases htext
  | cons part template =>
    cases part with
    | slot index => cases htext
    | text s =>
      obtain ⟨qs, rs, hqs, _, rfl⟩ := expand?_cons h
      cases hqs
      exact List.cons_ne_nil _ _

end SqlTemplate

-- ════════════════════════════════════════════════════════════════════════
-- Rendering
-- ════════════════════════════════════════════════════════════════════════

namespace SqlPiece

/-- Something is written, or a dialect does not have a function. -/
inductive Rendered : Except CompileError (List SqlPiece) → Prop
  | ok {ps : List SqlPiece} (h : ps ≠ []) : Rendered (.ok ps)
  | unsupported (what : String) : Rendered (.error (.unsupported "sql" what))

theorem Rendered.bind {x : Except CompileError (List SqlPiece)}
    {f : List SqlPiece → Except CompileError (List SqlPiece)} (hx : Rendered x)
    (hf : ∀ ps, Rendered (f ps)) : Rendered (x >>= f) := by
  cases hx with
  | ok h => exact hf _
  | unsupported what => exact .unsupported what

theorem operation_ne_nil (dialect : Dialect) (op : BinaryOp) (chained : Bool)
    (l r : List SqlPiece) : operation dialect op chained l r ≠ [] := by
  unfold operation modulo
  split
  · exact List.cons_ne_nil _ _
  · split
    · exact List.append_ne_nil_of_right_ne_nil _ (List.cons_ne_nil _ _)
    · split
      · exact List.append_ne_nil_of_right_ne_nil _ (List.cons_ne_nil _ _)
      · exact List.append_ne_nil_of_right_ne_nil _ (List.cons_ne_nil _ _)

theorem ofLambda_ne_nil (quantifier : Quantifier) (head : String) (body : List SqlPiece) :
    ofLambda quantifier head body ≠ [] := by
  cases quantifier <;> exact List.cons_ne_nil _ _

theorem ofBare_ne_nil (quantifier : Quantifier) (head : String) : ofBare quantifier head ≠ [] := by
  cases quantifier <;> exact List.cons_ne_nil _ _

/-- A call with as many arguments as its function accepts. -/
theorem rendered_ofCall (dialect : Dialect) {function : Function} {args : List (List SqlPiece)}
    (harity : function.arity.accepts args.length = true) :
    Rendered (ofCall dialect function args) := by
  have htemplate : Rendered (SqlWriter.ofTemplate dialect function args.length args) := by
    unfold SqlWriter.ofTemplate
    split
    · exact .unsupported _
    · next template h =>
      obtain ⟨hslots, htext⟩ := SqlTemplate.fits_template harity h
      obtain ⟨ps, hps⟩ := SqlTemplate.exists_expand hslots
      rw [hps]
      exact .ok (SqlTemplate.ne_nil_of_expand? htext hps)
  cases function with
  | minDateTime | maxDateTime => exact .ok (List.cons_ne_nil _ _)
  | _ => exact htemplate

end SqlPiece

namespace Expr

open SqlPiece

variable {root : EntityType} {scope : List Frame} {e : Expr} (dialect : Dialect)
  (rootAlias : String)

/-- The arguments of a call are rendered one after another. -/
theorem rendered_renderAll {es : List Expr} (h : ∀ e ∈ es, Rendered (e.render dialect rootAlias)) :
    (∃ pss, renderAll dialect rootAlias es = .ok pss ∧ pss.length = es.length) ∨
      ∃ what, renderAll dialect rootAlias es = .error (.unsupported "sql" what) := by
  induction es with
  | nil => exact .inl ⟨[], rfl, rfl⟩
  | cons e es ih =>
    obtain ⟨he, hes⟩ := List.forall_mem_cons.mp h
    rw [renderAll]
    cases hresult : e.render dialect rootAlias with
    | error err =>
      rw [hresult] at he
      cases he with
      | unsupported what => exact .inr ⟨what, rfl⟩
    | ok ps =>
      obtain ⟨pss, hpss, hlength⟩ | ⟨what, hwhat⟩ := ih hes
      · rw [hpss]
        exact .inl ⟨ps :: pss, rfl, congrArg (· + 1) hlength⟩
      · rw [hwhat]
        exact .inr ⟨what, rfl⟩

/-- A typed expression is rendered, unless the dialect does not have one of its functions. -/
theorem Typed.rendered (h : Typed root scope e) : Rendered (e.render dialect rootAlias) := by
  induction h with
  | literal => exact .ok (List.cons_ne_nil _ _)
  | field => exact .ok (List.cons_ne_nil _ _)
  | binary _ _ _ ihl ihr =>
    rw [render]
    exact ihl.bind fun l => ihr.bind fun r => .ok (operation_ne_nil _ _ _ _ _)
  | unary _ _ ih =>
    rw [render]
    exact ih.bind fun ps => .ok (List.cons_ne_nil _ _)
  | membership _ _ ih =>
    rw [render]
    exact ih.bind fun ps =>
      .ok (List.append_ne_nil_of_right_ne_nil _ (List.cons_ne_nil _ _))
  | @call _ function arguments _ _ htype ih =>
    have harity := (Function.check_eq_ok.mp htype).1
    rw [length_types] at harity
    rw [render]
    obtain ⟨pss, hpss, hlength⟩ | ⟨what, hwhat⟩ := rendered_renderAll dialect rootAlias ih
    · rw [hpss]
      rw [← hlength] at harity
      exact rendered_ofCall dialect harity
    · rw [hwhat]
      exact .unsupported what
  | lambda _ _ _ _ _ _ ih =>
    rw [render]
    exact ih.bind fun ps => .ok (ofLambda_ne_nil _ _ _)
  | bare => exact .ok (ofBare_ne_nil _ _)

end Expr

-- ════════════════════════════════════════════════════════════════════════
-- Clauses
-- ════════════════════════════════════════════════════════════════════════

/-- A clause in which something is written is finished. -/
theorem SqlWriter.pieces_of_written {dialect : Dialect} {rootAlias : String} {p : Nat}
    {equality : Bool} {w : SqlWriter} {ps : List SqlPiece}
    (h : (start dialect rootAlias).Written p equality w ps) (hne : ps ≠ []) :
    w.pieces = .ok ps := by
  have hpieces : w.current.pieces = ps := h.pieces_eq
  have houter : w.outer = [] := by
    cases h
    rfl
  have hempty : ps.isEmpty = false := List.isEmpty_eq_false_iff.mpr hne
  rw [pieces, houter, hpieces, hempty]
  rfl

namespace SqlClause

variable {root entity : EntityType} {options : SqlOptions} {e : Expr} {err : CompileError}

/-- The pieces of a typed expression are refused only by the bound on the walk, or since the dialect
does not have a function. -/
theorem eq_unsupported_of_piecesOf (h : Expr.Typed root [] e)
    (herr : piecesOf e entity options = .error err) :
    e.CutShort defaultMaxDepth err ∨ ∃ what, err = .unsupported "sql" what := by
  obtain herr | herr := Expr.listen_eq_error herr
  · exact .inl herr
  · right
    generalize options.tableAlias.getD entity.source = rootAlias at herr
    have hrendered := h.rendered options.dialect rootAlias
    have hwrites : Result.Alike _ _ (e.render options.dialect rootAlias) :=
      h.writes.2 (SqlWriter.start options.dialect rootAlias) (SqlFrame.begins_opened nofun)
    rw [SqlWriter.listener_feed] at herr
    cases hfeed : (SqlWriter.listener options.dialect rootAlias).start.feed e.events with
    | error err' =>
      rw [hfeed] at herr
      cases herr
      rw [hwrites.eq_error hfeed] at hrendered
      cases hrendered with
      | unsupported what => exact ⟨what, rfl⟩
    | ok w =>
      obtain ⟨ps, hps, hwritten⟩ := hwrites.exists_ok hfeed
      rw [hps] at hrendered
      cases hrendered with
      | ok hne =>
        rw [hfeed] at herr
        cases (SqlWriter.pieces_of_written hwritten hne).symm.trans herr

/-- A typed condition is refused only by the bound on the walk, or since the dialect does not have a
function. -/
theorem eq_unsupported_of_ofExpr (h : Expr.Typed root [] e)
    (herr : ofExpr e entity options = .error err) :
    e.CutShort defaultMaxDepth err ∨ ∃ what, err = .unsupported "sql" what := by
  cases hpieces : piecesOf e entity options with
  | error err' =>
    rw [ofExpr, hpieces] at herr
    cases herr
    exact eq_unsupported_of_piecesOf h hpieces
  | ok ps =>
    rw [ofExpr, hpieces] at herr
    cases herr

/-- Typed columns are refused only by the bound on the walk, or since the dialect does not have a
function. -/
theorem eq_unsupported_of_ofItems {items : List ComputeItem}
    (h : ∀ item ∈ items, item.expr.Typed root []) (herr : ofItems items entity options = .error err) :
    (∃ item ∈ items, item.expr.CutShort defaultMaxDepth err) ∨
      ∃ what, err = .unsupported "sql" what := by
  cases hcolumns : items.mapM (piecesOfItem entity options) with
  | error err' =>
    rw [ofItems, hcolumns] at herr
    cases herr
    obtain ⟨item, hitem, herr⟩ := Result.exists_of_mapM_eq_error hcolumns
    cases hpieces : piecesOf item.expr entity options with
    | error err'' =>
      rw [piecesOfItem, hpieces] at herr
      cases herr
      exact (eq_unsupported_of_piecesOf (h item hitem) hpieces).imp_left fun hcut => ⟨item, hitem, hcut⟩
    | ok ps =>
      rw [piecesOfItem, hpieces] at herr
      cases herr
  | ok columns =>
    rw [ofItems, hcolumns] at herr
    cases herr

end SqlClause

end ODataQuery
