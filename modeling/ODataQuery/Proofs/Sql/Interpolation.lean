import ODataQuery.Proofs.Sql.Twins

/-!
# Values never reach the text

Expressions that are equal except for the values of their literals are compiled to the same text.
Each parameter of a clause comes from a literal or a constant call, and from the same one on both
sides.

## Main definitions

- `SamePlace` — two parameters at one place of two lists
- `SqlClause.SamePlaces` — clauses of one text with parameters from the same places

## Main statements

- `SqlClause.samePlaces_ofExpr`, `SqlClause.samePlaces_ofItems` — conditions and compute items
- `SqlClause.alike_of_skeleton_eq` — both together
-/

namespace ODataQuery

-- ════════════════════════════════════════════════════════════════════════
-- Places
-- ════════════════════════════════════════════════════════════════════════

/-- The two parameters are at the same place of the two lists. -/
def SamePlace (vs vs' : List SqlValue) (v v' : SqlValue) : Prop :=
  ∃ i : Nat, vs[i]? = some v ∧ vs'[i]? = some v'

namespace SamePlace

variable {vs vs' : List SqlValue} {v v' : SqlValue}

theorem append_right (h : SamePlace vs vs' v v') (ws ws' : List SqlValue) :
    SamePlace (vs ++ ws) (vs' ++ ws') v v' := by
  obtain ⟨i, hi, hi'⟩ := h
  have hlt : i < vs.length := (List.getElem?_eq_some_iff.mp hi).1
  have hlt' : i < vs'.length := (List.getElem?_eq_some_iff.mp hi').1
  refine ⟨i, ?_, ?_⟩
  · rw [List.getElem?_append_left hlt, hi]
  · rw [List.getElem?_append_left hlt', hi']

theorem append_left (h : SamePlace vs vs' v v') {ws ws' : List SqlValue}
    (hlength : ws.length = ws'.length) : SamePlace (ws ++ vs) (ws' ++ vs') v v' := by
  obtain ⟨i, hi, hi'⟩ := h
  refine ⟨ws.length + i, ?_, ?_⟩
  · rw [List.getElem?_append_right (by omega), Nat.add_sub_cancel_left, hi]
  · rw [hlength, List.getElem?_append_right (by omega), Nat.add_sub_cancel_left, hi']

end SamePlace

-- ════════════════════════════════════════════════════════════════════════
-- Events of expressions with one skeleton
-- ════════════════════════════════════════════════════════════════════════

namespace Event

variable {R : SqlValue → SqlValue → Prop} {e e' : Event}

theorem blank_of_ne_literal (h : ∀ v, e ≠ .literal v) : e.blank = e := by
  unfold blank
  split
  · exact absurd rfl (h _)
  · rfl

/-- Events with the same blank are the same, or literals of which both or none are `null`. -/
theorem cases_of_blank_eq (h : e.blank = e'.blank) :
    (∃ v v', e = .literal v ∧ e' = .literal v' ∧ v.isNull = v'.isNull) ∨
      (∀ v, e ≠ .literal v) ∧ e = e' := by
  by_cases he : ∃ v, e = .literal v
  · obtain ⟨v, rfl⟩ := he
    by_cases he' : ∃ v', e' = .literal v'
    · obtain ⟨v', rfl⟩ := he'
      exact .inl ⟨v, v', rfl, rfl, Value.isNull_of_blank_eq (Event.literal.inj h)⟩
    · rw [blank_of_ne_literal (not_exists.mp he')] at h
      exact absurd ⟨v.blank, h.symm⟩ he'
  · have hne := not_exists.mp he
    rw [blank_of_ne_literal hne] at h
    by_cases he' : ∃ v', e' = .literal v'
    · obtain ⟨v', rfl⟩ := he'
      exact absurd h (hne _)
    · rw [blank_of_ne_literal (not_exists.mp he')] at h
      exact .inr ⟨hne, h⟩

theorem length_parameter?_of_blank (h : e.blank = e'.blank) :
    e.parameter?.toList.length = e'.parameter?.toList.length := by
  obtain ⟨v, v', rfl, rfl, hnull⟩ | ⟨_, rfl⟩ := cases_of_blank_eq h
  · show v.parameter?.toList.length = v'.parameter?.toList.length
    rw [Value.parameter?, Value.parameter?, hnull]
    cases v'.isNull <;> rfl
  · rfl

theorem twin_of_blank (h : e.blank = e'.blank)
    (hparameter : ∀ v ∈ e.parameter?, ∀ v' ∈ e'.parameter?, R v v') : e.Twin R e' := by
  obtain ⟨v, v', rfl, rfl, hnull⟩ | ⟨hliteral, rfl⟩ := cases_of_blank_eq h
  · refine .literal hnull fun hv => hparameter _ ?_ _ ?_
    · simp [parameter?, Value.parameter?, hv]
    · simp [parameter?, Value.parameter?, ← hnull, hv]
  · exact .same hliteral fun v hv => hparameter v hv v hv

/-- Events that differ in their literals only carry equally many parameters. -/
theorem length_filterMap_parameter? {es es' : List Event} (h : es.map blank = es'.map blank) :
    (es.filterMap parameter?).length = (es'.filterMap parameter?).length := by
  induction es generalizing es' with
  | nil =>
    rw [List.map_nil, eq_comm, List.map_eq_nil_iff] at h
    rw [h]
  | cons e es ih =>
    obtain ⟨e', es', rfl, he, hes⟩ := List.map_eq_cons_iff.mp h.symm
    rw [Expr.filterMap_cons_toList, Expr.filterMap_cons_toList, List.length_append,
      List.length_append, length_parameter?_of_blank he.symm, ih hes.symm]

/-- Events that differ in their literals only are related by the places of their parameters. -/
theorem twins_of_blank {es es' : List Event} (h : es.map blank = es'.map blank) :
    List.Forall₂ (Event.Twin (SamePlace (es.filterMap parameter?) (es'.filterMap parameter?)))
      es es' := by
  induction es generalizing es' with
  | nil =>
    rw [List.map_nil, eq_comm, List.map_eq_nil_iff] at h
    rw [h]
    exact .nil
  | cons e es ih =>
    obtain ⟨e', es', rfl, he, hes⟩ := List.map_eq_cons_iff.mp h.symm
    have hlength := length_parameter?_of_blank he.symm
    rw [Expr.filterMap_cons_toList, Expr.filterMap_cons_toList]
    refine .cons (twin_of_blank he.symm fun v hv v' hv' => ?_) ?_
    · have hfirst : SamePlace e.parameter?.toList e'.parameter?.toList v v' :=
        ⟨0, by simp [Option.mem_def.mp hv], by simp [Option.mem_def.mp hv']⟩
      exact hfirst.append_right _ _
    · exact (ih hes.symm).imp fun _ _ htwin => htwin.mono fun _ _ hplace =>
        hplace.append_left hlength

end Event

-- ════════════════════════════════════════════════════════════════════════
-- Expressions with one skeleton
-- ════════════════════════════════════════════════════════════════════════

namespace Expr

variable {e e' : Expr}

theorem walk_of_skeleton_eq (h : e.skeleton = e'.skeleton) (limit : Nat) :
    (e.walk limit).1.map Event.blank = (e'.walk limit).1.map Event.blank ∧
      (e.walk limit).2 = (e'.walk limit).2 := by
  have hwalk := e.walk_skeleton limit
  rw [h, e'.walk_skeleton limit] at hwalk
  exact ⟨(Prod.mk.inj hwalk).1.symm, (Prod.mk.inj hwalk).2.symm⟩

theorem length_parameters_of_skeleton_eq (h : e.skeleton = e'.skeleton) :
    e.parameters.length = e'.parameters.length := by
  have hwalk := walk_of_skeleton_eq h (max (e.deepest 1) (e'.deepest 1))
  rw [walk_of_deepest_le (Nat.le_max_left _ _), walk_of_deepest_le (Nat.le_max_right _ _)] at hwalk
  rw [← filterMap_parameter?_events, ← filterMap_parameter?_events]
  exact Event.length_filterMap_parameter? hwalk.1

end Expr

/-- A compute item with the literals of its expression replaced. -/
def ComputeItem.skeleton (item : ComputeItem) : ComputeItem :=
  ⟨item.expr.skeleton, item.resultName⟩

namespace SqlClause

variable {entity : EntityType} {options : SqlOptions}

/-- The pieces of expressions that are equal except for the values of their literals. -/
theorem piecesOf_twins {e e' : Expr} (h : e.skeleton = e'.skeleton) :
    Result.Alike (SqlPiece.Twins (SamePlace e.parameters e'.parameters))
      (piecesOf e entity options) (piecesOf e' entity options) := by
  obtain ⟨hblank, herror⟩ := Expr.walk_of_skeleton_eq h defaultMaxDepth
  have hfeed := SqlWriter.feed_twin options.dialect (options.tableAlias.getD entity.source)
    (SqlWriter.twin_start options.dialect (options.tableAlias.getD entity.source))
    (Event.twins_of_blank hblank)
  rw [piecesOf, piecesOf, Expr.listen_eq, Expr.listen_eq]
  cases hcut : (e.walk defaultMaxDepth).2 with
  | some err =>
    rw [← herror, hcut]
    exact hfeed.bind fun _ _ _ => .error err
  | none =>
    rw [hcut] at herror
    rw [Expr.walk_of_complete hcut, Expr.walk_of_complete herror.symm] at hfeed ⊢
    rw [Expr.filterMap_parameter?_events, Expr.filterMap_parameter?_events] at hfeed
    exact hfeed.bind fun _ _ hw => SqlWriter.pieces_twin hw

/-- The pieces of a compute item end in the name of its result. -/
theorem piecesOfItem_twins {item item' : ComputeItem} (h : item.skeleton = item'.skeleton) :
    Result.Alike (SqlPiece.Twins (SamePlace item.expr.parameters item'.expr.parameters))
      (piecesOfItem entity options item) (piecesOfItem entity options item') := by
  obtain ⟨hexpr, hname⟩ := ComputeItem.mk.inj h
  refine (piecesOf_twins hexpr).bind fun ps ps' hps => ?_
  rw [← hname]
  exact .ok (hps.append (SqlPiece.twins_text _))

end SqlClause

/-- The parameters of the literals and constant calls of compute items, from left to right. -/
def ComputeItem.parameters (items : List ComputeItem) : List SqlValue :=
  items.flatMap (·.expr.parameters)

namespace SqlClause

variable {entity : EntityType} {options : SqlOptions}

/-- The columns of compute items that are equal except for the values of their literals. -/
theorem columns_twins {items items' : List ComputeItem}
    (h : items.map ComputeItem.skeleton = items'.map ComputeItem.skeleton) :
    Result.Alike (List.Forall₂ (SqlPiece.Twins
        (SamePlace (ComputeItem.parameters items) (ComputeItem.parameters items'))))
      (items.mapM (piecesOfItem entity options)) (items'.mapM (piecesOfItem entity options)) := by
  induction items generalizing items' with
  | nil =>
    rw [List.map_nil, eq_comm, List.map_eq_nil_iff] at h
    rw [h]
    exact .ok .nil
  | cons item items ih =>
    obtain ⟨item', items', rfl, hitem, hitems⟩ := List.map_eq_cons_iff.mp h.symm
    have hlength := Expr.length_parameters_of_skeleton_eq (ComputeItem.mk.inj hitem.symm).1
    rw [List.mapM_cons, List.mapM_cons]
    refine (piecesOfItem_twins hitem.symm).bind fun ps ps' hps => ?_
    refine (ih hitems.symm).bind fun columns columns' hcolumns => .ok (.cons ?_ ?_)
    · exact SqlPiece.Twins.mono hps fun _ _ hplace => hplace.append_right _ _
    · exact hcolumns.imp fun _ _ hcolumn => SqlPiece.Twins.mono hcolumn fun _ _ hplace =>
        hplace.append_left hlength

/-- Separators between related lists. -/
theorem forall₂_intersperse {α : Type} {r : α → α → Prop} {separator : α}
    (hseparator : r separator separator) {xs ys : List α} (h : List.Forall₂ r xs ys) :
    List.Forall₂ r (xs.intersperse separator) (ys.intersperse separator) := by
  induction h with
  | nil => exact .nil
  | cons hfirst hrest ih =>
    cases hrest with
    | nil => exact .cons hfirst .nil
    | cons hsecond hrest =>
      rw [List.intersperse_cons_cons, List.intersperse_cons_cons]
      exact .cons hfirst (.cons hseparator ih)

-- ════════════════════════════════════════════════════════════════════════
-- Clauses
-- ════════════════════════════════════════════════════════════════════════

/-- The clauses have the same text. In the order of the placeholders, their parameters are those at
the same places of the two lists, stored as the dialect does. -/
def SamePlaces (dialect : Dialect) (vs vs' : List SqlValue) (c c' : SqlClause) : Prop :=
  c.clause = c'.clause ∧ ∃ places : List Nat,
    c.params.map some = places.map (fun i => vs[i]?.map dialect.bind) ∧
    c'.params.map some = places.map (fun i => vs'[i]?.map dialect.bind)

variable {vs vs' : List SqlValue} {ps ps' : List SqlPiece}

/-- The places that the parameters of pieces come from. -/
theorem exists_places (h : SqlPiece.Twins (SamePlace vs vs') ps ps') (dialect : Dialect) :
    ∃ places : List Nat,
      (paramsOf dialect ps).map some = places.map (fun i => vs[i]?.map dialect.bind) ∧
      (paramsOf dialect ps').map some = places.map (fun i => vs'[i]?.map dialect.bind) := by
  induction h with
  | nil => exact ⟨[], rfl, rfl⟩
  | cons hfirst _ ih =>
    obtain ⟨places, hplaces, hplaces'⟩ := ih
    cases hfirst with
    | text s => exact ⟨places, hplaces, hplaces'⟩
    | param hv =>
      obtain ⟨i, hi, hi'⟩ := hv
      refine ⟨i :: places, ?_, ?_⟩
      · rw [paramsOf, List.map_cons, List.map_cons, hplaces, hi]
        rfl
      · rw [paramsOf, List.map_cons, List.map_cons, hplaces', hi']
        rfl

theorem samePlaces_ofPieces (h : SqlPiece.Twins (SamePlace vs vs') ps ps') (dialect : Dialect) :
    SamePlaces dialect vs vs' (ofPieces dialect ps) (ofPieces dialect ps') :=
  ⟨textFrom_twin h dialect 0, exists_places h dialect⟩

theorem samePlaces_ofExpr {e e' : Expr} (h : e.skeleton = e'.skeleton) :
    Result.Alike (SamePlaces options.dialect e.parameters e'.parameters)
      (ofExpr e entity options) (ofExpr e' entity options) :=
  (piecesOf_twins h).bind fun _ _ hps => .ok (samePlaces_ofPieces hps options.dialect)

theorem samePlaces_ofItems {items items' : List ComputeItem}
    (h : items.map ComputeItem.skeleton = items'.map ComputeItem.skeleton) :
    Result.Alike (SamePlaces options.dialect (ComputeItem.parameters items)
        (ComputeItem.parameters items'))
      (ofItems items entity options) (ofItems items' entity options) := by
  refine (columns_twins h).bind fun columns columns' hcolumns => .ok ?_
  have hseparated := forall₂_intersperse (SqlPiece.twins_text ", ") hcolumns
  exact samePlaces_ofPieces (List.rel_flatten hseparated) options.dialect

/-- No value reaches the text of a clause: conditions, and compute items, that are equal except for
the values of their literals fail with the same error, or are compiled to the same text with
parameters from the same literals and constant calls. This holds also if no two of the values are
the same, so the places do not depend on the values. -/
theorem alike_of_skeleton_eq (entity : EntityType) (options : SqlOptions) :
    (∀ e e' : Expr, e.skeleton = e'.skeleton →
      Result.Alike (SamePlaces options.dialect e.parameters e'.parameters)
        (ofExpr e entity options) (ofExpr e' entity options)) ∧
    ∀ items items' : List ComputeItem,
      items.map ComputeItem.skeleton = items'.map ComputeItem.skeleton →
        Result.Alike (SamePlaces options.dialect (ComputeItem.parameters items)
            (ComputeItem.parameters items'))
          (ofItems items entity options) (ofItems items' entity options) :=
  ⟨fun _ _ => samePlaces_ofExpr, fun _ _ => samePlaces_ofItems⟩

/-- In SQLite `qty mod 3 eq 1` and `qty mod 5 eq 2` differ in their parameters only, of which the
divisor occurs twice. -/
theorem alike_of_skeleton_eq_modulo :
    let e (n m : Int32) : Expr := .binary .eq
      (.binary .mod (.field ⟨"qty", "qty", none, .primitive .int32⟩) (.literal (.int32 n)))
      (.literal (.int32 m))
    let options : SqlOptions := ⟨.sqlite, none⟩
    let clause (n m : Int64) : SqlClause :=
      ⟨"(\"lines\".\"qty\" - ? * CAST(\"lines\".\"qty\" / NULLIF(?, 0) AS INTEGER)) IS ?",
        [.integer n, .integer n, .integer m]⟩
    (e 3 1).skeleton = (e 5 2).skeleton ∧
      ofExpr (e 3 1) ⟨"Line", "lines", []⟩ options = .ok (clause 3 1) ∧
      ofExpr (e 5 2) ⟨"Line", "lines", []⟩ options = .ok (clause 5 2) ∧
      Result.Alike (SamePlaces .sqlite (e 3 1).parameters (e 5 2).parameters)
        (ofExpr (e 3 1) ⟨"Line", "lines", []⟩ options)
        (ofExpr (e 5 2) ⟨"Line", "lines", []⟩ options) := by
  intro e options clause
  have hskeleton : (e 3 1).skeleton = (e 5 2).skeleton := rfl
  exact ⟨hskeleton, by decide +kernel, by decide +kernel,
    (alike_of_skeleton_eq ⟨"Line", "lines", []⟩ options).1 _ _ hskeleton⟩

end SqlClause

end ODataQuery
