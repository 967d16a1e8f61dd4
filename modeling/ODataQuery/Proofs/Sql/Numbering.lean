import ODataQuery.Proofs.Query.Accepted
import ODataQuery.Proofs.Sql.Writing

/-!
# Clauses of rendered expressions

A compiled clause shows the pieces that the tree is rendered to, with its placeholders numbered in
the order of the text.

## Main definitions

- `SqlPiece.value?`, `SqlPiece.shown` — the parameter of a piece, and its text in a clause
- `SqlClause.Shows` — the clause of some pieces
- `SqlPiece.columns` — the pieces of compute items, given those of their expressions

## Main statements

- `SqlClause.shows_ofPieces` — numbering the placeholders from left to right
- `SqlClause.shows_render` — compiled conditions and columns show their rendered expressions
-/

namespace ODataQuery

namespace SqlPiece

/-- The parameter of a piece; a text has none. -/
def value? : SqlPiece → Option SqlValue
  | text _ => none
  | param v => some v

/-- The text of a piece behind so many parameters. -/
def shown (dialect : Dialect) (before : Nat) : SqlPiece → String
  | text s => s
  | param _ => dialect.placeholder (before + 1)

/-- The pieces of columns, given those of their expressions. -/
def columns (items : List ComputeItem) (rendered : List (List SqlPiece)) : List SqlPiece :=
  ((items.zipWith (fun item ps => ps ++ [.text (" AS " ++ SqlWriter.quote item.resultName)])
    rendered).intersperse [.text ", "]).flatten

end SqlPiece

namespace SqlClause

/-- The clause has the texts of the pieces, each parameter as the placeholder of its number among
the parameters, and the parameters in this order. -/
structure Shows (dialect : Dialect) (ps : List SqlPiece) (c : SqlClause) : Prop where
  clause : c.clause = String.join
    (ps.mapIdx fun i p => p.shown dialect ((ps.take i).filterMap SqlPiece.value?).length)
  params : c.params = (ps.filterMap SqlPiece.value?).map dialect.bind

theorem textFrom_eq_join (dialect : Dialect) (count : Nat) (ps : List SqlPiece) :
    textFrom dialect count ps = String.join (ps.mapIdx fun i p =>
      p.shown dialect (count + ((ps.take i).filterMap SqlPiece.value?).length)) := by
  induction ps generalizing count with
  | nil => rfl
  | cons p ps ih =>
    rw [List.mapIdx_cons, String.join_cons]
    cases p with
    | text s =>
      rw [textFrom, ih]
      rfl
    | param v =>
      rw [textFrom, ih]
      have hcount (n : Nat) : count + 1 + n = count + (n + 1) := by omega
      simp only [hcount, List.take_succ_cons, List.filterMap_cons, SqlPiece.value?,
        List.length_cons]
      rfl

theorem paramsOf_eq_map (dialect : Dialect) (ps : List SqlPiece) :
    paramsOf dialect ps = (ps.filterMap SqlPiece.value?).map dialect.bind := by
  induction ps with
  | nil => rfl
  | cons p ps ih =>
    cases p with
    | text s => exact ih
    | param v =>
      rw [paramsOf, ih]
      rfl

/-- Placeholders are numbered from left to right. -/
theorem shows_ofPieces (dialect : Dialect) (ps : List SqlPiece) :
    Shows dialect ps (ofPieces dialect ps) := by
  refine ⟨?_, paramsOf_eq_map dialect ps⟩
  have htext := textFrom_eq_join dialect 0 ps
  simp only [Nat.zero_add] at htext
  exact htext

variable {entity : EntityType} {options : SqlOptions} {maxDepth : Nat} {e : Expr} {c : SqlClause}

/-- The condition of an accepted text shows the pieces that its expression is rendered to. -/
theorem shows_of_ofExpr (he : e.Accepted entity maxDepth) (h : ofExpr e entity options = .ok c) :
    ∃ ps, e.render options.dialect (options.tableAlias.getD entity.source) = .ok ps ∧
      c.Shows options.dialect ps := by
  obtain ⟨ps, hps, hc⟩ := Result.bind_eq_ok.mp h
  cases hc
  exact ⟨ps, he.typed.render_of_piecesOf hps, shows_ofPieces _ ps⟩

/-- The columns of typed compute items are made of the pieces that their expressions are rendered
to. -/
theorem exists_rendered_of_mapM {items : List ComputeItem}
    (hitems : ∀ item ∈ items, item.expr.Typed entity []) {pss : List (List SqlPiece)}
    (h : items.mapM (piecesOfItem entity options) = .ok pss) :
    ∃ rendered, List.Forall₂ (fun item ps => item.expr.render options.dialect
        (options.tableAlias.getD entity.source) = .ok ps) items rendered ∧
      pss = items.zipWith (fun item ps => ps ++ [.text (" AS " ++ SqlWriter.quote item.resultName)])
        rendered := by
  have hall := Result.mapM_eq_ok.mp h
  clear h
  induction hall with
  | nil => exact ⟨[], .nil, rfl⟩
  | @cons item ps items pss hitem _ ih =>
    obtain ⟨htyped, hitems⟩ := List.forall_mem_cons.mp hitems
    obtain ⟨rendered, hrendered, rfl⟩ := ih hitems
    obtain ⟨qs, hqs, hps⟩ := Result.bind_eq_ok.mp hitem
    cases hps
    exact ⟨qs :: rendered, .cons (htyped.render_of_piecesOf hqs) hrendered, rfl⟩

/-- The columns of an accepted compute option show the pieces that their expressions are rendered
to, each with the name of its result. -/
theorem shows_of_ofItems {items : List ComputeItem}
    (hitems : ∀ item ∈ items, item.expr.Accepted entity maxDepth)
    (h : ofItems items entity options = .ok c) :
    ∃ rendered, List.Forall₂ (fun item ps => item.expr.render options.dialect
        (options.tableAlias.getD entity.source) = .ok ps) items rendered ∧
      c.Shows options.dialect (SqlPiece.columns items rendered) := by
  obtain ⟨pss, hpss, hc⟩ := Result.bind_eq_ok.mp h
  cases hc
  obtain ⟨rendered, hrendered, rfl⟩ :=
    exists_rendered_of_mapM (fun item hitem => (hitems item hitem).typed) hpss
  exact ⟨rendered, hrendered, shows_ofPieces _ _⟩

/-- Compiled conditions and compiled columns show the pieces that their trees are rendered to: the
texts of the pieces with the placeholders numbered in their order, and the parameters in the same
order. -/
theorem shows_render (entity : EntityType) (options : SqlOptions) (maxDepth : Nat) (c : SqlClause) :
    (∀ e : Expr, e.Accepted entity maxDepth → ofExpr e entity options = .ok c →
      ∃ ps, e.render options.dialect (options.tableAlias.getD entity.source) = .ok ps ∧
        c.Shows options.dialect ps) ∧
    (∀ items : List ComputeItem, (∀ item ∈ items, item.expr.Accepted entity maxDepth) →
      ofItems items entity options = .ok c →
        ∃ rendered, List.Forall₂ (fun item ps => item.expr.render options.dialect
            (options.tableAlias.getD entity.source) = .ok ps) items rendered ∧
          c.Shows options.dialect (SqlPiece.columns items rendered)) :=
  ⟨fun _ he h => shows_of_ofExpr he h, fun _ hitems h => shows_of_ofItems hitems h⟩

/-- PostgreSQL gets the first test of a chained one in parentheses, and SQLite the whole dividend of
a remainder twice. -/
theorem shows_render_lines :
    let line : EntityType := ⟨"Line", "lines", [⟨"qty", "qty", .primitive .int32, false⟩]⟩
    let postgres : SqlOptions := ⟨.postgres, none⟩
    let sqlite : SqlOptions := ⟨.sqlite, some "l"⟩
    let condition : SqlClause :=
      ⟨"(\"lines\".\"qty\" IS NOT DISTINCT FROM $1) IS NOT DISTINCT FROM $2",
        [.integer 5, .boolean true]⟩
    let column : SqlClause :=
      ⟨"(\"l\".\"qty\" * ? - ? * CAST(\"l\".\"qty\" * ? / NULLIF(?, 0) AS INTEGER)) + ? AS \"rest\"",
        [.integer 2, .integer 3, .integer 2, .integer 3, .integer 1]⟩
    (∃ e ps, Expr.readFilter "qty eq 5 eq true" line (.all line) defaultMaxDepth = .ok e ∧
      ofExpr e line postgres = .ok condition ∧
      e.render .postgres "lines" = .ok ps ∧ condition.Shows .postgres ps) ∧
    ∃ items rendered,
      ComputeItem.readAll "qty mul 2 mod 3 add 1 as rest" line (.all line) defaultMaxDepth =
        .ok items ∧
      ofItems items line sqlite = .ok column ∧
      List.Forall₂ (fun item ps => item.expr.render .sqlite "l" = .ok ps) items rendered ∧
      column.Shows .sqlite (SqlPiece.columns items rendered) := by
  intro line postgres sqlite condition column
  have hfilter : Result.passes (fun e => decide (ofExpr e line postgres = .ok condition))
      (Expr.readFilter "qty eq 5 eq true" line (.all line) defaultMaxDepth) = true := by
    decide +kernel
  have hcompute : Result.passes (fun items => decide (ofItems items line sqlite = .ok column))
      (ComputeItem.readAll "qty mul 2 mod 3 add 1 as rest" line (.all line) defaultMaxDepth) =
        true := by
    decide +kernel
  obtain ⟨e, hread, hclause⟩ := Result.exists_of_passes hfilter
  obtain ⟨items, hitems, hcolumn⟩ := Result.exists_of_passes hcompute
  replace hclause := of_decide_eq_true hclause
  replace hcolumn := of_decide_eq_true hcolumn
  obtain ⟨ps, hps, hshows⟩ :=
    (shows_render line postgres defaultMaxDepth condition).1 e (.filter hread) hclause
  obtain ⟨rendered, hrendered, hcolumns⟩ :=
    (shows_render line sqlite defaultMaxDepth column).2 items
      (fun _ hitem => .item hitems hitem) hcolumn
  exact ⟨⟨e, ps, hread, hclause, hps, hshows⟩, items, rendered, hitems, hcolumn, hrendered,
    hcolumns⟩

end SqlClause

end ODataQuery
