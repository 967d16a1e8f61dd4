import ODataQuery.Proofs.Sql.Grouping

/-!
# Clauses are read as they are meant

A database reads a clause by the precedence of its own operators. PostgreSQL groups all conditions
and columns without lambdas as their expressions do. SQLite has membership and equality on one level,
so a membership test that is compared loses its operand to the comparison. The `NOT` of a rendered
`all` binds looser than the operator that it is an operand of.

## Main definitions

- `Expr.isLambda` — the expressions that are written as subqueries
- `SqlTerm.operator?` — the outermost operator of a term

## Main statements

- `SqlClause.groups_sqlite`, `SqlClause.groups_postgres` — clauses without lambdas
- `SqlClause.groups_quantifiers` — clauses whose lambdas are not torn apart
-/

namespace ODataQuery

namespace Expr

/-- Whether the expression is a lambda, with or without a body. -/
def isLambda : Expr → Bool
  | lambda _ _ | bare _ => true
  | _ => false

theorem isUniversal_of_isLambda {e : Expr} (h : e.isLambda = false) : e.isUniversal = false := by
  cases e with
  | lambda => cases h
  | _ => rfl

/-- Nothing but lambdas is torn apart from a `NOT` of its own. -/
theorem keepsQuantifiers_of_isLambda {e : Expr} (h : ∀ p ∈ e.parts, p.isLambda = false)
    (dialect : Dialect) : ∀ p ∈ e.parts, p.KeepsQuantifiers dialect := by
  intro p hp
  have hplain {q : Expr} (hq : q ∈ p.parts) : q.isUniversal = false :=
    isUniversal_of_isLambda (h q (parts_subset_of_mem hp hq))
  cases p with
  | binary op left right =>
    have hleft : left.parts ⊆ (binary op left right).parts :=
      List.subset_cons_of_subset _ (List.subset_append_left _ _)
    have hright : right ∈ (binary op left right).parts :=
      List.mem_cons_of_mem _ (List.mem_append_right _ right.self_mem_parts)
    refine fun _ => ⟨hplain (hleft left.self_mem_parts), fun _ => ⟨?_, fun _ => hplain hright⟩⟩
    cases left with
    | binary op' l r =>
      have hr : r ∈ (binary op' l r).parts :=
        List.mem_cons_of_mem _ (List.mem_append_right _ r.self_mem_parts)
      rw [endsUniversal, hplain (hleft hr), Bool.and_false]
    | _ => rfl
  | membership operand list => exact hplain (List.mem_cons_of_mem _ operand.self_mem_parts)
  | _ => trivial

end Expr

namespace SqlTerm

/-- The words of the outermost operator; an operand has none. -/
def operator? : SqlTerm → Option (List String)
  | operand _ => none
  | prefixed word _ => some [word]
  | binary words _ _ => some words

end SqlTerm

/-- The outermost operator of a comparison is that of the comparison. -/
theorem Expr.Groups.operator?_of_isEquality {dialect : Dialect} {rootAlias : String} {e : Expr}
    {t : SqlTerm} (h : e.Groups dialect rootAlias t) (he : e.isEquality = true) {ws : List String}
    (hws : t.operator? = some ws) : ws = dialect.words .eq ∨ ws = dialect.words .ne := by
  cases h with
  | group => cases hws
  | @binary op =>
    cases hws
    cases op with
    | eq => exact .inl rfl
    | ne => exact .inr rfl
    | _ => cases he
  | div | divby | mod | modulo => cases he
  | _ => cases he

/-- A comparison is torn apart if the outermost operator of its clause is another one. -/
theorem SqlClause.exists_term_of_operator? {c : SqlClause} {dialect : Dialect} {e : Expr}
    (he : e.isEquality = true) {ws : List String}
    (hws : (c.term? dialect).bind SqlTerm.operator? = some ws)
    (hne : ws ≠ dialect.words .eq ∧ ws ≠ dialect.words .ne) (rootAlias : String) :
    ∃ t, c.term? dialect = some t ∧ t.operator? = some ws ∧ ¬e.Groups dialect rootAlias t := by
  obtain ⟨t, ht, hoperator⟩ := Option.bind_eq_some_iff.mp hws
  refine ⟨t, ht, hoperator, fun hgroups => ?_⟩
  obtain heq | heq := hgroups.operator?_of_isEquality he hoperator
  · exact hne.1 heq
  · exact hne.2 heq

namespace SaleTables

/-- Lines of sales. -/
def line : EntityType := ⟨"Line", "lines", [⟨"qty", "qty", .primitive .int32, false⟩]⟩

/-- Sales. -/
def sale : EntityType := ⟨"Sale", "sales",
  [⟨"paid", "paid", .primitive .boolean, false⟩, ⟨"qty", "qty", .primitive .int32, false⟩,
    ⟨"lines", "lines", .collection line ⟨"id", "sale_id"⟩, false⟩]⟩

end SaleTables

namespace SqlClause

open SaleTables

/-- SQLite reads conditions and columns without lambdas as they are grouped, unless a value is
compared with a membership test. -/
theorem groups_sqlite (entity : EntityType) (tableAlias : Option String) (maxDepth : Nat)
    (c : SqlClause) :
    (∀ e : Expr, e.Accepted entity maxDepth → (∀ p ∈ e.parts, p.isLambda = false) →
      (∀ p ∈ e.parts, p.equatesMembership = false) →
      ofExpr e entity ⟨.sqlite, tableAlias⟩ = .ok c →
        ∃ t, c.term? .sqlite = some t ∧ e.Groups .sqlite (tableAlias.getD entity.source) t) ∧
    (∀ items : List ComputeItem, (∀ item ∈ items, item.expr.Accepted entity maxDepth) →
      (∀ item ∈ items, ∀ p ∈ item.expr.parts, p.isLambda = false) →
      (∀ item ∈ items, ∀ p ∈ item.expr.parts, p.equatesMembership = false) →
      ofItems items entity ⟨.sqlite, tableAlias⟩ = .ok c →
        ∃ terms, c.columnTerms? .sqlite = some terms ∧
          List.Forall₂ (fun item (term : SqlTerm × String) => term.2 = item.resultName ∧
            item.expr.Groups .sqlite (tableAlias.getD entity.source) term.1) items terms) := by
  constructor
  · intro e he hfree hequates h
    exact groups_of_ofExpr he (fun p hp =>
      ⟨Expr.keepsQuantifiers_of_isLambda hfree _ p hp, fun _ => hequates p hp⟩) h
  · intro items hitems hfree hequates h
    exact groups_of_ofItems hitems (fun item hitem p hp =>
      ⟨Expr.keepsQuantifiers_of_isLambda (hfree item hitem) _ p hp,
        fun _ => hequates item hitem p hp⟩) h

/-- The sign, the remainder and the division of numbers are operands of the comparison, which is one of
`and`. -/
theorem groups_sqlite_sales :
    (∃ e c t, Expr.readFilter "qty in (1, 2) ne paid and -qty mod 2 lt 3 sub qty divby 4" sale
        (.all sale) defaultMaxDepth = .ok e ∧
      (∀ p ∈ e.parts, p.isLambda = false) ∧ (∀ p ∈ e.parts, p.equatesMembership = false) ∧
      ofExpr e sale ⟨.sqlite, none⟩ = .ok c ∧ c.term? .sqlite = some t ∧
      e.Groups .sqlite "sales" t) ∧
    ∃ items c terms, ComputeItem.readAll "qty mul 2 mod 3 add 1 as rest" sale (.all sale)
        defaultMaxDepth = .ok items ∧
      (∀ item ∈ items, ∀ p ∈ item.expr.parts, p.isLambda = false) ∧
      (∀ item ∈ items, ∀ p ∈ item.expr.parts, p.equatesMembership = false) ∧
      ofItems items sale ⟨.sqlite, some "s"⟩ = .ok c ∧ c.columnTerms? .sqlite = some terms ∧
      List.Forall₂ (fun item (term : SqlTerm × String) => term.2 = item.resultName ∧
        item.expr.Groups .sqlite "s" term.1) items terms := by
  have hfilter : Result.passes (fun e => decide ((∀ p ∈ e.parts, p.isLambda = false) ∧
        ∀ p ∈ e.parts, p.equatesMembership = false) &&
      Result.passes (fun _ => true) (ofExpr e sale ⟨.sqlite, none⟩))
      (Expr.readFilter "qty in (1, 2) ne paid and -qty mod 2 lt 3 sub qty divby 4" sale (.all sale)
        defaultMaxDepth) = true := by decide +kernel
  have hcompute : Result.passes (fun items => decide
        ((∀ item ∈ items, ∀ p ∈ item.expr.parts, p.isLambda = false) ∧
          ∀ item ∈ items, ∀ p ∈ item.expr.parts, p.equatesMembership = false) &&
      Result.passes (fun _ => true) (ofItems items sale ⟨.sqlite, some "s"⟩))
      (ComputeItem.readAll "qty mul 2 mod 3 add 1 as rest" sale (.all sale) defaultMaxDepth) =
        true := by decide +kernel
  obtain ⟨e, c, hread, hparts, hc, _⟩ := Result.exists_of_passes_both hfilter
  obtain ⟨hfree, hequates⟩ := of_decide_eq_true hparts
  obtain ⟨t, ht, hgroups⟩ :=
    (groups_sqlite sale none defaultMaxDepth c).1 e (.filter hread) hfree hequates hc
  obtain ⟨items, c', hitems, hparts', hc', _⟩ := Result.exists_of_passes_both hcompute
  obtain ⟨hfree', hequates'⟩ := of_decide_eq_true hparts'
  obtain ⟨terms, hterms, hcolumns⟩ := (groups_sqlite sale (some "s") defaultMaxDepth c').2 items
    (fun _ hitem => .item hitems hitem) hfree' hequates' hc'
  exact ⟨⟨e, c, t, hread, hfree, hequates, hc, ht, hgroups⟩,
    items, c', terms, hitems, hfree', hequates', hc', hterms, hcolumns⟩

/-- In SQLite a value that is compared with a membership test is itself looked for in the list. -/
theorem groups_sqlite_torn :
    ∃ e c t, Expr.readFilter "paid eq qty in (1, 2)" sale (.all sale) defaultMaxDepth = .ok e ∧
      (∀ p ∈ e.parts, p.isLambda = false) ∧ ofExpr e sale ⟨.sqlite, none⟩ = .ok c ∧
      c.clause = "\"sales\".\"paid\" IS \"sales\".\"qty\" IN (?, ?)" ∧
      c.term? .sqlite = some t ∧ t.operator? = some ["IN"] ∧ ¬e.Groups .sqlite "sales" t := by
  have hfilter : Result.passes (fun e => decide (e.isEquality = true ∧
        ∀ p ∈ e.parts, p.isLambda = false) &&
      Result.passes (fun c => decide
        (c.clause = "\"sales\".\"paid\" IS \"sales\".\"qty\" IN (?, ?)" ∧
          (c.term? .sqlite).bind SqlTerm.operator? = some ["IN"]))
        (ofExpr e sale ⟨.sqlite, none⟩))
      (Expr.readFilter "paid eq qty in (1, 2)" sale (.all sale) defaultMaxDepth) = true := by
    decide +kernel
  obtain ⟨e, c, hread, hparts, hc, hclause⟩ := Result.exists_of_passes_both hfilter
  obtain ⟨hequality, hfree⟩ := of_decide_eq_true hparts
  obtain ⟨htext, hterm⟩ := of_decide_eq_true hclause
  obtain ⟨t, hterm⟩ := exists_term_of_operator? hequality hterm (by decide) "sales"
  exact ⟨e, c, t, hread, hfree, hc, htext, hterm⟩

/-- PostgreSQL reads conditions and columns without lambdas as they are grouped. -/
theorem groups_postgres (entity : EntityType) (tableAlias : Option String) (maxDepth : Nat)
    (c : SqlClause) :
    (∀ e : Expr, e.Accepted entity maxDepth → (∀ p ∈ e.parts, p.isLambda = false) →
      ofExpr e entity ⟨.postgres, tableAlias⟩ = .ok c →
        ∃ t, c.term? .postgres = some t ∧ e.Groups .postgres (tableAlias.getD entity.source) t) ∧
    (∀ items : List ComputeItem, (∀ item ∈ items, item.expr.Accepted entity maxDepth) →
      (∀ item ∈ items, ∀ p ∈ item.expr.parts, p.isLambda = false) →
      ofItems items entity ⟨.postgres, tableAlias⟩ = .ok c →
        ∃ terms, c.columnTerms? .postgres = some terms ∧
          List.Forall₂ (fun item (term : SqlTerm × String) => term.2 = item.resultName ∧
            item.expr.Groups .postgres (tableAlias.getD entity.source) term.1) items terms) := by
  have hpostgres : Dialect.postgres ≠ .sqlite := nofun
  constructor
  · intro e he hfree h
    exact groups_of_ofExpr he (fun p hp =>
      ⟨Expr.keepsQuantifiers_of_isLambda hfree _ p hp, fun hdialect => absurd hdialect hpostgres⟩) h
  · intro items hitems hfree h
    exact groups_of_ofItems hitems (fun item hitem p hp =>
      ⟨Expr.keepsQuantifiers_of_isLambda (hfree item hitem) _ p hp,
        fun hdialect => absurd hdialect hpostgres⟩) h

/-- Of two comparisons in a row, the first one is an operand of the second one. -/
theorem groups_postgres_sales :
    (∃ e c t, Expr.readFilter "paid eq qty in (1, 2) ne (qty lt 3) and not (-qty add 1 gt 4)" sale
        (.all sale) defaultMaxDepth = .ok e ∧
      (∀ p ∈ e.parts, p.isLambda = false) ∧ ofExpr e sale ⟨.postgres, none⟩ = .ok c ∧
      c.term? .postgres = some t ∧ e.Groups .postgres "sales" t) ∧
    ∃ items c terms, ComputeItem.readAll "qty mul 2 mod 3 divby 4 as rest" sale (.all sale)
        defaultMaxDepth = .ok items ∧
      (∀ item ∈ items, ∀ p ∈ item.expr.parts, p.isLambda = false) ∧
      ofItems items sale ⟨.postgres, some "s"⟩ = .ok c ∧ c.columnTerms? .postgres = some terms ∧
      List.Forall₂ (fun item (term : SqlTerm × String) => term.2 = item.resultName ∧
        item.expr.Groups .postgres "s" term.1) items terms := by
  have hfilter : Result.passes (fun e => decide (∀ p ∈ e.parts, p.isLambda = false) &&
      Result.passes (fun _ => true) (ofExpr e sale ⟨.postgres, none⟩))
      (Expr.readFilter "paid eq qty in (1, 2) ne (qty lt 3) and not (-qty add 1 gt 4)" sale
        (.all sale) defaultMaxDepth) = true := by decide +kernel
  have hcompute : Result.passes (fun items =>
        decide (∀ item ∈ items, ∀ p ∈ item.expr.parts, p.isLambda = false) &&
      Result.passes (fun _ => true) (ofItems items sale ⟨.postgres, some "s"⟩))
      (ComputeItem.readAll "qty mul 2 mod 3 divby 4 as rest" sale (.all sale) defaultMaxDepth) =
        true := by decide +kernel
  obtain ⟨e, c, hread, hparts, hc, _⟩ := Result.exists_of_passes_both hfilter
  have hfree := of_decide_eq_true hparts
  obtain ⟨t, ht, hgroups⟩ :=
    (groups_postgres sale none defaultMaxDepth c).1 e (.filter hread) hfree hc
  obtain ⟨items, c', hitems, hparts', hc', _⟩ := Result.exists_of_passes_both hcompute
  have hfree' := of_decide_eq_true hparts'
  obtain ⟨terms, hterms, hcolumns⟩ := (groups_postgres sale (some "s") defaultMaxDepth c').2 items
    (fun _ hitem => .item hitems hitem) hfree' hc'
  exact ⟨⟨e, c, t, hread, hfree, hc, ht, hgroups⟩, items, c', terms, hitems, hfree', hc', hterms,
    hcolumns⟩

/-- A lambda is one operand of the operator that it stands next to, if no operator tears the `NOT` of
an `all` apart from what it negates and, in SQLite, no value is compared with a membership test. -/
theorem groups_quantifiers (entity : EntityType) (options : SqlOptions) (maxDepth : Nat)
    (c : SqlClause) :
    (∀ e : Expr, e.Accepted entity maxDepth →
      (∀ p ∈ e.parts, p.KeepsQuantifiers options.dialect) →
      (options.dialect = .sqlite → ∀ p ∈ e.parts, p.equatesMembership = false) →
      ofExpr e entity options = .ok c →
        ∃ t, c.term? options.dialect = some t ∧
          e.Groups options.dialect (options.tableAlias.getD entity.source) t) ∧
    (∀ items : List ComputeItem, (∀ item ∈ items, item.expr.Accepted entity maxDepth) →
      (∀ item ∈ items, ∀ p ∈ item.expr.parts, p.KeepsQuantifiers options.dialect) →
      (options.dialect = .sqlite →
        ∀ item ∈ items, ∀ p ∈ item.expr.parts, p.equatesMembership = false) →
      ofItems items entity options = .ok c →
        ∃ terms, c.columnTerms? options.dialect = some terms ∧
          List.Forall₂ (fun item (term : SqlTerm × String) => term.2 = item.resultName ∧
            item.expr.Groups options.dialect (options.tableAlias.getD entity.source) term.1)
            items terms) := by
  constructor
  · intro e he hkeeps hequates h
    exact groups_of_ofExpr he
      (fun p hp => ⟨hkeeps p hp, fun hdialect => hequates hdialect p hp⟩) h
  · intro items hitems hkeeps hequates h
    exact groups_of_ofItems hitems (fun item hitem p hp =>
      ⟨hkeeps item hitem p hp, fun hdialect => hequates hdialect item hitem p hp⟩) h

/-- Behind `IS NOT` and in front of `AND`, the whole of `NOT EXISTS (…)` is one operand. -/
theorem groups_quantifiers_sales :
    (∃ e c t, Expr.readFilter "paid ne lines/all(l:l/qty gt 1) and not lines/any()" sale (.all sale)
        defaultMaxDepth = .ok e ∧
      (∀ p ∈ e.parts, p.KeepsQuantifiers .sqlite) ∧
      (∀ p ∈ e.parts, p.equatesMembership = false) ∧ ofExpr e sale ⟨.sqlite, none⟩ = .ok c ∧
      c.term? .sqlite = some t ∧ e.Groups .sqlite "sales" t) ∧
    ∃ items c terms, ComputeItem.readAll "paid eq lines/all(l:l/qty gt 1) as full" sale (.all sale)
        defaultMaxDepth = .ok items ∧
      (∀ item ∈ items, ∀ p ∈ item.expr.parts, p.KeepsQuantifiers .postgres) ∧
      ofItems items sale ⟨.postgres, none⟩ = .ok c ∧ c.columnTerms? .postgres = some terms ∧
      List.Forall₂ (fun item (term : SqlTerm × String) => term.2 = item.resultName ∧
        item.expr.Groups .postgres "sales" term.1) items terms := by
  have hfilter : Result.passes (fun e => decide ((∀ p ∈ e.parts, p.KeepsQuantifiers .sqlite) ∧
        ∀ p ∈ e.parts, p.equatesMembership = false) &&
      Result.passes (fun _ => true) (ofExpr e sale ⟨.sqlite, none⟩))
      (Expr.readFilter "paid ne lines/all(l:l/qty gt 1) and not lines/any()" sale (.all sale)
        defaultMaxDepth) = true := by decide +kernel
  have hcompute : Result.passes (fun items =>
        decide (∀ item ∈ items, ∀ p ∈ item.expr.parts, p.KeepsQuantifiers .postgres) &&
      Result.passes (fun _ => true) (ofItems items sale ⟨.postgres, none⟩))
      (ComputeItem.readAll "paid eq lines/all(l:l/qty gt 1) as full" sale (.all sale)
        defaultMaxDepth) = true := by decide +kernel
  obtain ⟨e, c, hread, hparts, hc, _⟩ := Result.exists_of_passes_both hfilter
  obtain ⟨hkeeps, hequates⟩ := of_decide_eq_true hparts
  obtain ⟨t, ht, hgroups⟩ := (groups_quantifiers sale ⟨.sqlite, none⟩ defaultMaxDepth c).1 e
    (.filter hread) hkeeps (fun _ => hequates) hc
  obtain ⟨items, c', hitems, hparts', hc', _⟩ := Result.exists_of_passes_both hcompute
  have hkeeps' := of_decide_eq_true hparts'
  have hpostgres : Dialect.postgres ≠ .sqlite := nofun
  obtain ⟨terms, hterms, hcolumns⟩ :=
    (groups_quantifiers sale ⟨.postgres, none⟩ defaultMaxDepth c').2 items
      (fun _ hitem => .item hitems hitem) hkeeps' (fun hdialect => absurd hdialect hpostgres) hc'
  exact ⟨⟨e, c, t, hread, hkeeps, hequates, hc, ht, hgroups⟩,
    items, c', terms, hitems, hkeeps', hc', hterms, hcolumns⟩

/-- The `NOT` of an `all` that is compared negates the whole comparison. -/
theorem groups_quantifiers_torn :
    ∃ e, Expr.readFilter "lines/all(l:l/qty gt 1) eq paid" sale (.all sale) defaultMaxDepth =
        .ok e ∧
      (∃ c t, ofExpr e sale ⟨.sqlite, none⟩ = .ok c ∧
        c.clause = "NOT EXISTS (SELECT 1 FROM \"lines\" AS \"l\" WHERE " ++
          "\"l\".\"sale_id\" = \"sales\".\"id\" AND " ++
            "(CASE WHEN (\"l\".\"qty\" > ?) THEN 1 ELSE 0 END) = 0) IS \"sales\".\"paid\"" ∧
        c.term? .sqlite = some t ∧ t.operator? = some ["NOT"] ∧ ¬e.Groups .sqlite "sales" t) ∧
      ∃ c t, ofExpr e sale ⟨.postgres, none⟩ = .ok c ∧ c.term? .postgres = some t ∧
        t.operator? = some ["NOT"] ∧ ¬e.Groups .postgres "sales" t := by
  have hfilter : Result.passes (fun e => decide (e.isEquality = true) &&
      (Result.passes (fun c => decide
        (c.clause = "NOT EXISTS (SELECT 1 FROM \"lines\" AS \"l\" WHERE " ++
          "\"l\".\"sale_id\" = \"sales\".\"id\" AND " ++
            "(CASE WHEN (\"l\".\"qty\" > ?) THEN 1 ELSE 0 END) = 0) IS \"sales\".\"paid\"" ∧
          (c.term? .sqlite).bind SqlTerm.operator? = some ["NOT"]))
        (ofExpr e sale ⟨.sqlite, none⟩) &&
      Result.passes (fun c => decide ((c.term? .postgres).bind SqlTerm.operator? = some ["NOT"]))
        (ofExpr e sale ⟨.postgres, none⟩)))
      (Expr.readFilter "lines/all(l:l/qty gt 1) eq paid" sale (.all sale) defaultMaxDepth) =
        true := by decide +kernel
  obtain ⟨e, hread, htest⟩ := Result.exists_of_passes hfilter
  obtain ⟨hequality, hcompile⟩ := Bool.and_eq_true_iff.mp htest
  obtain ⟨hsqlite, hpostgres⟩ := Bool.and_eq_true_iff.mp hcompile
  obtain ⟨c, hc, hclause⟩ := Result.exists_of_passes hsqlite
  obtain ⟨c', hc', hclause'⟩ := Result.exists_of_passes hpostgres
  replace hequality := of_decide_eq_true hequality
  obtain ⟨htext, hterm⟩ := of_decide_eq_true hclause
  obtain ⟨t, hterm⟩ := exists_term_of_operator? hequality hterm (by decide) "sales"
  obtain ⟨t', hterm'⟩ :=
    exists_term_of_operator? hequality (of_decide_eq_true hclause') (by decide) "sales"
  exact ⟨e, hread, ⟨c, t, hc, htext, hterm⟩, c', t', hc', hterm'⟩

end SqlClause

end ODataQuery
