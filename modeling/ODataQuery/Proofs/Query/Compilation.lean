import ODataQuery.Proofs.Document.Compilation
import ODataQuery.Proofs.Memory.Compilation
import ODataQuery.Proofs.Query.Accepted
import ODataQuery.Proofs.Sql.Compilation
import ODataQuery.Query.Option

/-!
# Compiling accepted texts

No accepted text gives a backend events that it does not understand.

## Main definitions

- `Backend.Refuses` — the errors by which a backend may refuse an expression
- `Backend.Lacks` — those by which it refuses a construct that it has no way to express

## Main statements

- `Backend.cutShort_or_lacks`, `Backend.cutShort_or_lacks_items` — typed expressions
- `Backend.refuses_of_accepted` — filters, searches and compute options that are accepted
-/

namespace ODataQuery

namespace Backend

/-- The errors by which a backend may refuse an expression: the bound on the walk and, unless the
backend is memory, a construct that it has no way to express. -/
def Refuses : Backend → CompileError → Prop
  | _, .depthExceeded limit => limit = defaultMaxDepth
  | .sql _, .unsupported name _ => name = "sql"
  | .document, .unsupported name _ => name = "document"
  | _, _ => False

variable {backend : Backend} {root entity : EntityType} {now : Instant} {err : CompileError}

theorem refuses_depthExceeded (backend : Backend) :
    backend.Refuses (.depthExceeded defaultMaxDepth) := by
  cases backend <;> exact rfl

/-- The errors by which a backend refuses a construct that it has no way to express. -/
def Lacks : Backend → CompileError → Prop
  | .sql _, .unsupported name _ => name = "sql"
  | .document, .unsupported name _ => name = "document"
  | _, _ => False

theorem Lacks.refuses (h : backend.Lacks err) : backend.Refuses err := by
  cases backend <;> cases err <;> first | exact h | exact h.elim

theorem lacks_sql {options : SqlOptions} (h : ∃ what, err = .unsupported "sql" what) :
    (sql options).Lacks err := by
  obtain ⟨what, rfl⟩ := h
  exact rfl

theorem lacks_document (h : ∃ what, err = .unsupported "document" what) : document.Lacks err := by
  obtain ⟨what, rfl⟩ := h
  exact rfl

theorem refuses_of_cutShort {e : Expr} (h : e.CutShort defaultMaxDepth err) :
    backend.Refuses err := by
  rw [h.1]
  exact refuses_depthExceeded _

/-- An error of a backend whose result is wrapped is its own. -/
theorem eq_error_of_map {α β : Type} {x : Except CompileError α} {f : α → β}
    (h : x.map f = .error err) : x = .error err := by
  cases x with
  | error err' =>
    cases h
    rfl
  | ok a => cases h

/-- A typed predicate is compiled, unless it nests too deep for the walk or the backend has no way to
express a construct. -/
theorem cutShort_or_lacks {e : Expr} (h : e.Typed root []) (htype : e.type.isBoolean = true)
    (herr : CompiledFilter.ofExpr now e entity backend = .error err) :
    e.CutShort defaultMaxDepth err ∨ backend.Lacks err := by
  cases backend with
  | sql options =>
    exact (SqlClause.eq_unsupported_of_ofExpr h (eq_error_of_map herr)).imp_right lacks_sql
  | document =>
    have hquery := eq_error_of_map herr
    exact (DocumentQuery.eq_unsupported_of_ofExpr h htype hquery).imp_right lacks_document
  | memory =>
    have hpredicate := eq_error_of_map herr
    cases hmeaning : Meaning.ofExpr e with
    | error err' =>
      rw [Predicate.ofExpr, hmeaning] at hpredicate
      cases hpredicate
      exact .inl (h.cutShort_of_meaning hmeaning)
    | ok m =>
      rw [Predicate.ofExpr, hmeaning] at hpredicate
      cases hpredicate

/-- Typed compute items are compiled, unless one of them nests too deep for the walk or the backend has
no way to express it. -/
theorem cutShort_or_lacks_items {items : List ComputeItem}
    (h : ∀ item ∈ items, item.expr.Typed root [])
    (herr : CompiledCompute.ofItems now items entity backend = .error err) :
    (∃ item ∈ items, item.expr.CutShort defaultMaxDepth err) ∨ backend.Lacks err := by
  cases backend with
  | sql options =>
    exact (SqlClause.eq_unsupported_of_ofItems h (eq_error_of_map herr)).imp_right lacks_sql
  | document =>
    exact (DocumentQuery.eq_unsupported_of_ofItems h (eq_error_of_map herr)).imp_right lacks_document
  | memory =>
    have hprojection := eq_error_of_map herr
    cases hmeanings : items.mapM
        fun item => do return (item.resultName, ← Meaning.ofExpr item.expr) with
    | error err' =>
      rw [Projection.ofItems, hmeanings] at hprojection
      cases hprojection
      obtain ⟨item, hitem, hresult⟩ := Result.exists_of_mapM_eq_error hmeanings
      cases hmeaning : Meaning.ofExpr item.expr with
      | error err'' =>
        rw [hmeaning] at hresult
        cases hresult
        exact .inl ⟨item, hitem, (h item hitem).cutShort_of_meaning hmeaning⟩
      | ok m =>
        rw [hmeaning] at hresult
        cases hresult
    | ok meanings =>
      rw [Projection.ofItems, hmeanings] at hprojection
      cases hprojection

/-- A filter, a search or a compute option that is accepted is compiled, unless it nests too deep for
the walk or, outside memory, the backend has no way to express a construct. No backend takes its
events for those of no expression. -/
theorem refuses_of_accepted (backend : Backend) (now : Instant) (entity : EntityType)
    (allowed : AllowList) (maxDepth : Nat) (text : String) (err : CompileError) :
    (∀ e, Expr.readFilter text entity allowed maxDepth = .ok e →
      CompiledFilter.ofExpr now e entity backend = .error err → backend.Refuses err) ∧
    (∀ search, Search.ofText text maxDepth = .ok search →
      CompiledFilter.ofExpr now (search.predicate (Search.fields entity allowed)) entity backend =
        .error err → backend.Refuses err) ∧
    (∀ items, ComputeItem.readAll text entity allowed maxDepth = .ok items →
      CompiledCompute.ofItems now items entity backend = .error err → backend.Refuses err) := by
  refine ⟨fun e he herr => ?_, fun search _ herr => ?_, fun items hitems herr => ?_⟩
  · obtain ⟨htyped, htype⟩ := Expr.typed_of_readFilter he
    obtain hcut | hlacks := cutShort_or_lacks htyped (by rw [htype]; rfl) herr
    · exact refuses_of_cutShort hcut
    · exact hlacks.refuses
  · have hadmitted : Search.Admitted entity allowed _ := Search.admitted_predicate search
    obtain ⟨htyped, htype, _⟩ := hadmitted
    obtain hcut | hlacks := cutShort_or_lacks htyped (by rw [htype]; rfl) herr
    · exact refuses_of_cutShort hcut
    · exact hlacks.refuses
  · have htyped : ∀ item ∈ items, item.expr.Typed entity [] := fun item hitem =>
      (Expr.Accepted.item hitems hitem).typed
    obtain ⟨item, _, hcut⟩ | hlacks := cutShort_or_lacks_items htyped herr
    · exact refuses_of_cutShort hcut
    · exact hlacks.refuses

/-- SQLite has no regular expressions, neither in a filter nor in a compute option, and does not nest
as deep as a search of negations. -/
theorem refuses_of_accepted_products :
    let product : EntityType := ⟨"Product", "products", [⟨"name", "name", .primitive .string, false⟩]⟩
    let sqlite : Backend := .sql ⟨.sqlite, none⟩
    let refused : CompileError := .unsupported "sql" "matchesPattern on sqlite"
    let negations : String := String.join (List.replicate 49 "NOT ") ++ "desk"
    (∃ e, Expr.readFilter "matchesPattern(name,'^a')" product (.all product) defaultMaxDepth =
        .ok e ∧ CompiledFilter.ofExpr .earliest e product sqlite = .error refused ∧
        sqlite.Refuses refused) ∧
    (∃ search, Search.ofText negations defaultMaxDepth = .ok search ∧
      CompiledFilter.ofExpr .earliest
          (search.predicate (Search.fields product (.all product))) product sqlite =
        .error (.depthExceeded defaultMaxDepth) ∧
      sqlite.Refuses (.depthExceeded defaultMaxDepth)) ∧
    ∃ items, ComputeItem.readAll "matchesPattern(name,'^a') as found" product (.all product)
        defaultMaxDepth = .ok items ∧
      CompiledCompute.ofItems .earliest items product sqlite = .error refused ∧
      sqlite.Refuses refused := by
  intro product sqlite refused negations
  have hfilter : Result.passes
      (fun e => decide (SqlClause.ofExpr e product ⟨.sqlite, none⟩ = .error refused))
      (Expr.readFilter "matchesPattern(name,'^a')" product (.all product) defaultMaxDepth) =
        true := by
    decide +kernel
  have hsearch : Result.passes (fun search => decide (SqlClause.ofExpr
      (search.predicate (Search.fields product (.all product))) product ⟨.sqlite, none⟩ =
        .error (.depthExceeded defaultMaxDepth)))
      (Search.ofText negations defaultMaxDepth) = true := by
    decide +kernel
  have hcompute : Result.passes
      (fun items => decide (SqlClause.ofItems items product ⟨.sqlite, none⟩ = .error refused))
      (ComputeItem.readAll "matchesPattern(name,'^a') as found" product (.all product)
        defaultMaxDepth) = true := by
    decide +kernel
  obtain ⟨e, he, hcondition⟩ := Result.exists_of_passes hfilter
  obtain ⟨search, hread, hdeep⟩ := Result.exists_of_passes hsearch
  obtain ⟨items, hitems, hcolumns⟩ := Result.exists_of_passes hcompute
  have hcondition : CompiledFilter.ofExpr .earliest e product sqlite = .error refused :=
    congrArg (Except.map _) (of_decide_eq_true hcondition)
  have hdeep : CompiledFilter.ofExpr .earliest
      (search.predicate (Search.fields product (.all product))) product sqlite =
        .error (.depthExceeded defaultMaxDepth) :=
    congrArg (Except.map _) (of_decide_eq_true hdeep)
  have hcolumns : CompiledCompute.ofItems .earliest items product sqlite = .error refused :=
    congrArg (Except.map _) (of_decide_eq_true hcolumns)
  exact ⟨⟨e, he, hcondition, (refuses_of_accepted sqlite .earliest product (.all product)
      defaultMaxDepth _ refused).1 e he hcondition⟩,
    ⟨search, hread, hdeep, (refuses_of_accepted sqlite .earliest product (.all product)
      defaultMaxDepth negations (.depthExceeded defaultMaxDepth)).2.1 search hread hdeep⟩,
    items, hitems, hcolumns, (refuses_of_accepted sqlite .earliest product (.all product)
      defaultMaxDepth _ refused).2.2 items hitems hcolumns⟩

end Backend

end ODataQuery
