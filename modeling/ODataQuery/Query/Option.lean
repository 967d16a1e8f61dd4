import ODataQuery.Document.Query
import ODataQuery.Expr.Reader
import ODataQuery.Memory.Predicate
import ODataQuery.Query.Backend
import ODataQuery.Search.Predicate

/-!
# Query options

From the text of an option to what it compiles to.

## Main definitions

- `QueryError` — why a text is not compiled
- `Query.readFilter`, `Query.readSearch`, `Query.readCompute` — reads the text of an option
- `CompiledFilter` — a predicate for a backend
- `CompiledCompute` — compute items for a backend
- `CompiledFilter.toJson`, `CompiledCompute.toJson` — how they are shown

## Design notes

A predicate in memory is shown by the records that it selects, and compute items by the records
with their results.
-/

namespace ODataQuery

/-- Why a text is not compiled. -/
inductive QueryError where
  | parse (e : ParseError)
  | compile (e : CompileError)
deriving DecidableEq

namespace QueryError

/-- The error in words. -/
def message : QueryError → String
  | parse e => e.message ParseFault.message
  | compile e => e.message

/-- Whether a request referred to a property that it may not read. -/
def isAuthorization : QueryError → Bool
  | parse e => e.fault.isAuthorization
  | compile _ => false

/-- An outcome of reading as one of a query. -/
def ofParse {α : Type} (outcome : Except ParseError α) : Except QueryError α :=
  outcome.mapError parse

/-- An outcome of compiling as one of a query. -/
def ofCompile {α : Type} (outcome : Except CompileError α) : Except QueryError α :=
  outcome.mapError compile

end QueryError

namespace Query

/-- Reads a filter. -/
def readFilter (text : String) (entity : EntityType) (allowed : AllowList) :
    Except ParseError Expr :=
  Expr.readFilter text entity allowed defaultMaxDepth

/-- Reads a search as the predicate that it stands for. -/
def readSearch (text : String) (entity : EntityType) (allowed : AllowList) :
    Except ParseError Expr := do
  let search ← Search.ofText text defaultMaxDepth
  return search.predicate (Search.fields entity allowed)

/-- Reads compute items. -/
def readCompute (text : String) (entity : EntityType) (allowed : AllowList) :
    Except ParseError (List ComputeItem) :=
  ComputeItem.readAll text entity allowed defaultMaxDepth

end Query

/-- A predicate for a backend. -/
inductive CompiledFilter where
  | sql (clause : SqlClause)
  | document (query : Json)
  | memory (predicate : Predicate)

namespace CompiledFilter

/-- Compiles a predicate over an entity type, given the present instant. -/
def ofExpr (now : Instant) (e : Expr) (entity : EntityType) :
    Backend → Except CompileError CompiledFilter
  | .sql options => (SqlClause.ofExpr e entity options).map sql
  | .document => (DocumentQuery.ofExpr now e).map document
  | .memory => (Predicate.ofExpr e).map memory

/-- How a predicate is shown; one in memory is applied to records. -/
def toJson (options : JsonOptions) (now : Instant) (records : List Record) :
    CompiledFilter → Json
  | sql clause => clause.toJson
  | document query => query
  | memory predicate => .array ((predicate.filter now records).map (Record.toJson options))

end CompiledFilter

/-- Compute items for a backend. -/
inductive CompiledCompute where
  | sql (clause : SqlClause)
  | document (projection : Json)
  | memory (projection : Projection)

namespace CompiledCompute

/-- Compiles compute items over an entity type, given the present instant. -/
def ofItems (now : Instant) (items : List ComputeItem) (entity : EntityType) :
    Backend → Except CompileError CompiledCompute
  | .sql options => (SqlClause.ofItems items entity options).map sql
  | .document => (DocumentQuery.ofItems now items).map document
  | .memory => (Projection.ofItems items).map memory

/-- How compute items are shown; those in memory are applied to records. -/
def toJson (options : JsonOptions) (now : Instant) (records : List Record) :
    CompiledCompute → Json
  | sql clause => clause.toJson
  | document projection => projection
  | memory projection =>
    .array (records.map fun r => Record.toJson options (projection.apply now r))

end CompiledCompute

end ODataQuery
