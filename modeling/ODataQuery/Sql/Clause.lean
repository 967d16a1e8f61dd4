import ODataQuery.Sql.Writer

/-!
# Clauses

The condition of a query, or the columns that it computes, with their parameters.

## Main definitions

- `SqlOptions` — the dialect, and the alias of the table
- `SqlClause` — text with placeholders, and the parameters in their order
- `SqlClause.ofPieces` — numbers the placeholders
- `SqlClause.ofExpr`, `SqlClause.ofItems` — compiles a condition, and columns
-/

namespace ODataQuery

/-- How a clause is written. -/
structure SqlOptions where
  dialect : Dialect
  /-- The alias of the table of the root entity; the name of the table if there is none. -/
  tableAlias : Option String

/-- A clause with its parameters. -/
structure SqlClause where
  clause : String
  params : List SqlValue
deriving DecidableEq

namespace SqlClause

/-- The text of pieces behind so many parameters. -/
def textFrom (dialect : Dialect) : (count : Nat) → List SqlPiece → String
  | _, [] => ""
  | count, .text s :: rest => s ++ textFrom dialect count rest
  | count, .param _ :: rest =>
    dialect.placeholder (count + 1) ++ textFrom dialect (count + 1) rest

/-- The parameters of pieces. -/
def paramsOf (dialect : Dialect) : List SqlPiece → List SqlValue
  | [] => []
  | .text _ :: rest => paramsOf dialect rest
  | .param v :: rest => dialect.bind v :: paramsOf dialect rest

/-- Numbers the placeholders and stores the parameters as the dialect does. -/
def ofPieces (dialect : Dialect) (pieces : List SqlPiece) : SqlClause :=
  ⟨textFrom dialect 0 pieces, paramsOf dialect pieces⟩

/-- The pieces of an expression over an entity type. -/
def piecesOf (e : Expr) (entity : EntityType) (options : SqlOptions) :
    Except CompileError (List SqlPiece) :=
  e.listen (SqlWriter.listener options.dialect (options.tableAlias.getD entity.source))
    defaultMaxDepth

/-- Compiles a condition. -/
def ofExpr (e : Expr) (entity : EntityType) (options : SqlOptions) :
    Except CompileError SqlClause := do
  return ofPieces options.dialect (← piecesOf e entity options)

/-- The pieces of a compute item: an expression and the name of its column. -/
def piecesOfItem (entity : EntityType) (options : SqlOptions) (item : ComputeItem) :
    Except CompileError (List SqlPiece) := do
  let pieces ← piecesOf item.expr entity options
  return pieces ++ [.text (" AS " ++ SqlWriter.quote item.resultName)]

/-- Compiles compute items to columns with commas between them. -/
def ofItems (items : List ComputeItem) (entity : EntityType) (options : SqlOptions) :
    Except CompileError SqlClause := do
  let columns ← items.mapM (piecesOfItem entity options)
  return ofPieces options.dialect (columns.intersperse [.text ", "]).flatten

/-- The JSON form of a clause. -/
def toJson (c : SqlClause) : Json :=
  .object [("clause", .string c.clause), ("params", .array (c.params.map SqlValue.toJson))]

end SqlClause

end ODataQuery
