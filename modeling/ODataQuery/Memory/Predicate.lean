import ODataQuery.Memory.Meaning

/-!
# Filtering and computing in memory

## Main definitions

- `Predicate` — a compiled filter
- `Predicate.value`, `Predicate.selects`, `Predicate.filter` — applying it to records
- `Projection` — compiled compute items
- `Projection.values`, `Projection.apply` — applying them to a record
-/

namespace ODataQuery

/-- A compiled filter. -/
structure Predicate where
  meaning : Meaning

namespace Predicate

/-- Compiles a filter. -/
def ofExpr (e : Expr) : Except CompileError Predicate := do return ⟨← Meaning.ofExpr e⟩

/-- The outcome on a record, which may be `null`. -/
def value (p : Predicate) (now : Instant) (record : Record) : Value := p.meaning ⟨now, [record]⟩

/-- Whether a record is selected; `null` selects nothing. -/
def selects (p : Predicate) (now : Instant) (record : Record) : Bool :=
  (p.value now record).truth? == some true

/-- The records that are selected. -/
def filter (p : Predicate) (now : Instant) (records : List Record) : List Record :=
  records.filter (p.selects now)

end Predicate

/-- Compiled compute items: the names of the results with their meanings. -/
structure Projection where
  items : List (String × Meaning)

namespace Projection

/-- Compiles compute items. -/
def ofItems (items : List ComputeItem) : Except CompileError Projection := do
  return ⟨← items.mapM fun item => do return (item.resultName, ← Meaning.ofExpr item.expr)⟩

/-- The names of the results. -/
def resultNames (p : Projection) : List String := p.items.map Prod.fst

/-- The results on a record. -/
def values (p : Projection) (now : Instant) (record : Record) : List (String × Value) :=
  p.items.map fun (name, meaning) => (name, meaning ⟨now, [record]⟩)

/-- The record together with the results. -/
def apply (p : Projection) (now : Instant) (record : Record) : Record :=
  (p.values now record).foldl (fun r (name, v) => Record.insert name (.value v) r) record

end Projection

end ODataQuery
