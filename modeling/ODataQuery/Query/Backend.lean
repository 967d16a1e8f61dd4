import ODataQuery.Sql.Clause

/-!
# Backends

What an expression is compiled for.

## Main definitions

- `Backend` — SQL, documents, or records in memory
- `Backend.ofName?` — the backend of a name, in any letter case
-/

namespace ODataQuery

/-- What an expression is compiled for. -/
inductive Backend where
  | sql (options : SqlOptions)
  | document
  | memory

namespace Backend

/-- The backend of a name, in any letter case. -/
def ofName? (name : String) : Option Backend :=
  match Text.toAsciiLower name with
  | "sqlite" => some (sql ⟨.sqlite, none⟩)
  | "postgres" | "postgresql" => some (sql ⟨.postgres, none⟩)
  | "document" | "mongodb" => some document
  | "memory" => some memory
  | _ => none

end Backend

end ODataQuery
