import ODataQuery.Expr.Basic
import ODataQuery.Metadata.AllowList
import ODataQuery.Search.Basic

/-!
# Searches as predicates

A search selects the entities in which its terms occur.

## Main definitions

- `Search.fields` — the properties that a search reads
- `Search.predicate` — the predicate of a search over some properties
-/

namespace ODataQuery

namespace Search

/-- The string properties of an entity type that the allow-list has. -/
def fields (entity : EntityType) (allowed : AllowList) : List Field :=
  entity.properties.filterMap fun p =>
    match p.type with
    | .primitive .string =>
      if allowed.allows p.name then some ⟨p.name, p.source, none, .string⟩ else none
    | _ => none

/-- The test whether a property contains a term. -/
def containsTerm (term : String) (field : Field) : Expr :=
  .call .contains [.field field, .literal (.string term)]

/-- The predicate of a term: some property contains it. Without properties it is false. -/
def termPredicate (fields : List Field) (term : String) : Expr :=
  match fields.map (containsTerm term) with
  | [] => .literal (.boolean false)
  | test :: tests => tests.foldl (.binary .or) test

/-- The predicate of a search over some properties. -/
def predicate (fields : List Field) : Search → Expr
  | term text => termPredicate fields text
  | not operand => .unary .not (predicate fields operand)
  | and left right => .binary .and (predicate fields left) (predicate fields right)
  | or left right => .binary .or (predicate fields left) (predicate fields right)

end Search

end ODataQuery
