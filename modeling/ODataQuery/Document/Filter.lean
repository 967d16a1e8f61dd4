import ODataQuery.Document.Value
import ODataQuery.Expr.Basic

/-!
# Filters of documents

Predicates over one document, and the query documents that select by them.

## Main definitions

- `DocumentFilter` — a predicate over a document
- `DocumentFilter.render` — the query for the documents where it is true or where it is false

## Design notes

A query only tells whether it selects, so negation is carried down to the parts: each of them
selects the documents where it is true, or under negation those where it is false. A part that
is unknown selects nothing either way.
-/

namespace ODataQuery

/-- A predicate over a document, or over an element of an array in it. -/
inductive DocumentFilter where
  | compare (path : String) (op : BinaryOp) (value : Value)
  /-- A Boolean field. -/
  | isTrue (path : String)
  | isIn (path : String) (values : List Value)
  /-- A text in which a pattern occurs. -/
  | hasPattern (path : String) (pattern : String)
  | and (items : List DocumentFilter)
  | or (items : List DocumentFilter)
  | not (operand : DocumentFilter)
  /-- Some or every element of an array satisfies a predicate. -/
  | elements (path : String) (quantifier : Quantifier) (body : DocumentFilter)
  /-- A quantifier without a predicate. -/
  | bare (path : String) (quantifier : Quantifier)
  /-- A truth value, none if it is unknown. -/
  | constant (b : Option Bool)

namespace DocumentFilter

/-- The query operator of a comparison. -/
def comparisonName : BinaryOp → String
  | .eq => "$eq"
  | .ne => "$ne"
  | .gt => "$gt"
  | .ge => "$gte"
  | .lt => "$lt"
  | _ => "$lte"

/-- The condition on a path. -/
def onPath (path : String) (condition : Json) : Json := .object [(path, condition)]

/-- An object with one operator. -/
def operator (name : String) (argument : Json) : Json := .object [(name, argument)]

/-- The query that selects every document. -/
def everything : Json := .object []

/-- The query that selects no document. -/
def nothing : Json := operator "$nor" (.array [everything])

/-- The condition of a field that is not null and satisfies another condition. -/
def notNull (name : String) (argument : Json) : Json :=
  Json.ofFields [(name, argument), ("$ne", .null)]

/-- The query for a truth value. -/
def renderConstant (b : Option Bool) (negated : Bool) : Json :=
  if b = some (!negated) then everything else nothing

/-- The query for an array with elements, or without. -/
def hasElements (path : String) (present : Bool) : Json :=
  onPath (path ++ ".0") (operator "$exists" (.bool present))

/-- The query for a quantifier over elements that all have the same truth value. -/
def renderUniform (path : String) (quantifier : Quantifier) (holds negated : Bool) : Json :=
  match quantifier, holds with
  | .any, true => hasElements path !negated
  | .any, false => renderConstant (some false) negated
  | .all, true => renderConstant (some true) negated
  | .all, false => hasElements path negated

/-- The query for a quantifier, given the query for elements that satisfy its body. -/
def renderElements (path : String) (quantifier : Quantifier) (body : Json) (negated : Bool) :
    Json :=
  match quantifier with
  | .any =>
    let matched := operator "$elemMatch" body
    onPath path (if negated then operator "$not" matched else matched)
  | .all =>
    let failing := operator "$elemMatch" (operator "$nor" (.array [body]))
    onPath path (if negated then failing else operator "$not" failing)

/-- The truth value of a folded predicate. -/
def constant? : DocumentFilter → Option (Option Bool)
  | constant b => some b
  | _ => none

mutual

/-- The query for the documents where the predicate is true, or where it is false if `negated`
is set. -/
def render (negated : Bool) : DocumentFilter → Json
  | compare path op value =>
    let op := if negated then op.negated else op
    onPath path (operator (comparisonName op) value.toDocument)
  | isTrue path => onPath path (operator "$eq" (.bool !negated))
  | isIn path values =>
    let list := Json.array (values.map Value.toDocument)
    onPath path (if negated then notNull "$nin" list else operator "$in" list)
  | hasPattern path pattern =>
    let condition := operator "$regex" (.string pattern)
    onPath path (if negated then notNull "$not" condition else condition)
  | and items => operator (if negated then "$or" else "$and") (.array (renderAll negated items))
  | or items => operator (if negated then "$and" else "$or") (.array (renderAll negated items))
  | not operand => operand.render !negated
  | elements path quantifier body =>
    match body.constant? with
    | some b => renderUniform path quantifier (b.getD false) negated
    | none => renderElements path quantifier (body.render false) negated
  | bare path quantifier => renderUniform path quantifier true negated
  | constant b => renderConstant b negated

/-- The queries of some predicates. -/
def renderAll (negated : Bool) : List DocumentFilter → List Json
  | [] => []
  | f :: fs => f.render negated :: renderAll negated fs

end

end DocumentFilter

end ODataQuery
