import ODataQuery.Expr.Reader.Operation

/-!
# Reading expressions

## Main definitions

- `Expr.readFilter` — the predicate that a text denotes over an entity type
- `ComputeItem.readAll` — the items of a compute option
-/

namespace ODataQuery

namespace Setting

open Reading

/-- Reads a text from its first token. An empty text is refused. -/
def run {α : Type} (setting : Setting) (reading : Reading α) : Except ParseError α :=
  match Cursor.ofText setting.text with
  | .error e => .error (e.map .lex)
  | .ok c =>
    if c.current.kind = .endOfText then .error (.within setting.text .empty 0)
    else (reading c).map Prod.fst

/-- Reads a complete predicate. -/
def filter (setting : Setting) : Reading Expr := do
  let e ← setting.expression setting.maxDepth 0 [] none
  setting.expectEnd
  if e.type = .boolean then return e else setting.mismatch (.filter e.type) 0

/-- Reads the name of a result, which neither a property nor another result may have. -/
def resultName (setting : Setting) (taken : List String) : Reading String := do
  let t ← current
  if t.isWord "as" then
    let _ ← advance
    let name ← setting.expect .identifier "an alias"
    if (setting.entity.find? name.text).isSome || taken.contains name.text then
      setting.fail (.duplicateAlias name.text) name.offset
    else return name.text
  else setting.unexpected "'as'"

/-- Reads at most `limit` compute items with commas between them. -/
def computeItems (setting : Setting) : (limit : Nat) → (taken : List String) →
    Reading (List ComputeItem)
  | 0, _ => return []
  | limit + 1, taken => do
    let e ← setting.expression setting.maxDepth 0 [] none
    let name ← setting.resultName taken
    let t ← current
    if t.kind = .comma then
      let _ ← advance
      let rest ← computeItems setting limit (name :: taken)
      return ⟨e, name⟩ :: rest
    else return [⟨e, name⟩]

/-- Reads complete compute items. -/
def compute (setting : Setting) : Reading (List ComputeItem) := do
  let remaining ← remaining
  let items ← setting.computeItems (remaining + 1) []
  setting.expectEnd
  return items

end Setting

/-- The predicate that a text denotes over an entity type. -/
def Expr.readFilter (text : String) (entity : EntityType) (allowed : AllowList)
    (maxDepth : Nat) : Except ParseError Expr :=
  let setting : Setting := ⟨text.toList, entity, allowed, maxDepth⟩
  setting.run setting.filter

/-- The items of a compute option over an entity type. -/
def ComputeItem.readAll (text : String) (entity : EntityType) (allowed : AllowList)
    (maxDepth : Nat) : Except ParseError (List ComputeItem) :=
  let setting : Setting := ⟨text.toList, entity, allowed, maxDepth⟩
  setting.run setting.compute

end ODataQuery
