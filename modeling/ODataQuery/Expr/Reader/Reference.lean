import ODataQuery.Expr.Reader.Basic

/-!
# Reading references

Property paths are resolved and checked against the allow-list as soon as they are read.

## Main definitions

- `Subreader` — reads an expression one level deeper
- `Setting.reference` — reads what an identifier refers to: a property of the root entity, a
  path from a lambda variable, or a path from `$it`
- `Setting.lambda` — reads a quantifier with its variable and body
-/

namespace ODataQuery

/-- Reads an expression inside another one, given the lowest precedence of its operators, the
variables in scope, and the expected type of a literal. -/
abbrev Subreader :=
  (minimum : Nat) → (scope : List Frame) → (expected : Option StaticType) → Reading Expr

namespace Setting

open Reading

/-- The path of a property below the path of a navigation; the root entity has no path. -/
def pathBelow (above name : String) : String := if above = "" then name else above ++ "/" ++ name

/-- Reads the quantifier of a lambda. -/
def quantifier (setting : Setting) : Reading Quantifier := do
  let t ← current
  if t.isWord "any" then
    let _ ← advance
    return .any
  else if t.isWord "all" then
    let _ ← advance
    return .all
  else setting.unexpected "any or all"

/-- Whether a lambda cannot bind this name. -/
def isTaken (setting : Setting) (scope : List Frame) (name : String) : Bool :=
  name == "$it" || (setting.entity.find? name).isSome || (Frame.find? scope name).isSome

/-- Reads the variable and the body of a lambda, and the closing parenthesis. -/
def lambdaBody (setting : Setting) (subreader : Subreader) (scope : List Frame)
    (navigation : Navigation) (path : String) (quantifier : Quantifier) : Reading Expr := do
  let bound ← setting.expect .identifier "a lambda variable"
  if setting.isTaken scope bound.text then
    setting.fail (.variableInUse bound.text) bound.offset
  else
    let _ ← setting.expect .colon "':'"
    let body ← subreader 0 (⟨bound.text, navigation.target, path⟩ :: scope) none
    if body.type.isBoolean then
      let _ ← setting.expect .rightParen "')'"
      return .lambda ⟨navigation, quantifier, bound.text⟩ body
    else setting.mismatch (.body body.type) bound.offset

/-- Reads a quantifier over a collection. Only `any` can do without a body. -/
def lambda (setting : Setting) (subreader : Subreader) (scope : List Frame)
    (navigation : Navigation) (path : String) : Reading Expr := do
  let quantifier ← setting.quantifier
  let _ ← setting.expect .leftParen "'('"
  let t ← current
  if quantifier = .any ∧ t.kind = .rightParen then
    let _ ← advance
    return .bare ⟨navigation, quantifier, ""⟩
  else setting.lambdaBody subreader scope navigation path quantifier

/-- Makes the reference to a property whose last name is `token`, and reads the lambda behind a
collection. -/
def resolve (setting : Setting) (subreader : Subreader) (scope : List Frame)
    (property : Property) (above : String) (origin : Option String) (token : Token) :
    Reading Expr :=
  let path := pathBelow above property.name
  if setting.allowed.allows path then
    match property.type with
    | .primitive kind => return .field ⟨property.name, property.source, origin, .primitive kind⟩
    | .enumeration type =>
      return .field ⟨property.name, property.source, origin, .enumeration type⟩
    | .collection target link => do
      let t ← current
      if t.kind = .slash then
        let _ ← advance
        setting.lambda subreader scope ⟨property.name, property.source, origin, target, link⟩
          path
      else setting.mismatch (.bareCollection path) token.offset
  else setting.fail (.notAllowed path) token.offset

/-- Reads the property name behind the name of a variable. -/
def memberAfterSlash (setting : Setting) (owner : Token) : Reading Token := do
  let t ← current
  if t.kind = .slash then
    let _ ← advance
    setting.expect .identifier "a property name"
  else setting.mismatch (.bareVariable owner.text) owner.offset

/-- Reads what an identifier refers to. Properties of the root entity hide variables. -/
def reference (setting : Setting) (subreader : Subreader) (scope : List Frame) :
    Reading Expr := do
  let token ← advance
  match setting.entity.find? token.text with
  | some property => setting.resolve subreader scope property "" none token
  | none =>
    match Frame.find? scope token.text with
    | some frame =>
      let member ← setting.memberAfterSlash token
      match frame.entity.find? member.text with
      | some property =>
        setting.resolve subreader scope property frame.path (some frame.name) member
      | none =>
        setting.fail (.unknownProperty (token.text ++ "/" ++ member.text)) member.offset
    | none =>
      if token.text = "$it" then
        let member ← setting.memberAfterSlash token
        match setting.entity.find? member.text with
        | some property => setting.resolve subreader scope property "" none member
        | none => setting.fail (.unknownProperty member.text) member.offset
      else
        let t ← current
        if t.kind = .slash then setting.fail (.unknownVariable token.text) token.offset
        else setting.fail (.unknownProperty token.text) token.offset

end Setting

end ODataQuery
