import ODataQuery.Proofs.Reading.Basic

/-!
# The rules of reading

What the readers of expressions accept, as rules for what is read between two cursors.

## Main definitions

- `Setting.Refers` — what an identifier refers to
- `Setting.ReadsList` — the list behind `in`
- `Expr.Combines` — operands that an operator accepts, with the operation made of them
- `Setting.Reads`, `Setting.ReadsOperand`, `Setting.ReadsOperations`, `Setting.ReadsArguments`
  — the rules of expressions and their parts
- `Setting.ReadsCompute` — the rules of compute items

## Design notes

The rules keep the bounds of the readers: `levels` for nesting, `limit` for repetitions. Steps
that do not nest stay equations between a cursor and the next one.
-/

namespace ODataQuery

/-- The static type of a scalar property; a collection has none. -/
def PropertyType.scalar? : PropertyType → Option StaticType
  | primitive kind => some (.primitive kind)
  | enumeration type => some (.enumeration type)
  | collection _ _ => none

namespace Expr

/-- A literal operand fitted to the type of the other one, and the static type that the operand
then has. -/
def settled? (e : Expr) (other : StaticType) : Option (Expr × StaticType) :=
  match e with
  | literal v => (v.coerce? other).map fun w => (literal w, w.typeAgainst (some other))
  | e => some (e, e.type)

/-- Two operands, each fitted to the other one if it is a literal, are accepted by an operator
and make the operation. -/
def Combines (op : BinaryOp) (left right e : Expr) : Prop :=
  ∃ l lt r rt, left.settled? right.type = some (l, lt) ∧ right.settled? lt = some (r, rt) ∧
    Setting.acceptsOperands op lt rt = true ∧ e = binary op l r

end Expr

namespace Setting

/-- The prefix operator that stands at a cursor, if there is one. -/
def PrefixAt (c : Cursor) : Option UnaryOp → Prop
  | some .negate => c.current.kind = .minus
  | some .not => c.current.kind ≠ .minus ∧ isNot c = .ok (true, c)
  | none => c.current.kind ≠ .minus ∧ isNot c = .ok (false, c)

/-- At most `limit` items with commas between them: literals that can equal an operand of the
type. -/
inductive ReadsItems (type : StaticType) : (limit : Nat) → Cursor → List Value → Cursor → Prop
  | exhausted {c} : ReadsItems type 0 c [] c
  | last {limit c v c'} (hv : c.current.literal? (some type) = .ok (some v))
      (hnull : v.isNull = false)
      (htype : type.isComparableWith (v.typeAgainst (some type)) = true)
      (hc : c.advance = .ok c') (hlast : c'.current.kind ≠ .comma) :
      ReadsItems type (limit + 1) c [v] c'
  | more {limit c v c₁ c₂ vs c'} (hv : c.current.literal? (some type) = .ok (some v))
      (hnull : v.isNull = false)
      (htype : type.isComparableWith (v.typeAgainst (some type)) = true)
      (hc : c.advance = .ok c₁) (hcomma : c₁.current.kind = .comma)
      (hc₁ : c₁.advance = .ok c₂) (h : ReadsItems type limit c₂ vs c') :
      ReadsItems type (limit + 1) c (v :: vs) c'

/-- A list in parentheses. -/
def ReadsList (type : StaticType) (c : Cursor) (list : List Value) (c' : Cursor) : Prop :=
  ∃ c₁ c₂, c.current.kind = .leftParen ∧ c.advance = .ok c₁ ∧
    c₁.current.kind ≠ .rightParen ∧ ReadsItems type (c₁.rest.length + 1) c₁ list c₂ ∧
    c₂.current.kind = .rightParen ∧ c₂.advance = .ok c'

variable (setting : Setting)

/-- What the identifier at a cursor refers to: a property, the path above it, the variable that
the reference starts at, and the token of its last name. -/
inductive Refers (scope : List Frame) (c : Cursor) :
    Property → String → Option String → Token → Cursor → Prop
  | root {property c'} (h : setting.entity.find? c.current.text = some property)
      (hc : c.advance = .ok c') : Refers scope c property "" none c.current c'
  | below {frame property c₁ c₂ c'} (hroot : setting.entity.find? c.current.text = none)
      (hframe : Frame.find? scope c.current.text = some frame) (hc : c.advance = .ok c₁)
      (hslash : c₁.current.kind = .slash) (hc₁ : c₁.advance = .ok c₂)
      (hname : c₂.current.kind = .identifier) (hc₂ : c₂.advance = .ok c')
      (h : frame.entity.find? c₂.current.text = some property) :
      Refers scope c property frame.path (some frame.name) c₂.current c'
  | it {property c₁ c₂ c'} (hroot : setting.entity.find? c.current.text = none)
      (hframe : Frame.find? scope c.current.text = none) (hit : c.current.text = "$it")
      (hc : c.advance = .ok c₁) (hslash : c₁.current.kind = .slash) (hc₁ : c₁.advance = .ok c₂)
      (hname : c₂.current.kind = .identifier) (hc₂ : c₂.advance = .ok c')
      (h : setting.entity.find? c₂.current.text = some property) :
      Refers scope c property "" none c₂.current c'

mutual

/-- An expression whose operators bind at least as tight as `minimum`. -/
inductive Reads : (levels minimum : Nat) → (scope : List Frame) →
    (expected : Option StaticType) → Cursor → Expr → Cursor → Prop
  | intro {levels minimum scope expected c left c₁ e c'}
      (hleft : ReadsOperand levels scope expected c left c₁)
      (h : ReadsOperations levels minimum scope (c₁.rest.length + 1) left c₁ e c') :
      Reads (levels + 1) minimum scope expected c e c'

/-- An operand with the prefix operators in front of it. -/
inductive ReadsOperand : (levels : Nat) → (scope : List Frame) →
    (expected : Option StaticType) → Cursor → Expr → Cursor → Prop
  | prefixed {levels scope expected c op c₁ e c'} (hop : PrefixAt c (some op))
      (hc : c.advance = .ok c₁)
      (he : Reads levels Operator.membershipPrecedence scope none c₁ e c')
      (htype : acceptsOperand op e.type = true) :
      ReadsOperand levels scope expected c (.unary op e) c'
  | group {levels scope expected c c₁ e c₂ c'} (hop : PrefixAt c none)
      (hkind : c.current.kind = .leftParen) (hc : c.advance = .ok c₁)
      (he : Reads levels 0 scope expected c₁ e c₂) (hclose : c₂.current.kind = .rightParen)
      (hc₂ : c₂.advance = .ok c') : ReadsOperand levels scope expected c e c'
  | literal {levels scope expected c v c'} (hop : PrefixAt c none)
      (hkind : c.current.kind = .literal) (hv : c.current.literal? expected = .ok (some v))
      (hc : c.advance = .ok c') : ReadsOperand levels scope expected c (.literal v) c'
  | callNone {levels scope expected c function c₁ c₂ c' t} (hop : PrefixAt c none)
      (hkind : c.current.kind = .functionName)
      (hfunction : Function.ofName? c.current.text = some function)
      (hc : c.advance = .ok c₁) (hopen : c₁.current.kind = .leftParen)
      (hc₁ : c₁.advance = .ok c₂) (hclose : c₂.current.kind = .rightParen)
      (hc₂ : c₂.advance = .ok c') (htype : function.check [] = .ok t) :
      ReadsOperand levels scope expected c (.call function []) c'
  | callSome {levels scope expected c function c₁ c₂ es c₃ c' t} (hop : PrefixAt c none)
      (hkind : c.current.kind = .functionName)
      (hfunction : Function.ofName? c.current.text = some function)
      (hc : c.advance = .ok c₁) (hopen : c₁.current.kind = .leftParen)
      (hc₁ : c₁.advance = .ok c₂) (hsome : c₂.current.kind ≠ .rightParen)
      (hes : ReadsArguments levels scope (c₂.rest.length + 1) c₂ es c₃)
      (hclose : c₃.current.kind = .rightParen) (hc₃ : c₃.advance = .ok c')
      (htype : function.check (Expr.types es) = .ok t) :
      ReadsOperand levels scope expected c (.call function es) c'
  | field {levels scope expected c property above origin token c' type} (hop : PrefixAt c none)
      (hkind : c.current.kind = .identifier)
      (hrefers : setting.Refers scope c property above origin token c')
      (hallowed : setting.allowed.allows (pathBelow above property.name) = true)
      (htype : property.type.scalar? = some type) :
      ReadsOperand levels scope expected c
        (.field ⟨property.name, property.source, origin, type⟩) c'
  | bare {levels scope expected c property above origin token c₁ target link c₂ c₃ c₄ c'}
      (hop : PrefixAt c none) (hkind : c.current.kind = .identifier)
      (hrefers : setting.Refers scope c property above origin token c₁)
      (hallowed : setting.allowed.allows (pathBelow above property.name) = true)
      (htype : property.type = .collection target link) (hslash : c₁.current.kind = .slash)
      (hc₁ : c₁.advance = .ok c₂) (hany : setting.quantifier c₂ = .ok (.any, c₃))
      (hopen : c₃.current.kind = .leftParen) (hc₃ : c₃.advance = .ok c₄)
      (hclose : c₄.current.kind = .rightParen) (hc₄ : c₄.advance = .ok c') :
      ReadsOperand levels scope expected c
        (.bare ⟨⟨property.name, property.source, origin, target, link⟩, .any, ""⟩) c'
  | lambda {levels scope expected c property above origin token c₁ target link c₂ quantifier c₃
        c₄ c₅ c₆ body c₇ c'}
      (hop : PrefixAt c none) (hkind : c.current.kind = .identifier)
      (hrefers : setting.Refers scope c property above origin token c₁)
      (hallowed : setting.allowed.allows (pathBelow above property.name) = true)
      (htype : property.type = .collection target link) (hslash : c₁.current.kind = .slash)
      (hc₁ : c₁.advance = .ok c₂) (hquantifier : setting.quantifier c₂ = .ok (quantifier, c₃))
      (hopen : c₃.current.kind = .leftParen) (hc₃ : c₃.advance = .ok c₄)
      (hbound : c₄.current.kind = .identifier) (hc₄ : c₄.advance = .ok c₅)
      (hfresh : setting.isTaken scope c₄.current.text = false)
      (hcolon : c₅.current.kind = .colon) (hc₅ : c₅.advance = .ok c₆)
      (hbody : Reads levels 0
        (⟨c₄.current.text, target, pathBelow above property.name⟩ :: scope) none c₆ body c₇)
      (hboolean : body.type.isBoolean = true) (hclose : c₇.current.kind = .rightParen)
      (hc₇ : c₇.advance = .ok c') :
      ReadsOperand levels scope expected c
        (.lambda ⟨⟨property.name, property.source, origin, target, link⟩, quantifier,
          c₄.current.text⟩ body) c'

/-- At most `limit` operations behind an operand. -/
inductive ReadsOperations : (levels minimum : Nat) → (scope : List Frame) → (limit : Nat) →
    Expr → Cursor → Expr → Cursor → Prop
  | exhausted {levels minimum scope left c} :
      ReadsOperations levels minimum scope 0 left c left c
  | stop {levels minimum scope limit left c op?} (hop : operator c = .ok (op?, c))
      (hloose : ∀ op ∈ op?, op.precedence < minimum) :
      ReadsOperations levels minimum scope (limit + 1) left c left c
  | binary {levels minimum scope limit left c op c₁ right c₂ e e' c'}
      (hop : operator c = .ok (some (.binary op), c)) (htight : minimum ≤ op.precedence)
      (hc : c.advance = .ok c₁)
      (hright : Reads levels (op.precedence + 1) scope
        (if op.isComparison then some left.type else none) c₁ right c₂)
      (he : Expr.Combines op left right e)
      (h : ReadsOperations levels minimum scope limit e c₂ e' c') :
      ReadsOperations levels minimum scope (limit + 1) left c e' c'
  | membership {levels minimum scope limit left c c₁ c₂ list e' c'}
      (hop : operator c = .ok (some .membership, c))
      (htight : minimum ≤ Operator.membershipPrecedence) (hc : c.advance = .ok c₁)
      (hlist : ReadsList left.type c₁ list c₂)
      (h : ReadsOperations levels minimum scope limit (.membership left list) c₂ e' c') :
      ReadsOperations levels minimum scope (limit + 1) left c e' c'

/-- At most `limit` arguments with commas between them. -/
inductive ReadsArguments : (levels : Nat) → (scope : List Frame) → (limit : Nat) → Cursor →
    List Expr → Cursor → Prop
  | exhausted {levels scope c} : ReadsArguments levels scope 0 c [] c
  | last {levels scope limit c e c'} (he : Reads levels 0 scope none c e c')
      (hlast : c'.current.kind ≠ .comma) : ReadsArguments levels scope (limit + 1) c [e] c'
  | more {levels scope limit c e c₁ c₂ es c'} (he : Reads levels 0 scope none c e c₁)
      (hcomma : c₁.current.kind = .comma) (hc₁ : c₁.advance = .ok c₂)
      (hes : ReadsArguments levels scope limit c₂ es c') :
      ReadsArguments levels scope (limit + 1) c (e :: es) c'

end

/-- At most `limit` compute items with commas between them. -/
inductive ReadsCompute : (limit : Nat) → (taken : List String) → Cursor → List ComputeItem →
    Cursor → Prop
  | exhausted {taken c} : ReadsCompute 0 taken c [] c
  | last {limit taken c e c₁ name c'}
      (he : setting.Reads setting.maxDepth 0 [] none c e c₁)
      (hname : setting.resultName taken c₁ = .ok (name, c')) (hlast : c'.current.kind ≠ .comma) :
      ReadsCompute (limit + 1) taken c [⟨e, name⟩] c'
  | more {limit taken c e c₁ name c₂ c₃ items c'}
      (he : setting.Reads setting.maxDepth 0 [] none c e c₁)
      (hname : setting.resultName taken c₁ = .ok (name, c₂)) (hcomma : c₂.current.kind = .comma)
      (hc₂ : c₂.advance = .ok c₃) (hitems : ReadsCompute limit (name :: taken) c₃ items c') :
      ReadsCompute (limit + 1) taken c (⟨e, name⟩ :: items) c'

end Setting

end ODataQuery
