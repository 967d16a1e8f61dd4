import ODataQuery.Proofs.Literal.Reading
import ODataQuery.Proofs.Metadata.AllowList
import ODataQuery.Proofs.Reading.Derivation
import ODataQuery.Proofs.Reading.Progress

/-!
# Admitted expressions

What can be read at a place, as a judgment over expressions alone. It keeps the types that were
expected where literals were read, and how operands were before they were fitted to each other.

## Main definitions

- `Expr.Denotes` — what the names of a reference denote
- `Expr.Admitted` — the expressions that can be read at a place

## Main statements

- `Setting.Reads.admitted` — what is read is admitted
- `Expr.admitted_of_readFilter` — the same for a complete predicate
-/

namespace ODataQuery

namespace Expr

/-- The property below a variable, or below the root entity, with the path above it. -/
inductive Denotes (entity : EntityType) (scope : List Frame) :
    (origin : Option String) → (above : String) → Property → Prop
  | root {property} (h : entity.find? property.name = some property)
      (hname : Lexeme.IsIdentifier property.name) : Denotes entity scope none "" property
  | below {frame property} (hroot : entity.find? frame.name = none)
      (hframe : Frame.find? scope frame.name = some frame)
      (h : frame.entity.find? property.name = some property)
      (horigin : Lexeme.IsIdentifier frame.name) (hname : Lexeme.IsIdentifier property.name) :
      Denotes entity scope (some frame.name) frame.path property

/-- The expressions that can be read at a place, given the variables in scope and the expected type
of a literal. -/
inductive Admitted (entity : EntityType) (allowed : AllowList) :
    List Frame → Option StaticType → Expr → Prop
  | literal {scope expected v} (h : Value.LiteralAt expected v) :
      Admitted entity allowed scope expected (.literal v)
  | field {scope expected origin above property type}
      (h : Denotes entity scope origin above property)
      (hallowed : allowed.allows (Setting.pathBelow above property.name) = true)
      (htype : property.type.scalar? = some type) :
      Admitted entity allowed scope expected
        (.field ⟨property.name, property.source, origin, type⟩)
  /-- The right operand of a comparison is read at the type that the left one has before it is
  fitted. -/
  | binary {scope expected op left right e} (hleft : Admitted entity allowed scope expected left)
      (hright : Admitted entity allowed scope (if op.isComparison then some left.type else none) right)
      (h : Combines op left right e) : Admitted entity allowed scope expected e
  | unary {scope expected op operand} (h : Admitted entity allowed scope none operand)
      (htype : Setting.acceptsOperand op operand.type = true) :
      Admitted entity allowed scope expected (.unary op operand)
  | membership {scope expected operand list} (h : Admitted entity allowed scope expected operand)
      (hne : list ≠ []) (hliteral : ∀ v ∈ list, Value.LiteralAt (some operand.type) v)
      (hnull : ∀ v ∈ list, v.isNull = false)
      (htype : ∀ v ∈ list,
        operand.type.isComparableWith (v.typeAgainst (some operand.type)) = true) :
      Admitted entity allowed scope expected (.membership operand list)
  | call {scope expected function arguments t}
      (h : ∀ e ∈ arguments, Admitted entity allowed scope none e)
      (htype : function.check (types arguments) = .ok t) :
      Admitted entity allowed scope expected (.call function arguments)
  | bare {scope expected origin above property target link}
      (h : Denotes entity scope origin above property)
      (hallowed : allowed.allows (Setting.pathBelow above property.name) = true)
      (htype : property.type = .collection target link) :
      Admitted entity allowed scope expected
        (.bare ⟨⟨property.name, property.source, origin, target, link⟩, .any, ""⟩)
  | lambda {scope expected origin above property target link quantifier bound body}
      (h : Denotes entity scope origin above property)
      (hallowed : allowed.allows (Setting.pathBelow above property.name) = true)
      (htype : property.type = .collection target link) (hbound : Lexeme.IsIdentifier bound)
      (hfresh : (bound == "$it" || (entity.find? bound).isSome ||
        (Frame.find? scope bound).isSome) = false)
      (hbody : Admitted entity allowed
        (⟨bound, target, Setting.pathBelow above property.name⟩ :: scope) none body)
      (hboolean : body.type.isBoolean = true) :
      Admitted entity allowed scope expected
        (.lambda ⟨⟨property.name, property.source, origin, target, link⟩, quantifier, bound⟩ body)

end Expr

namespace Setting

variable {setting : Setting}

/-- A token that is read as a literal denotes a value of literals. -/
theorem literalAt_of_literal? {t : Token} {expected : Option StaticType} {v : Value}
    (h : t.literal? expected = .ok (some v)) : Value.LiteralAt expected v :=
  Value.literalAt_of_ofLiteral (Token.literal?_eq_ok.mp h).2

/-- The names of a reference denote what the reader finds. -/
theorem Refers.denotes {scope : List Frame} {c c' : Cursor} {property : Property} {above : String}
    {origin : Option String} {token : Token}
    (h : setting.Refers scope c property above origin token c') (hc : c.HasIdentifiers)
    (hkind : c.current.kind = .identifier) :
    Expr.Denotes setting.entity scope origin above property := by
  cases h with
  | root hproperty _ =>
    obtain ⟨_, hname⟩ := EntityType.mem_properties_of_find? hproperty
    have htext := hc.current hkind
    rw [← hname] at hproperty htext
    exact .root hproperty htext
  | it _ _ _ hadvance _ hadvance₁ hkind₂ _ hproperty =>
    obtain ⟨_, hname⟩ := EntityType.mem_properties_of_find? hproperty
    have htext := ((hc.of_advance hadvance).of_advance hadvance₁).current hkind₂
    rw [← hname] at hproperty htext
    exact .root hproperty htext
  | below hroot hframe hadvance _ hadvance₁ hkind₂ _ hproperty =>
    obtain ⟨_, hname⟩ := EntityType.mem_properties_of_find? hproperty
    obtain ⟨_, horigin⟩ := Frame.mem_of_find? hframe
    have htext := ((hc.of_advance hadvance).of_advance hadvance₁).current hkind₂
    have howner := hc.current hkind
    rw [← hname] at hproperty htext
    rw [← horigin] at hroot hframe howner
    exact .below hroot hframe hproperty howner htext

/-- The items of a list are literals that can equal an operand of the type. -/
theorem ReadsItems.admitted {type : StaticType} {limit : Nat} {c c' : Cursor} {vs : List Value}
    (h : ReadsItems type limit c vs c') : ∀ v ∈ vs, Value.LiteralAt (some type) v ∧
      v.isNull = false ∧ type.isComparableWith (v.typeAgainst (some type)) = true := by
  induction h with
  | exhausted => exact List.forall_mem_nil _
  | last hv hnull htype _ _ =>
    exact List.forall_mem_singleton.mpr ⟨literalAt_of_literal? hv, hnull, htype⟩
  | more hv hnull htype _ _ _ _ ih =>
    exact List.forall_mem_cons.mpr ⟨⟨literalAt_of_literal? hv, hnull, htype⟩, ih⟩

theorem ReadsItems.ne_nil {type : StaticType} {limit : Nat} {c c' : Cursor} {vs : List Value}
    (h : ReadsItems type (limit + 1) c vs c') : vs ≠ [] := by
  cases h <;> simp

mutual

/-- What is read is admitted. -/
theorem Reads.admitted {levels minimum : Nat} {scope : List Frame} {expected : Option StaticType}
    {c : Cursor} {e : Expr} {c' : Cursor}
    (h : setting.Reads levels minimum scope expected c e c') (hc : c.HasIdentifiers) :
    Expr.Admitted setting.entity setting.allowed scope expected e := by
  match h with
  | .intro hleft h =>
    exact ReadsOperations.admitted h (hc.of_suffix hleft.tokens_suffix)
      (ReadsOperand.admitted hleft hc)

theorem ReadsOperand.admitted {levels : Nat} {scope : List Frame} {expected : Option StaticType}
    {c : Cursor} {e : Expr} {c' : Cursor}
    (h : setting.ReadsOperand levels scope expected c e c') (hc : c.HasIdentifiers) :
    Expr.Admitted setting.entity setting.allowed scope expected e := by
  match h with
  | .prefixed _ hadvance he htype =>
    exact .unary (Reads.admitted he (hc.of_advance hadvance)) htype
  | .group _ _ hadvance he _ _ => exact Reads.admitted he (hc.of_advance hadvance)
  | .literal _ _ hv _ => exact .literal (literalAt_of_literal? hv)
  | .callNone _ _ _ _ _ _ _ _ htype => exact .call (List.forall_mem_nil _) htype
  | .callSome _ _ _ hadvance _ hadvance₁ _ hes _ _ htype =>
    have harguments := ReadsArguments.admitted hes ((hc.of_advance hadvance).of_advance hadvance₁)
    exact .call harguments htype
  | .field _ hkind hrefers hallowed htype => exact .field (hrefers.denotes hc hkind) hallowed htype
  | .bare _ hkind hrefers hallowed htype _ _ _ _ _ _ _ =>
    exact .bare (hrefers.denotes hc hkind) hallowed htype
  | .lambda _ hkind hrefers hallowed htype _ hadvance₁ hquantifier _ hadvance₃ hbound hadvance₄
      hfresh _ hadvance₅ hbody hboolean _ _ =>
    have hbinder := (((hc.of_suffix hrefers.tokens_suffix).of_advance hadvance₁).of_suffix
      (cursor_suffix_of_quantifier hquantifier)).of_advance hadvance₃
    have hinner := Reads.admitted hbody ((hbinder.of_advance hadvance₄).of_advance hadvance₅)
    exact .lambda (hrefers.denotes hc hkind) hallowed htype (hbinder.current hbound) hfresh hinner
      hboolean

theorem ReadsOperations.admitted {levels minimum : Nat} {scope : List Frame} {limit : Nat}
    {left : Expr} {c : Cursor} {e : Expr} {c' : Cursor} {expected : Option StaticType}
    (h : setting.ReadsOperations levels minimum scope limit left c e c') (hc : c.HasIdentifiers)
    (hleft : Expr.Admitted setting.entity setting.allowed scope expected left) :
    Expr.Admitted setting.entity setting.allowed scope expected e := by
  match h with
  | .exhausted | .stop _ _ => exact hleft
  | .binary _ _ hadvance hright he h =>
    have hc₁ := hc.of_advance hadvance
    exact ReadsOperations.admitted h (hc₁.of_suffix hright.tokens_suffix)
      (.binary hleft (Reads.admitted hright hc₁) he)
  | .membership _ _ hadvance hlist h =>
    have hc₁ := hc.of_advance hadvance
    obtain ⟨_, _, _, _, _, hitems, _, _⟩ := id hlist
    have hall := hitems.admitted
    exact ReadsOperations.admitted h (hc₁.of_suffix hlist.tokens_suffix)
      (.membership hleft hitems.ne_nil (fun v hv => (hall v hv).1) (fun v hv => (hall v hv).2.1)
        fun v hv => (hall v hv).2.2)

theorem ReadsArguments.admitted {levels : Nat} {scope : List Frame} {limit : Nat} {c : Cursor}
    {es : List Expr} {c' : Cursor} (h : setting.ReadsArguments levels scope limit c es c')
    (hc : c.HasIdentifiers) :
    ∀ e ∈ es, Expr.Admitted setting.entity setting.allowed scope none e := by
  match h with
  | .exhausted => exact List.forall_mem_nil _
  | .last he _ => exact List.forall_mem_singleton.mpr (Reads.admitted he hc)
  | .more he _ hadvance₁ hes =>
    have hrest := (hc.of_suffix he.tokens_suffix).of_advance hadvance₁
    exact List.forall_mem_cons.mpr ⟨Reads.admitted he hc, ReadsArguments.admitted hes hrest⟩

end

end Setting

/-- A predicate that is read is admitted. -/
theorem Expr.admitted_of_readFilter {text : String} {entity : EntityType} {allowed : AllowList}
    {maxDepth : Nat} {e : Expr} (h : readFilter text entity allowed maxDepth = .ok e) :
    Admitted entity allowed [] none e := by
  obtain ⟨c, c', hc, _, hfilter⟩ := Setting.run_eq_ok.mp h
  obtain ⟨hreads, _, _⟩ := Setting.filter_eq_ok.mp hfilter
  exact hreads.admitted (Cursor.hasIdentifiers_of_ofText hc)

end ODataQuery
