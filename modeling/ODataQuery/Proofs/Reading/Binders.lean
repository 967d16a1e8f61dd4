import ODataQuery.Proofs.Reading.Derivation
import ODataQuery.Proofs.Reading.Progress
import ODataQuery.Proofs.Expr.Typing

/-!
# The variables of what is read

A lambda with a body binds a variable of its own: it has a name, which no enclosing lambda has bound.

## Main definitions

- `EnclosedBinder` — the head of a lambda with the variables around it
- `Expr.binders` — the heads of all lambdas of an expression

## Main statements

- `Setting.Reads.binders_fresh` — what is read binds no variable twice
- `Expr.binders_fresh_of_readFilter` — the same for a complete predicate
-/

namespace ODataQuery

/-- The head of a lambda with the variables around it, the innermost first. -/
structure EnclosedBinder where
  binder : Binder
  hasBody : Bool
  enclosing : List String

namespace EnclosedBinder

/-- A body has a variable of its own. Without a body no variable is bound. -/
def Fresh (b : EnclosedBinder) : Prop :=
  if b.hasBody then b.binder.bound ≠ "" ∧ b.binder.bound ∉ b.enclosing else b.binder.bound = ""

theorem Fresh.of_body {b : EnclosedBinder} (h : b.Fresh) (hbody : b.hasBody = true) :
    b.binder.bound ≠ "" ∧ b.binder.bound ∉ b.enclosing := by
  rwa [Fresh, if_pos hbody] at h

end EnclosedBinder

namespace Expr

mutual

/-- The heads of the lambdas of an expression among the variables of enclosing lambdas. -/
def binders (enclosing : List String) : Expr → List EnclosedBinder
  | literal _ | field _ => []
  | binary _ left right => left.binders enclosing ++ right.binders enclosing
  | unary _ operand | membership operand _ => operand.binders enclosing
  | call _ arguments => argumentBinders enclosing arguments
  | lambda binder body =>
    ⟨binder, true, enclosing⟩ :: body.binders (binder.bound :: enclosing)
  | bare binder => [⟨binder, false, enclosing⟩]

/-- The heads of the lambdas of arguments. -/
def argumentBinders (enclosing : List String) : List Expr → List EnclosedBinder
  | [] => []
  | e :: es => e.binders enclosing ++ argumentBinders enclosing es

end

theorem binders_of_settled? {enclosing : List String} {e e' : Expr} {other type : StaticType}
    (h : e.settled? other = some (e', type)) : e'.binders enclosing = e.binders enclosing := by
  obtain ⟨v, w, rfl, _, rfl, _⟩ | ⟨_, rfl, _⟩ := settled?_cases h
  · rfl
  · rfl

theorem binders_of_combines {enclosing : List String} {op : BinaryOp} {left right e : Expr}
    (h : Combines op left right e) :
    e.binders enclosing = left.binders enclosing ++ right.binders enclosing := by
  obtain ⟨l, lt, r, rt, hl, hr, _, rfl⟩ := h
  rw [binders, binders_of_settled? hl, binders_of_settled? hr]

end Expr

namespace Setting

variable {setting : Setting}

/-- A name that is not taken is not that of a variable in scope. -/
theorem not_mem_names_of_isTaken {scope : List Frame} {name : String}
    (h : setting.isTaken scope name = false) : name ∉ scope.map Frame.name := by
  intro hmem
  obtain ⟨frame, hframe, rfl⟩ := List.mem_map.mp hmem
  have hfind : (Frame.find? scope frame.name).isSome = true :=
    List.find?_isSome.mpr ⟨frame, hframe, beq_self_eq_true _⟩
  rw [isTaken, hfind, Bool.or_true] at h
  cases h

/-- Further operations keep the variables of their left operand. -/
theorem ReadsOperations.binders_subset {levels minimum limit : Nat} {scope : List Frame}
    {left : Expr} {c : Cursor} {e : Expr} {c' : Cursor}
    (h : setting.ReadsOperations levels minimum scope limit left c e c') (enclosing : List String) :
    left.binders enclosing ⊆ e.binders enclosing := by
  induction limit generalizing left c with
  | zero =>
    cases h
    exact List.Subset.refl _
  | succ limit ih =>
    cases h with
    | stop => exact List.Subset.refl _
    | binary _ _ _ _ he h =>
      refine List.Subset.trans ?_ (ih h)
      rw [Expr.binders_of_combines he]
      exact List.subset_append_left _ _
    | membership _ _ _ _ h =>
      have hoperand := ih h
      rwa [Expr.binders] at hoperand

mutual

/-- What is read binds no variable twice. -/
theorem Reads.binders_fresh {levels minimum : Nat} {scope : List Frame}
    {expected : Option StaticType} {c : Cursor} {e : Expr} {c' : Cursor}
    (h : setting.Reads levels minimum scope expected c e c') (hc : c.HasText) :
    ∀ b ∈ e.binders (scope.map Frame.name), b.Fresh := by
  match h with
  | .intro hleft h =>
    exact ReadsOperations.binders_fresh h (hc.of_suffix hleft.tokens_suffix)
      (ReadsOperand.binders_fresh hleft hc)

theorem ReadsOperand.binders_fresh {levels : Nat} {scope : List Frame}
    {expected : Option StaticType} {c : Cursor} {e : Expr} {c' : Cursor}
    (h : setting.ReadsOperand levels scope expected c e c') (hc : c.HasText) :
    ∀ b ∈ e.binders (scope.map Frame.name), b.Fresh := by
  match h with
  | .prefixed _ hadvance he _ =>
    rw [Expr.binders]
    exact Reads.binders_fresh he (hc.of_advance hadvance)
  | .group _ _ hadvance he _ _ => exact Reads.binders_fresh he (hc.of_advance hadvance)
  | .literal _ _ _ _ | .field _ _ _ _ _ | .callNone _ _ _ _ _ _ _ _ _ =>
    intro b hb
    cases hb
  | .callSome _ _ _ hadvance _ hadvance₁ _ hes _ _ _ =>
    exact ReadsArguments.binders_fresh hes ((hc.of_advance hadvance).of_advance hadvance₁)
  | .bare _ _ _ _ _ _ _ _ _ _ _ _ =>
    intro b hb
    obtain rfl := List.mem_singleton.mp hb
    rfl
  | .lambda _ _ hrefers _ _ _ hadvance₁ hquantifier _ hadvance₃ hbound hadvance₄ hfresh _
      hadvance₅ hbody _ _ _ =>
    have hbinder := (((hc.of_suffix hrefers.tokens_suffix).of_advance hadvance₁).of_suffix
      (cursor_suffix_of_quantifier hquantifier)).of_advance hadvance₃
    have hinner := Reads.binders_fresh hbody ((hbinder.of_advance hadvance₄).of_advance hadvance₅)
    rw [Expr.binders]
    refine List.forall_mem_cons.mpr ⟨?_, hinner⟩
    exact ⟨hbinder.text_ne_empty hbound, not_mem_names_of_isTaken hfresh⟩

theorem ReadsOperations.binders_fresh {levels minimum : Nat} {scope : List Frame} {limit : Nat}
    {left : Expr} {c : Cursor} {e : Expr} {c' : Cursor}
    (h : setting.ReadsOperations levels minimum scope limit left c e c') (hc : c.HasText)
    (hleft : ∀ b ∈ left.binders (scope.map Frame.name), b.Fresh) :
    ∀ b ∈ e.binders (scope.map Frame.name), b.Fresh := by
  match h with
  | .exhausted | .stop _ _ => exact hleft
  | .binary _ _ hadvance hright he h =>
    have hc₁ := hc.of_advance hadvance
    refine ReadsOperations.binders_fresh h (hc₁.of_suffix hright.tokens_suffix) ?_
    rw [Expr.binders_of_combines he]
    exact List.forall_mem_append.mpr ⟨hleft, Reads.binders_fresh hright hc₁⟩
  | .membership _ _ hadvance hlist h =>
    have hc₁ := hc.of_advance hadvance
    exact ReadsOperations.binders_fresh h (hc₁.of_suffix hlist.tokens_suffix) hleft

theorem ReadsArguments.binders_fresh {levels : Nat} {scope : List Frame} {limit : Nat} {c : Cursor}
    {es : List Expr} {c' : Cursor} (h : setting.ReadsArguments levels scope limit c es c')
    (hc : c.HasText) : ∀ b ∈ Expr.argumentBinders (scope.map Frame.name) es, b.Fresh := by
  match h with
  | .exhausted =>
    intro b hb
    cases hb
  | .last he _ =>
    rw [Expr.argumentBinders, Expr.argumentBinders, List.append_nil]
    exact Reads.binders_fresh he hc
  | .more he _ hadvance₁ hes =>
    have hc₂ := (hc.of_suffix he.tokens_suffix).of_advance hadvance₁
    exact List.forall_mem_append.mpr
      ⟨Reads.binders_fresh he hc, ReadsArguments.binders_fresh hes hc₂⟩

end

end Setting

/-- A predicate that is read binds no variable twice. -/
theorem Expr.binders_fresh_of_readFilter {text : String} {entity : EntityType}
    {allowed : AllowList} {maxDepth : Nat} {e : Expr}
    (h : readFilter text entity allowed maxDepth = .ok e) : ∀ b ∈ e.binders [], b.Fresh := by
  obtain ⟨c, c', hc, _, hfilter⟩ := Setting.run_eq_ok.mp h
  obtain ⟨hreads, _, _⟩ := Setting.filter_eq_ok.mp hfilter
  exact hreads.binders_fresh (Cursor.hasText_of_ofText hc)

end ODataQuery
