import ODataQuery.Proofs.Reading.Basic

/-!
# Larger bounds on nesting

A larger bound on nesting takes back the refusals that are due to the smaller one, and changes no other
outcome: neither what is read nor a fault.

## Main definitions

- `Relaxed` — how the outcomes under two bounds are related
- `Relaxes` — readings whose outcomes are related at every place

## Main statements

- `Setting.relaxes_expression` — expressions
- `Expr.relaxed_readFilter`, `ComputeItem.relaxed_readAll` — predicates and compute items
-/

namespace ODataQuery

variable {σ α β : Type} {bound : Nat}

/-- The first outcome is cut short by a bound on nesting, or both are the same. -/
def Relaxed (bound : Nat) (shallow deep : Except ParseError α) : Prop :=
  (∃ err, shallow = .error err ∧ err.fault = .depthExceeded bound) ∨ shallow = deep

namespace Relaxed

theorem refl (x : Except ParseError α) : Relaxed bound x x := .inr rfl

theorem bind {x y : Except ParseError α} {f g : α → Except ParseError β} (h : Relaxed bound x y)
    (hf : ∀ a, Relaxed bound (f a) (g a)) : Relaxed bound (x >>= f) (y >>= g) := by
  obtain ⟨err, rfl, herr⟩ | rfl := h
  · exact .inl ⟨err, rfl, herr⟩
  · cases x with
    | error err => exact refl _
    | ok a => exact hf a

theorem map {x y : Except ParseError α} (h : Relaxed bound x y) (f : α → β) :
    Relaxed bound (x.map f) (y.map f) := by
  obtain ⟨err, rfl, herr⟩ | rfl := h
  · exact .inl ⟨err, rfl, herr⟩
  · exact refl _

end Relaxed

/-- At every place the outcomes of two readings are the same, or the first one is cut short by a bound on
nesting. -/
def Relaxes (bound : Nat) (r r' : StateT σ (Except ParseError) α) : Prop :=
  ∀ s, Relaxed bound (r s) (r' s)

namespace Relaxes

variable {r r' : StateT σ (Except ParseError) α} {f f' : α → StateT σ (Except ParseError) β}

theorem refl (r : StateT σ (Except ParseError) α) : Relaxes bound r r := fun _ => .refl _

theorem bind (h : Relaxes bound r r') (hf : ∀ a, Relaxes bound (f a) (f' a)) :
    Relaxes bound (r >>= f) (r' >>= f') := fun s => (h s).bind fun x => hf x.1 x.2

/-- A step in common, in front of readings that are related. -/
theorem behind (hf : ∀ a, Relaxes bound (f a) (f' a)) : Relaxes bound (r >>= f) (r >>= f') :=
  (refl r).bind hf

theorem ite {p : Prop} [Decidable p] {r₁ r₁' r₂ r₂' : StateT σ (Except ParseError) α}
    (h₁ : Relaxes bound r₁ r₁') (h₂ : Relaxes bound r₂ r₂') :
    Relaxes bound (if p then r₁ else r₂) (if p then r₁' else r₂') := by
  split
  · exact h₁
  · exact h₂

end Relaxes

-- ════════════════════════════════════════════════════════════════════════
-- Expressions
-- ════════════════════════════════════════════════════════════════════════

/-- Readers of inner expressions are related wherever they read. -/
def Subreader.Relaxes (bound : Nat) (sub sub' : Subreader) : Prop :=
  ∀ minimum scope expected,
    ODataQuery.Relaxes bound (sub minimum scope expected) (sub' minimum scope expected)

namespace Setting

variable {setting : Setting} {sub sub' : Subreader} {scope : List Frame}

theorem relaxes_arguments (h : sub.Relaxes bound sub') (limit : Nat) :
    Relaxes bound (arguments sub scope limit) (arguments sub' scope limit) := by
  induction limit with
  | zero => exact .refl _
  | succ limit ih =>
    refine (h 0 scope none).bind fun e => .behind fun t => .ite ?_ (.refl _)
    exact .behind fun _ => ih.bind fun es => .refl _

variable (maxDepth : Nat)

theorem relaxes_group (h : sub.Relaxes bound sub') (expected : Option StaticType) :
    Relaxes bound (setting.group sub scope expected)
      ({ setting with maxDepth }.group sub' scope expected) :=
  .behind fun _ => (h 0 scope expected).bind fun _ => .refl _

theorem relaxes_call (h : sub.Relaxes bound sub') :
    Relaxes bound (setting.call sub scope) ({ setting with maxDepth }.call sub' scope) := by
  refine .behind fun name => ?_
  cases Function.ofName? name.text with
  | none => exact .refl _
  | some function =>
    refine .behind fun _ => .behind fun t => .behind fun remaining => .ite (.refl _) ?_
    exact (relaxes_arguments h _).bind fun es => .refl _

theorem relaxes_lambda (h : sub.Relaxes bound sub') (navigation : Navigation) (path : String) :
    Relaxes bound (setting.lambda sub scope navigation path)
      ({ setting with maxDepth }.lambda sub' scope navigation path) := by
  refine .behind fun quantifier => .behind fun _ => .behind fun t => .ite (.refl _) ?_
  refine .behind fun name => .ite (.refl _) ?_
  exact .behind fun _ => (h _ _ _).bind fun body => .refl _

theorem relaxes_resolve (h : sub.Relaxes bound sub') (property : Property) (above : String)
    (origin : Option String) (token : Token) :
    Relaxes bound (setting.resolve sub scope property above origin token)
      ({ setting with maxDepth }.resolve sub' scope property above origin token) := by
  refine .ite ?_ (.refl _)
  cases property.type with
  | primitive kind => exact .refl _
  | enumeration type => exact .refl _
  | collection target link =>
    refine .behind fun t => .ite (.behind fun _ => ?_) (.refl _)
    exact relaxes_lambda maxDepth h _ _

theorem relaxes_reference (h : sub.Relaxes bound sub') :
    Relaxes bound (setting.reference sub scope) ({ setting with maxDepth }.reference sub' scope) := by
  refine .behind fun token => ?_
  dsimp only
  cases setting.entity.find? token.text with
  | some property => exact relaxes_resolve maxDepth h _ _ _ _
  | none =>
    cases Frame.find? scope token.text with
    | some frame =>
      refine .behind fun member => ?_
      cases frame.entity.find? member.text with
      | some property => exact relaxes_resolve maxDepth h _ _ _ _
      | none => exact .refl _
    | none =>
      refine .ite (.behind fun member => ?_) (.refl _)
      cases setting.entity.find? member.text with
      | some property => exact relaxes_resolve maxDepth h _ _ _ _
      | none => exact .refl _

theorem relaxes_primary (h : sub.Relaxes bound sub') (expected : Option StaticType) :
    Relaxes bound (setting.primary sub scope expected)
      ({ setting with maxDepth }.primary sub' scope expected) := by
  refine .behind fun t => ?_
  cases t.kind with
  | leftParen => exact relaxes_group maxDepth h expected
  | functionName => exact relaxes_call maxDepth h
  | identifier => exact relaxes_reference maxDepth h
  | _ => exact .refl _

theorem relaxes_prefixed (h : sub.Relaxes bound sub') (op : UnaryOp) :
    Relaxes bound (setting.prefixed sub scope op)
      ({ setting with maxDepth }.prefixed sub' scope op) :=
  .behind fun _ => (h _ _ _).bind fun _ => .refl _

theorem relaxes_operand (h : sub.Relaxes bound sub') (expected : Option StaticType) :
    Relaxes bound (setting.operand sub scope expected)
      ({ setting with maxDepth }.operand sub' scope expected) := by
  refine .behind fun t => .ite (relaxes_prefixed maxDepth h .negate) (.behind fun isNot => ?_)
  exact .ite (relaxes_prefixed maxDepth h .not) (relaxes_primary maxDepth h expected)

/-- Lists of literals do not nest. -/
theorem items_with_maxDepth (type : StaticType) (limit : Nat) :
    { setting with maxDepth }.items type limit = setting.items type limit := by
  induction limit with
  | zero => rfl
  | succ limit ih =>
    rw [items, items, ih]
    rfl

theorem membership_with_maxDepth (operand : Expr) :
    { setting with maxDepth }.membership operand = setting.membership operand := by
  simp only [membership, items_with_maxDepth]
  rfl

theorem relaxes_operation (h : sub.Relaxes bound sub') (op : Operator) (left : Expr) :
    Relaxes bound (setting.operation sub scope op left)
      ({ setting with maxDepth }.operation sub' scope op left) := by
  refine .behind fun token => ?_
  cases op with
  | binary op => exact (h _ _ _).bind fun right => .refl _
  | membership =>
    dsimp only
    rw [membership_with_maxDepth maxDepth left]
    exact .refl _
  | unary op => exact .refl _

theorem relaxes_climb (h : sub.Relaxes bound sub') (minimum limit : Nat) (left : Expr) :
    Relaxes bound (setting.climb sub minimum scope limit left)
      ({ setting with maxDepth }.climb sub' minimum scope limit left) := by
  induction limit generalizing left with
  | zero => exact .refl _
  | succ limit ih =>
    refine .behind fun op? => ?_
    cases op? with
    | none => exact .refl _
    | some op => exact .ite (.refl _) ((relaxes_operation maxDepth h op left).bind ih)

/-- Readers of expressions with more levels to go into relax those with fewer levels. -/
theorem relaxes_expression {levels levels' : Nat} (hle : levels ≤ levels') :
    (setting.expression levels).Relaxes setting.maxDepth
      ({ setting with maxDepth }.expression levels') := by
  induction levels generalizing levels' with
  | zero => exact fun _ _ _ c => .inl ⟨_, rfl, rfl⟩
  | succ levels ih =>
    obtain ⟨inner, rfl⟩ := Nat.exists_eq_add_of_le' (Nat.le_trans (Nat.le_add_left 1 _) hle)
    have hinner := ih (Nat.le_of_succ_le_succ hle)
    intro minimum scope expected
    refine (relaxes_operand maxDepth hinner expected).bind fun left => .behind fun remaining => ?_
    exact relaxes_climb maxDepth hinner minimum _ left

-- ════════════════════════════════════════════════════════════════════════
-- Whole texts
-- ════════════════════════════════════════════════════════════════════════

variable {maxDepth}

theorem relaxes_filter (hle : setting.maxDepth ≤ maxDepth) :
    Relaxes setting.maxDepth setting.filter { setting with maxDepth }.filter :=
  (relaxes_expression maxDepth hle 0 [] none).bind fun _ => .refl _

theorem relaxes_computeItems (hle : setting.maxDepth ≤ maxDepth) (limit : Nat)
    (taken : List String) :
    Relaxes setting.maxDepth (setting.computeItems limit taken)
      ({ setting with maxDepth }.computeItems limit taken) := by
  induction limit generalizing taken with
  | zero => exact .refl _
  | succ limit ih =>
    refine (relaxes_expression maxDepth hle 0 [] none).bind fun e => .behind fun name => ?_
    exact .behind fun t => .ite (.behind fun _ => (ih _).bind fun rest => .refl _) (.refl _)

theorem relaxes_compute (hle : setting.maxDepth ≤ maxDepth) :
    Relaxes setting.maxDepth setting.compute { setting with maxDepth }.compute :=
  .behind fun _ => (relaxes_computeItems hle _ _).bind fun _ => .refl _

theorem relaxed_run {reading reading' : Reading α}
    (h : Relaxes setting.maxDepth reading reading') :
    Relaxed setting.maxDepth (setting.run reading) ({ setting with maxDepth }.run reading') := by
  unfold run
  dsimp only
  cases Cursor.ofText setting.text with
  | error err => exact .refl _
  | ok c =>
    dsimp only
    split
    · exact .refl _
    · exact (h c).map Prod.fst

end Setting

variable {deeper : Nat} (text : String) (entity : EntityType) (allowed : AllowList)

/-- A larger bound only takes back refusals of predicates. -/
theorem Expr.relaxed_readFilter (hle : bound ≤ deeper) :
    Relaxed bound (readFilter text entity allowed bound) (readFilter text entity allowed deeper) :=
  have hmaxDepth : Setting.maxDepth ⟨text.toList, entity, allowed, bound⟩ ≤ deeper := hle
  Setting.relaxed_run (Setting.relaxes_filter hmaxDepth)

/-- A predicate that is read under a bound on nesting is read under every larger bound. -/
theorem Expr.readFilter_deeper {text : String} {entity : EntityType} {allowed : AllowList}
    {maxDepth depth : Nat} {e : Expr} (h : readFilter text entity allowed maxDepth = .ok e)
    (hle : maxDepth ≤ depth) : readFilter text entity allowed depth = .ok e := by
  obtain ⟨err, hcut, -⟩ | hsame := relaxed_readFilter text entity allowed hle
  · rw [hcut] at h
    cases h
  · rw [← hsame, h]

/-- A larger bound only takes back refusals of compute items. -/
theorem ComputeItem.relaxed_readAll (hle : bound ≤ deeper) :
    Relaxed bound (readAll text entity allowed bound) (readAll text entity allowed deeper) :=
  have hmaxDepth : Setting.maxDepth ⟨text.toList, entity, allowed, bound⟩ ≤ deeper := hle
  Setting.relaxed_run (Setting.relaxes_compute hmaxDepth)

end ODataQuery
