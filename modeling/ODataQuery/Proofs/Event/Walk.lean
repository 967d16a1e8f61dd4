import ODataQuery.Event.Listener
import ODataQuery.Proofs.Expr.Induction

/-!
# The events of an expression by its parts

The steps of an expression carry levels, its events do not. Each kind of node has an equation
for its events, and a walk whose bound is not below the deepest level gives all of them.

## Main definitions

- `Expr.groupEvents`, `Expr.itemEvents`, `Expr.argumentEvents` — the events of the parts of a
  node

## Main statements

- `Expr.walk_of_deepest_le` — a walk with a large enough bound is complete
- `Expr.strength_of_needsGroup`, `Expr.precedence_of_needsGroup_prefixed` — how an operand without
  parentheses binds
-/

namespace ODataQuery

theorem BinaryOp.precedence_lt_unary (op : BinaryOp) :
    op.precedence < Operator.unaryPrecedence := by
  cases op <;> decide

namespace Expr

-- ════════════════════════════════════════════════════════════════════════
-- Events without levels
-- ════════════════════════════════════════════════════════════════════════

/-- The events of an operand, in parentheses if it is grouped. -/
def groupEvents (grouped : Bool) (es : List Event) : List Event :=
  if grouped then .groupOpen :: (es ++ [.groupClose]) else es

/-- The events of the items of a list. -/
def itemEvents : List Value → List Event
  | [] => []
  | [v] => [.literal v]
  | v :: vs => .literal v :: .separator :: itemEvents vs

/-- The events of arguments. -/
def argumentEvents : List Expr → List Event
  | [] => []
  | [e] => e.events
  | e :: es => e.events ++ .separator :: argumentEvents es

@[simp]
theorem filterMap_level (n : Nat) (steps : List Step) :
    (Step.level n :: steps).filterMap Step.event? = steps.filterMap Step.event? := rfl

@[simp]
theorem filterMap_event (e : Event) (steps : List Step) :
    (Step.event e :: steps).filterMap Step.event? = e :: steps.filterMap Step.event? := rfl

@[simp]
theorem filterMap_groupSteps (grouped : Bool) (steps : List Step) :
    (groupSteps grouped steps).filterMap Step.event? =
      groupEvents grouped (steps.filterMap Step.event?) := by
  cases grouped with
  | false => rfl
  | true => simp [groupSteps, groupEvents]

@[simp]
theorem filterMap_itemSteps (list : List Value) :
    (itemSteps list).filterMap Step.event? = itemEvents list := by
  induction list using itemSteps.induct with
  | case1 => rfl
  | case2 v => rfl
  | case3 v vs hne ih =>
    rw [itemSteps.eq_3 v vs hne, itemEvents.eq_3 v vs hne]
    simp [ih]

/-- The steps of arguments at two levels have the same events if those of every argument
do. -/
theorem filterMap_argumentSteps {level : Nat} {arguments : List Expr}
    (h : ∀ e ∈ arguments, (e.steps level).filterMap Step.event? = e.events) :
    (argumentSteps level arguments).filterMap Step.event? = argumentEvents arguments := by
  induction arguments using argumentEvents.induct with
  | case1 => rfl
  | case2 e => simpa [argumentSteps, argumentEvents] using h
  | case3 e es hne ih =>
    have hrest := ih fun e' he' => h e' (List.mem_cons_of_mem _ he')
    rw [argumentSteps.eq_3 level e es hne, argumentEvents.eq_3 e es hne]
    simp [hrest, h e List.mem_cons_self]

/-- The events of an expression do not depend on the level that it stands at. -/
theorem filterMap_steps (e : Expr) (level : Nat) :
    (e.steps level).filterMap Step.event? = e.events := by
  suffices h : ∀ n m, (e.steps n).filterMap Step.event? = (e.steps m).filterMap Step.event? from
    h level 1
  induction e with
  | literal v => intro n m; rfl
  | field f => intro n m; rfl
  | binary op left right ihl ihr =>
    intro n m
    simp only [steps, filterMap_level, filterMap_event, List.filterMap_append,
      filterMap_groupSteps]
    rw [ihl _ 1, ihr _ 1, ihl (operandLevel m _ _) 1, ihr (operandLevel m _ _) 1]
  | unary op operand ih =>
    intro n m
    simp only [steps, filterMap_level, filterMap_event, filterMap_groupSteps]
    rw [ih _ 1, ih (operandLevel m _ _) 1]
  | membership operand list ih =>
    intro n m
    simp only [steps, filterMap_level, filterMap_event, List.filterMap_append,
      filterMap_groupSteps]
    rw [ih _ 1, ih (operandLevel m _ _) 1]
  | call function arguments ih =>
    intro n m
    simp only [steps, filterMap_level, filterMap_event, List.filterMap_append]
    rw [filterMap_argumentSteps fun e he => ih e he _ 1,
      filterMap_argumentSteps fun e he => ih e he _ 1]
  | lambda binder body ih =>
    intro n m
    simp only [steps, filterMap_level, filterMap_event, List.filterMap_append]
    rw [ih (n + 1) (m + 1)]
  | bare binder => intro n m; rfl

theorem events_literal (v : Value) : (literal v).events = [.literal v] := rfl

theorem events_field (f : Field) : (field f).events = [.field f] := rfl

theorem events_bare (binder : Binder) :
    (bare binder).events = [.lambdaOpen binder false, .lambdaClose] := rfl

theorem events_binary (op : BinaryOp) (left right : Expr) :
    (binary op left right).events =
      groupEvents (needsGroup (binary op left right) left .left) left.events ++
        .operator (.binary op) ::
          groupEvents (needsGroup (binary op left right) right .right) right.events := by
  rw [events, steps]
  simp [filterMap_steps]

theorem events_unary (op : UnaryOp) (operand : Expr) :
    (unary op operand).events =
      .operator (.unary op) ::
        groupEvents (needsGroup (unary op operand) operand .right) operand.events := by
  rw [events, steps]
  simp [filterMap_steps]

theorem events_membership (operand : Expr) (list : List Value) :
    (membership operand list).events =
      groupEvents (needsGroup (membership operand list) operand .left) operand.events ++
        .operator .membership :: .listOpen :: (itemEvents list ++ [.listClose]) := by
  rw [events, steps]
  simp [filterMap_steps]

theorem events_call (function : Function) (arguments : List Expr) :
    (call function arguments).events =
      .functionOpen function arguments.length ::
        (argumentEvents arguments ++ [.functionClose]) := by
  have harguments := filterMap_argumentSteps fun e (_ : e ∈ arguments) => filterMap_steps e 2
  rw [events, steps]
  simp [harguments]

theorem events_lambda (binder : Binder) (body : Expr) :
    (lambda binder body).events =
      .lambdaOpen binder true :: (body.events ++ [.lambdaClose]) := by
  rw [events, steps]
  simp [filterMap_steps]

-- ════════════════════════════════════════════════════════════════════════
-- Binding of operands without parentheses
-- ════════════════════════════════════════════════════════════════════════

theorem strength_of_precedence_none {e : Expr} (h : e.precedence? = none) :
    e.strength = Operator.membershipPrecedence + 1 := by
  rw [strength, h]
  rfl

theorem strength_of_precedence {e : Expr} {p : Nat} (h : e.precedence? = some p) :
    e.strength = p := by
  rw [strength, h]
  rfl

theorem precedence_le {e : Expr} {p : Nat} (h : e.precedence? = some p) :
    p ≤ Operator.membershipPrecedence := by
  cases e with
  | binary op _ _ =>
    have := BinaryOp.precedence_lt_unary op
    simp only [precedence?, Option.some.injEq] at h
    simp only [Operator.unaryPrecedence, Operator.membershipPrecedence] at *
    omega
  | unary _ _ =>
    simp only [precedence?, Option.some.injEq] at h
    exact h ▸ by decide
  | membership _ _ =>
    simp only [precedence?, Option.some.injEq] at h
    exact h ▸ by decide
  | _ => simp [precedence?] at h

/-- An operand without parentheses binds at least as tight as its operator, and tighter if it is the
right one. -/
theorem strength_of_needsGroup {parent operand : Expr} {side : Side} {p : Nat}
    (hp : parent.precedence? = some p) (h : needsGroup parent operand side = false) :
    p ≤ operand.strength ∧ (side = .right → p < operand.strength) := by
  cases hq : operand.precedence? with
  | none =>
    have := precedence_le hp
    rw [strength_of_precedence_none hq]
    exact ⟨by omega, fun _ => by omega⟩
  | some q =>
    rw [strength_of_precedence hq]
    simp only [needsGroup, hp, hq, Bool.or_eq_false_iff, decide_eq_false_iff_not] at h
    obtain ⟨⟨_, hle⟩, hne⟩ := h
    refine ⟨by omega, ?_⟩
    rintro rfl
    have hne : q ≠ p := by simpa using hne
    omega

theorem le_strength_of_needsGroup_left (parent : Expr) {operand : Expr} {p : Nat}
    (hp : parent.precedence? = some p) (h : needsGroup parent operand .left = false) :
    p ≤ operand.strength :=
  (strength_of_needsGroup hp h).1

theorem lt_strength_of_needsGroup_right (parent : Expr) {operand : Expr} {p : Nat}
    (hp : parent.precedence? = some p) (h : needsGroup parent operand .right = false) :
    p < operand.strength :=
  (strength_of_needsGroup hp h).2 rfl

/-- Only nodes that are no operators stand under a prefix operator, or in front of one between
operands, without parentheses. -/
theorem precedence_of_needsGroup_prefixed (parent : Expr) {operand : Expr} {side : Side}
    {p : Nat} (hp : parent.precedence? = some p) (hunary : parent.isPrefixed || operand.isPrefixed)
    (h : needsGroup parent operand side = false) : operand.precedence? = none := by
  cases hq : operand.precedence? with
  | none => rfl
  | some q => simp [needsGroup, hp, hq, hunary] at h

-- ════════════════════════════════════════════════════════════════════════
-- Complete walks
-- ════════════════════════════════════════════════════════════════════════

/-- Steps whose levels are all within the bound give all their events. -/
theorem upTo_of_levels_le {limit : Nat} {steps : List Step}
    (h : ∀ n, Step.level n ∈ steps → n ≤ limit) :
    Step.upTo limit steps = (steps.filterMap Step.event?, none) := by
  induction steps with
  | nil => rfl
  | cons step rest ih =>
    have hrest := ih fun n hn => h n (List.mem_cons_of_mem _ hn)
    cases step with
    | level n =>
      have hn : ¬limit < n := Nat.not_lt.mpr (h n List.mem_cons_self)
      simp [Step.upTo, hn, hrest]
    | event e => simp [Step.upTo, hrest]

theorem level_mem_groupSteps {grouped : Bool} {steps : List Step} {n : Nat} :
    Step.level n ∈ groupSteps grouped steps ↔ Step.level n ∈ steps := by
  cases grouped <;> simp [groupSteps]

theorem level_not_mem_itemSteps {list : List Value} {n : Nat} :
    Step.level n ∉ itemSteps list := by
  induction list using itemSteps.induct with
  | case1 => simp [itemSteps]
  | case2 v => simp [itemSteps]
  | case3 v vs hne ih => simp [itemSteps.eq_3 v vs hne, ih]

/-- The levels of arguments are within the deepest one if those of every argument are. -/
theorem level_le_deepestOf {level : Nat} {arguments : List Expr}
    (h : ∀ e ∈ arguments, ∀ n, Step.level n ∈ e.steps level → n ≤ e.deepest level) {n : Nat}
    (hn : Step.level n ∈ argumentSteps level arguments) : n ≤ deepestOf level arguments := by
  induction arguments using argumentEvents.induct with
  | case1 => simp [argumentSteps] at hn
  | case2 e =>
    have := h e List.mem_cons_self n (by simpa [argumentSteps] using hn)
    simp only [deepestOf]
    omega
  | case3 e es hne ih =>
    rw [argumentSteps.eq_3 level e es hne] at hn
    simp only [List.mem_append, List.mem_cons, reduceCtorEq, false_or] at hn
    simp only [deepestOf]
    obtain hn | hn := hn
    · have := h e List.mem_cons_self n hn
      omega
    · have := ih (fun e' he' => h e' (List.mem_cons_of_mem _ he')) hn
      omega

/-- No step of an expression has a level below the deepest one. -/
theorem level_le_deepest {e : Expr} {level n : Nat} (hn : Step.level n ∈ e.steps level) :
    n ≤ e.deepest level := by
  induction e generalizing level n with
  | literal v => simp_all [steps, deepest]
  | field f => simp_all [steps, deepest]
  | bare binder => simp_all [steps, deepest]
  | binary op left right ihl ihr =>
    simp only [steps, List.mem_cons, List.mem_append, level_mem_groupSteps, Step.level.injEq,
      reduceCtorEq, false_or] at hn
    simp only [deepest]
    obtain rfl | hl | hr := hn
    · omega
    · have := ihl hl
      omega
    · have := ihr hr
      omega
  | unary op operand ih =>
    simp only [steps, List.mem_cons, level_mem_groupSteps, Step.level.injEq, reduceCtorEq,
      false_or] at hn
    simp only [deepest]
    obtain rfl | hn := hn
    · omega
    · have := ih hn
      omega
  | membership operand list ih =>
    simp only [steps, List.mem_cons, List.mem_append, level_mem_groupSteps,
      level_not_mem_itemSteps, Step.level.injEq, reduceCtorEq, List.not_mem_nil, or_false] at hn
    simp only [deepest]
    obtain rfl | hn := hn
    · omega
    · have := ih hn
      omega
  | call function arguments ih =>
    simp only [steps, List.mem_cons, List.mem_append, Step.level.injEq, reduceCtorEq, false_or,
      List.not_mem_nil, or_false] at hn
    simp only [deepest]
    obtain rfl | hn := hn
    · omega
    · have := level_le_deepestOf (fun e he _ => ih e he) hn
      omega
  | lambda binder body ih =>
    simp only [steps, List.mem_cons, List.mem_append, Step.level.injEq, reduceCtorEq, false_or,
      List.not_mem_nil, or_false] at hn
    simp only [deepest]
    obtain rfl | hn := hn
    · omega
    · have := ih hn
      omega

/-- Steps that are not cut give all their events. -/
theorem upTo_of_complete {limit : Nat} {steps : List Step} (h : (Step.upTo limit steps).2 = none) :
    Step.upTo limit steps = (steps.filterMap Step.event?, none) := by
  induction steps with
  | nil => rfl
  | cons step rest ih =>
    cases step with
    | level n =>
      by_cases hn : limit < n
      · rw [Step.upTo, if_pos hn] at h
        cases h
      · rw [Step.upTo, if_neg hn] at h ⊢
        exact ih h
    | event e =>
      rw [Step.upTo] at h ⊢
      rw [ih h, filterMap_event]

/-- A walk that is not cut gives all events. -/
theorem walk_of_complete {e : Expr} {limit : Nat} (h : (e.walk limit).2 = none) :
    e.walk limit = (e.events, none) := upTo_of_complete h

/-- A walk whose bound is not below the deepest level gives all events. -/
theorem walk_of_deepest_le {e : Expr} {limit : Nat} (h : e.deepest 1 ≤ limit) :
    e.walk limit = (e.events, none) :=
  upTo_of_levels_le fun _ hn => Nat.le_trans (level_le_deepest hn) h

theorem listen_eq {State Result : Type} (e : Expr) (l : Listener State Result) (limit : Nat) :
    e.listen l limit = l.feed l.start (e.walk limit).1 >>= fun s =>
      match (e.walk limit).2 with
      | some error => .error error
      | none => l.finish s := rfl

end Expr

end ODataQuery
