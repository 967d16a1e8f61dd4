import ODataQuery.Proofs.Event.Walk
import ODataQuery.Sql.Value

/-!
# Expressions up to their literals

Two expressions have the same skeleton if they are equal except for the values of the literals that
are not `null`. Their events then differ in these literals only.

## Main definitions

- `Expr.skeleton` — an expression with one and the same literal in place of every literal
- `Expr.parameters` — the parameters that literals and constant calls stand for

## Main statements

- `Expr.walk_skeleton` — the events of the skeleton are those of the expression, blanked
- `Expr.filterMap_parameter?_events` — events carry the parameters in their order
-/

namespace ODataQuery

-- ════════════════════════════════════════════════════════════════════════
-- Literals and constant calls
-- ════════════════════════════════════════════════════════════════════════

namespace Value

/-- A literal in place of a value; only `null` stays. -/
def blank (v : Value) : Value := if v.isNull then .null else .boolean true

/-- The parameter that a literal becomes; `null` becomes none. -/
def parameter? (v : Value) : Option SqlValue := if v.isNull then none else some v.toSql

theorem isNull_of_blank_eq {v w : Value} (h : v.blank = w.blank) : v.isNull = w.isNull := by
  unfold blank at h
  cases hv : v.isNull <;> cases hw : w.isNull <;> simp_all

end Value

/-- The parameter that a call of the function becomes, if it is a constant. -/
def Function.parameter? : Function → Option SqlValue
  | .minDateTime => some (.timestamp .earliest)
  | .maxDateTime => some (.timestamp .latest)
  | _ => none

namespace Event

/-- The event with its literal, if any, replaced. -/
def blank : Event → Event
  | literal v => literal v.blank
  | e => e

/-- The parameter that the event stands for. -/
def parameter? : Event → Option SqlValue
  | literal v => v.parameter?
  | functionOpen function _ => function.parameter?
  | _ => none

end Event

/-- The step with its literal, if any, replaced. -/
def Step.blank : Step → Step
  | level n => level n
  | event e => event e.blank

namespace Expr

mutual

/-- The expression with its literals replaced. -/
def skeleton : Expr → Expr
  | literal v => literal v.blank
  | field f => field f
  | binary op left right => binary op left.skeleton right.skeleton
  | unary op operand => unary op operand.skeleton
  | membership operand list => membership operand.skeleton (list.map Value.blank)
  | call function arguments => call function (skeletons arguments)
  | lambda binder body => lambda binder body.skeleton
  | bare binder => bare binder

/-- The expressions with their literals replaced. -/
def skeletons : List Expr → List Expr
  | [] => []
  | e :: es => e.skeleton :: skeletons es

end

mutual

/-- The parameters of the literals and constant calls of an expression, from left to right. -/
def parameters : Expr → List SqlValue
  | literal v => v.parameter?.toList
  | binary _ left right => left.parameters ++ right.parameters
  | unary _ operand => operand.parameters
  | membership operand list => operand.parameters ++ list.filterMap Value.parameter?
  | call function arguments => function.parameter?.toList ++ parametersOf arguments
  | lambda _ body => body.parameters
  | field _ | bare _ => []

/-- The parameters of the literals and constant calls of some arguments. -/
def parametersOf : List Expr → List SqlValue
  | [] => []
  | e :: es => e.parameters ++ parametersOf es

end

-- ════════════════════════════════════════════════════════════════════════
-- Steps of the skeleton
-- ════════════════════════════════════════════════════════════════════════

@[simp]
theorem precedence?_skeleton (e : Expr) : e.skeleton.precedence? = e.precedence? := by
  cases e <;> rfl

@[simp]
theorem isPrefixed_skeleton (e : Expr) : e.skeleton.isPrefixed = e.isPrefixed := by
  cases e <;> rfl

theorem needsGroup_skeleton (parent operand : Expr) (side : Side) :
    needsGroup parent.skeleton operand.skeleton side = needsGroup parent operand side := by
  simp only [needsGroup, precedence?_skeleton, isPrefixed_skeleton]

theorem groupSteps_map_blank (grouped : Bool) (steps : List Step) :
    (groupSteps grouped steps).map Step.blank = groupSteps grouped (steps.map Step.blank) := by
  cases grouped with
  | false => rfl
  | true => simp [groupSteps, Step.blank, Event.blank]

theorem itemSteps_map_blank (list : List Value) :
    (itemSteps list).map Step.blank = itemSteps (list.map Value.blank) := by
  induction list using itemSteps.induct with
  | case1 => rfl
  | case2 v => rfl
  | case3 v vs hne ih =>
    have hne' : vs.map Value.blank = [] → False := fun h => hne (List.map_eq_nil_iff.mp h)
    rw [itemSteps.eq_3 v vs hne, List.map_cons, List.map_cons, ih, List.map_cons,
      itemSteps.eq_3 v.blank _ hne']
    rfl

theorem length_skeletons (es : List Expr) : (skeletons es).length = es.length := by
  induction es with
  | nil => rfl
  | cons e es ih => rw [skeletons, List.length_cons, List.length_cons, ih]

theorem argumentSteps_skeletons {level : Nat} {arguments : List Expr}
    (h : ∀ e ∈ arguments, e.skeleton.steps level = (e.steps level).map Step.blank) :
    argumentSteps level (skeletons arguments) =
      (argumentSteps level arguments).map Step.blank := by
  induction arguments using argumentEvents.induct with
  | case1 => rfl
  | case2 e => exact h e List.mem_cons_self
  | case3 e es hne ih =>
    have hrest := ih fun e' he' => h e' (List.mem_cons_of_mem _ he')
    have hne' : skeletons es = [] → False := fun hnil => hne (by
      have hlength := length_skeletons es
      rw [hnil] at hlength
      exact List.eq_nil_of_length_eq_zero hlength.symm)
    rw [skeletons, argumentSteps.eq_3 level e es hne, argumentSteps.eq_3 level _ _ hne', hrest,
      h e List.mem_cons_self, List.map_append, List.map_cons]
    rfl

/-- The steps of the skeleton are those of the expression with their literals replaced. -/
theorem steps_skeleton (e : Expr) (level : Nat) :
    e.skeleton.steps level = (e.steps level).map Step.blank := by
  induction e generalizing level with
  | literal v => rfl
  | field f => rfl
  | binary op left right ihl ihr =>
    have hleft := needsGroup_skeleton (.binary op left right) left .left
    have hright := needsGroup_skeleton (.binary op left right) right .right
    simp only [skeleton] at hleft hright
    simp only [skeleton, steps, hleft, hright, ihl, ihr, List.map_cons, List.map_append,
      groupSteps_map_blank, Step.blank, Event.blank]
  | unary op operand ih =>
    have hoperand := needsGroup_skeleton (.unary op operand) operand .right
    simp only [skeleton] at hoperand
    simp only [skeleton, steps, hoperand, ih, List.map_cons, groupSteps_map_blank, Step.blank,
      Event.blank]
  | membership operand list ih =>
    have hoperand := needsGroup_skeleton (.membership operand list) operand .left
    simp only [skeleton] at hoperand
    simp only [skeleton, steps, hoperand, ih, List.map_cons, List.map_append, List.map_nil,
      groupSteps_map_blank, itemSteps_map_blank, Step.blank, Event.blank]
  | call function arguments ih =>
    simp only [skeleton, steps, length_skeletons,
      argumentSteps_skeletons fun e he => ih e he (level + 1), List.map_cons, List.map_append,
      List.map_nil, Step.blank, Event.blank]
  | lambda binder body ih =>
    simp only [skeleton, steps, ih, List.map_cons, List.map_append, List.map_nil, Step.blank,
      Event.blank]
  | bare binder => rfl

theorem upTo_map_blank (limit : Nat) (steps : List Step) :
    Step.upTo limit (steps.map Step.blank) =
      ((Step.upTo limit steps).1.map Event.blank, (Step.upTo limit steps).2) := by
  induction steps with
  | nil => rfl
  | cons step rest ih =>
    cases step with
    | level n =>
      by_cases hn : limit < n
      · simp [Step.upTo, Step.blank, hn]
      · simpa [Step.upTo, Step.blank, hn] using ih
    | event e => simp [Step.upTo, Step.blank, ih]

/-- A walk over the skeleton meets the events of the expression with their literals replaced, and
ends in the same way. -/
theorem walk_skeleton (e : Expr) (limit : Nat) :
    e.skeleton.walk limit = ((e.walk limit).1.map Event.blank, (e.walk limit).2) := by
  rw [walk, steps_skeleton, upTo_map_blank]
  rfl

-- ════════════════════════════════════════════════════════════════════════
-- Parameters of events
-- ════════════════════════════════════════════════════════════════════════

theorem filterMap_cons_toList (e : Event) (es : List Event) :
    (e :: es).filterMap Event.parameter? = e.parameter?.toList ++ es.filterMap Event.parameter? := by
  rw [List.filterMap_cons]
  cases e.parameter? <;> rfl

theorem filterMap_parameter?_groupEvents (grouped : Bool) (es : List Event) :
    (groupEvents grouped es).filterMap Event.parameter? = es.filterMap Event.parameter? := by
  cases grouped with
  | false => rfl
  | true =>
    show (.groupOpen :: (es ++ [.groupClose])).filterMap Event.parameter? = _
    rw [filterMap_cons_toList, List.filterMap_append]
    exact List.append_nil _

theorem filterMap_parameter?_itemEvents (list : List Value) :
    (itemEvents list).filterMap Event.parameter? = list.filterMap Value.parameter? := by
  induction list using itemSteps.induct with
  | case1 => rfl
  | case2 v => rfl
  | case3 v vs hne ih =>
    rw [itemEvents.eq_3 v vs hne, List.filterMap_cons, List.filterMap_cons, ih,
      List.filterMap_cons]
    rfl

theorem filterMap_parameter?_argumentEvents {arguments : List Expr}
    (h : ∀ e ∈ arguments, e.events.filterMap Event.parameter? = e.parameters) :
    (argumentEvents arguments).filterMap Event.parameter? = parametersOf arguments := by
  induction arguments using argumentEvents.induct with
  | case1 => rfl
  | case2 e => simpa [argumentEvents, parametersOf] using h e List.mem_cons_self
  | case3 e es hne ih =>
    have hrest := ih fun e' he' => h e' (List.mem_cons_of_mem _ he')
    rw [argumentEvents.eq_3 e es hne, List.filterMap_append, h e List.mem_cons_self, parametersOf]
    exact congrArg _ hrest

/-- The events of an expression carry its parameters in their order. -/
theorem filterMap_parameter?_events (e : Expr) :
    e.events.filterMap Event.parameter? = e.parameters := by
  induction e with
  | literal v =>
    rw [events_literal, filterMap_cons_toList, parameters, List.filterMap_nil, List.append_nil]
    rfl
  | field f => rfl
  | binary op left right ihl ihr =>
    rw [events_binary, List.filterMap_append, filterMap_cons_toList,
      filterMap_parameter?_groupEvents, filterMap_parameter?_groupEvents, ihl, ihr, parameters]
    rfl
  | unary op operand ih =>
    rw [events_unary, filterMap_cons_toList, filterMap_parameter?_groupEvents, ih, parameters]
    rfl
  | membership operand list ih =>
    rw [events_membership, List.filterMap_append, filterMap_cons_toList, filterMap_cons_toList,
      List.filterMap_append, filterMap_parameter?_groupEvents, filterMap_parameter?_itemEvents, ih,
      parameters]
    simp [Event.parameter?]
  | call function arguments ih =>
    rw [events_call, filterMap_cons_toList, List.filterMap_append,
      filterMap_parameter?_argumentEvents ih, parameters]
    simp [Event.parameter?]
  | lambda binder body ih =>
    rw [events_lambda, filterMap_cons_toList, List.filterMap_append, ih, parameters]
    simp [Event.parameter?]
  | bare binder => rfl

end Expr

end ODataQuery
