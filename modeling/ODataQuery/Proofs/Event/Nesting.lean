import ODataQuery.Proofs.Event.Walk

/-!
# Nesting of events

Groups, calls, lists and lambdas have an opening and a closing event. A sequence of events is nested
if every closing event ends what was opened last among all that is still open, if that is of its own
kind, and if nothing is left open at the end.

## Main definitions

- `Enclosure` — what an opening and a closing event enclose
- `Event.opens?`, `Event.closes?` — the enclosures that an event opens and closes
- `Event.openBehind?` — what is open behind events, by a rule for closing events
- `Event.NestedBy`, `Event.Nested` — nothing is left open; the same by the rule that closing events
  end their own kind only
- `Event.Balanced` — events that leave open what was open in front of them

## Main statements

- `Event.nested_iff_of_loose` — if the ends of groups may end anything, a sequence is nested
  exactly if it has as many ends of groups as groups
- `Expr.balanced_events`, `Expr.nested_events` — the events of every expression are balanced and
  nested
-/

namespace ODataQuery

/-- What an opening and a closing event enclose. -/
inductive Enclosure where
  | group
  | call
  | list
  | lambda
deriving DecidableEq

/-- Which enclosures the closing events of a kind may end. -/
abbrev EndingRule := (closing enclosure : Enclosure) → Bool

namespace EndingRule

/-- Every closing event ends its own kind only. -/
def strict : EndingRule := fun closing x => closing == x

theorem strict_self (x : Enclosure) : strict x x = true := beq_self_eq_true x

/-- The end of a group may end anything, every other closing event its own kind only. -/
def loose : EndingRule := fun closing x => closing == .group || closing == x

theorem loose_of_strict {closing x : Enclosure} (h : strict closing x = true) :
    loose closing x = true := by
  rw [strict] at h
  rw [loose, h, Bool.or_true]

end EndingRule

namespace Event

-- ════════════════════════════════════════════════════════════════════════
-- What is open
-- ════════════════════════════════════════════════════════════════════════

/-- The enclosure that the event opens. -/
def opens? : Event → Option Enclosure
  | groupOpen => some .group
  | functionOpen _ _ => some .call
  | listOpen => some .list
  | lambdaOpen _ _ => some .lambda
  | _ => none

/-- The enclosure that the event closes. -/
def closes? : Event → Option Enclosure
  | groupClose => some .group
  | functionClose => some .call
  | listClose => some .list
  | lambdaClose => some .lambda
  | _ => none

/-- What is open behind the event, the innermost first, given what is open in front of it. A closing
event ends the innermost enclosure, if the rule lets it end that one. -/
def behind? (rule : EndingRule) (inside : List Enclosure) (e : Event) :
    Option (List Enclosure) :=
  match e.opens?, e.closes? with
  | some x, _ => some (x :: inside)
  | none, none => some inside
  | none, some closing =>
    match inside with
    | [] => none
    | x :: outside => if rule closing x then some outside else none

/-- What is open behind events. -/
def openBehind? (rule : EndingRule) (inside : List Enclosure) (es : List Event) :
    Option (List Enclosure) :=
  es.foldlM (behind? rule) inside

/-- Every closing event ends the innermost enclosure, as the rule lets it, and none is left open. -/
def NestedBy (rule : EndingRule) (es : List Event) : Prop :=
  openBehind? rule [] es = some []

/-- Every closing event ends the innermost enclosure, which is of its kind, and none is left
open. -/
def Nested (es : List Event) : Prop := NestedBy .strict es

instance (rule : EndingRule) (es : List Event) : Decidable (NestedBy rule es) :=
  inferInstanceAs (Decidable (_ = _))

instance (es : List Event) : Decidable (Nested es) := inferInstanceAs (Decidable (NestedBy _ es))

variable {rule rule' : EndingRule} {inside outside : List Enclosure} {e : Event}
  {es es' : List Event}

theorem openBehind?_cons : openBehind? rule inside (e :: es) =
    (e.behind? rule inside).bind fun inside => openBehind? rule inside es := rfl

theorem openBehind?_append : openBehind? rule inside (es ++ es') =
    (openBehind? rule inside es).bind fun inside => openBehind? rule inside es' :=
  List.foldlM_append

theorem behind?_of_opens {x : Enclosure} (h : e.opens? = some x) :
    e.behind? rule inside = some (x :: inside) := by
  rw [behind?, h]

theorem behind?_of_closes {x closing : Enclosure} (hclosing : e.closes? = some closing) :
    e.behind? rule (x :: inside) = if rule closing x then some inside else none := by
  have hopens : e.opens? = none := by cases e <;> first | rfl | cases hclosing
  rw [behind?, hopens, hclosing]

theorem behind?_of_plain (hopens : e.opens? = none) (hcloses : e.closes? = none) :
    e.behind? rule inside = some inside := by
  rw [behind?, hopens, hcloses]

/-- What is open does not depend on the rule, as long as both let the event stand. -/
theorem behind?_mono (hrule : ∀ closing x, rule closing x = true → rule' closing x = true)
    (h : e.behind? rule inside = some outside) : e.behind? rule' inside = some outside := by
  unfold behind? at h ⊢
  split at h
  · exact h
  · exact h
  · split at h
    · cases h
    · split at h
      · next hx => rwa [if_pos (hrule _ _ hx)]
      · cases h

-- ════════════════════════════════════════════════════════════════════════
-- Ends of groups that end anything
-- ════════════════════════════════════════════════════════════════════════

/-- Whether the event opens a group. -/
def opensGroup (e : Event) : Bool := e.opens? == some .group

/-- Whether the event closes a group. -/
def closesGroup (e : Event) : Bool := e.closes? == some .group

/-- An end of a group ends a group or takes one enclosure of another kind away. All other events
keep the balance of groups and their ends. -/
theorem count_group_of_behind? (h : e.behind? .loose inside = some outside) :
    inside.count .group + [e].countP opensGroup ≤ outside.count .group + [e].countP closesGroup ∧
      (e.behind? .strict inside = some outside ↔
        inside.count .group + [e].countP opensGroup =
          outside.count .group + [e].countP closesGroup) := by
  cases e with
  | groupClose =>
    cases inside with
    | nil => cases h
    | cons x rest =>
      cases h
      cases x <;> simp [behind?, opens?, closes?, opensGroup, closesGroup, EndingRule.strict]
  | functionClose | listClose | lambdaClose =>
    cases inside with
    | nil => cases h
    | cons x rest =>
      cases x <;> cases h
      simp [behind?, opens?, closes?, opensGroup, closesGroup, EndingRule.strict]
  | _ =>
    cases h
    simp [behind?, opens?, closes?, opensGroup, closesGroup]

/-- If the ends of groups may end anything, a run ends no other enclosures by them exactly if the
groups and their ends are balanced. -/
theorem count_group_of_openBehind? (h : openBehind? .loose inside es = some outside) :
    inside.count .group + es.countP opensGroup ≤ outside.count .group + es.countP closesGroup ∧
      (openBehind? .strict inside es = some outside ↔
        inside.count .group + es.countP opensGroup =
          outside.count .group + es.countP closesGroup) := by
  induction es generalizing inside with
  | nil =>
    cases h
    simp [openBehind?]
  | cons e es ih =>
    rw [openBehind?_cons] at h
    obtain ⟨middle, hstep, hrest⟩ := Option.bind_eq_some_iff.mp h
    obtain ⟨hle, hiff⟩ := count_group_of_behind? hstep
    obtain ⟨hle', hiff'⟩ := ih hrest
    have hcount (p : Event → Bool) : (e :: es).countP p = [e].countP p + es.countP p := by
      rw [← List.countP_append, List.singleton_append]
    rw [hcount opensGroup, hcount closesGroup]
    refine ⟨by omega, ?_⟩
    -- A strict step leads to where the loose one leads.
    have hsplit : openBehind? .strict inside (e :: es) = some outside ↔
        e.behind? .strict inside = some middle ∧ openBehind? .strict middle es = some outside := by
      rw [openBehind?_cons, Option.bind_eq_some_iff]
      constructor
      · rintro ⟨middle', hstep', hrest'⟩
        cases hstep.symm.trans (behind?_mono (fun _ _ => EndingRule.loose_of_strict) hstep')
        exact ⟨hstep', hrest'⟩
      · rintro ⟨hstep', hrest'⟩
        exact ⟨middle, hstep', hrest'⟩
    rw [hsplit, hiff, hiff']
    omega

/-- If the ends of groups may end anything, a sequence is nested exactly if it has as many ends of
groups as groups. -/
theorem nested_iff_of_loose (h : NestedBy .loose es) :
    Nested es ↔ es.countP opensGroup = es.countP closesGroup := by
  have hcount := (count_group_of_openBehind? h).2
  rwa [List.count_nil, Nat.zero_add, Nat.zero_add] at hcount

-- ════════════════════════════════════════════════════════════════════════
-- Balanced events
-- ════════════════════════════════════════════════════════════════════════

/-- What is open behind the events is what is open in front of them, at any place. -/
def Balanced (es : List Event) : Prop := ∀ inside, openBehind? .strict inside es = some inside

namespace Balanced

theorem nil : Balanced [] := fun _ => rfl

theorem append (h : Balanced es) (h' : Balanced es') : Balanced (es ++ es') := by
  intro inside
  rw [openBehind?_append, h inside]
  exact h' inside

theorem plain (hopens : e.opens? = none) (hcloses : e.closes? = none) : Balanced [e] := by
  intro inside
  rw [openBehind?_cons, behind?_of_plain hopens hcloses]
  rfl

/-- Balanced events between an opening and a closing event of one kind. -/
theorem enclose {x : Enclosure} {closing : Event} (hopens : e.opens? = some x) (h : Balanced es)
    (hcloses : closing.closes? = some x) : Balanced (e :: (es ++ [closing])) := by
  intro inside
  rw [openBehind?_cons, behind?_of_opens hopens, Option.bind_some, openBehind?_append, h,
    Option.bind_some, openBehind?_cons, behind?_of_closes hcloses,
    if_pos (EndingRule.strict_self x)]
  rfl

/-- An event that neither opens nor closes anything, in front of balanced events. -/
theorem cons (hopens : e.opens? = none) (hcloses : e.closes? = none) (h : Balanced es) :
    Balanced (e :: es) := (plain hopens hcloses).append h

end Balanced

end Event

namespace Expr

open Event

theorem balanced_groupEvents {es : List Event} (h : Balanced es) (grouped : Bool) :
    Balanced (groupEvents grouped es) := by
  cases grouped with
  | false => exact h
  | true => exact .enclose rfl h rfl

theorem balanced_itemEvents (list : List Value) : Balanced (itemEvents list) := by
  induction list using itemEvents.induct with
  | case1 => exact .nil
  | case2 v => exact .plain rfl rfl
  | case3 v vs hne ih =>
    rw [itemEvents.eq_3 v vs hne]
    exact .cons rfl rfl (.cons rfl rfl ih)

theorem balanced_argumentEvents {arguments : List Expr}
    (h : ∀ e ∈ arguments, Balanced e.events) : Balanced (argumentEvents arguments) := by
  induction arguments using argumentEvents.induct with
  | case1 => exact .nil
  | case2 e => exact h e List.mem_cons_self
  | case3 e es hne ih =>
    rw [argumentEvents.eq_3 e es hne]
    exact (h e List.mem_cons_self).append
      (.cons rfl rfl (ih fun e' he' => h e' (List.mem_cons_of_mem _ he')))

/-- The events of every expression are balanced. -/
theorem balanced_events (e : Expr) : Balanced e.events := by
  induction e with
  | literal v => exact .plain rfl rfl
  | field f => exact .plain rfl rfl
  | binary op left right ihl ihr =>
    rw [events_binary]
    exact (balanced_groupEvents ihl _).append (.cons rfl rfl (balanced_groupEvents ihr _))
  | unary op operand ih =>
    rw [events_unary]
    exact .cons rfl rfl (balanced_groupEvents ih _)
  | membership operand list ih =>
    rw [events_membership]
    exact (balanced_groupEvents ih _).append
      (.cons rfl rfl (.enclose rfl (balanced_itemEvents list) rfl))
  | call function arguments ih =>
    rw [events_call]
    exact .enclose rfl (balanced_argumentEvents ih) rfl
  | lambda binder body ih =>
    rw [events_lambda]
    exact .enclose rfl ih rfl
  | bare binder =>
    rw [events_bare]
    exact .enclose rfl .nil rfl

/-- The events of every expression are nested. -/
theorem nested_events (e : Expr) : Nested e.events := balanced_events e []

end Expr

end ODataQuery
