import ODataQuery.Event.Assembly
import ODataQuery.Proofs.Event.Walk
import ODataQuery.Proofs.Result

/-!
# Assembly builds the tree

The events of an expression, taken one by one, make the same calls to a tree builder as the
recursion over the expression does, in the same order. So a backend that builds trees may be
read as a recursion, and no event stream belongs to two expressions.

## Main definitions

- `TreeBuilder.build` — the recursion over an expression
- `TreeBuilder.feed` — taking events one by one
- `TreeBuilder.settle` — applying waiting operators of the current frame
- `TreeBuilder.Absorbs` — a continuation that does not care whether operators are applied early
- `TreeBuilder.Pushes` — the events of an expression push its node

## Main statements

- `TreeBuilder.pushes` — the events of every expression push its node

## Design notes

The events of an expression may leave operators waiting that bind as tight as the expression
itself. Whatever follows applies them first, so the main lemma speaks of the events together
with a continuation that does not care whether such operators are applied early.
-/

namespace ODataQuery

variable {State Node α β : Type}

-- ════════════════════════════════════════════════════════════════════════
-- The recursion
-- ════════════════════════════════════════════════════════════════════════

namespace TreeBuilder

variable (b : TreeBuilder State Node)

mutual

/-- Builds the node of an expression: first the operands from left to right, then the node.
A lambda is entered before its body. -/
def build : Expr → Building State Node
  | .literal v => b.literal v
  | .field f => b.field f
  | .binary op left right => do
    let l ← build left
    let r ← build right
    b.binary op l r
  | .unary op operand => do
    let node ← build operand
    b.unary op node
  | .membership operand list => do
    let node ← build operand
    b.membership node list
  | .call function arguments => do
    let nodes ← buildAll arguments
    b.call function nodes
  | .lambda binder body => do
    b.enterLambda binder.navigation binder.bound
    let node ← build body
    b.lambda binder (some node)
  | .bare binder => do
    b.enterLambda binder.navigation binder.bound
    b.lambda binder none

/-- Builds the nodes of expressions from left to right. -/
def buildAll : List Expr → Building State (List Node)
  | [] => return []
  | e :: es => do
    let node ← build e
    let nodes ← buildAll es
    return node :: nodes

end

/-- Takes events one by one. -/
def feed (a : Assembly State Node) (es : List Event) :
    Except CompileError (Assembly State Node) :=
  es.foldlM b.handle a

/-- Applies the last operators of the current frame, as long as they satisfy a test. -/
def settle (test : Operator → Bool) (a : Assembly State Node) :
    Except CompileError (Assembly State Node) := do
  let ((operators, operands), state) ←
    b.applyWhile test a.current.operators a.current.operands a.state
  return { a with state, current := { a.current with operators, operands } }

/-- Pushes the node that a step builds. -/
def pushing (run : Building State Node) : Assembly State Node →
    Except CompileError (Assembly State Node) :=
  withFrame fun frame => do return frame.push (← run)

end TreeBuilder

namespace AssemblyScope

/-- Whether literals are items of a list. -/
def isList : AssemblyScope → Bool
  | list _ => true
  | _ => false

end AssemblyScope

-- ════════════════════════════════════════════════════════════════════════
-- Steps of a builder
-- ════════════════════════════════════════════════════════════════════════

namespace TreeBuilder

variable {b : TreeBuilder State Node}

@[simp]
theorem feed_nil (a : Assembly State Node) : b.feed a [] = .ok a := rfl

@[simp]
theorem feed_cons (a : Assembly State Node) (e : Event) (es : List Event) :
    b.feed a (e :: es) = b.handle a e >>= fun a => b.feed a es := rfl

@[simp]
theorem feed_singleton (a : Assembly State Node) (e : Event) : b.feed a [e] = b.handle a e :=
  bind_pure _

theorem feed_append (a : Assembly State Node) (es es' : List Event) :
    b.feed a (es ++ es') = b.feed a es >>= fun a => b.feed a es' :=
  List.foldlM_append

theorem listener_feed (start : State) (a : Assembly State Node) (es : List Event) :
    (b.listener start).feed a es = b.feed a es := by
  induction es generalizing a with
  | nil => rfl
  | cons e es ih =>
    rw [Listener.feed, feed_cons]
    exact congrArg _ (funext ih)

section Equations

/-! What taking an event and building a node mean. -/

theorem handle_groupClose (a : Assembly State Node) : b.handle a .groupClose = b.closeGroup a := rfl

theorem handle_separator (a : Assembly State Node) :
    b.handle a .separator = withFrame b.takeSeparator a := rfl

theorem handle_listOpen (a : Assembly State Node) :
    b.handle a .listOpen = .ok (openFrame (.list []) a) := rfl

theorem handle_listClose (a : Assembly State Node) :
    b.handle a .listClose = closeFrame b.closeList a := rfl

theorem handle_functionOpen (function : Function) (arity : Nat) (a : Assembly State Node) :
    b.handle a (.functionOpen function arity) = .ok (openFrame (.call function) a) := rfl

theorem handle_lambdaOpen (binder : Binder) (hasBody : Bool) (a : Assembly State Node) :
    b.handle a (.lambdaOpen binder hasBody) =
      b.enterLambda binder.navigation binder.bound a.state >>= fun r =>
        .ok (openFrame (.lambda binder) { a with state := r.2 }) := rfl

theorem build_binary (op : BinaryOp) (left right : Expr) :
    b.build (.binary op left right) = (do
      let l ← b.build left
      let r ← b.build right
      b.binary op l r) := rfl

theorem build_unary (op : UnaryOp) (operand : Expr) :
    b.build (.unary op operand) = (do
      let node ← b.build operand
      b.unary op node) := rfl

theorem build_membership (operand : Expr) (list : List Value) :
    b.build (.membership operand list) = (do
      let node ← b.build operand
      b.membership node list) := rfl

theorem build_call (function : Function) (arguments : List Expr) :
    b.build (.call function arguments) = (do
      let nodes ← b.buildAll arguments
      b.call function nodes) := rfl

theorem build_lambda (binder : Binder) (body : Expr) :
    b.build (.lambda binder body) = (do
      b.enterLambda binder.navigation binder.bound
      let node ← b.build body
      b.lambda binder (some node)) := rfl

theorem build_bare (binder : Binder) :
    b.build (.bare binder) = (do
      b.enterLambda binder.navigation binder.bound
      b.lambda binder none) := rfl

end Equations

theorem pushing_eq (run : Building State Node) (a : Assembly State Node) :
    pushing run a = run a.state >>= fun r =>
      .ok { a with state := r.2, current := a.current.push r.1 } := by
  simp only [pushing, withFrame, Result.run_bind, bind_assoc]
  rfl

-- ════════════════════════════════════════════════════════════════════════
-- Operators that wait
-- ════════════════════════════════════════════════════════════════════════

/-- Applying operators by a test first does not change what a weaker test applies. -/
theorem applyWhile_bind_applyWhile {test test' : Operator → Bool}
    (h : ∀ op, test op → test' op) (operators : List Operator) (operands : List Node)
    (s : State) :
    (b.applyWhile test operators operands s >>= fun r => b.applyWhile test' r.1.1 r.1.2 r.2) =
      b.applyWhile test' operators operands s := by
  induction operators generalizing operands s with
  | nil => rfl
  | cons op ops ih =>
    by_cases hop : test op
    · simp only [applyWhile, hop, h op hop, if_true, Result.run_bind, bind_assoc, ih]
    · simp only [applyWhile, hop, Bool.false_eq_true, if_false, Result.run_pure,
        Result.ok_bind]

theorem appliesBefore_mono {p q : Nat} (h : p ≤ q) (op : Operator)
    (hop : appliesBefore q op) : appliesBefore p op := by
  simp only [appliesBefore, Bool.and_eq_true, decide_eq_true_eq] at hop ⊢
  exact ⟨hop.1, Nat.le_trans h hop.2⟩

theorem appliesBefore_of_lt {p : Nat} {op : Operator} (h : op.precedence < p) :
    appliesBefore p op = false := by
  simp [appliesBefore, h]

theorem appliesBefore_false_mono {p q : Nat} (h : p ≤ q) {op : Operator}
    (hop : appliesBefore p op = false) : appliesBefore q op = false :=
  Bool.eq_false_iff.mpr fun hq => Bool.eq_false_iff.mp hop (appliesBefore_mono h op hq)

/-- Two assemblies are in the same frame, whatever operands and operators it has. -/
def SameFrame (a a' : Assembly State Node) : Prop :=
  a'.current.scope = a.current.scope ∧ a'.outer = a.outer

/-- Applying operators stays in the current frame. -/
theorem sameFrame_of_settle {test : Operator → Bool} {a a' : Assembly State Node}
    (h : b.settle test a = .ok a') : SameFrame a a' := by
  obtain ⟨r, _, hr⟩ := Result.bind_eq_ok.mp h
  cases hr
  exact ⟨rfl, rfl⟩

theorem settle_bind_settle {p q : Nat} (h : p ≤ q) (a : Assembly State Node) :
    (b.settle (appliesBefore q) a >>= b.settle (appliesBefore p)) =
      b.settle (appliesBefore p) a := by
  have happly := applyWhile_bind_applyWhile (b := b) (appliesBefore_mono h)
    a.current.operators a.current.operands a.state
  simp only [settle, bind_assoc, ← happly]
  rfl

/-- Nothing is applied if the last operator fails the test. -/
theorem settle_of_rests {test : Operator → Bool} {a : Assembly State Node}
    (h : ∀ op ∈ a.current.operators.head?, test op = false) :
    b.settle test a = .ok a := by
  obtain ⟨s, ⟨scope, operands, operators, arguments⟩, outer⟩ := a
  cases operators with
  | nil => rfl
  | cons op ops =>
    have hop : test op = false := h op rfl
    simp only [settle, applyWhile, hop, Bool.false_eq_true, if_false, Result.run_pure]
    rfl

/-- The last operator is applied if it satisfies the test. -/
theorem settle_cons {test : Operator → Bool} {op : Operator} (h : test op) (s : State)
    (scope : AssemblyScope) (operands arguments : List Node) (ops : List Operator)
    (outer : List (AssemblyFrame Node)) :
    b.settle test ⟨s, ⟨scope, operands, op :: ops, arguments⟩, outer⟩ =
      b.apply op operands s >>= fun r =>
        b.settle test ⟨r.2, ⟨scope, r.1, ops, arguments⟩, outer⟩ := by
  simp only [settle, applyWhile, h, if_true, Result.run_bind, bind_assoc]

-- ════════════════════════════════════════════════════════════════════════
-- Continuations that may settle first
-- ════════════════════════════════════════════════════════════════════════

/-- In the frame of `a`, a continuation gives the same if operators that bind at least as
tight as `p` are applied before it. -/
def Absorbs (b : TreeBuilder State Node) (p : Nat) (a : Assembly State Node)
    (k : Assembly State Node → Except CompileError α) : Prop :=
  ∀ a', SameFrame a a' → (b.settle (appliesBefore p) a' >>= k) = k a'

namespace Absorbs

variable {p q : Nat} {a : Assembly State Node} {k : Assembly State Node → Except CompileError α}

theorem bind (h : b.Absorbs p a k) (k' : α → Except CompileError β) :
    b.Absorbs p a fun a => k a >>= k' := by
  intro a' ha'
  rw [← bind_assoc, h a' ha']

theorem mono (h : b.Absorbs p a k) (hle : p ≤ q) : b.Absorbs q a k := by
  intro a' ha'
  calc (b.settle (appliesBefore q) a' >>= k)
      = b.settle (appliesBefore q) a' >>= fun a => b.settle (appliesBefore p) a >>= k := by
        cases hq : b.settle (appliesBefore q) a' with
        | error err => rfl
        | ok a'' =>
          have hsame := sameFrame_of_settle hq
          exact (h a'' ⟨hsame.1.trans ha'.1, hsame.2.trans ha'.2⟩).symm
    _ = b.settle (appliesBefore p) a' >>= k := by rw [← bind_assoc, settle_bind_settle hle]
    _ = k a' := h a' ha'

/-- A continuation that applies the last operator anyway. -/
theorem apply {op : Operator} {ops : List Operator} (h : b.Absorbs p a k)
    (hop : appliesBefore p op) (hrests : ∀ op ∈ ops.head?, appliesBefore p op = false)
    (s : State) (operands arguments : List Node) :
    k ⟨s, ⟨a.current.scope, operands, op :: ops, arguments⟩, a.outer⟩ =
      b.apply op operands s >>= fun r =>
        k ⟨r.2, ⟨a.current.scope, r.1, ops, arguments⟩, a.outer⟩ := by
  have hk := h ⟨s, ⟨a.current.scope, operands, op :: ops, arguments⟩, a.outer⟩ ⟨rfl, rfl⟩
  rw [← hk, settle_cons hop, bind_assoc]
  refine congrArg _ (funext fun r => ?_)
  rw [settle_of_rests hrests, Result.ok_bind]

/-- Reducing the current frame makes earlier applications invisible. -/
theorem of_reduce (run : Option Node × State → List Node → Except CompileError α)
    (h : ∀ a', SameFrame a a' →
      k a' = b.reduce a'.current a'.state >>= fun r => run r a'.current.arguments) :
    b.Absorbs p a k := by
  intro a' ha'
  have hall : ∀ op, appliesBefore p op → (fun _ => true) op = true := fun _ _ => rfl
  have happly := applyWhile_bind_applyWhile (b := b) hall a'.current.operators
    a'.current.operands a'.state
  calc (b.settle (appliesBefore p) a' >>= k)
      = b.settle (appliesBefore p) a' >>= fun a => b.reduce a.current a.state >>= fun r =>
          run r a.current.arguments := by
        cases hp : b.settle (appliesBefore p) a' with
        | error err => rfl
        | ok a'' =>
          have hsame := sameFrame_of_settle hp
          exact h a'' ⟨hsame.1.trans ha'.1, hsame.2.trans ha'.2⟩
    _ = b.reduce a'.current a'.state >>= fun r => run r a'.current.arguments := by
        simp only [settle, reduce, Result.run_bind, bind_assoc, ← happly]
        rfl
    _ = k a' := (h a' ha').symm

end Absorbs

variable {a : Assembly State Node}

/-- Taking an operator between operands applies those that bind at least as tight. -/
theorem handle_operator {op : Operator} (h : ∀ u, op ≠ .unary u) (a : Assembly State Node) :
    b.handle a (.operator op) = b.settle (appliesBefore op.precedence) a >>= fun a =>
      .ok { a with current := { a.current with operators := op :: a.current.operators } } := by
  cases op with
  | unary u => exact absurd rfl (h u)
  | binary op | membership =>
    simp only [handle, withFrame, takeOperator, settle, Result.run_bind, bind_assoc]
    rfl

theorem absorbs_operator {op : Operator} (h : ∀ u, op ≠ .unary u) :
    b.Absorbs op.precedence a fun a => b.handle a (.operator op) := by
  intro a' _
  simp only [handle_operator h]
  rw [← bind_assoc, settle_bind_settle (Nat.le_refl _)]

theorem absorbs_groupClose (p : Nat) : b.Absorbs p a fun a => b.handle a .groupClose := by
  refine .of_reduce (fun r _ => r.1.elim (.error (.malformed .emptyGroup)) fun node =>
    closeFrame (fun _ outer => return outer.push node) { a with state := r.2 }) fun a' ha' => ?_
  simp only [handle_groupClose, closeGroup, reduceSome, closeFrame, ha'.2, Result.run_bind,
    bind_assoc]
  congr 1
  funext r
  cases r.1 <;> rfl

theorem absorbs_functionClose (p : Nat) : b.Absorbs p a fun a => b.handle a .functionClose := by
  refine .of_reduce (fun r arguments => closeFrame (b.closeCall r.1)
    ⟨r.2, ⟨a.current.scope, [], [], arguments⟩, a.outer⟩) fun a' ha' => ?_
  rw [← ha'.1, ← ha'.2]
  rfl

theorem absorbs_lambdaClose (p : Nat) : b.Absorbs p a fun a => b.handle a .lambdaClose := by
  refine .of_reduce (fun r _ => closeFrame (b.closeLambda r.1)
    ⟨r.2, .opened a.current.scope, a.outer⟩) fun a' ha' => ?_
  rw [← ha'.1, ← ha'.2]
  rfl

theorem absorbs_separator {function : Function} (p : Nat)
    (h : a.current.scope = .call function) : b.Absorbs p a fun a => b.handle a .separator := by
  refine .of_reduce (fun r arguments => r.1.elim (.error (.malformed .emptyArgument)) fun node =>
    .ok ⟨r.2, ⟨.call function, [], [], arguments ++ [node]⟩, a.outer⟩) fun a' ha' => ?_
  have hscope : a'.current.scope = .call function := ha'.1.trans h
  simp only [handle_separator, withFrame, takeSeparator, hscope, reduceSome, ha'.2, Result.run_bind,
    bind_assoc]
  congr 1
  funext r
  cases r.1 <;> rfl

theorem absorbs_finish (p : Nat) (h : a.outer = []) : b.Absorbs p a b.finish := by
  refine .of_reduce (fun r _ => r.1.elim (.error (.malformed .emptyExpression)) fun node =>
    .ok (node, r.2)) fun a' ha' => ?_
  simp only [finish, reduceSome, ha'.2, h, Result.run_bind]
  congr 1
  funext r
  cases r.1 <;> rfl

-- ════════════════════════════════════════════════════════════════════════
-- Parts of a node
-- ════════════════════════════════════════════════════════════════════════

/-- The events of an expression push its node, in front of every continuation that absorbs
operators as tight as the expression. -/
def Pushes (b : TreeBuilder State Node) (e : Expr) : Prop :=
  ∀ (α : Type) (a : Assembly State Node) (k : Assembly State Node → Except CompileError α),
    a.current.scope.isList = false →
    (∀ op ∈ a.current.operators.head?, appliesBefore e.strength op = false) →
    b.Absorbs e.strength a k →
    (b.feed a e.events >>= k) = pushing (b.build e) a >>= k

/-- The first expression of a frame pushes its node whatever is waiting in outer frames. -/
theorem Pushes.opened {e : Expr} (he : b.Pushes e) {scope : AssemblyScope}
    (hscope : scope.isList = false) (s : State) (arguments : List Node)
    (outer : List (AssemblyFrame Node)) (k : Assembly State Node → Except CompileError α)
    (hk : b.Absorbs e.strength ⟨s, ⟨scope, [], [], arguments⟩, outer⟩ k) :
    (b.feed ⟨s, ⟨scope, [], [], arguments⟩, outer⟩ e.events >>= k) =
      b.build e s >>= fun r => k ⟨r.2, ⟨scope, [r.1], [], arguments⟩, outer⟩ := by
  rw [he α _ k hscope (by simp) hk, pushing_eq, bind_assoc]
  rfl

/-- An operand pushes its node, in parentheses or without. -/
theorem Pushes.grouped {e : Expr} (he : b.Pushes e) {g : Bool} {p : Nat}
    (k : Assembly State Node → Except CompileError α) (hscope : a.current.scope.isList = false)
    (hrests : g = false → ∀ op ∈ a.current.operators.head?, appliesBefore e.strength op = false)
    (hp : g = false → p ≤ e.strength) (hk : b.Absorbs p a k) :
    (b.feed a (Expr.groupEvents g e.events) >>= k) = pushing (b.build e) a >>= k := by
  cases g with
  | false => exact he α a k hscope (hrests rfl) (hk.mono (hp rfl))
  | true =>
    have hclose := (b.absorbs_groupClose (a := openFrame .group a) e.strength).bind k
    have hopened := he.opened rfl a.state [] (a.current :: a.outer) _ hclose
    simp only [Expr.groupEvents, if_true, feed_cons, feed_append, bind_assoc, feed_nil,
      Result.ok_bind] at hopened ⊢
    exact hopened.trans (by rw [pushing_eq, bind_assoc]; rfl)

/-- Closing a call gives its arguments to the builder; the last one may still be an operand. -/
theorem handle_functionClose (function : Function) (last : Option Node) (s : State)
    (arguments : List Node) (frame : AssemblyFrame Node) (outer : List (AssemblyFrame Node)) :
    b.handle ⟨s, ⟨.call function, last.toList, [], arguments⟩, frame :: outer⟩ .functionClose =
      b.call function (arguments ++ last.toList) s >>= fun r =>
        .ok ⟨r.2, frame.push r.1, outer⟩ := by
  cases last with
  | none => exact bind_assoc (b.call function _ s) _ _
  | some node => exact bind_assoc (b.call function _ s) _ _

/-- Arguments are built one by one and then given to the call. -/
theorem feed_arguments {arguments : List Expr} (h : ∀ e ∈ arguments, b.Pushes e)
    (function : Function) (s : State) (done : List Node) (frame : AssemblyFrame Node)
    (outer : List (AssemblyFrame Node)) :
    (b.feed ⟨s, ⟨.call function, [], [], done⟩, frame :: outer⟩
        (Expr.argumentEvents arguments) >>= fun a => b.handle a .functionClose) =
      b.buildAll arguments s >>= fun r => b.call function (done ++ r.1) r.2 >>= fun r =>
        .ok ⟨r.2, frame.push r.1, outer⟩ := by
  induction arguments using Expr.argumentEvents.induct generalizing s done with
  | case1 => exact handle_functionClose function none s done frame outer
  | case2 e =>
    have he := (h e List.mem_cons_self).opened rfl s done (frame :: outer) _
      (b.absorbs_functionClose (a := ⟨s, ⟨.call function, [], [], done⟩, frame :: outer⟩)
        e.strength)
    simp only [Expr.argumentEvents, buildAll, Result.run_bind, Result.run_pure,
      bind_assoc, Result.ok_bind]
    refine he.trans (congrArg _ (funext fun r => ?_))
    exact handle_functionClose function (some r.1) r.2 done frame outer
  | case3 e es hne ih =>
    have he := (h e List.mem_cons_self).opened rfl s done (frame :: outer) _
      ((b.absorbs_separator (a := ⟨s, ⟨.call function, [], [], done⟩, frame :: outer⟩)
        e.strength rfl).bind fun a => b.feed a (Expr.argumentEvents es) >>= fun a =>
          b.handle a .functionClose)
    rw [Expr.argumentEvents.eq_3 e es hne, feed_append, bind_assoc]
    simp only [feed_cons, bind_assoc, buildAll, Result.run_bind, Result.run_pure,
      Result.ok_bind] at he ⊢
    refine he.trans (congrArg _ (funext fun r => ?_))
    have hrest := ih (fun e' he' => h e' (List.mem_cons_of_mem _ he')) r.2 (done ++ [r.1])
    simp only [List.append_assoc, List.singleton_append] at hrest
    exact hrest

/-- Literals in a list are its items. -/
theorem feed_items (list done : List Value) (s : State) (operands : List Node)
    (operators : List Operator) (arguments : List Node) (outer : List (AssemblyFrame Node)) :
    b.feed ⟨s, ⟨.list done, operands, operators, arguments⟩, outer⟩ (Expr.itemEvents list) =
      .ok ⟨s, ⟨.list (done ++ list), operands, operators, arguments⟩, outer⟩ := by
  induction list using Expr.itemEvents.induct generalizing done with
  | case1 => simp [Expr.itemEvents]
  | case2 v => rfl
  | case3 v vs hne ih =>
    rw [Expr.itemEvents.eq_3 v vs hne]
    have hrest := ih (done ++ [v])
    rw [List.append_assoc] at hrest
    exact hrest

-- ════════════════════════════════════════════════════════════════════════
-- Whole expressions
-- ════════════════════════════════════════════════════════════════════════

/-- A node that is no operator is pushed at once. -/
theorem pushes_of_feed {e : Expr}
    (h : ∀ a : Assembly State Node, a.current.scope.isList = false →
      b.feed a e.events = pushing (b.build e) a) : b.Pushes e := by
  intro α a k hscope _ _
  rw [h a hscope]

theorem pushes_literal (v : Value) : b.Pushes (.literal v) := by
  refine pushes_of_feed fun a hscope => ?_
  obtain ⟨s, ⟨scope, operands, operators, arguments⟩, outer⟩ := a
  rw [Expr.events_literal, feed_singleton]
  cases scope with
  | list items => cases hscope
  | _ => rfl

theorem pushes_field (f : Field) : b.Pushes (.field f) := by
  refine pushes_of_feed fun a _ => ?_
  rw [Expr.events_field, feed_singleton]
  rfl

/-- Closing a lambda gives its body, if any, to the builder. -/
theorem handle_lambdaClose (binder : Binder) (body : Option Node) (s : State)
    (frame : AssemblyFrame Node) (outer : List (AssemblyFrame Node)) :
    b.handle ⟨s, ⟨.lambda binder, body.toList, [], []⟩, frame :: outer⟩ .lambdaClose =
      b.lambda binder body s >>= fun r => .ok ⟨r.2, frame.push r.1, outer⟩ := by
  cases body with
  | none => exact bind_assoc (b.lambda binder none s) _ _
  | some node => exact bind_assoc (b.lambda binder (some node) s) _ _

theorem pushes_bare (binder : Binder) : b.Pushes (.bare binder) := by
  refine pushes_of_feed fun a _ => ?_
  have hclose (s : State) := b.handle_lambdaClose binder none s a.current a.outer
  rw [Expr.events_bare, pushing_eq, build_bare, feed_cons]
  simp only [handle_lambdaOpen, Result.run_bind, bind_assoc, feed_singleton]
  exact congrArg _ (funext fun r => hclose r.2)

theorem pushes_lambda {binder : Binder} {body : Expr} (h : b.Pushes body) :
    b.Pushes (.lambda binder body) := by
  refine pushes_of_feed fun a _ => ?_
  have hclose (r : Node × State) := b.handle_lambdaClose binder (some r.1) r.2 a.current a.outer
  rw [Expr.events_lambda, pushing_eq, build_lambda, feed_cons]
  simp only [handle_lambdaOpen, Result.run_bind, bind_assoc, feed_append, feed_singleton]
  refine congrArg _ (funext fun r => ?_)
  have hbody := h.opened rfl r.2 [] (a.current :: a.outer) _ (b.absorbs_lambdaClose
    (a := openFrame (.lambda binder) { a with state := r.2 }) body.strength)
  exact hbody.trans (congrArg _ (funext hclose))

theorem pushes_call {function : Function} {arguments : List Expr}
    (h : ∀ e ∈ arguments, b.Pushes e) : b.Pushes (.call function arguments) := by
  refine pushes_of_feed fun a _ => ?_
  have harguments := feed_arguments h function a.state [] a.current a.outer
  rw [Expr.events_call, pushing_eq, build_call, feed_cons, handle_functionOpen, Result.ok_bind,
    feed_append]
  simp only [Result.run_bind, bind_assoc, feed_singleton]
  exact harguments

/-- The node of a prefix operation is built when something settles behind its operand. -/
theorem pushes_unary {op : UnaryOp} {operand : Expr} (h : b.Pushes operand) :
    b.Pushes (.unary op operand) := by
  intro α a k hscope hrests hk
  obtain ⟨s, ⟨scope, operands, operators, arguments⟩, outer⟩ := a
  have hstrength : Expr.needsGroup (.unary op operand) operand .right = false →
      operand.strength = Operator.membershipPrecedence + 1 := fun hgroup =>
    Expr.strength_of_precedence_none
      (Expr.precedence_of_needsGroup_prefixed (.unary op operand) rfl rfl hgroup)
  have hoperand := h.grouped (p := Operator.unaryPrecedence)
    (a := ⟨s, ⟨scope, operands, .unary op :: operators, arguments⟩, outer⟩) k hscope
    (fun hgroup op' hop' => by
      cases hop'
      rw [hstrength hgroup]
      rfl)
    (fun hgroup => by rw [hstrength hgroup]; decide) hk
  rw [Expr.events_unary, feed_cons]
  refine hoperand.trans ?_
  simp only [pushing_eq, build_unary, Result.run_bind, bind_assoc]
  refine congrArg _ (funext fun r => ?_)
  have happly : appliesBefore Operator.unaryPrecedence (.unary op) := by cases op <;> rfl
  refine (hk.apply happly hrests r.2 (r.1 :: operands) arguments).trans ?_
  simp only [TreeBuilder.apply, Result.run_bind, bind_assoc]
  rfl

/-- Behind its left operand, an operator finds nothing else to apply. -/
theorem Pushes.leftOperand {e : Expr} (he : b.Pushes e) {g : Bool} (op : Operator)
    (k : Assembly State Node → Except CompileError α) (hscope : a.current.scope.isList = false)
    (hop : ∀ u, op ≠ .unary u)
    (hrests : ∀ op' ∈ a.current.operators.head?, appliesBefore op.precedence op' = false)
    (hp : g = false → op.precedence ≤ e.strength) :
    (b.feed a (Expr.groupEvents g e.events) >>= fun a => b.handle a (.operator op) >>= k) =
      b.build e a.state >>= fun r => k ⟨r.2, { a.current with
        operands := r.1 :: a.current.operands
        operators := op :: a.current.operators }, a.outer⟩ := by
  rw [he.grouped (p := op.precedence) _ hscope ?_ hp ((absorbs_operator hop).bind k), pushing_eq,
    bind_assoc]
  · refine congrArg _ (funext fun r => ?_)
    rw [Result.ok_bind, handle_operator hop, settle_of_rests, Result.ok_bind, Result.ok_bind]
    · rfl
    · exact hrests
  · exact fun hg op' hop' => appliesBefore_false_mono (hp hg) (hrests op' hop')

theorem pushes_membership {operand : Expr} {list : List Value} (h : b.Pushes operand) :
    b.Pushes (.membership operand list) := by
  refine fun α a k hscope hrests _ => ?_
  rw [Expr.events_membership, feed_append, bind_assoc]
  simp only [feed_cons, bind_assoc]
  refine (h.leftOperand .membership _ hscope (by simp) hrests
    (Expr.le_strength_of_needsGroup_left (.membership operand list) rfl)).trans ?_
  simp only [pushing_eq, build_membership, Result.run_bind, bind_assoc]
  refine congrArg _ (funext fun r => ?_)
  simp only [handle_listOpen, handle_listClose, Result.ok_bind, feed_append, openFrame,
    AssemblyFrame.opened, feed_items, List.nil_append, feed_singleton, closeFrame, closeList, Result.run_bind, bind_assoc]
  rfl

theorem pushes_binary {op : BinaryOp} {left right : Expr} (hleft : b.Pushes left)
    (hright : b.Pushes right) : b.Pushes (.binary op left right) := by
  intro α a k hscope hrests hk
  rw [Expr.events_binary, feed_append, bind_assoc]
  simp only [feed_cons, bind_assoc]
  refine (hleft.leftOperand (.binary op) _ hscope (by simp) hrests
    (Expr.le_strength_of_needsGroup_left (.binary op left right) rfl)).trans ?_
  simp only [pushing_eq, build_binary, Result.run_bind, bind_assoc]
  refine congrArg _ (funext fun l => ?_)
  have htight : Expr.needsGroup (.binary op left right) right .right = false →
      op.precedence < right.strength :=
    Expr.lt_strength_of_needsGroup_right (.binary op left right) rfl
  have hoperand := hright.grouped (p := op.precedence)
    (a := ⟨l.2, { a.current with
      operands := l.1 :: a.current.operands
      operators := .binary op :: a.current.operators }, a.outer⟩) k hscope
    (fun hgroup op' hop' => by
      cases hop'
      exact appliesBefore_of_lt (htight hgroup))
    (fun hgroup => Nat.le_of_lt (htight hgroup)) hk
  refine hoperand.trans ?_
  simp only [pushing_eq, bind_assoc]
  refine congrArg _ (funext fun r => ?_)
  have happly : appliesBefore op.precedence (.binary op) := by
    simp [appliesBefore, Operator.precedence]
  refine (hk.apply happly hrests r.2 (r.1 :: l.1 :: a.current.operands)
    a.current.arguments).trans ?_
  simp only [TreeBuilder.apply, Result.run_bind, bind_assoc]
  rfl

/-- The events of every expression push its node. -/
theorem pushes (e : Expr) : b.Pushes e := by
  induction e with
  | literal v => exact pushes_literal v
  | field f => exact pushes_field f
  | binary op left right ihl ihr => exact pushes_binary ihl ihr
  | unary op operand ih => exact pushes_unary ih
  | membership operand list ih => exact pushes_membership ih
  | call function arguments ih => exact pushes_call ih
  | lambda binder body ih => exact pushes_lambda ih
  | bare binder => exact pushes_bare binder

end TreeBuilder

end ODataQuery
