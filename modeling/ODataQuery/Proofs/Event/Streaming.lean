import ODataQuery.Proofs.Event.Assembly

/-!
# Streaming loses nothing

A listener that assembles trees gives what the recursion over the expression gives, its first
error included. With expressions as nodes the result is the expression itself.

## Main definitions

- `rebuilder` — the tree builder whose nodes are expressions

## Main statements

- `TreeBuilder.finish_feed_events` — the finished node and the last state of the builder
- `Expr.events_injective` — no two expressions have the same events
- `Expr.listen_treeBuilder` — a walk with a large enough bound is the recursion
-/

namespace ODataQuery

variable {State Node : Type}

/-- The events of an expression, taken from the start, finish as the recursion does. -/
theorem TreeBuilder.finish_feed_events (b : TreeBuilder State Node) (e : Expr) (start : State) :
    (b.feed ⟨start, .opened .root, []⟩ e.events >>= b.finish) = b.build e start := by
  have hscope : AssemblyScope.root.isList = false := rfl
  have hopened := (b.pushes e).opened hscope start [] [] b.finish
    (b.absorbs_finish e.strength rfl)
  refine hopened.trans ?_
  calc (b.build e start >>= fun r => b.finish ⟨r.2, ⟨.root, [r.1], [], []⟩, []⟩)
      = b.build e start >>= pure := congrArg _ (funext fun _ => rfl)
    _ = b.build e start := bind_pure _

/-- A complete walk gives the node of the recursion. -/
theorem Expr.listen_of_walk (b : TreeBuilder State Node) {e : Expr} (start : State)
    {limit : Nat} (h : e.walk limit = (e.events, none)) :
    e.listen (b.listener start) limit = (b.build e start).map Prod.fst := by
  simp only [Expr.listen, h, TreeBuilder.listener_feed]
  rw [← b.finish_feed_events e start]
  show (b.feed ⟨start, .opened .root, []⟩ e.events >>= fun a => (b.finish a).map Prod.fst) = _
  cases b.feed ⟨start, .opened .root, []⟩ e.events with
  | error err => rfl
  | ok a => rfl

/-- A walk whose bound is not below the deepest level gives the node of the recursion. -/
theorem Expr.listen_eq_build (b : TreeBuilder State Node) {e : Expr} (start : State)
    {limit : Nat} (h : e.deepest 1 ≤ limit) :
    e.listen (b.listener start) limit = (b.build e start).map Prod.fst :=
  e.listen_of_walk b start (walk_of_deepest_le h)

/-- A walk that a listener takes to its end is complete. -/
theorem Expr.walk_of_listen {α : Type} {l : Listener State α} {e : Expr} {limit : Nat} {r : α}
    (h : e.listen l limit = .ok r) : e.walk limit = (e.events, none) := by
  refine Expr.walk_of_complete ?_
  rw [Expr.listen_eq] at h
  obtain ⟨s, _, hrest⟩ := Result.bind_eq_ok.mp h
  cases hcut : (e.walk limit).2 with
  | none => rfl
  | some error =>
    rw [hcut] at hrest
    cases hrest

/-- A listener that builds a tree gives the node of the recursion, at the end of a complete walk. -/
theorem Expr.listen_eq_ok {b : TreeBuilder State Node} {e : Expr} {start : State} {limit : Nat}
    {node : Node} : e.listen (b.listener start) limit = .ok node ↔
      e.walk limit = (e.events, none) ∧ ∃ state, b.build e start = .ok (node, state) := by
  constructor
  · intro h
    have hwalk := walk_of_listen h
    rw [e.listen_of_walk b start hwalk] at h
    refine ⟨hwalk, ?_⟩
    cases hbuild : b.build e start with
    | error err =>
      rw [hbuild] at h
      cases h
    | ok r =>
      rw [hbuild] at h
      cases h
      exact ⟨r.2, rfl⟩
  · rintro ⟨hwalk, state, hbuild⟩
    rw [e.listen_of_walk b start hwalk, hbuild]
    rfl

/-- The tree builder whose nodes are expressions. -/
def rebuilder : TreeBuilder Unit Expr where
  literal v := return .literal v
  field f := return .field f
  binary op left right := return .binary op left right
  unary op operand := return .unary op operand
  membership operand list := return .membership operand list
  call function arguments := return .call function arguments
  enterLambda _ _ := return ()
  lambda
    | binder, some body => return .lambda binder body
    | binder, none => return .bare binder

/-- Expressions are built again from themselves if each of them is. -/
theorem buildAll_rebuilder {es : List Expr} (h : ∀ e ∈ es, rebuilder.build e () = .ok (e, ())) :
    rebuilder.buildAll es () = .ok (es, ()) := by
  induction es with
  | nil => rfl
  | cons e es ih =>
    have hrest := ih fun e' he' => h e' (List.mem_cons_of_mem _ he')
    simp only [TreeBuilder.buildAll, Result.run_bind, h e List.mem_cons_self, hrest]
    rfl

/-- Building an expression from itself gives the expression back. -/
theorem build_rebuilder (e : Expr) : rebuilder.build e () = .ok (e, ()) := by
  induction e with
  | literal v => rfl
  | field f => rfl
  | binary op left right ihl ihr =>
    simp only [TreeBuilder.build_binary, Result.run_bind, ihl, ihr]
    rfl
  | unary op operand ih =>
    simp only [TreeBuilder.build_unary, Result.run_bind, ih]
    rfl
  | membership operand list ih =>
    simp only [TreeBuilder.build_membership, Result.run_bind, ih]
    rfl
  | call function arguments ih =>
    simp only [TreeBuilder.build_call, Result.run_bind, buildAll_rebuilder ih]
    rfl
  | lambda binder body ih =>
    simp only [TreeBuilder.build_lambda, Result.run_bind, ih]
    rfl
  | bare binder => rfl

/-- No two expressions have the same events. -/
theorem Expr.events_injective : Function.Injective Expr.events := by
  intro e e' h
  have hrebuild := rebuilder.finish_feed_events e ()
  rw [h, rebuilder.finish_feed_events e', build_rebuilder, build_rebuilder] at hrebuild
  cases hrebuild
  rfl

/-- A walk whose bound is not below the deepest level loses nothing: every tree builder, also
one with a state or one that fails, gives the node or the first error of the recursion; a
builder of expressions gives the expression itself; and no other expression has its events. -/
theorem Expr.listen_treeBuilder :
    (∀ (State Node : Type) (b : TreeBuilder State Node) (start : State) (e : Expr)
      (limit : Nat), e.deepest 1 ≤ limit →
        e.listen (b.listener start) limit = (b.build e start).map Prod.fst) ∧
    (∀ (e : Expr) (limit : Nat), e.deepest 1 ≤ limit →
      e.listen (rebuilder.listener ()) limit = .ok e) ∧
    Function.Injective Expr.events := by
  refine ⟨fun State Node b start e limit h => Expr.listen_eq_build b start h,
    fun e limit h => ?_, Expr.events_injective⟩
  rw [Expr.listen_eq_build rebuilder () h, build_rebuilder]
  rfl

/-- The expression `not (1 in (2)) or -(3) eq 4` comes back from its events under the default
bound. -/
theorem Expr.listen_rebuilder_negation :
    let e : Expr := .binary .or
      (.unary .not (.membership (.literal (.int32 1)) [.int32 2]))
      (.binary .eq (.unary .negate (.literal (.int32 3))) (.literal (.int32 4)))
    e.deepest 1 ≤ defaultMaxDepth ∧
      e.listen (rebuilder.listener ()) defaultMaxDepth = (rebuilder.build e ()).map Prod.fst ∧
      e.listen (rebuilder.listener ()) defaultMaxDepth = .ok e := by
  intro e
  have hdepth : e.deepest 1 ≤ defaultMaxDepth := by decide
  exact ⟨hdepth, Expr.listen_treeBuilder.1 Unit Expr rebuilder () e _ hdepth,
    Expr.listen_treeBuilder.2.1 e _ hdepth⟩

end ODataQuery
