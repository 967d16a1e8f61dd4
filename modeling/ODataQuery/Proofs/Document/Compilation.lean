import ODataQuery.Proofs.Document.Simulation
import ODataQuery.Proofs.Event.Failure
import ODataQuery.Proofs.Expr.Operands

/-!
# Compiling typed expressions for documents

A document query is refused only by the bound on the walk, or since queries cannot express a
construct: the operands of typed expressions always have the form that a node asks for.

## Main definitions

- `DocumentNode.IsTyped` — nodes that can stand for expressions of a type
- `DocumentNode.Yields` — steps that keep the scope or come upon something unsupported

## Main statements

- `Expr.Typed.yields` — building the node of a typed expression
- `DocumentQuery.eq_unsupported_of_ofExpr`, `DocumentQuery.eq_unsupported_of_ofItems` — the errors
  of compilation
-/

namespace ODataQuery

namespace DocumentNode

-- ════════════════════════════════════════════════════════════════════════
-- Steps
-- ════════════════════════════════════════════════════════════════════════

/-- Only an expression of a type is a field of this type. -/
def IsTyped (type : StaticType) : DocumentNode → Prop
  | field _ t => t = type
  | literal _ | filter _ => True

/-- The step gives a result that satisfies a predicate and leaves the scope as it was, or it comes
upon something that queries cannot express. -/
inductive Yields {α : Type} (P : α → Prop) (names : Scope) :
    Except CompileError (α × Scope) → Prop
  | ok {a : α} (h : P a) : Yields P names (.ok (a, names))
  | unsupported (what : String) : Yields P names (.error (.unsupported "document" what))

variable {α β : Type} {P : α → Prop} {Q : β → Prop} {names : Scope}

theorem Yields.bind {names' : Scope} {x : Building Scope α} {f : α → Building Scope β}
    {s : Scope} (hx : Yields P names' (x s)) (hf : ∀ a, P a → Yields Q names (f a names')) :
    Yields Q names ((x >>= f) s) := by
  rw [Result.run_bind]
  cases hresult : x s with
  | error err =>
    rw [hresult] at hx
    cases hx with
    | unsupported what => exact .unsupported what
  | ok r =>
    rw [hresult] at hx
    cases hx with
    | ok h => exact hf _ h

/-- Steps without an error of their own that are made in the scope. -/
theorem yields_lift {x : Except CompileError α} {a : α} (hx : x = .ok a) (h : P a) :
    Yields P names ((x : Building Scope α) names) := by
  rw [hx]
  exact .ok h

-- ════════════════════════════════════════════════════════════════════════
-- Nodes
-- ════════════════════════════════════════════════════════════════════════

variable {left right operand : DocumentNode} {s t type : StaticType}

/-- A node of a Boolean expression is a predicate. -/
theorem exists_predicate (h : operand.IsTyped t) (ht : t.isBoolean = true) :
    ∃ f, operand.predicate = .ok f := by
  cases operand with
  | field path t' =>
    cases h
    exact ⟨_, if_pos ht⟩
  | literal v => exact ⟨_, rfl⟩
  | filter f => exact ⟨_, rfl⟩

theorem yields_path (origin : Option String) (source : String) :
    Yields (fun _ => True) names (path origin source names) := by
  unfold path
  split
  · exact .ok trivial
  · exact .unsupported _

theorem yields_compare (op : BinaryOp) : Yields (IsTyped type) names (compare op left right names) := by
  unfold compare
  split
  · exact .ok trivial
  · exact .ok trivial
  · exact .ok trivial
  · split
    · exact .ok trivial
    · exact .unsupported _
  · split
    · exact .ok trivial
    · exact .unsupported _
  · exact .unsupported _

theorem yields_binary {op : BinaryOp} (hl : left.IsTyped s) (hr : right.IsTyped t)
    (hlogical : op.isLogical = true → s.isBoolean = true ∧ t.isBoolean = true) :
    Yields (IsTyped type) names (binary op left right names) := by
  unfold binary
  split
  · next hop =>
    obtain ⟨hs, ht⟩ := hlogical hop
    obtain ⟨f, hf⟩ := exists_predicate hl hs
    obtain ⟨g, hg⟩ := exists_predicate hr ht
    refine (yields_lift hf trivial).bind (P := fun _ => True) fun _ _ => ?_
    exact (yields_lift hg trivial).bind (P := fun _ => True) fun _ _ => .ok trivial
  · split
    · exact yields_compare op
    · split
      · exact .ok trivial
      · exact .unsupported _

theorem yields_unary {op : UnaryOp} (h : operand.IsTyped t)
    (ht : Setting.acceptsOperand op t = true) :
    Yields (IsTyped type) names (unary op operand names) := by
  unfold unary
  split
  · obtain ⟨f, hf⟩ := exists_predicate h ht
    exact (yields_lift hf trivial).bind (P := fun _ => True) fun _ _ => .ok trivial
  · exact .ok trivial
  · exact .unsupported _

theorem yields_membership (list : List Value) :
    Yields (IsTyped type) names (membership operand list names) := by
  unfold membership
  split
  · exact .ok trivial
  · exact .ok trivial
  · exact .unsupported _

theorem yields_call (now : Instant) (function : Function) (arguments : List DocumentNode) :
    Yields (IsTyped type) names (call now function arguments names) := by
  unfold call
  cases arguments.mapM literal? with
  | some vs => exact .ok trivial
  | none =>
    dsimp only
    split
    · next path t v =>
      cases patternOf? function (v.chars?.getD []) with
      | none => split <;> exact .unsupported _
      | some pattern => split <;> exact .ok trivial
    · exact .unsupported _

/-- The variable of a lambda is remembered in front of its body. -/
theorem yields_enter (navigation : Navigation) (bound : String) :
    Yields (fun _ => True) (bound :: names) (enter navigation bound names) :=
  (yields_path navigation.origin navigation.source).bind fun _ _ => .ok trivial

/-- The variable of a lambda is forgotten behind its body. -/
theorem yields_lambda (binder : Binder) (bound : String) {body : Option DocumentNode}
    (h : ∀ node ∈ body, node.IsTyped t) (ht : t.isBoolean = true) :
    Yields (IsTyped type) names (lambda binder body (bound :: names)) := by
  have hbody : Yields (fun _ => True) (bound :: names)
      ((body.mapM fun node => (node.predicate : Building Scope DocumentFilter))
        (bound :: names)) := by
    cases body with
    | none => exact .ok trivial
    | some node =>
      obtain ⟨f, hf⟩ := exists_predicate (h node rfl) ht
      rw [Option.mapM_some, map_eq_pure_bind]
      exact (yields_lift hf trivial).bind (P := fun _ => True) fun _ _ => .ok trivial
  refine hbody.bind fun f _ => ?_
  have hleave : Yields (fun _ => True) names
      ((modify List.tail : Building Scope PUnit) (bound :: names)) := .ok trivial
  refine hleave.bind fun _ _ => ?_
  refine (yields_path binder.navigation.origin binder.navigation.source).bind fun path _ => ?_
  cases f <;> exact .ok trivial

end DocumentNode

-- ════════════════════════════════════════════════════════════════════════
-- Expressions
-- ════════════════════════════════════════════════════════════════════════

open DocumentNode

variable {root : EntityType} {scope : List Frame} {e : Expr} {now : Instant}

/-- The nodes of arguments are built one after another. -/
theorem DocumentNode.yields_buildAll {es : List Expr} {names : DocumentNode.Scope}
    (h : ∀ e ∈ es, Yields (IsTyped e.type) names ((builder now).build e names)) :
    Yields (fun _ => True) names ((builder now).buildAll es names) := by
  induction es with
  | nil => exact .ok trivial
  | cons e es ih =>
    obtain ⟨he, hes⟩ := List.forall_mem_cons.mp h
    exact he.bind fun _ _ => (ih hes).bind fun _ _ => .ok trivial

/-- The node of a typed expression is one of its type, unless queries cannot express a part of
it. -/
theorem Expr.Typed.yields (h : Typed root scope e) (names : DocumentNode.Scope) :
    Yields (IsTyped e.type) names ((builder now).build e names) := by
  induction h generalizing names with
  | literal => exact .ok trivial
  | field _ _ _ => exact (yields_path _ _).bind fun _ _ => .ok rfl
  | binary _ _ hsettled ihl ihr =>
    exact (ihl names).bind fun l hl => (ihr names).bind fun r hr =>
      yields_binary hl hr hsettled.isBoolean
  | unary _ htype ih => exact (ih names).bind fun _ hn => yields_unary hn htype
  | membership _ _ ih => exact (ih names).bind fun _ _ => yields_membership _
  | call _ _ ih =>
    exact (yields_buildAll fun e he => ih e he names).bind fun _ _ => yields_call _ _ _
  | lambda _ _ _ _ _ hbody ih =>
    refine (yields_enter _ _).bind fun _ _ => (ih _).bind fun n hn => ?_
    refine yields_lambda _ _ (fun node hnode => ?_) hbody
    cases hnode
    exact hn
  | bare =>
    exact (yields_enter _ _).bind fun _ _ =>
      yields_lambda (t := .boolean) _ _ (fun _ h => nomatch h) rfl

namespace DocumentNode

/-- Compiling a typed expression gives a node of its type, or fails by the bound on the walk or since
queries cannot express it. -/
theorem isTyped_of_ofExpr (h : Expr.Typed root [] e) {node : DocumentNode}
    (hnode : ofExpr now e = .ok node) : node.IsTyped e.type := by
  obtain ⟨_, scope, hbuild⟩ := Expr.listen_eq_ok.mp hnode
  have hyields : Yields (IsTyped e.type) [] ((builder now).build e []) := h.yields []
  rw [hbuild] at hyields
  cases hyields with
  | ok h => exact h

theorem eq_unsupported_of_ofExpr (h : Expr.Typed root [] e) {err : CompileError}
    (herr : ofExpr now e = .error err) :
    e.CutShort defaultMaxDepth err ∨ ∃ what, err = .unsupported "document" what := by
  obtain herr | herr := Expr.build_eq_error_of_listen herr
  · exact .inl herr
  · have hyields : Yields (IsTyped e.type) [] ((builder now).build e []) := h.yields []
    rw [herr] at hyields
    cases hyields with
    | unsupported what => exact .inr ⟨what, rfl⟩

end DocumentNode

namespace DocumentQuery

/-- A typed predicate is refused only by the bound on the walk, or since queries cannot express
it. -/
theorem eq_unsupported_of_ofExpr (h : Expr.Typed root [] e) (htype : e.type.isBoolean = true)
    {err : CompileError} (herr : ofExpr now e = .error err) :
    e.CutShort defaultMaxDepth err ∨ ∃ what, err = .unsupported "document" what := by
  cases hnode : DocumentNode.ofExpr now e with
  | error err' =>
    rw [ofExpr, hnode] at herr
    cases herr
    exact DocumentNode.eq_unsupported_of_ofExpr h hnode
  | ok node =>
    obtain ⟨f, hf⟩ := exists_predicate (isTyped_of_ofExpr h hnode) htype
    rw [ofExpr, hnode, Result.ok_bind, hf] at herr
    cases herr

/-- Typed compute items are refused only by the bound on the walk, or since queries cannot express
one of them. -/
theorem eq_unsupported_of_ofItems {items : List ComputeItem}
    (h : ∀ item ∈ items, item.expr.Typed root []) {err : CompileError}
    (herr : ofItems now items = .error err) :
    (∃ item ∈ items, item.expr.CutShort defaultMaxDepth err) ∨
      ∃ what, err = .unsupported "document" what := by
  have hitem (item : ComputeItem) (htyped : item.expr.Typed root [])
      (herr : ofItem now item = .error err) :
      item.expr.CutShort defaultMaxDepth err ∨ ∃ what, err = .unsupported "document" what := by
    cases hnode : DocumentNode.ofExpr now item.expr with
    | error err' =>
      rw [ofItem, hnode] at herr
      cases herr
      exact DocumentNode.eq_unsupported_of_ofExpr htyped hnode
    | ok node =>
      rw [ofItem, hnode, Result.ok_bind] at herr
      cases node with
      | field path t => cases herr
      | literal v => cases herr
      | filter f =>
        cases herr
        exact .inr ⟨_, rfl⟩
  cases hmembers : items.mapM fun item => do return (item.resultName, ← ofItem now item) with
  | error err' =>
    rw [ofItems, hmembers] at herr
    cases herr
    obtain ⟨item, hmem, herr⟩ := Result.exists_of_mapM_eq_error hmembers
    cases hresult : ofItem now item with
    | error err'' =>
      rw [hresult] at herr
      cases herr
      exact (hitem item (h item hmem) hresult).imp_left fun hcut => ⟨item, hmem, hcut⟩
    | ok j =>
      rw [hresult] at herr
      cases herr
  | ok members =>
    rw [ofItems, hmembers] at herr
    cases herr

end DocumentQuery

end ODataQuery
