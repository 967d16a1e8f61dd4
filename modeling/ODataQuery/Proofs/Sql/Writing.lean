import ODataQuery.Proofs.Event.Walk
import ODataQuery.Proofs.Expr.Typing
import ODataQuery.Proofs.Result
import ODataQuery.Proofs.Sql.Rendering

/-!
# Clauses are rendered

The events of a typed expression write the pieces that the tree is rendered to.

## Main definitions

- `SqlFrame.Begins` — a left operand begins behind all that is written
- `Expr.Writes` — the events of an expression write its pieces behind those of the frame

## Main statements

- `Expr.Typed.writes` — so do those of every typed expression
- `Expr.Typed.render_of_piecesOf` — the pieces of a clause are rendered

## Design notes

A frame that an operand is written to has operators of its own. What has to be known of them is
`SqlFrame.Begins`: no operator of the operand finds its left end in front of the place where the
operand begins.
-/

namespace ODataQuery

-- ════════════════════════════════════════════════════════════════════════
-- Writing behind what is written
-- ════════════════════════════════════════════════════════════════════════

namespace SqlFrame

/-- An operand that is written to the frame is complete. -/
structure Ready (f : SqlFrame) : Prop where
  scope : f.scope ≠ .list
  isDivisor : f.isDivisor = false
  dividend : f.dividend = none
  behind : ∀ o ∈ f.operators, o.behind ≤ f.pieces.length

/-- The left operand of an operator that binds at least with the given precedence begins behind all
that is written. -/
structure Begins (f : SqlFrame) (p : Nat) : Prop extends Ready f where
  start : ∀ q, p ≤ q → f.operandStart q = f.pieces.length

variable {f : SqlFrame} {p q : Nat}

theorem Begins.mono (h : f.Begins p) (hpq : p ≤ q) : f.Begins q :=
  ⟨h.toReady, fun _ hq => h.start _ (Nat.le_trans hpq hq)⟩

theorem begins_opened {scope : SqlScope} (h : scope ≠ .list) : (opened scope).Begins p :=
  ⟨⟨h, rfl, rfl, nofun⟩, fun _ _ => rfl⟩

end SqlFrame

namespace SqlWriter

/-- Takes events one by one. -/
def feed (w : SqlWriter) (es : List Event) : Except CompileError SqlWriter := es.foldlM handle w

theorem feed_cons (w : SqlWriter) (e : Event) (es : List Event) :
    w.feed (e :: es) = w.handle e >>= fun w' => w'.feed es := List.foldlM_cons

theorem feed_append (w : SqlWriter) (es es' : List Event) :
    w.feed (es ++ es') = w.feed es >>= fun w' => w'.feed es' := List.foldlM_append

theorem feed_singleton (w : SqlWriter) (e : Event) : w.feed [e] = w.handle e := by
  rw [feed_cons]
  exact bind_pure (w.handle e)

theorem listener_feed (dialect : Dialect) (rootAlias : String) (w : SqlWriter) (es : List Event) :
    (listener dialect rootAlias).feed w es = w.feed es := by
  induction es generalizing w with
  | nil => rfl
  | cons e es ih =>
    rw [feed_cons, Listener.feed]
    exact bind_congr ih

/-- Pieces and operators that are added to those of the current frame. -/
def extend (w : SqlWriter) (ps : List SqlPiece) (ops : List PlacedOperator) : SqlWriter :=
  { w with
    current := { w.current with
      pieces := w.current.pieces ++ ps
      operators := ops ++ w.current.operators } }

theorem extend_extend (w : SqlWriter) (ps qs : List SqlPiece) (ops ops' : List PlacedOperator) :
    (w.extend ps ops).extend qs ops' = w.extend (ps ++ qs) (ops' ++ ops) := by
  simp only [extend, List.append_assoc]

variable {w : SqlWriter} {ps : List SqlPiece}

theorem ready_extend (h : w.current.Ready) {ops : List PlacedOperator}
    (hops : ∀ o ∈ ops, o.behind ≤ w.current.pieces.length + ps.length) :
    (w.extend ps ops).current.Ready := by
  refine ⟨h.scope, h.isDivisor, h.dividend, fun o ho => ?_⟩
  have hlength : (w.extend ps ops).current.pieces.length =
      w.current.pieces.length + ps.length := List.length_append
  rw [hlength]
  obtain ho | ho := List.mem_append.mp ho
  · exact hops o ho
  · have := h.behind o ho
    omega

theorem operand_of_ready (h : w.current.Ready) (ps : List SqlPiece) :
    w.operand ps = .ok (w.extend ps []) := by
  obtain ⟨dialect, rootAlias, ⟨scope, pieces, arguments, isDivisor, dividend, operators⟩, outer⟩ := w
  obtain ⟨_, hdivisor, hdividend, _⟩ := h
  cases hdivisor
  cases hdividend
  rfl

/-- A frame whose next operand is a divisor. -/
def awaitDivisor (w : SqlWriter) : SqlWriter :=
  { w with current := { w.current with isDivisor := true } }

theorem operand_awaitDivisor (h : w.current.Ready) (ps : List SqlPiece) :
    w.awaitDivisor.operand ps = .ok (w.extend (ps ++ [.text ", 0)"]) []) := by
  obtain ⟨dialect, rootAlias, ⟨scope, pieces, arguments, isDivisor, dividend, operators⟩, outer⟩ := w
  obtain ⟨_, hdivisor, hdividend, _⟩ := h
  cases hdivisor
  cases hdividend
  show Except.ok _ = Except.ok _
  rw [extend, ← List.append_assoc]
  rfl

/-- A frame whose next operand divides the given dividend. -/
def awaitRemainder (w : SqlWriter) (l : List SqlPiece) : SqlWriter :=
  { w with current := { w.current with dividend := some l } }

theorem operand_awaitRemainder (h : w.current.Ready) (l r : List SqlPiece) :
    (w.awaitRemainder l).operand r = .ok (w.extend (SqlPiece.modulo l r) []) := by
  obtain ⟨dialect, rootAlias, ⟨scope, pieces, arguments, isDivisor, dividend, operators⟩, outer⟩ := w
  obtain ⟨_, hdivisor, hdividend, _⟩ := h
  cases hdivisor
  cases hdividend
  have hexpand : SqlTemplate.sqliteModulo.expand? [l, r] = some (SqlPiece.modulo l r) := by
    show some [_, l, _, r, _, l, _, r, _].flatten = _
    simp only [List.flatten_cons, List.flatten_nil, List.append_nil]
    rfl
  simp only [operand, SqlFrame.operand, awaitRemainder, hexpand]
  rfl

/-- The frame of an operand is closed. -/
theorem close_openFrame (w : SqlWriter) (f : SqlFrame)
    (run : SqlFrame → Except CompileError (List SqlPiece)) :
    close { w with current := f, outer := w.current :: w.outer } run = run f >>= w.operand := rfl

end SqlWriter

-- ════════════════════════════════════════════════════════════════════════
-- What expressions write
-- ════════════════════════════════════════════════════════════════════════

namespace SqlWriter

/-- The pieces are added, with operators that all bind at least with the given precedence. If that is
the precedence of equality or more, one of them is an equality test exactly if that is given. -/
inductive Written (w : SqlWriter) (p : Nat) (equality : Bool) : SqlWriter → List SqlPiece → Prop
  | intro {ps ops} (hops : ∀ o ∈ ops, w.current.pieces.length < o.behind ∧
        o.behind ≤ w.current.pieces.length + ps.length ∧ p ≤ o.precedence)
      (hequality : BinaryOp.eq.precedence ≤ p →
        ops.any (·.precedence == BinaryOp.eq.precedence) = equality) :
      Written w p equality (w.extend ps ops) ps

variable {w w' : SqlWriter} {ps : List SqlPiece} {p q : Nat} {equality : Bool}

/-- A complete operand has no operators of its own. -/
theorem written_operand (w : SqlWriter) (p : Nat) (ps : List SqlPiece) :
    Written w p false (w.extend ps []) ps := .intro nofun fun _ => rfl

theorem Written.mono (h : Written w p equality w' ps) (hpq : q ≤ p) :
    Written w q equality w' ps := by
  obtain ⟨hops, hequality⟩ := h
  refine .intro (fun o ho => ?_) fun hq => hequality (Nat.le_trans hq hpq)
  obtain ⟨hstart, hend, hle⟩ := hops o ho
  exact ⟨hstart, hend, Nat.le_trans hpq hle⟩

/-- Operators that all bind tighter than equality. -/
theorem any_equality_of_lt {ops : List PlacedOperator} (h : ∀ o ∈ ops, p ≤ o.precedence)
    (hp : BinaryOp.eq.precedence < p) :
    ops.any (·.precedence == BinaryOp.eq.precedence) = false := by
  rw [List.any_eq_false]
  intro o ho heq
  have := h o ho
  have := beq_iff_eq.mp heq
  omega

theorem Written.pieces_eq (h : Written w p equality w' ps) :
    w'.current.pieces = w.current.pieces ++ ps := by
  obtain ⟨_, _⟩ := h
  rfl

/-- The pieces of a finished clause are those of its frame. -/
theorem pieces_eq_ok (h : w.pieces = .ok ps) : ps = w.current.pieces := by
  unfold pieces at h
  split at h
  · cases h
  · split at h
    · cases h
    · cases h
      rfl

/-- Pieces that are written behind others. -/
theorem Written.after {ops : List PlacedOperator} {qs : List SqlPiece} {equality' : Bool}
    (h : Written (w.extend ps ops) p equality' w' qs)
    (hops : ∀ o ∈ ops, w.current.pieces.length < o.behind ∧
      o.behind ≤ w.current.pieces.length + ps.length ∧ p ≤ o.precedence)
    (hequality : BinaryOp.eq.precedence ≤ p →
      (equality' || ops.any (·.precedence == BinaryOp.eq.precedence)) = equality) :
    Written w p equality w' (ps ++ qs) := by
  obtain ⟨hops', hequality'⟩ := h
  have hlength : (w.extend ps ops).current.pieces.length =
      w.current.pieces.length + ps.length := List.length_append
  rw [hlength] at hops'
  rw [extend_extend]
  refine .intro (fun o ho => ?_) fun hp => ?_
  · rw [List.length_append]
    obtain ho | ho := List.mem_append.mp ho
    · have := hops' o ho
      omega
    · have := hops o ho
      omega
  · rw [List.any_append, hequality' hp, hequality hp]

end SqlWriter

namespace Expr

/-- The events of an expression write its pieces as a complete operand. -/
def WritesOperand (e : Expr) : Prop :=
  ∀ w : SqlWriter, w.current.scope ≠ .list →
    w.feed e.events = e.render w.dialect w.rootAlias >>= w.operand

/-- The events of an expression write its pieces behind those of the frame. -/
def Writes (e : Expr) : Prop :=
  (e.precedence? = none → e.WritesOperand) ∧
    ∀ w : SqlWriter, w.current.Begins e.strength →
      Result.Alike (w.Written e.strength e.isEquality) (w.feed e.events)
        (e.render w.dialect w.rootAlias)

variable {e : Expr} {g : Bool} {w : SqlWriter}

/-- Nodes that are no operators are complete operands. -/
theorem WritesOperand.writes (hnone : e.precedence? = none) (h : e.WritesOperand) : e.Writes := by
  refine ⟨fun _ => h, fun w hw => ?_⟩
  have hequality : e.isEquality = false := by
    cases e with
    | binary | unary | membership => cases hnone
    | _ => rfl
  rw [h w hw.scope, hequality]
  cases e.render w.dialect w.rootAlias with
  | error err => exact .error err
  | ok ps =>
    rw [Result.ok_bind, SqlWriter.operand_of_ready hw.toReady]
    exact .ok (w.written_operand e.strength ps)

/-- What is written to a new frame is what the frame is closed with. -/
theorem Writes.feed_frame (h : e.Writes) (w : SqlWriter) (scope : SqlScope) (hscope : scope ≠ .list)
    {close : Event} {run : SqlFrame → Except CompileError (List SqlPiece)}
    (hclose : ∀ w : SqlWriter, w.handle close = w.close run)
    {f : List SqlPiece → List SqlPiece}
    (hrun : ∀ frame : SqlFrame, frame.scope = scope → run frame = .ok (f frame.pieces)) :
    (w.openFrame scope).feed (e.events ++ [close]) =
      e.render w.dialect w.rootAlias >>= fun ps => w.operand (f ps) := by
  have hwrites := h.2 (w.openFrame scope) (SqlFrame.begins_opened hscope)
  rw [SqlWriter.feed_append]
  revert hwrites
  show Result.Alike _ _ (e.render w.dialect w.rootAlias) → _
  cases (w.openFrame scope).feed e.events <;> cases e.render w.dialect w.rootAlias <;>
    intro hwrites <;> cases hwrites
  · rfl
  · rename_i hwritten
    obtain ⟨_, _⟩ := hwritten
    rw [Result.ok_bind, Result.ok_bind, SqlWriter.feed_singleton, hclose]
    refine (SqlWriter.close_openFrame w _ run).trans ?_
    rw [hrun _ rfl]
    rfl

/-- Operands in parentheses, and nodes that are no operators, are complete operands. -/
theorem Writes.feed_operand (h : e.Writes) (hg : g = true ∨ e.precedence? = none)
    (hscope : w.current.scope ≠ .list) :
    w.feed (groupEvents g e.events) =
      e.render w.dialect w.rootAlias >>= fun ps => w.operand (SqlPiece.grouped g ps) := by
  cases g with
  | false =>
    obtain hg | hnone := hg
    · cases hg
    · exact h.1 hnone w hscope
  | true =>
    exact h.feed_frame w .group nofun (fun _ => rfl) fun frame hframe => by
      rw [SqlWriter.ofGroup, hframe]
      rfl

/-- Complete operands that are written to a frame that is ready. -/
theorem Writes.written_grouped (h : e.Writes) (hg : g = true ∨ e.precedence? = none)
    (hw : w.current.Ready) (p : Nat) :
    Result.Alike (fun w' ps => w.Written p false w' (SqlPiece.grouped g ps))
      (w.feed (groupEvents g e.events)) (e.render w.dialect w.rootAlias) := by
  rw [h.feed_operand hg hw.scope]
  cases e.render w.dialect w.rootAlias with
  | error err => exact .error err
  | ok ps =>
    rw [Result.ok_bind, SqlWriter.operand_of_ready hw]
    exact .ok (w.written_operand p _)

/-- Operands without parentheses that bind at least as tight as asked for, and operands in
parentheses. -/
theorem Writes.written (h : e.Writes) {p : Nat} (hw : w.current.Begins p)
    (hp : g = false → p ≤ e.strength) :
    Result.Alike (fun w' ps => w.Written p (e.isEquality && !g) w' (SqlPiece.grouped g ps))
      (w.feed (groupEvents g e.events)) (e.render w.dialect w.rootAlias) := by
  cases g with
  | true =>
    rw [Bool.not_true, Bool.and_false]
    exact h.written_grouped (.inl rfl) hw.toReady p
  | false =>
    rw [Bool.not_false, Bool.and_true]
    exact (h.2 w (hw.mono (hp rfl))).mono fun _ _ hwritten => hwritten.mono (hp rfl)

-- ════════════════════════════════════════════════════════════════════════
-- Nodes that are no operators
-- ════════════════════════════════════════════════════════════════════════

theorem writes_literal (v : Value) : (literal v).Writes := by
  refine WritesOperand.writes rfl fun w hscope => ?_
  rw [events_literal, SqlWriter.feed_singleton, SqlWriter.handle, if_neg hscope]
  rfl

theorem writes_field (f : Field) : (field f).Writes :=
  WritesOperand.writes rfl fun w _ => by
    rw [events_field, SqlWriter.feed_singleton]
    rfl

theorem writes_bare (binder : Binder) : (bare binder).Writes := by
  refine WritesOperand.writes rfl fun w _ => ?_
  rw [events_bare, SqlWriter.feed_cons]
  show SqlWriter.feed _ [.lambdaClose] = _
  rw [SqlWriter.feed_singleton]
  obtain ⟨navigation, quantifier, bound⟩ := binder
  cases quantifier <;> rfl

theorem writes_lambda (binder : Binder) {body : Expr} (h : body.Writes) :
    (lambda binder body).Writes := by
  refine WritesOperand.writes rfl fun w _ => ?_
  rw [events_lambda, SqlWriter.feed_cons, render, bind_assoc]
  refine h.feed_frame w (.lambda binder.quantifier (w.subqueryHead binder) true) nofun (fun _ => rfl)
    fun frame hframe => ?_
  rw [SqlWriter.ofLambda, hframe]
  obtain ⟨navigation, quantifier, bound⟩ := binder
  cases quantifier <;> rfl

/-- The frame of a call with finished arguments. -/
def callFrame (function : Function) (arity : Nat) (done : List (List SqlPiece)) : SqlFrame :=
  { SqlFrame.opened (.call function arity) with arguments := done }

theorem begins_callFrame (function : Function) (arity : Nat) (done : List (List SqlPiece))
    (p : Nat) : (callFrame function arity done).Begins p :=
  ⟨⟨nofun, rfl, rfl, nofun⟩, fun _ _ => rfl⟩

/-- The arguments of a call, behind those that are finished. -/
theorem feed_arguments {arguments : List Expr} (h : ∀ e ∈ arguments, e.Writes)
    (hne : arguments ≠ []) (w : SqlWriter) (function : Function) (arity : Nat)
    (done : List (List SqlPiece)) :
    Result.Alike (fun w' args => ∃ f : SqlFrame, w' = { w with current := f } ∧
        f.scope = .call function arity ∧ f.arguments ++ [f.pieces] = done ++ args)
      (SqlWriter.feed { w with current := callFrame function arity done }
        (argumentEvents arguments))
      (renderAll w.dialect w.rootAlias arguments) := by
  induction arguments using argumentEvents.induct generalizing done with
  | case1 => exact absurd rfl hne
  | case2 e =>
    have hfirst := (h e List.mem_cons_self).2
      { w with current := callFrame function arity done } (begins_callFrame ..)
    rw [argumentEvents, renderAll, ← bind_pure (SqlWriter.feed _ e.events)]
    refine hfirst.bind fun w' ps hwritten => .ok ?_
    obtain ⟨_, _⟩ := hwritten
    exact ⟨_, rfl, rfl, rfl⟩
  | case3 e es hes ih =>
    have hfirst := (h e List.mem_cons_self).2
      { w with current := callFrame function arity done } (begins_callFrame ..)
    rw [argumentEvents.eq_3 e es hes, renderAll, SqlWriter.feed_append]
    refine hfirst.bind fun w' ps hwritten => ?_
    obtain ⟨_, _⟩ := hwritten
    -- The separator moves the pieces to the finished arguments.
    have hrest := ih (fun e' he' => h e' (List.mem_cons_of_mem _ he')) hes (done ++ [ps])
    rw [SqlWriter.feed_cons]
    show Result.Alike _ (SqlWriter.feed { w with
      current := callFrame function arity (done ++ [ps]) } (argumentEvents es)) _
    rw [← bind_pure (SqlWriter.feed _ (argumentEvents es))]
    refine hrest.bind fun w' pss hwritten => .ok ?_
    obtain ⟨f, rfl, hscope, harguments⟩ := hwritten
    exact ⟨f, rfl, hscope, by rw [harguments, List.append_assoc]; rfl⟩

theorem ofCall_eq (dialect : Dialect) {f : SqlFrame} {function : Function}
    {args : List (List SqlPiece)} (hscope : f.scope = .call function args.length)
    (hargs : args ≠ [] → f.arguments ++ [f.pieces] = args)
    (hnil : args = [] → f.arguments = []) :
    SqlWriter.ofCall dialect f = SqlPiece.ofCall dialect function args := by
  have hall : (if args.length = 0 then f.arguments else f.arguments ++ [f.pieces]) = args := by
    by_cases h : args = []
    · rw [h, hnil h]
      rfl
    · rw [if_neg (mt List.length_eq_zero_iff.mp h), hargs h]
  unfold SqlWriter.ofCall
  rw [hscope]
  dsimp only
  rw [hall]
  cases function <;> rfl

/-- What holds of each argument and what it is rendered to. -/
theorem forall₂_renderAll {dialect : Dialect} {rootAlias : String} {es : List Expr}
    {pss : List (List SqlPiece)} {P : Expr → List SqlPiece → Prop}
    (h : ∀ e ∈ es, ∀ ps, e.render dialect rootAlias = .ok ps → P e ps)
    (hrender : renderAll dialect rootAlias es = .ok pss) : List.Forall₂ P es pss := by
  induction es generalizing pss with
  | nil =>
    cases hrender
    exact .nil
  | cons e es ih =>
    obtain ⟨ps, hps, hrender⟩ := Result.bind_eq_ok.mp hrender
    obtain ⟨pss, hpss, hrender⟩ := Result.bind_eq_ok.mp hrender
    cases hrender
    exact .cons (h e List.mem_cons_self ps hps)
      (ih (fun e' he' => h e' (List.mem_cons_of_mem _ he')) hpss)

theorem length_renderAll {dialect : Dialect} {rootAlias : String} {es : List Expr}
    {args : List (List SqlPiece)} (h : renderAll dialect rootAlias es = .ok args) :
    args.length = es.length :=
  (forall₂_renderAll (P := fun _ _ => True) (fun _ _ _ _ => trivial) h).length_eq.symm

theorem writes_call (function : Function) {arguments : List Expr}
    (h : ∀ e ∈ arguments, e.Writes) : (call function arguments).Writes := by
  refine WritesOperand.writes rfl fun w _ => ?_
  rw [events_call, SqlWriter.feed_cons, render]
  show SqlWriter.feed (w.openFrame (.call function arguments.length)) _ = _
  by_cases hne : arguments = []
  · rw [hne, renderAll, Result.ok_bind]
    show SqlWriter.feed _ [.functionClose] = _
    rw [SqlWriter.feed_singleton, ← ofCall_eq w.dialect (f := callFrame function 0 [])
      rfl (absurd rfl) fun _ => rfl]
    rfl
  · have harguments := feed_arguments h hne { w with outer := w.current :: w.outer } function
      arguments.length []
    rw [SqlWriter.feed_append]
    revert harguments
    show Result.Alike _ (SqlWriter.feed (w.openFrame (.call function arguments.length)) _)
      (renderAll w.dialect w.rootAlias arguments) → _
    cases (w.openFrame (.call function arguments.length)).feed (argumentEvents arguments) <;>
      cases hargs : renderAll w.dialect w.rootAlias arguments <;>
      intro harguments <;> cases harguments
    · rfl
    · rename_i hwritten
      obtain ⟨f, rfl, hscope, hpieces⟩ := hwritten
      have hlength := length_renderAll hargs
      rw [← hlength] at hscope
      rw [Result.ok_bind, Result.ok_bind, SqlWriter.feed_singleton,
        ← ofCall_eq w.dialect hscope (fun _ => hpieces)
          fun hnil => absurd (List.length_eq_zero_iff.mp (by rw [← hlength, hnil]; rfl)) hne]
      rfl

-- ════════════════════════════════════════════════════════════════════════
-- Operators
-- ════════════════════════════════════════════════════════════════════════

/-- The operand of a prefix operator is a complete operand. -/
theorem prefixed_operand (op : UnaryOp) {operand : Expr} :
    needsGroup (unary op operand) operand .right = true ∨ operand.precedence? = none := by
  cases hg : needsGroup (unary op operand) operand .right with
  | true => exact .inl rfl
  | false => exact .inr (precedence_of_needsGroup_prefixed (unary op operand) rfl rfl hg)

theorem writes_unary (op : UnaryOp) {operand : Expr} (h : operand.Writes) :
    (unary op operand).Writes := by
  refine ⟨nofun, fun w hw => ?_⟩
  have hready : (w.extend [.ofPrefix op] []).current.Ready := SqlWriter.ready_extend hw.toReady nofun
  have hhandle : w.handle (.operator (.unary op)) = .ok (w.extend [.ofPrefix op] []) := by
    cases op <;> rfl
  have hoperand := h.written_grouped (prefixed_operand op) hready (unary op operand).strength
  rw [events_unary, SqlWriter.feed_cons, hhandle, Result.ok_bind, render,
    ← bind_pure (SqlWriter.feed _ _)]
  exact hoperand.bind fun w' ps hwritten => .ok (hwritten.after nofun fun _ => rfl)

theorem write_write (f : SqlFrame) (ps qs : List SqlPiece) :
    (f.write ps).write qs = f.write (ps ++ qs) := by
  simp only [SqlFrame.write, List.append_assoc]

/-- The items of a list, behind what is written of it. -/
theorem feed_items (w : SqlWriter) (list : List Value) (f : SqlFrame) (hscope : f.scope = .list) :
    SqlWriter.feed { w with current := f } (itemEvents list) =
      .ok { w with
        current := f.write ((list.map SqlWriter.literal).intersperse (.text ", ")) } := by
  have hliteral (v : Value) (f : SqlFrame) (hscope : f.scope = .list) :
      SqlWriter.handle { w with current := f } (.literal v) =
        .ok { w with current := f.write [SqlWriter.literal v] } := by
    rw [SqlWriter.handle, if_pos hscope]
    rfl
  have hseparator (f : SqlFrame) (hscope : f.scope = .list) :
      SqlWriter.handle { w with current := f } .separator =
        .ok { w with current := f.write [.text ", "] } := by
    rw [SqlWriter.handle, SqlWriter.separator, hscope]
    rfl
  induction list using itemEvents.induct generalizing f with
  | case1 =>
    show Except.ok _ = Except.ok { w with current := f.write [] }
    rw [SqlFrame.write, List.append_nil]
  | case2 v =>
    rw [itemEvents, SqlWriter.feed_singleton, hliteral v f hscope]
    rfl
  | case3 v vs hne ih =>
    obtain ⟨v', vs', rfl⟩ := List.exists_cons_of_ne_nil hne
    rw [itemEvents.eq_3 v _ hne, SqlWriter.feed_cons, hliteral v f hscope, Result.ok_bind,
      SqlWriter.feed_cons, hseparator (f.write _) hscope, Result.ok_bind,
      ih ((f.write _).write _) hscope, write_write, write_write]
    rfl

theorem feed_membership {w : SqlWriter} (hw : w.current.Ready) (list : List Value) :
    w.feed (.operator .membership :: .listOpen :: (itemEvents list ++ [.listClose])) =
      .ok (w.extend (.text " IN " :: SqlPiece.ofItems list) []) := by
  have hready : (w.extend [.text " IN "] []).current.Ready := SqlWriter.ready_extend hw nofun
  have hitems := feed_items { w with outer := (w.extend [.text " IN "] []).current :: w.outer } list
    (.opened .list) rfl
  rw [SqlWriter.feed_cons]
  show (w.extend [.text " IN "] []).feed _ = _
  rw [SqlWriter.feed_cons]
  show SqlWriter.feed ((w.extend [.text " IN "] []).openFrame .list) _ = _
  rw [SqlWriter.feed_append]
  refine (congrArg (· >>= _) hitems).trans ?_
  rw [Result.ok_bind, SqlWriter.feed_singleton]
  refine (SqlWriter.close_openFrame (w.extend [.text " IN "] []) _ SqlWriter.ofList).trans ?_
  show SqlWriter.operand _ (SqlPiece.ofItems list) = _
  rw [SqlWriter.operand_of_ready hready, SqlWriter.extend_extend]
  rfl

theorem writes_membership {operand : Expr} (list : List Value) (h : operand.Writes) :
    (membership operand list).Writes := by
  refine ⟨nofun, fun w hw => ?_⟩
  have hoperand := h.written hw (le_strength_of_needsGroup_left (membership operand list) rfl)
  rw [events_membership, SqlWriter.feed_append, render]
  refine hoperand.bind fun w' ps hwritten => ?_
  obtain ⟨hops, _⟩ := hwritten
  rw [feed_membership (SqlWriter.ready_extend hw.toReady fun o ho => (hops o ho).2.1)]
  refine .ok (SqlWriter.Written.after (SqlWriter.written_operand _ _ _) hops fun _ => ?_)
  have hlt : BinaryOp.eq.precedence < Operator.membershipPrecedence := by decide
  exact SqlWriter.any_equality_of_lt (fun o ho => (hops o ho).2.2) hlt

-- ════════════════════════════════════════════════════════════════════════
-- Operators between operands
-- ════════════════════════════════════════════════════════════════════════

theorem isEquality_of_lt {e : Expr} (h : BinaryOp.eq.precedence < e.strength) :
    e.isEquality = false := by
  cases e with
  | binary op _ _ =>
    rw [isEquality, BinaryOp.isEquality_eq]
    exact beq_eq_false_iff_ne.mpr (Nat.ne_of_gt h)
  | _ => rfl

variable {l : List SqlPiece} {lops : List PlacedOperator} {op : BinaryOp}

/-- A left operand begins where it was written. -/
theorem operandStart_extend {p : Nat} (hw : w.current.Begins p)
    (hops : ∀ o ∈ lops, p ≤ o.precedence) :
    (w.extend l lops).current.operandStart p = w.current.pieces.length := by
  have hfind : (lops ++ w.current.operators).find? (·.precedence < p) =
      w.current.operators.find? (·.precedence < p) := by
    rw [List.find?_append, List.find?_eq_none.mpr, Option.none_or]
    intro o ho
    have := hops o ho
    simpa using this
  have hoperators : (w.extend l lops).current.operators = lops ++ w.current.operators := rfl
  rw [SqlFrame.operandStart, hoperators, hfind]
  exact hw.start p (Nat.le_refl p)

theorem forgetBehind_extend (hw : w.current.Ready)
    (hops : ∀ o ∈ lops, w.current.pieces.length < o.behind) :
    (lops ++ w.current.operators).filter (·.behind ≤ w.current.pieces.length) =
      w.current.operators := by
  rw [List.filter_append, List.filter_eq_nil_iff.mpr, List.filter_eq_self.mpr, List.nil_append]
  · intro o ho
    exact decide_eq_true (hw.behind o ho)
  · intro o ho hle
    have := hops o ho
    have := of_decide_eq_true hle
    omega

/-- An equality test is found in a left operand if that is one. -/
theorem hasEquality_extend (hw : w.current.Ready)
    (hops : ∀ o ∈ lops, w.current.pieces.length < o.behind) :
    (w.extend l lops).current.hasEquality w.current.pieces.length =
      lops.any (·.precedence == BinaryOp.eq.precedence) := by
  have hown : lops.any (fun o => w.current.pieces.length < o.behind &&
      o.precedence == BinaryOp.eq.precedence) =
        lops.any (·.precedence == BinaryOp.eq.precedence) := by
    rw [Bool.eq_iff_iff, List.any_eq_true, List.any_eq_true]
    constructor
    · rintro ⟨o, ho, heq⟩
      exact ⟨o, ho, (Bool.and_eq_true_iff.mp heq).2⟩
    · rintro ⟨o, ho, heq⟩
      exact ⟨o, ho, Bool.and_eq_true_iff.mpr ⟨decide_eq_true (hops o ho), heq⟩⟩
  have hbefore : w.current.operators.any (fun o => w.current.pieces.length < o.behind &&
      o.precedence == BinaryOp.eq.precedence) = false := by
    rw [List.any_eq_false]
    intro o ho heq
    have := hw.behind o ho
    have := of_decide_eq_true (Bool.and_eq_true_iff.mp heq).1
    omega
  show (lops ++ w.current.operators).any _ = _
  rw [List.any_append, hown, hbefore, Bool.or_false]

/-- An operator that is placed behind pieces. -/
theorem placeOperator_extend (hdivisor : w.current.isDivisor = false) (dialect : Dialect)
    (op : BinaryOp) (l : List SqlPiece) (lops : List PlacedOperator) :
    (w.extend l lops).current.placeOperator dialect op =
      { (w.extend (l ++ [SqlPiece.text (dialect.operator op)])
          (⟨op.precedence, w.current.pieces.length + (l.length + 1)⟩ :: lops)).current with
        isDivisor := op.isDivision } := by
  simp only [SqlWriter.extend, SqlFrame.placeOperator, SqlFrame.write, hdivisor, Bool.false_or,
    List.append_assoc, List.length_append, List.length_singleton, List.cons_append]

theorem wrap_extend (hw : w.current.Ready) (hops : ∀ o ∈ lops, w.current.pieces.length < o.behind) :
    (w.extend l lops).current.wrap w.current.pieces.length =
      (w.extend (SqlWriter.parenthesized l) []).current := by
  simp only [SqlWriter.extend, SqlFrame.wrap, SqlFrame.forgetBehind, forgetBehind_extend hw hops,
    List.take_left, List.drop_left, SqlWriter.parenthesized, List.nil_append]

theorem takeDividend_extend (hw : w.current.Ready)
    (hops : ∀ o ∈ lops, w.current.pieces.length < o.behind) :
    (w.extend l lops).current.takeDividend w.current.pieces.length =
      { w.current with dividend := some l } := by
  simp only [SqlWriter.extend, SqlFrame.takeDividend, SqlFrame.forgetBehind,
    forgetBehind_extend hw hops, List.take_left, List.drop_left]

/-- The frame behind an operator. -/
def placed (w : SqlWriter) (op : BinaryOp) (l : List SqlPiece) (lops : List PlacedOperator) :
    SqlWriter :=
  w.extend (l ++ [.text (w.dialect.operator op)])
    (⟨op.precedence, w.current.pieces.length + (l.length + 1)⟩ :: lops)

theorem begins_placed (hw : w.current.Ready)
    (hops : ∀ o ∈ lops, o.behind ≤ w.current.pieces.length + l.length) :
    (placed w op l lops).current.Begins (op.precedence + 1) := by
  refine ⟨SqlWriter.ready_extend hw fun o ho => ?_, fun p hp => ?_⟩
  · rw [List.length_append, List.length_singleton]
    obtain rfl | ho := List.mem_cons.mp ho
    · exact Nat.le_refl _
    · have := hops o ho
      omega
  · have hhead : decide (op.precedence < p) = true := decide_eq_true hp
    have hoperators : (placed w op l lops).current.operators = _ :: (lops ++ w.current.operators) :=
      rfl
    rw [SqlFrame.operandStart, hoperators,
      List.find?_cons_of_pos (p := fun o : PlacedOperator => o.precedence < p) hhead]
    show _ = (w.current.pieces ++ (l ++ [_])).length
    rw [List.length_append, List.length_append, List.length_singleton]

/-- What is written behind an operator, as a part of the operation. -/
theorem written_placed {w' : SqlWriter} {rs : List SqlPiece} {equality : Bool}
    (hops : ∀ o ∈ lops, w.current.pieces.length < o.behind ∧
      o.behind ≤ w.current.pieces.length + l.length ∧ op.precedence ≤ o.precedence)
    (hequality : BinaryOp.eq.precedence < op.precedence → equality = false)
    (h : (placed w op l lops).Written op.precedence equality w' rs) :
    w.Written op.precedence op.isEquality w' (l ++ .text (w.dialect.operator op) :: rs) := by
  have hall : ∀ o ∈ (⟨op.precedence, w.current.pieces.length + (l.length + 1)⟩ :: lops :
      List PlacedOperator), w.current.pieces.length < o.behind ∧
        o.behind ≤ w.current.pieces.length + (l ++ [SqlPiece.text (w.dialect.operator op)]).length ∧
        op.precedence ≤ o.precedence := by
    intro o ho
    rw [List.length_append, List.length_singleton]
    obtain rfl | ho := List.mem_cons.mp ho
    · exact ⟨by dsimp only; omega, by dsimp only; omega, Nat.le_refl _⟩
    · have := hops o ho
      omega
  have hwritten : w.Written op.precedence op.isEquality w'
      (l ++ [.text (w.dialect.operator op)] ++ rs) := by
    refine h.after hall fun _ => ?_
    rw [BinaryOp.isEquality_eq]
    by_cases hlt : BinaryOp.eq.precedence < op.precedence
    · rw [hequality hlt, SqlWriter.any_equality_of_lt (fun o ho => (hall o ho).2.2) hlt,
        beq_eq_false_iff_ne.mpr (Nat.ne_of_gt hlt)]
      rfl
    · have heq : op.precedence = BinaryOp.eq.precedence := by omega
      rw [List.any_cons, heq, beq_self_eq_true, Bool.true_or, Bool.or_true]
  rwa [List.append_assoc] at hwritten

variable {right : Expr}

/-- A left operand with an operator and its right operand, which are written as they are. -/
theorem feed_placed (hw : w.current.Ready)
    (hops : ∀ o ∈ lops, w.current.pieces.length < o.behind ∧
      o.behind ≤ w.current.pieces.length + l.length ∧ op.precedence ≤ o.precedence)
    (hright : right.Writes) (hg : g = false → op.precedence < right.strength) :
    Result.Alike (fun w' rs => w.Written op.precedence op.isEquality w'
        (l ++ .text (w.dialect.operator op) :: SqlPiece.grouped g rs))
      ((placed w op l lops).feed (groupEvents g right.events))
      (right.render w.dialect w.rootAlias) := by
  have hbegins : (placed w op l lops).current.Begins (op.precedence + 1) :=
    begins_placed hw fun o ho => (hops o ho).2.1
  refine (hright.written hbegins hg).mono fun w' rs hwritten => ?_
  refine written_placed hops (fun hlt => ?_) (hwritten.mono (Nat.le_succ _))
  cases g with
  | true => exact Bool.and_false _
  | false =>
    rw [isEquality_of_lt (Nat.lt_trans hlt (hg rfl))]
    rfl

/-- The divisor of a division is written into `NULLIF`. -/
theorem feed_divisor (hw : w.current.Ready)
    (hops : ∀ o ∈ lops, w.current.pieces.length < o.behind ∧
      o.behind ≤ w.current.pieces.length + l.length ∧ op.precedence ≤ o.precedence)
    (hright : right.Writes) (hg : g = true ∨ right.precedence? = none) :
    Result.Alike (fun w' rs => w.Written op.precedence op.isEquality w'
        (l ++ .text (w.dialect.operator op) :: (SqlPiece.grouped g rs ++ [.text ", 0)"])))
      ((placed w op l lops).awaitDivisor.feed (groupEvents g right.events))
      (right.render w.dialect w.rootAlias) := by
  have hbegins : (placed w op l lops).current.Begins (op.precedence + 1) :=
    begins_placed hw fun o ho => (hops o ho).2.1
  rw [hright.feed_operand (w := (placed w op l lops).awaitDivisor) hg hw.scope]
  show Result.Alike _ (right.render w.dialect w.rootAlias >>= _) _
  cases right.render w.dialect w.rootAlias with
  | error err => exact .error err
  | ok rs =>
    rw [Result.ok_bind, SqlWriter.operand_awaitDivisor hbegins.toReady]
    exact .ok (written_placed hops (fun _ => rfl) (SqlWriter.written_operand _ _ _))

/-- The divisor of a remainder in SQLite stands for the slot of the template. -/
theorem feed_remainder (hw : w.current.Ready) (l : List SqlPiece) (p : Nat) (hright : right.Writes)
    (hg : g = true ∨ right.precedence? = none) :
    Result.Alike (fun w' rs => w.Written p false w' (SqlPiece.modulo l (SqlPiece.grouped g rs)))
      ((w.awaitRemainder l).feed (groupEvents g right.events))
      (right.render w.dialect w.rootAlias) := by
  rw [hright.feed_operand (w := w.awaitRemainder l) hg hw.scope]
  show Result.Alike _ (right.render w.dialect w.rootAlias >>= _) _
  cases right.render w.dialect w.rootAlias with
  | error err => exact .error err
  | ok rs =>
    rw [Result.ok_bind, SqlWriter.operand_awaitRemainder hw]
    exact .ok (w.written_operand _ _)

/-- What an operator behind a left operand makes of the frame. -/
theorem handle_binary (hw : w.current.Begins op.precedence)
    (hops : ∀ o ∈ lops, w.current.pieces.length < o.behind ∧
      o.behind ≤ w.current.pieces.length + l.length ∧ op.precedence ≤ o.precedence) {chained : Bool}
    (hchained : BinaryOp.eq.precedence ≤ op.precedence →
      lops.any (·.precedence == BinaryOp.eq.precedence) = chained) :
    (w.extend l lops).handle (.operator (.binary op)) = .ok (
      if w.dialect = .sqlite ∧ op = .mod then w.awaitRemainder l
      else if op.isDivision then (placed w op l lops).awaitDivisor
      else if w.dialect = .postgres ∧ op.isEquality ∧ chained then
        placed w op (SqlWriter.parenthesized l) []
      else placed w op l lops) := by
  have hstart := operandStart_extend (l := l) hw fun o ho => (hops o ho).2.2
  have hbehind : ∀ o ∈ lops, w.current.pieces.length < o.behind := fun o ho => (hops o ho).1
  show Except.ok { w.extend l lops with
    current := (w.extend l lops).current.binary w.dialect op } = _
  have hplaced (division : Bool) (h : op.isDivision = division) (x : List SqlPiece)
      (xs : List PlacedOperator) : { w.extend l lops with
        current := (w.extend x xs).current.placeOperator w.dialect op } =
      if division then (placed w op x xs).awaitDivisor else placed w op x xs := by
    rw [placeOperator_extend hw.isDivisor, h]
    cases division with
    | true => rfl
    | false =>
      rw [if_neg Bool.false_ne_true, ← hw.isDivisor]
      rfl
  rw [SqlFrame.binary, hstart, takeDividend_extend hw.toReady hbehind,
    hasEquality_extend hw.toReady hbehind, wrap_extend hw.toReady hbehind]
  by_cases hmod : w.dialect = .sqlite ∧ op = .mod
  · rw [if_pos hmod, if_pos hmod]
    rfl
  rw [if_neg hmod, if_neg hmod]
  cases hequality : op.isEquality with
  | true =>
    have hdivision : op.isDivision = false := by
      cases op with
      | eq | ne => rfl
      | _ => cases hequality
    have hle : BinaryOp.eq.precedence ≤ op.precedence := by
      rw [BinaryOp.isEquality_eq, beq_iff_eq] at hequality
      exact Nat.le_of_eq hequality.symm
    rw [hchained hle, hdivision, if_neg Bool.false_ne_true]
    split
    · exact congrArg Except.ok (hplaced false hdivision _ _)
    · exact congrArg Except.ok (hplaced false hdivision _ _)
  | false =>
    simp only [Bool.false_eq_true, false_and, and_false, if_false]
    exact congrArg Except.ok (hplaced op.isDivision rfl l lops)

theorem writes_binary {op : BinaryOp} {left right : Expr} (hleft : left.Writes)
    (hright : right.Writes) (hdivision : op.isDivision = true →
      needsGroup (binary op left right) right .right = true ∨ right.precedence? = none) :
    (binary op left right).Writes := by
  refine ⟨nofun, fun w hw => ?_⟩
  have hl := hleft.written hw (le_strength_of_needsGroup_left (binary op left right) rfl)
  have hr : needsGroup (binary op left right) right .right = false →
      op.precedence < right.strength := lt_strength_of_needsGroup_right (binary op left right) rfl
  rw [events_binary, SqlWriter.feed_append, render]
  refine hl.bind fun w' l hwritten => ?_
  obtain ⟨hops, hchained⟩ := hwritten
  rw [SqlWriter.feed_cons, handle_binary hw hops hchained, Result.ok_bind,
    ← bind_pure (SqlWriter.feed _ _)]
  refine Result.Alike.bind (R := fun w' r => w.Written op.precedence op.isEquality w'
    (SqlPiece.operation w.dialect op (left.isEquality && !needsGroup (binary op left right) left .left)
      (SqlPiece.grouped (needsGroup (binary op left right) left .left) l)
      (SqlPiece.grouped (needsGroup (binary op left right) right .right) r)))
    ?_ fun _ _ h => .ok h
  simp only [SqlPiece.operation]
  split
  · next hmod =>
    obtain ⟨_, rfl⟩ := hmod
    exact feed_remainder hw.toReady _ _ hright (hdivision rfl)
  · split
    · next hdiv => exact feed_divisor hw.toReady hops hright (hdivision hdiv)
    · split
      · exact feed_placed hw.toReady nofun hright hr
      · exact feed_placed hw.toReady hops hright hr

-- ════════════════════════════════════════════════════════════════════════
-- Typed expressions
-- ════════════════════════════════════════════════════════════════════════

/-- A divisor is in parentheses, or no operator: a membership, which binds tighter than a division,
is no number. -/
theorem Settled.divisor {op : BinaryOp} {left right : Expr} (h : Settled op left right)
    (hop : op.isDivision = true) :
    needsGroup (binary op left right) right .right = true ∨ right.precedence? = none := by
  have hnumeric : right.type.isNumeric = true := by
    refine (h.isNumeric ?_).2
    cases op with
    | div | divby | mod => rfl
    | _ => cases hop
  cases right with
  | membership operand list => cases hnumeric
  | unary op' operand =>
    left
    simp [needsGroup, precedence?, isPrefixed]
  | binary op' left' right' =>
    left
    have hle : op'.precedence ≤ op.precedence := by
      have htop : op.precedence = BinaryOp.mul.precedence := by
        cases op with
        | div | divby | mod => rfl
        | _ => cases hop
      rw [htop]
      cases op' <;> decide
    obtain hlt | heq := Nat.lt_or_eq_of_le hle
    · simp [needsGroup, precedence?, hlt]
    · simp [needsGroup, precedence?, heq]
  | _ => exact .inr rfl

/-- The events of typed expressions write their pieces. -/
theorem Typed.writes {root : EntityType} {scope : List Frame} {e : Expr} (h : Typed root scope e) :
    e.Writes := by
  induction h with
  | literal => exact writes_literal _
  | field => exact writes_field _
  | binary _ _ hsettled ihl ihr => exact writes_binary ihl ihr hsettled.divisor
  | unary _ _ ih => exact writes_unary _ ih
  | membership _ _ ih => exact writes_membership _ ih
  | call _ _ ih => exact writes_call _ ih
  | lambda _ _ _ _ _ _ ih => exact writes_lambda _ ih
  | bare => exact writes_bare _

/-- The pieces of a clause are those that the tree is rendered to. -/
theorem Typed.render_of_piecesOf {root entity : EntityType} {scope : List Frame} {e : Expr}
    {options : SqlOptions} {ps : List SqlPiece} (h : Typed root scope e)
    (hps : SqlClause.piecesOf e entity options = .ok ps) :
    e.render options.dialect (options.tableAlias.getD entity.source) = .ok ps := by
  have hwrites := h.writes.2
    (SqlWriter.start options.dialect (options.tableAlias.getD entity.source))
    (SqlFrame.begins_opened nofun)
  rw [SqlClause.piecesOf, listen_eq] at hps
  obtain ⟨w, hfeed, hfinish⟩ := Result.bind_eq_ok.mp hps
  cases hcut : (e.walk defaultMaxDepth).2 with
  | some err =>
    rw [hcut] at hfinish
    cases hfinish
  | none =>
    rw [hcut] at hfinish
    rw [walk_of_complete hcut, SqlWriter.listener_feed] at hfeed
    obtain ⟨ps', hrender, hwritten⟩ := hwrites.exists_ok hfeed
    rw [SqlWriter.pieces_eq_ok hfinish]
    exact hrender.trans (congrArg Except.ok hwritten.pieces_eq.symm)

end Expr

end ODataQuery
