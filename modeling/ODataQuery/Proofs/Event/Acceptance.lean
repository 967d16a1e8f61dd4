import ODataQuery.Document.Query
import ODataQuery.Proofs.Event.Nesting
import ODataQuery.Proofs.Event.Streaming
import ODataQuery.Sql.Writer

/-!
# What listeners accept

The listener that writes SQL accepts nested events only. One that assembles trees checks the kind of
what it closes except at the end of a group, which it lets end a call, a list or a lambda as well.

## Main definitions

- `Listener.Accepts` — a listener takes all events and finishes
- `Enclosure.Stacked` — frames of open enclosures on a frame that is never closed
- `Listener.Tracks` — the frames of a listener are those of the enclosures that are open

## Main statements

- `Listener.Tracks.nestedBy` — a listener that tracks by a rule accepts what is nested by the rule
- `SqlWriter.tracks_listener`, `TreeBuilder.tracks_listener` — the rules of the two listeners
- `Listener.nested_of_accepts` — what each of them accepts
-/

namespace ODataQuery

-- ════════════════════════════════════════════════════════════════════════
-- Frames
-- ════════════════════════════════════════════════════════════════════════

namespace Enclosure

/-- The frames of open enclosures, the innermost first, around them the frame that is never
closed. -/
inductive Stacked : (inside : List Enclosure) → (frames : List (Option Enclosure)) → Prop
  | bottom : Stacked [] [none]
  | frame (x : Enclosure) {inside : List Enclosure} {frames : List (Option Enclosure)}
      (h : Stacked inside frames) : Stacked (x :: inside) (some x :: frames)

namespace Stacked

variable {rule : EndingRule} {inside : List Enclosure} {frames : List (Option Enclosure)}
  {e : Event}

theorem eq_nil {frame : Option Enclosure} (h : Stacked inside [frame]) : inside = [] := by
  cases h with
  | bottom => rfl
  | frame _ h => cases h

/-- An event that opens an enclosure adds a frame. -/
theorem opened (h : Stacked inside frames) {x : Enclosure} (hopens : e.opens? = some x) :
    ∃ inside', e.behind? rule inside = some inside' ∧ Stacked inside' (some x :: frames) :=
  ⟨_, Event.behind?_of_opens hopens, .frame x h⟩

/-- An event that neither opens nor closes anything keeps the frames. -/
theorem kept (h : Stacked inside frames) (hopens : e.opens? = none) (hcloses : e.closes? = none) :
    ∃ inside', e.behind? rule inside = some inside' ∧ Stacked inside' frames :=
  ⟨_, Event.behind?_of_plain hopens hcloses, h⟩

/-- An event that closes the last frame, but not the one that is never closed. -/
theorem closed {frame : Option Enclosure} (h : Stacked inside (frame :: frames))
    (hne : frames ≠ []) {closing : Enclosure} (hcloses : e.closes? = some closing)
    (hrule : ∀ x ∈ frame, rule closing x = true) :
    ∃ inside', e.behind? rule inside = some inside' ∧ Stacked inside' frames := by
  cases h with
  | bottom => exact absurd rfl hne
  | frame x h =>
    refine ⟨_, ?_, h⟩
    rw [Event.behind?_of_closes hcloses, if_pos (hrule x rfl)]

end Stacked

end Enclosure

open Enclosure (Stacked)

namespace Listener

variable {State α : Type} {l : Listener State α}

/-- The listener takes all events one by one and finishes. -/
def Accepts (l : Listener State α) (es : List Event) : Prop :=
  ∃ s r, l.feed l.start es = .ok s ∧ l.finish s = .ok r

/-- The frames of the listener are those of what is open by the rule. At the end nothing is
open. -/
structure Tracks (l : Listener State α) (rule : EndingRule)
    (frames : State → List (Option Enclosure)) : Prop where
  start : Stacked [] (frames l.start)
  handle : ∀ {inside : List Enclosure} {s s' : State} {e : Event}, Stacked inside (frames s) →
    l.handle s e = .ok s' →
      ∃ inside', e.behind? rule inside = some inside' ∧ Stacked inside' (frames s')
  finish : ∀ {inside : List Enclosure} {s : State} {r : α}, Stacked inside (frames s) →
    l.finish s = .ok r → inside = []

namespace Tracks

variable {rule : EndingRule} {frames : State → List (Option Enclosure)}

/-- The frames stay those of what is open while events are taken. -/
theorem feed (h : l.Tracks rule frames) {inside : List Enclosure} {s s' : State} {es : List Event}
    (hs : Stacked inside (frames s)) (hfeed : l.feed s es = .ok s') :
    ∃ inside', Event.openBehind? rule inside es = some inside' ∧ Stacked inside' (frames s') := by
  induction es generalizing s inside with
  | nil =>
    cases hfeed
    exact ⟨inside, rfl, hs⟩
  | cons e es ih =>
    obtain ⟨s₁, hhandle, hfeed⟩ := Result.bind_eq_ok.mp hfeed
    obtain ⟨inside₁, hbehind, hs₁⟩ := h.handle hs hhandle
    obtain ⟨inside', hrest, hs'⟩ := ih hs₁ hfeed
    refine ⟨inside', ?_, hs'⟩
    rw [Event.openBehind?_cons, hbehind, Option.bind_some, hrest]

/-- What is accepted is nested by the rule. -/
theorem nestedBy (h : l.Tracks rule frames) {es : List Event} (haccepts : l.Accepts es) :
    Event.NestedBy rule es := by
  obtain ⟨s, r, hfeed, hfinish⟩ := haccepts
  obtain ⟨inside, hopen, hs⟩ := h.feed h.start hfeed
  rw [Event.NestedBy, hopen, h.finish hs hfinish]

end Tracks

end Listener

-- ════════════════════════════════════════════════════════════════════════
-- Writing SQL
-- ════════════════════════════════════════════════════════════════════════

/-- What a frame encloses, none if it is never closed. -/
def SqlScope.enclosure? : SqlScope → Option Enclosure
  | root => none
  | group => some .group
  | call _ _ => some .call
  | list => some .list
  | lambda _ _ _ => some .lambda

namespace SqlFrame

variable {f f' : SqlFrame} {ps : List SqlPiece}

theorem scope_closeDivisor (f : SqlFrame) : f.closeDivisor.scope = f.scope := by
  unfold closeDivisor
  split <;> rfl

theorem scope_of_operand (h : f.operand ps = .ok f') : f'.scope = f.scope := by
  unfold operand at h
  split at h
  · cases h
    exact scope_closeDivisor _
  · split at h
    · cases h
      exact scope_closeDivisor _
    · cases h

theorem scope_binary (f : SqlFrame) (dialect : Dialect) (op : BinaryOp) :
    (f.binary dialect op).scope = f.scope := by
  unfold binary
  dsimp only
  split
  · rfl
  · split <;> rfl

end SqlFrame

namespace SqlWriter

variable {w w' : SqlWriter} {f : SqlFrame} {ps : List SqlPiece} {dialect : Dialect}

/-- What the frames enclose, the innermost first. -/
def enclosures (w : SqlWriter) : List (Option Enclosure) :=
  (w.current :: w.outer).map fun f => f.scope.enclosure?

theorem enclosures_of_operand (h : w.operand ps = .ok w') : w'.enclosures = w.enclosures := by
  obtain ⟨f, hf, h⟩ := Result.bind_eq_ok.mp h
  cases h
  simp only [enclosures, List.map_cons, SqlFrame.scope_of_operand hf]

/-- Closing takes the last frame away if what it holds can be written as an operand. -/
theorem enclosures_of_close {run : SqlFrame → Except CompileError (List SqlPiece)}
    (h : w.close run = .ok w') : w.enclosures = w.current.scope.enclosure? :: w'.enclosures ∧
      w'.enclosures ≠ [] ∧ ∃ ps, run w.current = .ok ps := by
  obtain ⟨dialect, rootAlias, current, outer⟩ := w
  cases outer with
  | nil => cases h
  | cons frame outer =>
    obtain ⟨ps, hps, h⟩ := Result.bind_eq_ok.mp h
    refine ⟨?_, by simp [enclosures], ps, hps⟩
    rw [enclosures_of_operand h]
    rfl

theorem enclosure?_of_ofGroup (h : ofGroup f = .ok ps) : f.scope.enclosure? = some .group := by
  unfold ofGroup at h
  split at h
  · next hscope => rw [hscope]; rfl
  · cases h

theorem enclosure?_of_ofList (h : ofList f = .ok ps) : f.scope.enclosure? = some .list := by
  unfold ofList at h
  split at h
  · next hscope => rw [hscope]; rfl
  · cases h

theorem enclosure?_of_ofCall (h : ofCall dialect f = .ok ps) :
    f.scope.enclosure? = some .call := by
  unfold ofCall at h
  split at h
  · next hscope => rw [hscope]; rfl
  · cases h

theorem enclosure?_of_ofLambda (h : ofLambda f = .ok ps) :
    f.scope.enclosure? = some .lambda := by
  unfold ofLambda at h
  split at h
  iterate 4
    next hscope => rw [hscope]; rfl
  cases h

theorem enclosures_of_separator (h : w.separator = .ok w') : w'.enclosures = w.enclosures := by
  unfold separator at h
  split at h
  · cases h
    rfl
  · cases h
    rfl
  · cases h

/-- A frame that is closed by its own kind of event. -/
theorem stacked_of_close {inside : List Enclosure} {e : Event} {x : Enclosure}
    {run : SqlFrame → Except CompileError (List SqlPiece)} (hs : Stacked inside w.enclosures)
    (h : w.close run = .ok w') (hcloses : e.closes? = some x)
    (hrun : ∀ ps, run w.current = .ok ps → w.current.scope.enclosure? = some x) :
    ∃ inside', e.behind? .strict inside = some inside' ∧ Stacked inside' w'.enclosures := by
  obtain ⟨henclosures, hne, ps, hps⟩ := enclosures_of_close h
  rw [henclosures, hrun ps hps] at hs
  refine hs.closed hne hcloses fun y hy => ?_
  cases hy
  exact EndingRule.strict_self x

/-- The writer closes frames by their own kind of event only. -/
theorem tracks_listener (dialect : Dialect) (rootAlias : String) :
    (listener dialect rootAlias).Tracks .strict enclosures where
  start := .bottom
  handle {inside w w' e} hs h := by
    cases e with
    | groupOpen | functionOpen | listOpen | lambdaOpen =>
      cases h
      exact hs.opened rfl
    | groupClose => exact stacked_of_close hs h rfl fun _ => enclosure?_of_ofGroup
    | functionClose => exact stacked_of_close hs h rfl fun _ => enclosure?_of_ofCall
    | listClose => exact stacked_of_close hs h rfl fun _ => enclosure?_of_ofList
    | lambdaClose => exact stacked_of_close hs h rfl fun _ => enclosure?_of_ofLambda
    | operator op =>
      have henclosures : w'.enclosures = w.enclosures := by
        cases op with
        | binary op =>
          cases h
          simp only [enclosures, List.map_cons, SqlFrame.scope_binary]
        | unary op => cases op <;> cases h <;> rfl
        | membership =>
          cases h
          rfl
      rw [henclosures]
      exact hs.kept rfl rfl
    | literal v =>
      have henclosures : w'.enclosures = w.enclosures := by
        replace h : (if w.current.scope = .list then .ok (w.write [literal v])
          else w.operand [literal v]) = Except.ok w' := h
        split at h
        · cases h
          rfl
        · exact enclosures_of_operand h
      rw [henclosures]
      exact hs.kept rfl rfl
    | field f =>
      rw [enclosures_of_operand h]
      exact hs.kept rfl rfl
    | separator =>
      rw [enclosures_of_separator h]
      exact hs.kept rfl rfl
  finish {inside w ps} hs h := by
    replace h : w.pieces = .ok ps := h
    unfold pieces at h
    split at h
    · cases h
    · next houter =>
      have hnil : w.outer = [] := by simpa using houter
      rw [enclosures, hnil] at hs
      exact hs.eq_nil

end SqlWriter

-- ════════════════════════════════════════════════════════════════════════
-- Assembling trees
-- ════════════════════════════════════════════════════════════════════════

/-- What a frame encloses, none if it is never closed. -/
def AssemblyScope.enclosure? : AssemblyScope → Option Enclosure
  | root => none
  | group => some .group
  | call _ => some .call
  | list _ => some .list
  | lambda _ => some .lambda

variable {State Node : Type}

/-- What the frames enclose, the innermost first. -/
def Assembly.enclosures (a : Assembly State Node) : List (Option Enclosure) :=
  (a.current :: a.outer).map fun f => f.scope.enclosure?

namespace TreeBuilder

variable {b : TreeBuilder State Node} {a a' : Assembly State Node} {s s' : State}
  {f f' inner outer : AssemblyFrame Node}

/-- A step in the current frame keeps the frames if it keeps what that frame encloses. -/
theorem enclosures_of_withFrame {run : AssemblyFrame Node → Building State (AssemblyFrame Node)}
    (h : withFrame run a = .ok a')
    (hrun : ∀ {f s f' s'}, run f s = .ok (f', s') → f'.scope.enclosure? = f.scope.enclosure?) :
    a'.enclosures = a.enclosures := by
  obtain ⟨⟨f, s⟩, hf, h⟩ := Result.bind_eq_ok.mp h
  cases h
  simp only [Assembly.enclosures, List.map_cons, hrun hf]

/-- Closing takes the last frame away, but not the one that is never closed. -/
theorem enclosures_of_closeFrame
    {run : (inner outer : AssemblyFrame Node) → Building State (AssemblyFrame Node)}
    (h : closeFrame run a = .ok a')
    (hrun : ∀ {outer s f s'}, run a.current outer s = .ok (f, s') →
      f.scope.enclosure? = outer.scope.enclosure?) :
    a.enclosures = a.current.scope.enclosure? :: a'.enclosures ∧ a'.enclosures ≠ [] ∧
      ∃ outer s r, run a.current outer s = .ok r := by
  obtain ⟨s, current, frames⟩ := a
  cases frames with
  | nil => cases h
  | cons frame frames =>
    obtain ⟨⟨f, s'⟩, hf, h⟩ := Result.bind_eq_ok.mp h
    cases h
    refine ⟨?_, by simp [Assembly.enclosures], frame, s, (f, s'), hf⟩
    simp only [Assembly.enclosures, List.map_cons, hrun hf]

theorem enclosure?_of_takeOperator {op : Operator} (h : b.takeOperator op f s = .ok (f', s')) :
    f'.scope.enclosure? = f.scope.enclosure? := by
  cases op with
  | unary op =>
    cases h
    rfl
  | binary op | membership =>
    obtain ⟨_, _, _, h⟩ := Result.run_bind_eq_ok.mp h
    cases h
    rfl

theorem enclosure?_of_takeLiteral {v : Value} (h : b.takeLiteral v f s = .ok (f', s')) :
    f'.scope.enclosure? = f.scope.enclosure? := by
  obtain ⟨scope, operands, operators, arguments⟩ := f
  cases scope with
  | list items =>
    cases h
    rfl
  | root | group | call _ | lambda _ =>
    obtain ⟨_, _, _, h⟩ := Result.run_bind_eq_ok.mp h
    cases h
    rfl

theorem enclosure?_of_pushField {field : Field}
    (h : (do return f.push (← b.field field) : Building State _) s = .ok (f', s')) :
    f'.scope.enclosure? = f.scope.enclosure? := by
  obtain ⟨_, _, _, h⟩ := Result.run_bind_eq_ok.mp h
  cases h
  rfl

theorem enclosure?_of_takeSeparator (h : b.takeSeparator f s = .ok (f', s')) :
    f'.scope.enclosure? = f.scope.enclosure? := by
  obtain ⟨scope, operands, operators, arguments⟩ := f
  cases scope with
  | list items =>
    cases h
    rfl
  | call function =>
    obtain ⟨_, _, _, h⟩ := Result.run_bind_eq_ok.mp h
    cases h
    rfl
  | root | group | lambda _ =>
    obtain ⟨_, _, _, h⟩ := Result.run_bind_eq_ok.mp h
    cases h

/-- Only a call is closed as one. -/
theorem enclosure?_of_closeCall {last : Option Node}
    (h : b.closeCall last inner outer s = .ok (f, s')) :
    inner.scope.enclosure? = some .call ∧ f.scope.enclosure? = outer.scope.enclosure? := by
  obtain ⟨scope, operands, operators, arguments⟩ := inner
  cases scope with
  | call function =>
    obtain ⟨_, _, _, h⟩ := Result.run_bind_eq_ok.mp h
    cases h
    exact ⟨rfl, rfl⟩
  | _ => cases h

/-- Only a list is closed as one. -/
theorem enclosure?_of_closeList (h : b.closeList inner outer s = .ok (f, s')) :
    inner.scope.enclosure? = some .list ∧ f.scope.enclosure? = outer.scope.enclosure? := by
  obtain ⟨scope, operands, operators, arguments⟩ := inner
  cases scope with
  | list items =>
    obtain ⟨scope', operands', operators', arguments'⟩ := outer
    match operators', operands' with
    | .membership :: _, _ :: _ =>
      obtain ⟨_, _, _, h⟩ := Result.run_bind_eq_ok.mp h
      cases h
      exact ⟨rfl, rfl⟩
    | .membership :: _, [] | .unary _ :: _, _ | .binary _ :: _, _ | [], _ => cases h
  | _ => cases h

/-- Only a lambda is closed as one. -/
theorem enclosure?_of_closeLambda {body : Option Node}
    (h : b.closeLambda body inner outer s = .ok (f, s')) :
    inner.scope.enclosure? = some .lambda ∧ f.scope.enclosure? = outer.scope.enclosure? := by
  obtain ⟨scope, operands, operators, arguments⟩ := inner
  cases scope with
  | lambda binder =>
    obtain ⟨_, _, _, h⟩ := Result.run_bind_eq_ok.mp h
    cases h
    exact ⟨rfl, rfl⟩
  | _ => cases h

/-- A frame that is closed by an event which the rule lets end what it encloses. -/
theorem stacked_of_closeFrame {rule : EndingRule} {inside : List Enclosure} {e : Event}
    {closing : Enclosure}
    {run : (inner outer : AssemblyFrame Node) → Building State (AssemblyFrame Node)}
    (hs : Stacked inside a.enclosures) (h : closeFrame run a = .ok a')
    (hcloses : e.closes? = some closing)
    (hrun : ∀ {outer s f s'}, run a.current outer s = .ok (f, s') →
      (∀ x ∈ a.current.scope.enclosure?, rule closing x = true) ∧
        f.scope.enclosure? = outer.scope.enclosure?) :
    ∃ inside', e.behind? rule inside = some inside' ∧ Stacked inside' a'.enclosures := by
  obtain ⟨henclosures, hne, _, _, _, hclose⟩ :=
    enclosures_of_closeFrame h fun hclose => (hrun hclose).2
  rw [henclosures] at hs
  exact hs.closed hne hcloses (hrun hclose).1

theorem loose_of_eq {scope : AssemblyScope} {x : Enclosure} (h : scope.enclosure? = some x) :
    ∀ y ∈ scope.enclosure?, EndingRule.loose x y = true := by
  intro y hy
  cases h.symm.trans hy
  exact EndingRule.loose_of_strict (EndingRule.strict_self x)

/-- The assembly closes a frame of any kind at the end of a group, and otherwise frames by their own
kind of event only. -/
theorem tracks_listener (b : TreeBuilder State Node) (start : State) :
    (b.listener start).Tracks .loose Assembly.enclosures where
  start := .bottom
  handle {inside a a' e} hs h := by
    cases e with
    | groupOpen | functionOpen | listOpen =>
      cases h
      exact hs.opened rfl
    | lambdaOpen binder hasBody =>
      obtain ⟨_, _, h⟩ := Result.bind_eq_ok.mp h
      cases h
      exact hs.opened rfl
    | groupClose =>
      obtain ⟨⟨node, s⟩, _, h⟩ := Result.bind_eq_ok.mp h
      refine stacked_of_closeFrame (a := { a with state := s }) hs h rfl fun hclose => ?_
      cases hclose
      exact ⟨fun _ _ => rfl, rfl⟩
    | functionClose =>
      obtain ⟨⟨node, s⟩, _, h⟩ := Result.bind_eq_ok.mp h
      refine stacked_of_closeFrame (a := { a with state := s }) hs h rfl fun hclose => ?_
      obtain ⟨hinner, houter⟩ := enclosure?_of_closeCall hclose
      exact ⟨loose_of_eq hinner, houter⟩
    | listClose =>
      refine stacked_of_closeFrame hs h rfl fun hclose => ?_
      obtain ⟨hinner, houter⟩ := enclosure?_of_closeList hclose
      exact ⟨loose_of_eq hinner, houter⟩
    | lambdaClose =>
      obtain ⟨⟨node, s⟩, _, h⟩ := Result.bind_eq_ok.mp h
      refine stacked_of_closeFrame (a := { a with state := s }) hs h rfl fun hclose => ?_
      obtain ⟨hinner, houter⟩ := enclosure?_of_closeLambda hclose
      exact ⟨loose_of_eq hinner, houter⟩
    | operator op =>
      rw [enclosures_of_withFrame h enclosure?_of_takeOperator]
      exact hs.kept rfl rfl
    | literal v =>
      rw [enclosures_of_withFrame h enclosure?_of_takeLiteral]
      exact hs.kept rfl rfl
    | field f =>
      replace h : withFrame (fun frame => do return frame.push (← b.field f)) a = .ok a' := h
      rw [enclosures_of_withFrame h enclosure?_of_pushField]
      exact hs.kept rfl rfl
    | separator =>
      rw [enclosures_of_withFrame h enclosure?_of_takeSeparator]
      exact hs.kept rfl rfl
  finish {inside a r} hs h := by
    obtain ⟨s, current, frames⟩ := a
    cases frames with
    | nil => exact hs.eq_nil
    | cons frame frames => cases h

end TreeBuilder

-- ════════════════════════════════════════════════════════════════════════
-- Both listeners
-- ════════════════════════════════════════════════════════════════════════

/-- The writer of SQL accepts nested events only. A listener that assembles trees accepts only
events that are nested if the end of a group may end anything; so they are nested exactly if no end
of a group is left over. -/
theorem Listener.nested_of_accepts (dialect : Dialect) (rootAlias : String) {State Node : Type}
    (b : TreeBuilder State Node) (start : State) (es : List Event) :
    ((SqlWriter.listener dialect rootAlias).Accepts es → Event.Nested es) ∧
      ((b.listener start).Accepts es →
        Event.NestedBy .loose es ∧
          (Event.Nested es ↔ es.countP Event.opensGroup = es.countP Event.closesGroup)) := by
  refine ⟨(SqlWriter.tracks_listener dialect rootAlias).nestedBy, fun h => ?_⟩
  have hloose := (b.tracks_listener start).nestedBy h
  exact ⟨hloose, Event.nested_iff_of_loose hloose⟩

/-- Both listeners accept events with every kind of enclosure, and an assembly a stream with an end
of a group too many. -/
theorem Listener.nested_of_accepts_lines :
    let lines : Binder :=
      ⟨⟨"lines", "lines", none, ⟨"Line", "lines", []⟩, ⟨"id", "order_id"⟩⟩, .any, "l"⟩
    let nested : List Event :=
      [.groupOpen, .literal (.int32 1), .operator .membership, .listOpen, .literal (.int32 2),
        .listClose, .groupClose, .operator (.binary .or), .lambdaOpen lines true,
        .functionOpen .now 0, .functionClose, .lambdaClose]
    let loose : List Event := [.functionOpen .now 0, .literal (.int32 1), .groupClose]
    Event.Nested nested ∧ Event.NestedBy .loose nested ∧ Event.NestedBy .loose loose := by
  intro lines nested loose
  obtain ⟨hwriter, hassembly⟩ := Listener.nested_of_accepts .sqlite "orders" rebuilder () nested
  obtain ⟨_, hloose⟩ := Listener.nested_of_accepts .sqlite "orders" rebuilder () loose
  exact ⟨hwriter ⟨_, _, rfl, rfl⟩, (hassembly ⟨_, _, rfl, rfl⟩).1, (hloose ⟨_, _, rfl, rfl⟩).1⟩

/-- A call, a list and a lambda that the end of a group takes away. All three streams are accepted,
also by the builder of document queries. -/
theorem TreeBuilder.accepts_not_nested :
    let lines : Binder :=
      ⟨⟨"lines", "lines", none, ⟨"Line", "lines", []⟩, ⟨"id", "order_id"⟩⟩, .any, "l"⟩
    let paid : Field := ⟨"paid", "paid", some "l", .boolean⟩
    let age : Field := ⟨"age", "age", none, .boolean⟩
    ∀ es ∈ [[Event.functionOpen .now 0, .literal (.int32 1), .groupClose],
        [.listOpen, .field age, .groupClose],
        [.lambdaOpen lines true, .field paid, .groupClose]],
      (rebuilder.listener ()).Accepts es ∧
        ((DocumentNode.builder .earliest).listener []).Accepts es ∧ ¬Event.Nested es := by
  intro lines paid age es hes
  simp only [List.mem_cons, List.not_mem_nil, or_false] at hes
  obtain rfl | rfl | rfl := hes
  all_goals exact ⟨⟨_, _, rfl, rfl⟩, ⟨_, _, rfl, rfl⟩, by decide⟩

end ODataQuery
