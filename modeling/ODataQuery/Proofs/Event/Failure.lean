import ODataQuery.Proofs.Event.Streaming

/-!
# Why a walk fails

A walk fails by its bound, or as the listener fails on all events. A bound never makes up an error
of the listener, since the events in front of a cut are the first ones of the whole sequence.

## Main definitions

- `Expr.CutShort` — the error of a walk that is cut by its bound

## Main statements

- `Expr.listen_eq_error` — the errors of any listener
- `Expr.build_eq_error_of_listen` — the errors of a listener that assembles trees
-/

namespace ODataQuery

theorem Step.upTo_isPrefix (limit : Nat) (steps : List Step) :
    (upTo limit steps).1 <+: steps.filterMap event? := by
  induction steps with
  | nil => exact List.prefix_rfl
  | cons step steps ih =>
    cases step with
    | level n =>
      rw [upTo]
      split
      · exact List.nil_prefix
      · exact ih
    | event e => exact List.prefix_cons_inj e |>.mpr ih

theorem Step.eq_depthExceeded_of_upTo {limit : Nat} {steps : List Step} {err : CompileError}
    (h : (upTo limit steps).2 = some err) : err = .depthExceeded limit := by
  induction steps with
  | nil => cases h
  | cons step steps ih =>
    cases step with
    | level n =>
      rw [upTo] at h
      split at h
      · exact (Option.some.inj h).symm
      · exact ih h
    | event e => exact ih h

namespace Listener

variable {State α : Type} (l : Listener State α)

theorem feed_append (s : State) (es es' : List Event) :
    l.feed s (es ++ es') = l.feed s es >>= (l.feed · es') := by
  induction es generalizing s with
  | nil => rfl
  | cons e es ih =>
    rw [List.cons_append, feed, feed, bind_assoc]
    exact congrArg _ (funext ih)

/-- An error on the first events is one on all of them. -/
theorem feed_eq_error_of_isPrefix {l : Listener State α} {s : State} {es es' : List Event}
    {err : CompileError} (h : l.feed s es = .error err) (hfirst : es <+: es') :
    l.feed s es' = .error err := by
  obtain ⟨rest, rfl⟩ := hfirst
  rw [feed_append, h, Result.error_bind]

end Listener

namespace Expr

/-- The error is that of a walk whose bound is below the deepest level of the expression. -/
def CutShort (limit : Nat) (err : CompileError) (e : Expr) : Prop :=
  err = .depthExceeded limit ∧ limit < e.deepest 1

variable {e : Expr} {limit : Nat} {err : CompileError}

/-- A walk fails by its bound, or as the listener fails on all events. -/
theorem listen_eq_error {State α : Type} {l : Listener State α}
    (h : e.listen l limit = .error err) :
    e.CutShort limit err ∨ (l.feed l.start e.events >>= l.finish) = .error err := by
  have hfirst : (e.walk limit).1 <+: e.events := Step.upTo_isPrefix limit (e.steps 1)
  rw [listen_eq] at h
  cases hcut : (e.walk limit).2 with
  | some err' =>
    cases hfeed : l.feed l.start (e.walk limit).1 with
    | error err'' =>
      rw [hfeed] at h
      cases h
      rw [Listener.feed_eq_error_of_isPrefix hfeed hfirst]
      exact .inr rfl
    | ok s =>
      rw [hfeed, hcut] at h
      cases h
      refine .inl ⟨Step.eq_depthExceeded_of_upTo hcut, Nat.lt_of_not_le fun hle => ?_⟩
      rw [walk_of_deepest_le hle] at hcut
      cases hcut
  | none =>
    rw [walk_of_complete hcut] at h
    exact .inr h

/-- A listener that assembles trees fails by the bound, or as the recursion does. -/
theorem build_eq_error_of_listen {State Node : Type} {b : TreeBuilder State Node} {start : State}
    (h : e.listen (b.listener start) limit = .error err) :
    e.CutShort limit err ∨ b.build e start = .error err := by
  obtain h | h := listen_eq_error h
  · exact .inl h
  · have hbuild := e.listen_eq_build b start (Nat.le_refl _)
    rw [listen_eq, walk_of_deepest_le (Nat.le_refl _)] at hbuild
    replace hbuild := hbuild.symm.trans h
    cases hresult : b.build e start with
    | error err' =>
      rw [hresult] at hbuild
      cases hbuild
      exact .inr rfl
    | ok r =>
      rw [hresult] at hbuild
      cases hbuild

end Expr

end ODataQuery
