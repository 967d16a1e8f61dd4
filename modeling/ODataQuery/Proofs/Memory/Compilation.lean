import ODataQuery.Memory.Predicate
import ODataQuery.Proofs.Document.Simulation
import ODataQuery.Proofs.Event.Failure
import ODataQuery.Proofs.Expr.Typing

/-!
# Compiling typed expressions for memory

Every typed expression has a meaning over records: its variables are those of the lambdas around
them. Only the bound on the walk can refuse it.

## Main statements

- `Expr.Typed.exists_meaning` — the meaning of an expression in the scope of its variables
- `Expr.Typed.cutShort_of_meaning` — the only error of compilation
-/

namespace ODataQuery

namespace Frame

/-- A variable that leads to an entity type has a position among the names in scope. -/
theorem exists_findIdx?_names {scope : List Frame} {name : String} {frame : Frame}
    (h : find? scope name = some frame) :
    ∃ n, (names scope).findIdx? (· == name) = some n := by
  obtain ⟨hmem, hname⟩ := mem_of_find? h
  rw [← Option.isSome_iff_exists, List.findIdx?_isSome, List.any_eq_true]
  exact ⟨frame.name, List.mem_map_of_mem hmem, beq_iff_eq.mpr hname⟩

end Frame

namespace Meaning

/-- A reference that starts at an entity type is resolved. -/
theorem exists_hops {root entity : EntityType} {scope : List Frame} {origin : Option String}
    (h : Expr.startsAt? root scope origin = some entity) :
    ∃ n, hops origin (Frame.names scope) = .ok (n, Frame.names scope) := by
  cases origin with
  | none => exact ⟨_, rfl⟩
  | some name =>
    obtain ⟨frame, hframe, _⟩ := Option.map_eq_some_iff.mp h
    obtain ⟨n, hn⟩ := Frame.exists_findIdx?_names hframe
    refine ⟨n, ?_⟩
    simp only [hops, hn]

/-- Expressions that have meanings have them together. -/
theorem exists_buildAll {names : Scope} {es : List Expr}
    (h : ∀ e ∈ es, ∃ m, builder.build e names = .ok (m, names)) :
    ∃ ms, builder.buildAll es names = .ok (ms, names) := by
  induction es with
  | nil => exact ⟨[], rfl⟩
  | cons e es ih =>
    obtain ⟨⟨m, hm⟩, hes⟩ := List.forall_mem_cons.mp h
    obtain ⟨ms, hms⟩ := ih hes
    refine ⟨m :: ms, Result.run_bind_eq_ok.mpr ⟨m, _, hm, ?_⟩⟩
    exact Result.run_bind_eq_ok.mpr ⟨ms, _, hms, rfl⟩

end Meaning

namespace Expr

variable {root : EntityType} {scope : List Frame} {e : Expr}

/-- A typed expression has a meaning in the scope of its variables. -/
theorem Typed.exists_meaning (h : Typed root scope e) :
    ∃ m, Meaning.builder.build e (Frame.names scope) = .ok (m, Frame.names scope) := by
  induction h with
  | literal => exact ⟨_, rfl⟩
  | field hentity _ _ =>
    obtain ⟨n, hn⟩ := Meaning.exists_hops hentity
    exact ⟨_, Result.run_bind_eq_ok.mpr ⟨n, _, hn, rfl⟩⟩
  | @binary _ op _ _ _ _ _ ihl ihr =>
    obtain ⟨l, hl⟩ := ihl
    obtain ⟨r, hr⟩ := ihr
    refine ⟨fun s => (l s).applyBinary op (r s), Result.run_bind_eq_ok.mpr ⟨l, _, hl, ?_⟩⟩
    exact Result.run_bind_eq_ok.mpr ⟨r, _, hr, rfl⟩
  | unary _ _ ih =>
    obtain ⟨m, hm⟩ := ih
    exact ⟨_, Result.run_bind_eq_ok.mpr ⟨m, _, hm, rfl⟩⟩
  | membership _ _ ih =>
    obtain ⟨m, hm⟩ := ih
    exact ⟨_, Result.run_bind_eq_ok.mpr ⟨m, _, hm, rfl⟩⟩
  | call _ _ ih =>
    obtain ⟨ms, hms⟩ := Meaning.exists_buildAll ih
    exact ⟨_, Result.run_bind_eq_ok.mpr ⟨ms, _, hms, rfl⟩⟩
  | @lambda _ _ _ p _ _ quantifier _ _ hentity _ _ _ _ _ ih =>
    obtain ⟨n, hn⟩ := Meaning.exists_hops hentity
    obtain ⟨m, hm⟩ := ih
    -- The body is built below the variable, the navigation without it.
    refine ⟨Meaning.ofLambda quantifier n p.source (some m),
      Result.run_bind_eq_ok.mpr ⟨(), _, rfl, ?_⟩⟩
    refine Result.run_bind_eq_ok.mpr ⟨m, _, hm, ?_⟩
    refine Result.run_bind_eq_ok.mpr ⟨(), _, rfl, ?_⟩
    exact Result.run_bind_eq_ok.mpr ⟨n, _, hn, rfl⟩
  | @bare _ _ _ p _ _ quantifier hentity _ _ =>
    obtain ⟨n, hn⟩ := Meaning.exists_hops hentity
    refine ⟨Meaning.ofLambda quantifier n p.source none,
      Result.run_bind_eq_ok.mpr ⟨(), _, rfl, ?_⟩⟩
    refine Result.run_bind_eq_ok.mpr ⟨(), _, rfl, ?_⟩
    exact Result.run_bind_eq_ok.mpr ⟨n, _, hn, rfl⟩

/-- Only the bound on the walk can refuse a typed expression. -/
theorem Typed.cutShort_of_meaning (h : Typed root [] e) {err : CompileError}
    (herr : Meaning.ofExpr e = .error err) : e.CutShort defaultMaxDepth err := by
  obtain herr | herr := build_eq_error_of_listen herr
  · exact herr
  · obtain ⟨m, hm⟩ := h.exists_meaning
    rw [Frame.names, List.map_nil] at hm
    rw [hm] at herr
    cases herr

end Expr

end ODataQuery
