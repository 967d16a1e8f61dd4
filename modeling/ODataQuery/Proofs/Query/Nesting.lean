import ODataQuery.Proofs.Query.Compilation
import ODataQuery.Proofs.Reading.Nesting
import ODataQuery.Proofs.Search.Nesting

/-!
# Texts that nest deep

The bound on nesting is the same for readers and for walks, but they do not count alike. How much larger
the bound on the walk has to be for accepted texts, and when it need not be.

## Main definitions

- `Expr.Suffices` — a bound on the walk that is enough for what is read within a bound on nesting

## Main statements

- `Backend.lacks_of_accepted` — with such a bound, backends refuse only what they cannot express
- `Backend.walk_of_deep_products` — the same bound on the walk is not enough
-/

namespace ODataQuery

namespace Expr

/-- The bound on the walk is one and a half times that on nesting, or no prefix operation stands in front
of an operator and it is the same. -/
def Suffices (maxDepth limit : Nat) (e : Expr) : Prop :=
  3 * maxDepth / 2 ≤ limit ∨ e.leadsWithPrefix = false ∧ maxDepth ≤ limit

variable {e : Expr} {maxDepth limit : Nat}

theorem Fits.deepest_le (h : e.Fits maxDepth 0) (hlimit : e.Suffices maxDepth limit) :
    e.deepest 1 ≤ limit := by
  have hwalk := h.walk
  rw [deepest_eq]
  obtain hlimit | ⟨hplain, hlimit⟩ := hlimit
  · omega
  · have := h.plain hplain
    omega

end Expr

namespace Backend

variable {backend : Backend} {now : Instant} {root entity : EntityType} {limit : Nat}

/-- A predicate whose levels the default bound allows is refused only for a construct. -/
theorem lacks_of_deepest_le {e : Expr} (h : e.Typed root []) (htype : e.type.isBoolean = true)
    (hdeepest : e.deepest 1 ≤ limit) (hlimit : limit ≤ defaultMaxDepth) {err : CompileError}
    (herr : CompiledFilter.ofExpr now e entity backend = .error err) : backend.Lacks err := by
  obtain ⟨_, hcut⟩ | hlacks := cutShort_or_lacks h htype herr
  · omega
  · exact hlacks

/-- The walk over an accepted filter, search or compute item reaches its end if the bound is one and a
half times that on nesting, where it need not be larger than the latter without prefix operations in
front of operators, and for a search twice that bound and three more. So within the default bound a
backend refuses only a construct that it has no way to express. -/
theorem lacks_of_accepted (backend : Backend) (now : Instant) (entity : EntityType)
    (allowed : AllowList) (maxDepth limit : Nat) (text : String) :
    (∀ e, Expr.readFilter text entity allowed maxDepth = .ok e → e.Suffices maxDepth limit →
      e.walk limit = (e.events, none) ∧
      (limit ≤ defaultMaxDepth → ∀ err, CompiledFilter.ofExpr now e entity backend = .error err →
        backend.Lacks err)) ∧
    (∀ search, Search.ofText text maxDepth = .ok search → 2 * maxDepth + 3 ≤ limit →
      let e := search.predicate (Search.fields entity allowed)
      e.walk limit = (e.events, none) ∧
      (limit ≤ defaultMaxDepth → ∀ err, CompiledFilter.ofExpr now e entity backend = .error err →
        backend.Lacks err)) ∧
    (∀ items, ComputeItem.readAll text entity allowed maxDepth = .ok items →
      (∀ item ∈ items, item.expr.Suffices maxDepth limit) →
      (∀ item ∈ items, item.expr.walk limit = (item.expr.events, none)) ∧
      (limit ≤ defaultMaxDepth → ∀ err, CompiledCompute.ofItems now items entity backend = .error err →
        backend.Lacks err)) := by
  refine ⟨fun e he hlimit => ?_, fun search hsearch hlimit => ?_, fun items hitems hlimit => ?_⟩
  · obtain ⟨c, c', hends, hreads⟩ := Expr.exists_reads he
    have hdeepest := (hreads.fits hends).deepest_le hlimit
    obtain ⟨htyped, htype⟩ := Expr.typed_of_readFilter he
    have hboolean : e.type.isBoolean = true := by rw [htype]; rfl
    exact ⟨Expr.walk_of_deepest_le hdeepest, fun hdefault err herr =>
      lacks_of_deepest_le htyped hboolean hdeepest hdefault herr⟩
  · have hdeepest := Search.deepest_predicate_le hsearch (Search.fields entity allowed)
    have hadmitted : Search.Admitted entity allowed _ := Search.admitted_predicate search
    obtain ⟨htyped, htype, _⟩ := hadmitted
    exact ⟨Expr.walk_of_deepest_le (Nat.le_trans hdeepest hlimit), fun hdefault err herr =>
      lacks_of_deepest_le htyped (by rw [htype]; rfl) (Nat.le_trans hdeepest hlimit) hdefault herr⟩
  · have hdeepest : ∀ item ∈ items, item.expr.deepest 1 ≤ limit := by
      intro item hitem
      obtain ⟨c, c', hends, hreads⟩ := ComputeItem.exists_reads hitems item hitem
      exact (hreads.fits hends).deepest_le (hlimit item hitem)
    have htyped : ∀ item ∈ items, item.expr.Typed entity [] := fun item hitem =>
      (Expr.Accepted.item hitems hitem).typed
    refine ⟨fun item hitem => Expr.walk_of_deepest_le (hdeepest item hitem), ?_⟩
    intro hdefault err herr
    obtain ⟨item, hitem, _, hcut⟩ | hlacks := cutShort_or_lacks_items htyped herr
    · have := hdeepest item hitem
      omega
    · exact hlacks

/-- An operator behind a prefix operation, within a bound on nesting that leaves room for it; a negated
term; and a column without such an operator, within the default bound. -/
theorem lacks_of_accepted_products :
    let product : EntityType := ⟨"Product", "products",
      [⟨"name", "name", .primitive .string, false⟩, ⟨"age", "age", .primitive .int32, false⟩]⟩
    let allowed : AllowList := .all product
    (∃ e, Expr.readFilter "-age add 1 gt 0" product allowed 33 = .ok e ∧
      e.leadsWithPrefix = true ∧ e.Suffices 33 defaultMaxDepth ∧
      e.walk defaultMaxDepth = (e.events, none) ∧
      ∀ err, CompiledFilter.ofExpr .earliest e product .memory = .error err → memory.Lacks err) ∧
    (∃ search, Search.ofText "NOT desk" 23 = .ok search ∧ 2 * 23 + 3 ≤ defaultMaxDepth ∧
      (search.predicate (Search.fields product allowed)).walk defaultMaxDepth =
        ((search.predicate (Search.fields product allowed)).events, none)) ∧
    ∃ items, ComputeItem.readAll "age add -age as none" product allowed defaultMaxDepth = .ok items ∧
      (∀ item ∈ items, item.expr.Suffices defaultMaxDepth defaultMaxDepth) ∧
      ∀ err, CompiledCompute.ofItems .earliest items product .memory = .error err →
        memory.Lacks err := by
  intro product allowed
  have hfilter : Result.passes (fun e => e.leadsWithPrefix)
      (Expr.readFilter "-age add 1 gt 0" product allowed 33) = true := by
    decide +kernel
  have hsearch : Result.passes (fun _ => true) (Search.ofText "NOT desk" 23) = true := by
    decide +kernel
  have hcompute : Result.passes
      (fun items => decide (∀ item ∈ items, item.expr.leadsWithPrefix = false))
      (ComputeItem.readAll "age add -age as none" product allowed defaultMaxDepth) = true := by
    decide +kernel
  obtain ⟨e, he, hprefixed⟩ := Result.exists_of_passes hfilter
  obtain ⟨search, hread, _⟩ := Result.exists_of_passes hsearch
  obtain ⟨items, hitems, hplain⟩ := Result.exists_of_passes hcompute
  have hsuffices : e.Suffices 33 defaultMaxDepth := .inl (by decide)
  have hroom : 2 * 23 + 3 ≤ defaultMaxDepth := by decide
  have hall : ∀ item ∈ items, item.expr.Suffices defaultMaxDepth defaultMaxDepth :=
    fun item hitem => .inr ⟨of_decide_eq_true hplain item hitem, Nat.le_refl _⟩
  have hpredicate := (lacks_of_accepted memory .earliest product allowed 33 defaultMaxDepth _).1 e he
    hsuffices
  have hterm := (lacks_of_accepted memory .earliest product allowed 23 defaultMaxDepth _).2.1 search
    hread hroom
  have hcolumns := (lacks_of_accepted memory .earliest product allowed defaultMaxDepth defaultMaxDepth
    _).2.2 items hitems hall
  exact ⟨⟨e, he, hprefixed, hsuffices, hpredicate.1, hpredicate.2 (Nat.le_refl _)⟩,
    ⟨search, hread, hroom, hterm.1⟩, items, hitems, hall, hcolumns.2 (Nat.le_refl _)⟩

/-- Within the same bound the walk does not reach the end of a search of negations, nor that of a
comparison behind a change of signs. -/
theorem walk_of_deep_products :
    let product : EntityType := ⟨"Product", "products",
      [⟨"name", "name", .primitive .string, false⟩, ⟨"age", "age", .primitive .int32, false⟩]⟩
    let allowed : AllowList := .all product
    let negations : String := String.join (List.replicate 49 "NOT ") ++ "desk"
    let signs : String := String.join (List.replicate 49 "-") ++ "age eq 1"
    (∃ search, Search.ofText negations defaultMaxDepth = .ok search ∧
      ((search.predicate (Search.fields product allowed)).walk defaultMaxDepth).2 =
        some (.depthExceeded defaultMaxDepth)) ∧
    ∃ e, Expr.readFilter signs product allowed defaultMaxDepth = .ok e ∧
      (e.walk defaultMaxDepth).2 = some (.depthExceeded defaultMaxDepth) := by
  intro product allowed negations signs
  have hsearch : Result.passes (fun search => decide (((search.predicate
      (Search.fields product allowed)).walk defaultMaxDepth).2 =
        some (.depthExceeded defaultMaxDepth))) (Search.ofText negations defaultMaxDepth) = true := by
    decide +kernel
  have hfilter : Result.passes (fun e => decide ((e.walk defaultMaxDepth).2 =
      some (.depthExceeded defaultMaxDepth)))
      (Expr.readFilter signs product allowed defaultMaxDepth) = true := by
    decide +kernel
  obtain ⟨search, hread, hcut⟩ := Result.exists_of_passes hsearch
  obtain ⟨e, he, hcut'⟩ := Result.exists_of_passes hfilter
  exact ⟨⟨search, hread, of_decide_eq_true hcut⟩, e, he, of_decide_eq_true hcut'⟩

end Backend

end ODataQuery
