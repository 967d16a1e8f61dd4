import ODataQuery.Proofs.Document.Equivalence
import ODataQuery.Proofs.Memory.Compilation

/-!
# Equality with a truth value

In memory, equality with a truth value is never unknown: an unknown predicate equals neither `true`
nor `false`. A document query for the equality is that for the predicate or its negation, so it is
unknown where the predicate is, and its own negation then selects nothing.

## Main definitions

- `Expr.equating` — the test whether a predicate has a truth value
- `Expr.SuitsDocument` — a predicate and a record that both backends examine alike

## Main statements

- `DocumentNode.render_equalTo` — the query for the test is that for the predicate or its negation
- `Expr.selects_equating_iff` — the test selects alike in both backends, and so does its negation
  where the predicate is known
-/

namespace ODataQuery

/-- The test whether a predicate has a truth value. -/
def Expr.equating (p : Expr) (b : Bool) : Expr := .binary .eq p (.literal (.boolean b))

namespace Value

/-- Only a truth value equals a truth value. -/
theorem equals_boolean (v : Value) (b : Bool) : v.equals (.boolean b) = (v.truth? == some b) := by
  cases v with
  | boolean c => cases b <;> cases c <;> rfl
  | _ => rfl

end Value

-- ════════════════════════════════════════════════════════════════════════
-- The two backends
-- ════════════════════════════════════════════════════════════════════════

namespace DocumentNode

variable {now : Instant} {e : Expr} {f : DocumentFilter} {names names' : List String}

/-- The query for the test is that for the predicate, or for its negation. -/
theorem render_equalTo (f : DocumentFilter) (b negated : Bool) :
    (equalTo f b).render negated = f.render (negated == b) := by
  cases b <;> cases negated <;> rfl

theorem build_equating (h : (builder now).build e names = .ok (.filter f, names')) (b : Bool) :
    (builder now).build (e.equating b) names = .ok (.filter (equalTo f b), names') :=
  Result.run_bind_eq_ok.mpr ⟨_, names', h, Result.run_bind_eq_ok.mpr ⟨_, names', rfl, rfl⟩⟩

theorem build_not (h : (builder now).build e names = .ok (.filter f, names')) :
    (builder now).build (.unary .not e) names = .ok (.filter (.not f), names') :=
  Result.run_bind_eq_ok.mpr ⟨_, names', h, rfl⟩

/-- A query is made of the filter that the recursion gives. -/
theorem eq_render_of_ofExpr {query : Json}
    (hbuild : (builder now).build e [] = .ok (.filter f, names))
    (h : DocumentQuery.ofExpr now e = .ok query) :
    e.walk defaultMaxDepth = (e.events, none) ∧ query = f.render false := by
  obtain ⟨node, hnode, hrest⟩ := Result.bind_eq_ok.mp h
  obtain ⟨hwalk, _, hbuild'⟩ := Expr.listen_eq_ok.mp hnode
  rw [hbuild] at hbuild'
  cases hbuild'
  cases hrest
  exact ⟨hwalk, rfl⟩

end DocumentNode

namespace Predicate

variable {e : Expr} {m : Meaning} {names names' : List String}

theorem build_equating (h : Meaning.builder.build e names = .ok (m, names')) (b : Bool) :
    Meaning.builder.build (e.equating b) names =
      .ok (fun s => (m s).applyBinary .eq (.boolean b), names') :=
  Result.run_bind_eq_ok.mpr ⟨m, names', h, Result.run_bind_eq_ok.mpr ⟨_, names', rfl, rfl⟩⟩

theorem build_not (h : Meaning.builder.build e names = .ok (m, names')) :
    Meaning.builder.build (.unary .not e) names = .ok (fun s => (m s).applyUnary .not, names') :=
  Result.run_bind_eq_ok.mpr ⟨m, names', h, rfl⟩

/-- At the end of a complete walk, the predicate is what the recursion gives. -/
theorem ofExpr_of_build (hwalk : e.walk defaultMaxDepth = (e.events, none))
    (h : Meaning.builder.build e [] = .ok (m, names)) : ofExpr e = .ok ⟨m⟩ :=
  Result.bind_eq_ok.mpr ⟨m, Expr.listen_eq_ok.mpr ⟨hwalk, names, h⟩, rfl⟩

/-- In memory, the test is true where the predicate has the truth value. -/
theorem selects_equating (m : Meaning) (b : Bool) (now : Instant) (record : Record) :
    selects ⟨fun s => (m s).applyBinary .eq (.boolean b)⟩ now record = true ↔
      (value ⟨m⟩ now record).truth? = some b := by
  show (some ((m ⟨now, [record]⟩).equals (.boolean b)) == some true) = true ↔
    (m ⟨now, [record]⟩).truth? = some b
  rw [Value.equals_boolean, beq_iff_eq, Option.some_inj, beq_iff_eq]

/-- In memory, the negated test is true everywhere else. -/
theorem selects_not_equating (m : Meaning) (b : Bool) (now : Instant) (record : Record) :
    selects ⟨fun s => ((m s).applyBinary .eq (.boolean b)).applyUnary .not⟩ now record = true ↔
      (value ⟨m⟩ now record).truth? ≠ some b := by
  show (some (!(m ⟨now, [record]⟩).equals (.boolean b)) == some true) = true ↔
    (m ⟨now, [record]⟩).truth? ≠ some b
  rw [Value.equals_boolean, beq_iff_eq, Option.some_inj, Bool.not_eq_true', beq_eq_false_iff_ne]

end Predicate

-- ════════════════════════════════════════════════════════════════════════
-- The tests
-- ════════════════════════════════════════════════════════════════════════

/-- Both backends examine the record alike for the predicate. The storage keys are paths of one part,
the predicate is portable, the record conforms to the entity type, the stored forms of all values
that the predicate compares keep what comparisons look at, and the document stores the record. -/
structure Expr.SuitsDocument (p : Expr) (entity : EntityType) (now : Instant) (record : Record)
    (doc : Json) : Prop where
  keys : entity.HasPlainKeys
  portable : p.Portable now
  conforms : entity.Conforms record
  faithful : record.Everywhere fun key v => ∀ ordered, p.Compares ordered key → v.Faithful ordered
  stores : entity.Stores record doc

/-- The query for the test whether a predicate has a truth value is that for the predicate or for its
negation, and selects the same records as the test in memory. The negated test in memory is true
where the predicate has not that truth value; its query selects the same records, without those where
the predicate is unknown. -/
theorem Expr.selects_equating_iff {entity : EntityType} {p : Expr} {f : DocumentFilter}
    {now : Instant} (htyped : Typed entity [] p)
    (hp : DocumentNode.ofExpr now p = .ok (.filter f)) (b : Bool) :
    ∃ P, Predicate.ofExpr p = .ok P ∧
      (∀ query, DocumentQuery.ofExpr now (p.equating b) = .ok query → query = f.render !b ∧
        ∃ Q, Predicate.ofExpr (p.equating b) = .ok Q ∧ ∀ now' record,
          (Q.selects now' record = true ↔ (P.value now' record).truth? = some b) ∧
          ∀ doc, p.SuitsDocument entity now record doc →
            (query.selects doc = true ↔ Q.selects now' record = true)) ∧
      ∀ query, DocumentQuery.ofExpr now (unary .not (p.equating b)) = .ok query →
        query = f.render b ∧
        ∃ Q, Predicate.ofExpr (unary .not (p.equating b)) = .ok Q ∧ ∀ now' record,
          (Q.selects now' record = true ↔ (P.value now' record).truth? ≠ some b) ∧
          ∀ doc, p.SuitsDocument entity now record doc →
            (query.selects doc = true ↔
              Q.selects now' record = true ∧ (P.value now' record).truth? ≠ none) := by
  obtain ⟨hwalk, names, hbuild⟩ := Expr.listen_eq_ok.mp hp
  obtain ⟨m, hm⟩ : ∃ m, Meaning.builder.build p [] = .ok (m, []) := htyped.exists_meaning
  have hmemory : Predicate.ofExpr p = .ok ⟨m⟩ := Predicate.ofExpr_of_build hwalk hm
  have hselects {now' record doc} (h : p.SuitsDocument entity now record doc) (negated : Bool) :
      (f.render negated).selects doc =
        ((Predicate.value ⟨m⟩ now' record).truth? == some !negated) := by
    obtain ⟨P, hP, hselects⟩ := DocumentNode.selects_render htyped hp rfl h.keys h.portable
      h.conforms h.faithful h.stores
    cases hmemory.symm.trans hP
    exact hselects negated
  refine ⟨⟨m⟩, hmemory, fun query hquery => ?_, fun query hquery => ?_⟩
  · have htest := DocumentNode.build_equating hbuild b
    obtain ⟨hcomplete, rfl⟩ := DocumentNode.eq_render_of_ofExpr htest hquery
    have hrender : (DocumentNode.equalTo f b).render false = f.render !b := by
      rw [DocumentNode.render_equalTo, Bool.false_beq]
    refine ⟨hrender, _, Predicate.ofExpr_of_build hcomplete (Predicate.build_equating hm b),
      fun now' record => ?_⟩
    have htrue := Predicate.selects_equating m b now' record
    refine ⟨htrue, fun doc hsuits => ?_⟩
    rw [hrender, hselects hsuits, htrue, Bool.not_not, beq_iff_eq]
  · have htest := DocumentNode.build_not (DocumentNode.build_equating hbuild b)
    obtain ⟨hcomplete, rfl⟩ := DocumentNode.eq_render_of_ofExpr htest hquery
    have hrender : (DocumentFilter.not (DocumentNode.equalTo f b)).render false = f.render b := by
      rw [DocumentFilter.render, DocumentNode.render_equalTo, Bool.not_false, Bool.true_beq]
    refine ⟨hrender, _, Predicate.ofExpr_of_build hcomplete
      (Predicate.build_not (Predicate.build_equating hm b)), fun now' record => ?_⟩
    have htrue := Predicate.selects_not_equating m b now' record
    refine ⟨htrue, fun doc hsuits => ?_⟩
    rw [hrender, hselects hsuits, htrue, beq_iff_eq]
    cases (Predicate.value ⟨m⟩ now' record).truth? with
    | none => simp
    | some c => cases b <;> cases c <;> simp

/-- The predicate and the truth value of a negated test. -/
def Expr.negatedTest? : Expr → Option (Expr × Bool)
  | .unary .not (.binary .eq p (.literal (.boolean b))) => some (p, b)
  | _ => none

theorem Expr.eq_of_negatedTest? {e p : Expr} {b : Bool} (h : e.negatedTest? = some (p, b)) :
    e = .unary .not (p.equating b) := by
  unfold negatedTest? at h
  split at h
  · cases h
    rfl
  · cases h

/-- The filter of a predicate that is computed. -/
def DocumentNode.filter? : DocumentNode → Option DocumentFilter
  | filter f => some f
  | _ => none

theorem DocumentNode.eq_of_filter? {node : DocumentNode} {f : DocumentFilter}
    (h : node.filter? = some f) : node = filter f := by
  cases node with
  | filter =>
    cases h
    rfl
  | _ => cases h

/-- Whether the expression negates the test that a portable predicate, which compiles to a filter, is
true. -/
def Expr.negatesPortable (now : Instant) (e : Expr) : Bool :=
  e.negatedTest?.any fun test => test.2 && decide (test.1.Portable now) &&
    Result.passes (·.filter?.isSome) (DocumentNode.ofExpr now test.1)

theorem Expr.exists_of_negatesPortable {now : Instant} {e : Expr}
    (h : e.negatesPortable now = true) :
    ∃ p f, e = .unary .not (p.equating true) ∧ p.Portable now ∧
      DocumentNode.ofExpr now p = .ok (.filter f) := by
  obtain ⟨⟨p, b⟩, hshape, htest⟩ := (Option.any_eq_true _ _).mp h
  simp only [Bool.and_eq_true] at htest
  obtain ⟨⟨rfl, hportable⟩, hnode⟩ := htest
  obtain ⟨node, hnode, hfilter⟩ := Result.exists_of_passes hnode
  obtain ⟨f, hf⟩ := Option.isSome_iff_exists.mp hfilter
  cases DocumentNode.eq_of_filter? hf
  exact ⟨p, f, eq_of_negatedTest? hshape, of_decide_eq_true hportable, hnode⟩

/-- In memory and as a document, an order that was shipped in January satisfies
`not ((ship_date gt 2020-02-01) eq true)`. -/
theorem Expr.selects_equating_shipped :
    ∃ p f P Q Q' query query',
      readFilter "not ((ship_date gt 2020-02-01) eq true)" Orders.entity (.all Orders.entity)
        defaultMaxDepth = .ok (unary .not (p.equating true)) ∧
      DocumentNode.ofExpr .earliest p = .ok (.filter f) ∧
      p.SuitsDocument Orders.entity .earliest (Orders.record Orders.january)
        (Orders.document Orders.january) ∧
      Predicate.ofExpr p = .ok P ∧ Predicate.ofExpr (p.equating true) = .ok Q ∧
      Predicate.ofExpr (unary .not (p.equating true)) = .ok Q' ∧
      DocumentQuery.ofExpr .earliest (p.equating true) = .ok query ∧
      DocumentQuery.ofExpr .earliest (unary .not (p.equating true)) = .ok query' ∧
      (query.selects (Orders.document Orders.january) = true ↔
        Q.selects .earliest (Orders.record Orders.january) = true) ∧
      query'.selects (Orders.document Orders.january) = true ∧
      (query'.selects (Orders.document Orders.january) = true ↔
        Q'.selects .earliest (Orders.record Orders.january) = true ∧
          (P.value .earliest (Orders.record Orders.january)).truth? ≠ none) := by
  have hread : Result.passes (fun e => e.negatesPortable .earliest &&
        e.negatedTest?.any (fun test =>
          Result.passes (fun _ => true) (DocumentQuery.ofExpr .earliest (test.1.equating true))) &&
        Result.passes (fun query => query.selects (Orders.document Orders.january))
          (DocumentQuery.ofExpr .earliest e))
      (readFilter "not ((ship_date gt 2020-02-01) eq true)" Orders.entity (.all Orders.entity)
        defaultMaxDepth) = true := by decide +kernel
  obtain ⟨e, query', hread, htest, hquery', hselects⟩ := Result.exists_of_passes_both hread
  obtain ⟨hnegates, hquery⟩ := Bool.and_eq_true_iff.mp htest
  obtain ⟨p, f, rfl, hportable, hnode⟩ := exists_of_negatesPortable hnegates
  obtain ⟨query, hquery, _⟩ := Result.exists_of_passes hquery
  have htyped : Typed Orders.entity [] p := by
    obtain ⟨htyped, _⟩ := typed_of_readFilter hread
    cases htyped with
    | unary htest _ =>
      cases htest with
      | binary hp _ _ => exact hp
  have hsuits : p.SuitsDocument Orders.entity .earliest (Orders.record Orders.january)
      (Orders.document Orders.january) :=
    ⟨Orders.hasPlainKeys, hportable, Orders.conforms _,
      Orders.faithful (by decide) _, Orders.stores _⟩
  obtain ⟨P, hP, htest, hnegated⟩ := selects_equating_iff htyped hnode true
  obtain ⟨_, Q, hQ, htest⟩ := htest query hquery
  obtain ⟨_, Q', hQ', hnegated⟩ := hnegated query' hquery'
  exact ⟨p, f, P, Q, Q', query, query', hread, hnode, hsuits, hP, hQ, hQ', hquery, hquery',
    (htest _ _).2 _ hsuits, hselects, (hnegated _ _).2 _ hsuits⟩

namespace Orders

/-- An order that is paid and not shipped. -/
def unshipped : Record := [("paid", .value (.boolean true)), ("ship_date", .value .null)]

/-- The document of the order. -/
def unshippedDocument : Json := .object [("paid", .bool true), ("ship_date", .null)]

theorem unshipped_conforms : entity.Conforms unshipped :=
  conforms_of_values (.inl rfl) (.inr rfl)

theorem unshipped_stores : entity.Stores unshipped unshippedDocument := stores_of_members rfl rfl

theorem unshipped_faithful (compared : Bool → String → Prop) :
    unshipped.Everywhere fun key v => ∀ ordered, compared ordered key → v.Faithful ordered :=
  faithful_of_value (v := .null) (fun _ => trivial) compared

end Orders

/-- An order that was never shipped satisfies `not ((ship_date gt 2020-02-01) eq true)` in memory,
where the comparison is unknown and so does not equal `true`, but its document is not selected. -/
theorem Expr.selects_equating_unshipped :
    ∃ p f Q query,
      readFilter "not ((ship_date gt 2020-02-01) eq true)" Orders.entity (.all Orders.entity)
        defaultMaxDepth = .ok (unary .not (p.equating true)) ∧
      DocumentNode.ofExpr .earliest p = .ok (.filter f) ∧
      p.SuitsDocument Orders.entity .earliest Orders.unshipped Orders.unshippedDocument ∧
      Predicate.ofExpr (unary .not (p.equating true)) = .ok Q ∧
      DocumentQuery.ofExpr .earliest (unary .not (p.equating true)) = .ok query ∧
      Q.selects .earliest Orders.unshipped = true ∧
      query.selects Orders.unshippedDocument = false := by
  have hread : Result.passes (fun e => e.negatesPortable .earliest &&
        Result.passes (fun Q => Q.selects .earliest Orders.unshipped) (Predicate.ofExpr e) &&
        Result.passes (fun query => !query.selects Orders.unshippedDocument)
          (DocumentQuery.ofExpr .earliest e))
      (readFilter "not ((ship_date gt 2020-02-01) eq true)" Orders.entity (.all Orders.entity)
        defaultMaxDepth) = true := by decide +kernel
  obtain ⟨e, query, hread, htest, hquery, hdocument⟩ := Result.exists_of_passes_both hread
  obtain ⟨hnegates, hpredicate⟩ := Bool.and_eq_true_iff.mp htest
  obtain ⟨p, f, rfl, hportable, hnode⟩ := exists_of_negatesPortable hnegates
  obtain ⟨Q, hQ, hmemory⟩ := Result.exists_of_passes hpredicate
  exact ⟨p, f, Q, query, hread, hnode, ⟨Orders.hasPlainKeys, hportable,
    Orders.unshipped_conforms, Orders.unshipped_faithful _, Orders.unshipped_stores⟩, hQ, hquery,
    hmemory, by simpa using hdocument⟩

end ODataQuery
