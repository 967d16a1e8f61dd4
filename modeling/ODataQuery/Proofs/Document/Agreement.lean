import ODataQuery.Proofs.Document.Portability

/-!
# Agreement of nodes

Every node that is built for a document query stands for the meaning of the same part of an
expression.

## Main definitions

- `DocumentFilter.Represents` — a filter that is true, false or unknown where a meaning is
- `DocumentNode.Agrees` — a node that stands for a meaning

## Main statements

- `DocumentNode.Agrees.predicate`, `DocumentNode.agrees_connective`, `DocumentNode.agrees_compare`,
  `DocumentNode.agrees_call`, … — one rule for every way to build a node
-/

namespace ODataQuery

-- ════════════════════════════════════════════════════════════════════════
-- Truth values
-- ════════════════════════════════════════════════════════════════════════

namespace DocumentFilter

theorem eq_of_some_iff {b c : Option Bool} (htrue : b = some true ↔ c = some true)
    (hfalse : b = some false ↔ c = some false) : b = c := by
  cases b with
  | none =>
    cases c with
    | none => rfl
    | some d => cases d <;> simp_all
  | some d => cases d <;> simp_all

theorem allTrue_singleton (b : Option Bool) : allTrue [b] = b := by
  refine eq_of_some_iff ?_ ?_
  · rw [allTrue_eq_some_true, List.forall_mem_singleton]
  · simp only [allTrue_eq_some_false, List.mem_singleton, exists_eq_left]

/-- A conjunction of two lists is the conjunction of their conjunctions. -/
theorem allTrue_append (bs cs : List (Option Bool)) :
    allTrue (bs ++ cs) = allTrue [allTrue bs, allTrue cs] := by
  refine eq_of_some_iff ?_ ?_
  · simp only [allTrue_eq_some_true, List.forall_mem_append, List.forall_mem_cons,
      List.not_mem_nil, false_implies, implies_true, and_true]
  · simp only [allTrue_eq_some_false, List.mem_append, List.mem_cons, List.not_mem_nil, or_false,
      exists_eq_right, @eq_comm _ (some false)]

theorem anyTrue_singleton (b : Option Bool) : anyTrue [b] = b := by
  rw [anyTrue_eq, List.map_singleton, allTrue_singleton]
  cases b with
  | none => rfl
  | some c => exact congrArg some (Bool.not_not c)

theorem anyTrue_append (bs cs : List (Option Bool)) :
    anyTrue (bs ++ cs) = anyTrue [anyTrue bs, anyTrue cs] := by
  have hnot (b : Option Bool) : (b.map (!·)).map (!·) = b := by
    cases b with
    | none => rfl
    | some c => exact congrArg some (Bool.not_not c)
  simp only [anyTrue_eq, List.map_append, List.map_cons, List.map_nil, hnot]
  rw [allTrue_append]

end DocumentFilter

namespace Value

open DocumentFilter

theorem truth?_ofTruth (b : Option Bool) : (ofTruth b).truth? = b := by
  cases b <;> rfl

theorem truth?_conj (a b : Value) : (conj a b).truth? = allTrue [a.truth?, b.truth?] := by
  unfold conj
  rcases a.truth? with _ | _ | _ <;> rcases b.truth? with _ | _ | _ <;> rfl

theorem truth?_disj (a b : Value) : (disj a b).truth? = anyTrue [a.truth?, b.truth?] := by
  unfold disj
  rcases a.truth? with _ | _ | _ <;> rcases b.truth? with _ | _ | _ <;> rfl

end Value

-- ════════════════════════════════════════════════════════════════════════
-- Filters and meanings
-- ════════════════════════════════════════════════════════════════════════

variable {compared : Bool → String → Prop} {entity target : EntityType} {now : Instant}

/-- The filter is true, false or unknown where the meaning is. -/
structure DocumentFilter.Represents (compared : Bool → String → Prop) (entity : EntityType)
    (f : DocumentFilter) (m : Meaning) : Prop where
  fits : f.Fits compared entity
  truth : ∀ s record, Examines compared entity s record → (m s).truth? = f.meaning record

/-- The node stands for the meaning of the expression: the value of an expression of literals, a
property, or a predicate that is computed. -/
inductive DocumentNode.Agrees (compared : Bool → String → Prop) (entity : EntityType)
    (now : Instant) : Expr → DocumentNode → Meaning → Prop
  | literal {e v m} (hv : e.constant? now = some v) (hm : ∀ s, m s = v) :
      Agrees compared entity now e (.literal v) m
  | field {p : Property} {origin type m} (hp : p ∈ entity.properties)
      (htype : p.type.scalar? = some type)
      (hm : ∀ s record, Examines compared entity s record → m s = record.value p.source) :
      Agrees compared entity now (.field ⟨p.name, p.source, origin, type⟩) (.field p.source type) m
  | filter {e f m} (htype : e.type = .boolean) (hsimple : e.isSimple = false)
      (h : f.Represents compared entity m) : Agrees compared entity now e (.filter f) m

namespace DocumentFilter

theorem represents_constant {b : Option Bool} {m : Meaning}
    (h : ∀ s record, Examines compared entity s record → (m s).truth? = b) :
    (constant b).Represents compared entity m :=
  ⟨.constant, h⟩

theorem Represents.not {f : DocumentFilter} {m : Meaning} (h : f.Represents compared entity m) :
    (DocumentFilter.not f).Represents compared entity fun s => (m s).applyUnary .not := by
  refine ⟨.not h.fits, fun s record hs => ?_⟩
  show (Value.ofTruth ((m s).truth?.map (!·))).truth? = (f.meaning record).map (!·)
  rw [Value.truth?_ofTruth, h.truth s record hs]

theorem fits_itemsOf (op : BinaryOp) {f : DocumentFilter} (h : f.Fits compared entity) :
    ∀ g ∈ DocumentNode.itemsOf op f, g.Fits compared entity := by
  unfold DocumentNode.itemsOf
  split
  · obtain ⟨hitems⟩ := h
    assumption
  · obtain ⟨hitems⟩ := h
    assumption
  · exact List.forall_mem_singleton.mpr h

/-- The items of a conjunction are a conjunction of the same truth value. -/
theorem allTrue_itemsOf (f : DocumentFilter) (record : Record) :
    allTrue (meanings (DocumentNode.itemsOf .and f) record) = f.meaning record := by
  unfold DocumentNode.itemsOf
  split
  · rfl
  · next h => cases h
  · exact allTrue_singleton _

theorem anyTrue_itemsOf (f : DocumentFilter) (record : Record) :
    anyTrue (meanings (DocumentNode.itemsOf .or f) record) = f.meaning record := by
  unfold DocumentNode.itemsOf
  split
  · next h => cases h
  · rfl
  · exact anyTrue_singleton _

/-- A conjunction or disjunction of filters stands for that of their meanings. -/
theorem Represents.join {op : BinaryOp} {l r : DocumentFilter} {ml mr : Meaning}
    (hop : op.isLogical = true) (hl : l.Represents compared entity ml)
    (hr : r.Represents compared entity mr) :
    (DocumentNode.join op l r).Represents compared entity
      fun s => (ml s).applyBinary op (mr s) := by
  have hitems := List.forall_mem_append.mpr
    ⟨fits_itemsOf op hl.fits, fits_itemsOf op hr.fits⟩
  have hmeanings (fs gs : List DocumentFilter) (record : Record) :
      meanings (fs ++ gs) record = meanings fs record ++ meanings gs record := by
    simp only [meanings_eq_map, List.map_append]
  cases op with
  | and =>
    refine ⟨.and hitems, fun s record hs => ?_⟩
    show (Value.conj (ml s) (mr s)).truth? = allTrue (meanings (_ ++ _) record)
    rw [Value.truth?_conj, hmeanings, allTrue_append, allTrue_itemsOf, allTrue_itemsOf,
      hl.truth s record hs, hr.truth s record hs]
  | or =>
    refine ⟨.or hitems, fun s record hs => ?_⟩
    show (Value.disj (ml s) (mr s)).truth? = anyTrue (meanings (_ ++ _) record)
    rw [Value.truth?_disj, hmeanings, anyTrue_append, anyTrue_itemsOf, anyTrue_itemsOf,
      hl.truth s record hs, hr.truth s record hs]
  | _ => cases hop

theorem quantified_congr {records : List Record} {test test' : Record → Bool}
    (h : ∀ r ∈ records, test r = test' r) (quantifier : Quantifier) :
    Meaning.quantified quantifier records test = Meaning.quantified quantifier records test' := by
  cases quantifier with
  | any =>
    show records.any test = records.any test'
    rw [Bool.eq_iff_iff, List.any_eq_true, List.any_eq_true]
    exact exists_congr fun r => and_congr_right fun hr => by rw [h r hr]
  | all =>
    show records.all test = records.all test'
    rw [Bool.eq_iff_iff, List.all_eq_true, List.all_eq_true]
    exact forall_congr' fun r => forall_congr' fun hr => by rw [h r hr]

/-- A quantifier over related records stands for the lambda over them. -/
theorem Represents.elements {p : Property} {link : Link} {f : DocumentFilter} {m : Meaning}
    (hp : p ∈ entity.properties) (htype : p.type = .collection target link)
    (h : f.Represents compared target m) (quantifier : Quantifier) :
    (elements p.source quantifier f).Represents compared entity
      (Meaning.ofLambda quantifier 0 p.source (some m)) := by
  refine ⟨.elements hp htype h.fits, fun s record hs => ?_⟩
  have htest : ∀ r ∈ record.related p.source,
      Meaning.holdsFor m s r = (f.meaning r == some true) := fun r hr => by
    rw [Meaning.holdsFor, h.truth _ r (hs.enter hp htype hr)]
  show some (Meaning.quantified quantifier (s.related 0 p.source) (Meaning.holdsFor m s)) =
    some (Meaning.quantified quantifier (record.related p.source) fun r => f.meaning r == some true)
  rw [hs.related]
  exact congrArg some (quantified_congr htest quantifier)

theorem represents_bare {p : Property} {link : Link} (hp : p ∈ entity.properties)
    (htype : p.type = .collection target link) (quantifier : Quantifier) :
    (bare p.source quantifier).Represents compared entity
      (Meaning.ofLambda quantifier 0 p.source none) := by
  refine ⟨.bare hp htype, fun s record hs => ?_⟩
  show some (quantifier == .all || !(s.related 0 p.source).isEmpty) = _
  rw [hs.related]
  rfl

end DocumentFilter

-- ════════════════════════════════════════════════════════════════════════
-- Nodes and meanings
-- ════════════════════════════════════════════════════════════════════════

namespace DocumentNode

/-- A step that does not touch the scope. -/
theorem lift_eq_ok {α : Type} {x : Except CompileError α} {a : α} {scope scope' : Scope}
    (h : (x : Building Scope α) scope = .ok (a, scope')) : x = .ok a ∧ scope' = scope := by
  cases x with
  | error err => cases h
  | ok b =>
    cases h
    exact ⟨rfl, rfl⟩

theorem scalar?_ne_null {p : PropertyType} {type : StaticType} (h : p.scalar? = some type) :
    type ≠ .null := by
  rintro rfl
  cases p <;> cases h

theorem eq_boolean_of_isBoolean {p : Property} {type : StaticType}
    (htype : p.type.scalar? = some type) (h : type.isBoolean = true) : type = .boolean := by
  simp only [StaticType.isBoolean, Bool.or_eq_true, beq_iff_eq] at h
  obtain h | h := h
  · exact absurd h (scalar?_ne_null htype)
  · exact h

theorem eq_string_of_scalar? {p : PropertyType} {type : StaticType} (h : p.scalar? = some type)
    (hkind : ∀ kind, type.kind? = some kind → kind = .string) : type = .string := by
  cases type with
  | null => exact absurd rfl (scalar?_ne_null h)
  | primitive kind => exact congrArg StaticType.primitive (hkind kind rfl)
  | enumeration T => cases hkind _ rfl

/-- A node as a predicate stands for the same meaning. -/
theorem Agrees.predicate {e : Expr} {node : DocumentNode} {m : Meaning} {f : DocumentFilter}
    (h : Agrees compared entity now e node m) (hf : node.predicate = .ok f) :
    f.Represents compared entity m := by
  cases h with
  | literal _ hm =>
    cases hf
    exact DocumentFilter.represents_constant fun s _ _ => by rw [hm s]
  | field hp htype hm =>
    simp only [DocumentNode.predicate] at hf
    split at hf
    · next hboolean =>
      cases hf
      cases eq_boolean_of_isBoolean htype hboolean
      refine ⟨.isTrue hp htype, fun s record hs => ?_⟩
      rw [hm s record hs]
      rfl
    · cases hf
  | filter _ _ h =>
    cases hf
    exact h

/-- The test of a property against a constant stands for their comparison. -/
theorem represents_compareField {p : Property} {type : StaticType} {op : BinaryOp} {v : Value}
    {m : Meaning} (hp : p ∈ entity.properties) (htype : p.type.scalar? = some type)
    (hop : op.isComparison = true) (hmeets : type.Meets v)
    (hordered : op.isRelational = true → type.isOrdered = true)
    (hfaithful : v.Faithful op.isRelational) (hcompared : compared op.isRelational p.source)
    (hm : ∀ s record, Examines compared entity s record →
      m s = Value.test op (record.value p.source) v) :
    (compareField p.source op v).Represents compared entity m := by
  unfold compareField
  split
  · next hnull =>
    rw [Bool.and_eq_true] at hnull
    refine DocumentFilter.represents_constant fun s record hs => ?_
    rw [hm s record hs, Value.eq_null_of_isNull hnull.1]
    cases op with
    | gt | ge | lt | le =>
      simp only [Value.test, Value.compare_null_right]
      rfl
    | _ => cases hnull.2
  · next hnull =>
    have hv : op.isRelational = true → v.isNull = false := by simpa [and_comm] using hnull
    refine ⟨.compare hp htype hop hmeets hfaithful hcompared fun h => ⟨hordered h, hv h⟩,
      fun s record hs => ?_⟩
    rw [hm s record hs]
    rfl

/-- What a portable predicate guarantees for each of its comparisons. -/
theorem portable_comparison {e₀ left right : Expr} {op : BinaryOp} (he₀ : e₀.Portable now)
    (he : .binary op left right ∈ e₀.parts) (hop : op.isComparison = true) :
    (∀ x ∈ [left, right], ∀ v, x.constant? now = some v → v.Faithful op.isRelational) ∧
      ∀ f, .field f ∈ [left, right] → e₀.Compares op.isRelational f.source := by
  have hcomparands : (Expr.binary op left right).comparands =
      [(op.isRelational, left), (op.isRelational, right)] := if_pos hop
  constructor
  · intro x hx v hv
    refine he₀.constants _ he (op.isRelational, x) ?_ v hv
    rw [hcomparands]
    simpa using hx
  · intro f hf
    refine ⟨_, he, f, ?_, rfl⟩
    rw [hcomparands]
    simpa using hf

variable {root : EntityType} {frames : List Frame} {e₀ : Expr} {scope scope' : List String}
  {node : DocumentNode}

/-- A predicate that is computed can be compared for equality only. -/
theorem eq_of_compare_filter {op : BinaryOp} {f : DocumentFilter} {other : DocumentNode}
    (h : compare op (filter f) other scope = .ok (node, scope') ∨
      compare op other (filter f) scope = .ok (node, scope')) : op = .eq := by
  have hboolean (b : Bool)
      (h : (if op = .eq then return filter (equalTo f b)
        else unsupported ("'" ++ op.keyword ++ "' between these operands") :
          Building Scope DocumentNode) scope = .ok (node, scope')) : op = .eq := by
    split at h
    · assumption
    · cases h
  cases other with
  | field path type => obtain h | h := h <;> cases h
  | filter g => obtain h | h := h <;> cases h
  | literal v =>
    cases v with
    | boolean b =>
      obtain h | h := h
      · exact hboolean b h
      · exact hboolean b h
    | _ => obtain h | h := h <;> cases h

/-- The node of a comparison stands for the comparison. -/
theorem agrees_compare {op : BinaryOp} {left right : Expr} {l r : DocumentNode}
    {ml mr : Meaning} (he₀ : e₀.Portable now) (he : .binary op left right ∈ e₀.parts)
    (hop : op.isComparison = true) (hleft : Expr.Typed root frames left)
    (hright : Expr.Typed root frames right) (hsettled : Expr.Settled op left right)
    (hl : Agrees e₀.Compares entity now left l ml) (hr : Agrees e₀.Compares entity now right r mr)
    (h : compare op l r scope = .ok (node, scope')) :
    scope' = scope ∧ Agrees e₀.Compares entity now (.binary op left right) node
      fun s => (ml s).applyBinary op (mr s) := by
  obtain ⟨hfaithful, hcompared⟩ := portable_comparison he₀ he hop
  have htype : (Expr.binary op left right).type = .boolean := by
    rw [Expr.type, if_neg]
    cases op with
    | eq | ne | gt | ge | lt | le => exact Bool.false_ne_true
    | _ => cases hop
  -- Truth values that are computed are not compared in portable predicates.
  have hcomputed (x : Expr) (hx : x ∈ [left, right]) (hboolean : x.type = .boolean)
      (hsimple : x.isSimple = false) : op ≠ .eq := by
    rintro rfl
    have := he₀.operands _ he x hx hboolean
    rw [hsimple] at this
    cases this
  cases hl with
  | literal hv hmv =>
    cases hr with
    | literal hw hmw =>
      cases h
      refine ⟨rfl, .filter htype rfl (DocumentFilter.represents_constant fun s _ _ => ?_)⟩
      rw [hmv s, hmw s, Value.applyBinary_of_isComparison hop]
    | field hp hscalar hm =>
      cases h
      obtain ⟨hmeets, hordered⟩ := hsettled.meets_left hop hleft hv
      have hv' := hfaithful left (by simp) _ hv
      have hf := hcompared _ (List.mem_cons_of_mem _ List.mem_cons_self)
      refine ⟨rfl, .filter htype rfl (represents_compareField hp hscalar ?_ hmeets ?_ ?_ ?_
        fun s record hs => ?_)⟩
      · rw [BinaryOp.isComparison_flipped, hop]
      · rwa [BinaryOp.isRelational_flipped]
      · rwa [BinaryOp.isRelational_flipped]
      · rwa [BinaryOp.isRelational_flipped]
      · rw [hmv s, hm s record hs, Value.applyBinary_of_isComparison hop]
        exact (Value.test_flipped _ _ hop).symm
    | filter hboolean hsimple _ =>
      exact absurd (eq_of_compare_filter (.inr h)) (hcomputed right (by simp) hboolean hsimple)
  | field hp hscalar hm =>
    cases hr with
    | literal hw hmw =>
      cases h
      obtain ⟨hmeets, hordered⟩ := hsettled.meets_right hop hright hw
      have hw' := hfaithful right (by simp) _ hw
      have hf := hcompared _ List.mem_cons_self
      refine ⟨rfl, .filter htype rfl (represents_compareField hp hscalar hop hmeets hordered hw' hf
        fun s record hs => ?_)⟩
      rw [hm s record hs, hmw s, Value.applyBinary_of_isComparison hop]
    | field => cases h
    | filter hboolean hsimple _ =>
      exact absurd (eq_of_compare_filter (.inr h)) (hcomputed right (by simp) hboolean hsimple)
  | filter hboolean hsimple _ =>
    exact absurd (eq_of_compare_filter (.inl h)) (hcomputed left (by simp) hboolean hsimple)

/-- The node of a conjunction or disjunction stands for it. -/
theorem agrees_connective {op : BinaryOp} {left right : Expr} {l r : DocumentNode}
    {ml mr : Meaning} (hop : op.isLogical = true) (hl : Agrees compared entity now left l ml)
    (hr : Agrees compared entity now right r mr) (h : binary op l r scope = .ok (node, scope')) :
    scope' = scope ∧ Agrees compared entity now (.binary op left right) node
      fun s => (ml s).applyBinary op (mr s) := by
  have htype : (Expr.binary op left right).type = .boolean := by
    rw [Expr.type, if_neg]
    cases op with
    | and | or => exact Bool.false_ne_true
    | _ => cases hop
  unfold binary at h
  rw [if_pos hop] at h
  obtain ⟨f, _, hleft, hrest⟩ := Result.run_bind_eq_ok.mp h
  obtain ⟨g, _, hright, hjoin⟩ := Result.run_bind_eq_ok.mp hrest
  obtain ⟨hf, rfl⟩ := lift_eq_ok hleft
  obtain ⟨hg, rfl⟩ := lift_eq_ok hright
  cases hjoin
  exact ⟨rfl, .filter htype rfl (.join hop (hl.predicate hf) (hr.predicate hg))⟩

/-- The node of an operation between operands stands for the operation. -/
theorem agrees_binary {op : BinaryOp} {left right : Expr} {l r : DocumentNode}
    {ml mr : Meaning} (he₀ : e₀.Portable now) (he : .binary op left right ∈ e₀.parts)
    (hleft : Expr.Typed root frames left) (hright : Expr.Typed root frames right)
    (hsettled : Expr.Settled op left right)
    (hl : Agrees e₀.Compares entity now left l ml) (hr : Agrees e₀.Compares entity now right r mr)
    (h : binary op l r scope = .ok (node, scope')) :
    scope' = scope ∧ Agrees e₀.Compares entity now (.binary op left right) node
      fun s => (ml s).applyBinary op (mr s) := by
  by_cases hlogical : op.isLogical = true
  · exact agrees_connective hlogical hl hr h
  unfold binary at h
  rw [if_neg hlogical] at h
  by_cases hop : op.isComparison = true
  · rw [if_pos hop] at h
    exact agrees_compare he₀ he hop hleft hright hsettled hl hr h
  · rw [if_neg hop] at h
    have harithmetic : op.isArithmetic = true := by
      cases op <;> first | rfl | exact absurd rfl hop | exact absurd rfl hlogical
    have happly (a b : Value) : Value.applyBinary op a b = Value.arithmetic op a b := by
      cases op <;> first | rfl | cases harithmetic
    cases hl with
    | literal hv hmv =>
      cases hr with
      | literal hw hmw =>
        cases h
        refine ⟨rfl, .literal ?_ fun s => ?_⟩
        · simp only [Expr.constant?, harithmetic, hv, hw]
        · rw [hmv s, hmw s, happly]
      | _ => cases h
    | _ => cases h

/-- The node of a prefix operation stands for the operation. -/
theorem agrees_unary {op : UnaryOp} {operand : Expr} {n : DocumentNode} {m : Meaning}
    (hn : Agrees compared entity now operand n m) (h : unary op n scope = .ok (node, scope')) :
    scope' = scope ∧ Agrees compared entity now (.unary op operand) node
      fun s => (m s).applyUnary op := by
  cases op with
  | not =>
    obtain ⟨f, _, hoperand, hnot⟩ := Result.run_bind_eq_ok.mp h
    obtain ⟨hf, rfl⟩ := lift_eq_ok hoperand
    cases hnot
    exact ⟨rfl, .filter rfl rfl (hn.predicate hf).not⟩
  | negate =>
    cases hn with
    | literal hv hm =>
      cases h
      refine ⟨rfl, .literal ?_ fun s => ?_⟩
      · simp only [Expr.constant?, hv, Option.map_some]
      · rw [hm s]
        rfl
    | _ => cases h

/-- The node of a membership test stands for the test. -/
theorem agrees_membership {operand : Expr} {list : List Value} {n : DocumentNode} {m : Meaning}
    (he₀ : e₀.Portable now) (he : .membership operand list ∈ e₀.parts)
    (hlist : ∀ v ∈ list, v.isNull = false ∧ operand.type.Meets v)
    (hn : Agrees e₀.Compares entity now operand n m)
    (h : membership n list scope = .ok (node, scope')) :
    scope' = scope ∧ Agrees e₀.Compares entity now (.membership operand list) node
      fun s => (m s).isIn list := by
  cases hn with
  | literal hv hm =>
    cases h
    refine ⟨rfl, .filter rfl rfl (DocumentFilter.represents_constant fun s _ _ => ?_)⟩
    rw [hm s]
  | field hp htype hm =>
    cases h
    have hcompared : e₀.Compares false _ := ⟨_, he, _, List.mem_cons_self, rfl⟩
    have hfaithful : ∀ v ∈ list, v.Faithful false := fun v hv =>
      he₀.constants _ he (false, .literal v)
        (List.mem_cons_of_mem _ (List.mem_map_of_mem (f := fun v => (false, Expr.literal v)) hv))
        v rfl
    refine ⟨rfl, .filter rfl rfl ⟨.isIn hp htype hcompared fun v hv =>
      ⟨(hlist v hv).1, (hlist v hv).2, hfaithful v hv⟩, fun s record hs => ?_⟩⟩
    rw [hm s record hs]
    rfl
  | filter => cases h

-- ════════════════════════════════════════════════════════════════════════
-- Calls
-- ════════════════════════════════════════════════════════════════════════

/-- The nodes stand for the meanings of the expressions. -/
inductive AgreesAll (compared : Bool → String → Prop) (entity : EntityType) (now : Instant) :
    List Expr → List DocumentNode → List Meaning → Prop
  | nil : AgreesAll compared entity now [] [] []
  | cons {e es n ns m ms} (hn : Agrees compared entity now e n m)
      (hns : AgreesAll compared entity now es ns ms) :
      AgreesAll compared entity now (e :: es) (n :: ns) (m :: ms)

/-- Arguments that are all constants have the values of the expressions. -/
theorem AgreesAll.constants {es : List Expr} {ns : List DocumentNode} {ms : List Meaning}
    {vs : List Value} (h : AgreesAll compared entity now es ns ms)
    (hvs : ns.mapM literal? = some vs) :
    Expr.constants? now es = some vs ∧ ∀ s, ms.map (· s) = vs := by
  induction h generalizing vs with
  | nil =>
    cases hvs
    exact ⟨rfl, fun _ => rfl⟩
  | cons hn _ ih =>
    rw [List.mapM_cons] at hvs
    obtain ⟨v, hv, hrest⟩ := Option.bind_eq_some_iff.mp hvs
    obtain ⟨ws, hws, hpure⟩ := Option.bind_eq_some_iff.mp hrest
    cases hpure
    cases hn with
    | literal hconstant hm =>
      cases hv
      obtain ⟨hconstants, hms⟩ := ih hws
      refine ⟨by simp only [Expr.constants?, hconstant, hconstants], fun s => ?_⟩
      rw [List.map_cons, hm s, hms s]
    | field => cases hv
    | filter => cases hv

/-- Only one function depends on the present instant. -/
theorem apply_congr_now {function : Function} (h : function ≠ .now) (now now' : Instant)
    (arguments : List Value) :
    Value.apply now function arguments = Value.apply now' function arguments := by
  cases function with
  | now => exact absurd rfl h
  | _ => rfl

/-- A function that searches for a pattern is a predicate on texts. -/
theorem check_of_patternOf? {function : Function} {text pattern : List Char} {s t : StaticType}
    {type : StaticType} (h : patternOf? function text = some pattern)
    (hcheck : function.check [s, t] = .ok type) :
    type = .boolean ∧ ∀ kind, s.kind? = some kind → kind = .string := by
  have hfunction : function.parameters = [.string, .string] ∧
      function.resultType [s, t] = .boolean := by
    cases function <;> first | exact ⟨rfl, rfl⟩ | cases h
  unfold Function.check at hcheck
  rw [hfunction.1, hfunction.2] at hcheck
  split at hcheck
  · split at hcheck
    · cases hcheck
    · next hmismatch =>
      cases hcheck
      refine ⟨rfl, fun kind hkind => ?_⟩
      unfold Function.firstMismatch at hmismatch
      split at hmismatch
      · next haccepts =>
        simpa [Parameter.accepts, Parameter.acceptsKind, hkind] using haccepts
      · cases hmismatch
  · cases hcheck

/-- A function that searches for a pattern, applied to values. -/
theorem apply_of_patternOf? {function : Function} {text pattern : List Char}
    (hfunction : function ≠ .matchesPattern) (h : patternOf? function text = some pattern)
    {v w : Value} (hv : StaticType.string.Holds v) (hw : w.chars? = some text) (now : Instant) :
    (Value.apply now function [v, w]).truth? =
      v.chars?.map fun s => (LiteralPattern.ofChars? pattern).any (·.occursIn s) := by
  have hw' : w.isNull = false := by cases w <;> first | rfl | cases hw
  obtain rfl | hkind := hv
  · cases function <;> rfl
  · cases v with
    | string s =>
      have htexts := LiteralPattern.applyTexts_of_patternOf? hfunction h s.toList
      have happly : Value.apply now function [.string s, w] =
          Value.applyTexts function s.toList text := by
        have hany : [Value.string s, w].any Value.isNull = false := by
          rw [List.any_cons, List.any_cons, hw']
          rfl
        cases function with
        | contains | startsWith | endsWith =>
          simp only [Value.apply, hany, Value.applyFunction, List.head?_cons, Option.bind_some, hw]
          rfl
        | matchesPattern => exact absurd rfl hfunction
        | _ => cases h
      rw [happly, htexts]
      rfl
    | _ => cases hkind

theorem apply_of_not_text {function : Function} {text pattern : List Char}
    (h : patternOf? function text = some pattern) {v w : Value} (hw : w.chars? = none)
    (now : Instant) : (Value.apply now function [v, w]).truth? = none := by
  have hnone : Value.applyFunction function v [w] = .null := by
    cases function with
    | contains | startsWith | endsWith | matchesPattern =>
      simp only [Value.applyFunction, List.head?_cons, Option.bind_some, hw]
      cases v.chars? <;> rfl
    | _ => cases h
  have happly : Value.apply now function [v, w] =
      if [v, w].any Value.isNull then .null else Value.applyFunction function v [w] := by
    cases function <;> first | rfl | cases h
  rw [happly, hnone, ite_self]
  rfl

/-- A call that is not folded searches a property for a constant. -/
theorem search_of_call {function : Function} {ns : List DocumentNode}
    (hns : ns.mapM literal? = none) (h : call now function ns scope = .ok (node, scope')) :
    ∃ path type v pattern, ns = [field path type, literal v] ∧
      patternOf? function (v.chars?.getD []) = some pattern ∧ scope' = scope ∧
      node = filter (if v.chars?.isSome then .hasPattern path (String.ofList pattern)
        else .constant none) := by
  simp only [call, hns] at h
  cases ns with
  | nil => cases h
  | cons n ns =>
    cases n with
    | literal | filter => cases h
    | field path type =>
      cases ns with
      | nil => cases h
      | cons n ns =>
        cases n with
        | field | filter => cases h
        | literal v =>
          cases ns with
          | cons => cases h
          | nil =>
            dsimp only at h
            cases hpattern : patternOf? function (v.chars?.getD []) with
            | none =>
              rw [hpattern] at h
              cases h
            | some pattern =>
              rw [hpattern] at h
              refine ⟨path, type, v, pattern, rfl, hpattern, ?_⟩
              dsimp only at h
              split at h
              · next htext =>
                cases h
                rw [if_pos htext]
                exact ⟨rfl, rfl⟩
              · next htext =>
                cases h
                rw [if_neg htext]
                exact ⟨rfl, rfl⟩

/-- A search in a property stands for the function that searches. -/
theorem represents_search {p : Property} {function : Function} {pattern : List Char} {w : Value}
    {m : Meaning} (hp : p ∈ entity.properties) (hscalar : p.type.scalar? = some .string)
    (hfunction : function ≠ .matchesPattern)
    (hpattern : patternOf? function (w.chars?.getD []) = some pattern)
    (hm : ∀ s record, Examines compared entity s record →
      m s = Value.apply s.now function [record.value p.source, w]) :
    (if w.chars?.isSome then DocumentFilter.hasPattern p.source (String.ofList pattern)
      else .constant none).Represents compared entity m := by
  cases htext : w.chars? with
  | none =>
    refine DocumentFilter.represents_constant fun s record hs => ?_
    rw [hm s record hs]
    exact apply_of_not_text hpattern htext _
  | some text =>
    rw [htext] at hpattern
    refine ⟨.hasPattern hp hscalar, fun s record hs => ?_⟩
    show _ = (record.value p.source).chars?.map fun s =>
      (LiteralPattern.ofChars? (String.ofList pattern).toList).any (·.occursIn s)
    rw [hm s record hs, String.toList_ofList]
    exact apply_of_patternOf? hfunction hpattern (hs.holds hp hscalar) htext _

/-- The node of a call stands for the call. -/
theorem agrees_call {function : Function} {arguments : List Expr} {ns : List DocumentNode}
    {ms : List Meaning} {type : StaticType}
    (hfunction : function ≠ .now ∧ function ≠ .matchesPattern)
    (hcheck : function.check (Expr.types arguments) = .ok type)
    (hns : AgreesAll compared entity now arguments ns ms)
    (h : call now function ns scope = .ok (node, scope')) :
    scope' = scope ∧ Agrees compared entity now (.call function arguments) node
      fun s => Value.apply s.now function (ms.map (· s)) := by
  cases hvs : ns.mapM literal? with
  | some vs =>
    simp only [call, hvs] at h
    cases h
    obtain ⟨hconstants, hms⟩ := hns.constants hvs
    refine ⟨rfl, .literal ?_ fun s => ?_⟩
    · simp only [Expr.constant?, hconstants, Option.map_some]
    · rw [hms s, apply_congr_now hfunction.1]
  | none =>
    obtain ⟨path, _, w, pattern, rfl, hpattern, rfl, rfl⟩ := search_of_call hvs h
    obtain _ | ⟨hn, _ | ⟨hn', ⟨⟩⟩⟩ := hns
    cases hn with
    | field hp hscalar hm =>
      cases hn' with
      | literal hw hm' =>
        obtain ⟨rfl, hkind⟩ := check_of_patternOf? hpattern hcheck
        cases eq_string_of_scalar? hscalar hkind
        refine ⟨rfl, .filter ?_ rfl (represents_search hp hscalar hfunction.2 hpattern
          fun s record hs => ?_)⟩
        · simp only [Expr.type, hcheck]
        · rw [← hm s record hs, ← hm' s]
          rfl

end DocumentNode

end ODataQuery
