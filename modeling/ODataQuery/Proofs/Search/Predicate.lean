import ODataQuery.Proofs.Expr.Typing
import ODataQuery.Proofs.Reading.Authorization
import ODataQuery.Search.Predicate

/-!
# Predicates of searches

The predicate that a search stands for is typed and refers to allowed properties of the entity
type.

## Main definitions

- `Search.Admitted` — an expression that is typed and reads allowed properties only

## Main statements

- `Search.admitted_predicate` — the predicate of every search is admitted
-/

namespace ODataQuery

namespace Search

variable {entity : EntityType} {allowed : AllowList}

/-- A field that a search reads is an allowed property of the entity type. -/
theorem exists_property_of_mem_fields {f : Field} (h : f ∈ fields entity allowed) :
    ∃ p ∈ entity.properties, p.type = .primitive .string ∧ allowed.allows p.name = true ∧
      f = ⟨p.name, p.source, none, .string⟩ := by
  obtain ⟨p, hp, hf⟩ := List.mem_filterMap.mp h
  refine ⟨p, hp, ?_⟩
  split at hf
  · rename_i htype
    by_cases hallowed : allowed.allows p.name = true
    · rw [if_pos hallowed] at hf
      exact ⟨htype, hallowed, (Option.some.inj hf).symm⟩
    · rw [if_neg hallowed] at hf
      cases hf
  · cases hf

/-- Boolean expressions that are no literals can be combined. -/
theorem settled_of_boolean {op : BinaryOp} {left right : Expr} (hop : op.isLogical = true)
    (hleft : left.type = .boolean) (hright : right.type = .boolean) :
    Expr.Settled op left right := by
  have hsettled {e : Expr} (he : e.type = .boolean) :
      e.settled? .boolean = some (e, .boolean) := by
    cases e with
    | literal v => cases v <;> simp_all [Expr.type, Expr.settled?, Value.coerce?,
        Value.typeAgainst, StaticType.ofValue, StaticType.boolean, Value.kind?]
    | _ => simp [Expr.settled?, he]
  refine ⟨left, right, left, .boolean, right, .boolean, ?_, hsettled hright, ?_, rfl⟩
  · rw [hright]
    exact hsettled hleft
  · rw [Setting.acceptsOperands, if_pos hop]
    rfl

/-- What is wanted of the predicate of a search: it is typed, Boolean, and reads allowed
properties of the entity type only. -/
def Admitted (entity : EntityType) (allowed : AllowList) (e : Expr) : Prop :=
  Expr.Typed entity [] e ∧ e.type = .boolean ∧ ∀ p ∈ e.paths [], allowed.allows p = true

theorem admitted_containsTerm {f : Field} (h : f ∈ fields entity allowed) (term : String) :
    Admitted entity allowed (containsTerm term f) := by
  obtain ⟨p, hp, htype, hallowed, rfl⟩ := exists_property_of_mem_fields h
  have hscalar : p.type.scalar? = some .string := by
    rw [htype]
    rfl
  refine ⟨.call ?_ rfl, rfl, ?_⟩
  · intro e he
    obtain rfl | rfl : e = .field ⟨p.name, p.source, none, .string⟩ ∨
        e = .literal (.string term) := by simpa using he
    · exact .field rfl hp hscalar
    · exact .literal
  · simpa [containsTerm, Expr.paths, Expr.argumentPaths, PathEnv.path] using hallowed

theorem Admitted.combine (op : BinaryOp) {left right : Expr} (hop : op.isLogical = true)
    (hleft : Admitted entity allowed left) (hright : Admitted entity allowed right) :
    Admitted entity allowed (.binary op left right) := by
  obtain ⟨htyped, htype, hpaths⟩ := hleft
  obtain ⟨htyped', htype', hpaths'⟩ := hright
  refine ⟨.binary htyped htyped' (settled_of_boolean hop htype htype'), ?_, ?_⟩
  · cases op with
    | and | or => rfl
    | _ => cases hop
  · rw [Expr.paths]
    exact List.forall_mem_append.mpr ⟨hpaths, hpaths'⟩

theorem Admitted.foldl_or {e : Expr} {tests : List Expr} (he : Admitted entity allowed e)
    (h : ∀ test ∈ tests, Admitted entity allowed test) :
    Admitted entity allowed (tests.foldl (.binary .or) e) := by
  induction tests generalizing e with
  | nil => exact he
  | cons test tests ih =>
    have hcombined := he.combine .or rfl (h test List.mem_cons_self)
    exact ih hcombined fun test' htest' => h test' (List.mem_cons_of_mem _ htest')

theorem admitted_termPredicate (term : String) :
    Admitted entity allowed (termPredicate (fields entity allowed) term) := by
  have htests : ∀ test ∈ (fields entity allowed).map (containsTerm term),
      Admitted entity allowed test := by
    intro test htest
    obtain ⟨f, hf, rfl⟩ := List.mem_map.mp htest
    exact admitted_containsTerm hf term
  unfold termPredicate
  split
  · exact ⟨.literal, rfl, by simp [Expr.paths]⟩
  · rename_i test tests heq
    rw [heq] at htests
    obtain ⟨htest, htests⟩ := List.forall_mem_cons.mp htests
    exact htest.foldl_or htests

/-- The predicate of a search is typed, Boolean, and reads allowed properties of the entity type
only. -/
theorem admitted_predicate (search : Search) :
    Admitted entity allowed (search.predicate (fields entity allowed)) := by
  induction search with
  | term text => exact admitted_termPredicate text
  | not operand ih =>
    obtain ⟨htyped, htype, hpaths⟩ := ih
    refine ⟨.unary htyped ?_, rfl, hpaths⟩
    rw [htype]
    rfl
  | and left right ihl ihr => exact ihl.combine .and rfl ihr
  | or left right ihl ihr => exact ihl.combine .or rfl ihr

end Search

end ODataQuery
