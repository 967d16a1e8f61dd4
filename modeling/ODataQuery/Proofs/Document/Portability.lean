import ODataQuery.Proofs.Document.Selection
import ODataQuery.Proofs.Expr.Induction
import ODataQuery.Proofs.Lists

/-!
# Portable predicates

The predicates that select the same records in memory and in a document collection, and the
records on which they do.

## Main definitions

- `Expr.parts` — an expression with all that it is made of
- `Expr.comparands` — what a comparison compares, and whether by order
- `Expr.equated` — what a test for equality compares
- `Expr.Portable` — predicates that documents can be searched by
- `Expr.Compares` — the keys whose values a predicate compares
- `Examines` — a record under examination that suits a predicate
-/

namespace ODataQuery

namespace Expr

mutual

/-- The expression with all that it is made of. -/
def parts : Expr → List Expr
  | literal v => [literal v]
  | field f => [field f]
  | binary op left right => binary op left right :: (left.parts ++ right.parts)
  | unary op operand => unary op operand :: operand.parts
  | membership operand list => membership operand list :: operand.parts
  | call function arguments => call function arguments :: partsOfAll arguments
  | lambda binder body => lambda binder body :: body.parts
  | bare binder => [bare binder]

/-- The expressions with all that they are made of. -/
def partsOfAll : List Expr → List Expr
  | [] => []
  | e :: es => e.parts ++ partsOfAll es

end

theorem self_mem_parts (e : Expr) : e ∈ e.parts := by cases e <;> exact List.mem_cons_self

theorem mem_partsOfAll {p : Expr} {es : List Expr} :
    p ∈ partsOfAll es ↔ ∃ e ∈ es, p ∈ e.parts := by
  induction es with
  | nil => simp [partsOfAll]
  | cons e es ih => simp [partsOfAll, ih]

theorem parts_subset_partsOfAll {e : Expr} {es : List Expr} (h : e ∈ es) :
    e.parts ⊆ partsOfAll es :=
  fun _ hp => mem_partsOfAll.mpr ⟨e, h, hp⟩

/-- What a part is made of is a part as well. -/
theorem parts_subset_of_mem {p e : Expr} (h : p ∈ e.parts) : p.parts ⊆ e.parts := by
  induction e with
  | literal | field | bare =>
    rw [List.mem_singleton.mp h]
    exact List.Subset.refl _
  | binary op left right ihl ihr =>
    obtain rfl | h := List.mem_cons.mp h
    · exact List.Subset.refl _
    obtain h | h := List.mem_append.mp h
    · exact List.subset_cons_of_subset _ (List.subset_append_of_subset_left _ (ihl h))
    · exact List.subset_cons_of_subset _ (List.subset_append_of_subset_right _ (ihr h))
  | unary _ _ ih | membership _ _ ih | lambda _ _ ih =>
    obtain rfl | h := List.mem_cons.mp h
    · exact List.Subset.refl _
    · exact List.subset_cons_of_subset _ (ih h)
  | call function arguments ih =>
    obtain rfl | h := List.mem_cons.mp h
    · exact List.Subset.refl _
    obtain ⟨e, he, h⟩ := mem_partsOfAll.mp h
    exact List.subset_cons_of_subset _ (List.Subset.trans (ih e he h) (parts_subset_partsOfAll he))

/-- What a comparison or a membership test compares; by order if the flag is set. -/
def comparands : Expr → List (Bool × Expr)
  | binary op left right =>
    if op.isComparison then [(op.isRelational, left), (op.isRelational, right)] else []
  | membership operand list => (false, operand) :: list.map fun v => (false, literal v)
  | _ => []

/-- The operands of a test for equality. -/
def equated : Expr → List Expr
  | binary op left right => if op.isEquality then [left, right] else []
  | _ => []

/-- The function that is called. -/
def function? : Expr → Option Function
  | call function _ => some function
  | _ => none

/-- Whether the expression is a property or a literal. -/
def isSimple : Expr → Bool
  | literal _ | field _ => true
  | _ => false

/-- A predicate that documents can be searched by. It does not ask for the time and has no patterns
of its own, it tests no truth values that are computed for equality, and the stored forms of its
constants keep all that comparisons look at. -/
structure Portable (now : Instant) (e : Expr) : Prop where
  functions : ∀ p ∈ e.parts, ∀ function ∈ p.function?, function ≠ .now ∧ function ≠ .matchesPattern
  operands : ∀ p ∈ e.parts, ∀ x ∈ p.equated, x.type = .boolean → x.isSimple = true
  constants : ∀ p ∈ e.parts, ∀ x ∈ p.comparands, ∀ v ∈ x.2.constant? now, v.Faithful x.1

instance (now : Instant) (e : Expr) : Decidable (e.Portable now) :=
  decidable_of_iff
    ((∀ p ∈ e.parts, ∀ function ∈ p.function?, function ≠ .now ∧ function ≠ .matchesPattern) ∧
      (∀ p ∈ e.parts, ∀ x ∈ p.equated, x.type = .boolean → x.isSimple = true) ∧
      ∀ p ∈ e.parts, ∀ x ∈ p.comparands, ∀ v ∈ x.2.constant? now, v.Faithful x.1)
    ⟨fun h => ⟨h.1, h.2.1, h.2.2⟩, fun h => ⟨h.functions, h.operands, h.constants⟩⟩

/-- The predicate compares values under the key; by order if `ordered` is set. -/
def Compares (e : Expr) (ordered : Bool) (key : String) : Prop :=
  ∃ p ∈ e.parts, ∃ f, (ordered, field f) ∈ p.comparands ∧ f.source = key

end Expr

/-- The record is examined. It conforms to the entity type, and the stored forms of those of its
values that are compared keep all that comparisons look at. -/
structure Examines (compared : Bool → String → Prop) (entity : EntityType) (s : Surroundings)
    (record : Record) : Prop where
  head : s.records.head? = some record
  conforms : entity.Conforms record
  faithful : record.Everywhere fun key v => ∀ ordered, compared ordered key → v.Faithful ordered

namespace Examines

variable {compared : Bool → String → Prop} {entity target : EntityType} {s : Surroundings}
  {record : Record} {p : Property}

theorem value (h : Examines compared entity s record) (key : String) :
    s.value 0 key = record.value key := by
  have hrecord : s.records[0]? = some record := by rw [← List.head?_eq_getElem?, h.head]
  simp only [Surroundings.value, hrecord]

theorem related (h : Examines compared entity s record) (key : String) :
    s.related 0 key = record.related key := by
  have hrecord : s.records[0]? = some record := by rw [← List.head?_eq_getElem?, h.head]
  simp only [Surroundings.related, hrecord]

/-- The values of a property are of its type. -/
theorem holds (h : Examines compared entity s record) (hp : p ∈ entity.properties)
    {type : StaticType} (htype : p.type.scalar? = some type) :
    type.Holds (record.value p.source) := by
  obtain ⟨hscalars, _⟩ := h.conforms
  exact hscalars p hp type htype

/-- The related records are examined by the body of a lambda. -/
theorem enter (h : Examines compared entity s record) (hp : p ∈ entity.properties) {link : Link}
    (htype : p.type = .collection target link) {r : Record} (hr : r ∈ record.related p.source) :
    Examines compared target (s.enter r) r := by
  obtain ⟨_, hconforms⟩ := h.conforms
  obtain ⟨_, hfaithful⟩ := h.faithful
  exact ⟨rfl, hconforms p hp target link htype r hr, hfaithful p.source r hr⟩

end Examines

end ODataQuery
