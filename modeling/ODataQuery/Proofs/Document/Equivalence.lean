import ODataQuery.Proofs.Document.Rendering
import ODataQuery.Proofs.Document.Simulation
import ODataQuery.Proofs.Reading.Typing

/-!
# Equivalence of documents and memory

The query that is built for a predicate selects the document of a record exactly if the predicate,
evaluated in memory, selects the record.

## Main statements

- `DocumentNode.agrees_of_ofExpr` — the node of an expression stands for its meaning in memory
- `DocumentNode.selects_render` — the queries for a predicate and for its negation
- `Expr.selects_document_iff` — both backends select the same records
-/

namespace ODataQuery

/-- The node of a portable expression stands for the meaning that it has in memory. -/
theorem DocumentNode.agrees_of_ofExpr {entity : EntityType} {e : Expr} {now : Instant}
    {node : DocumentNode} (htyped : Expr.Typed entity [] e) (he : e.Portable now)
    (h : DocumentNode.ofExpr now e = .ok node) :
    ∃ m, Meaning.ofExpr e = .ok m ∧ Agrees e.Compares entity now e node m := by
  obtain ⟨hwalk, names, hbuild⟩ := Expr.listen_eq_ok.mp h
  obtain ⟨_, m, hm, hagrees⟩ := simulated he htyped (List.Subset.refl _) node names hbuild
  exact ⟨m, Expr.listen_eq_ok.mpr ⟨hwalk, _, hm⟩, hagrees⟩

-- ════════════════════════════════════════════════════════════════════════
-- Orders
-- ════════════════════════════════════════════════════════════════════════

namespace Orders

/-- The day of shipment. -/
def shipDate : Property := ⟨"ship_date", "ship_date", .primitive .date, true⟩

/-- Whether the order is paid. -/
def paid : Property := ⟨"paid", "paid", .primitive .boolean, false⟩

/-- Orders with the day of their shipment and whether they are paid. -/
def entity : EntityType := ⟨"Order", "orders", [shipDate, paid]⟩

/-- An order that is paid. -/
def record (shipped : Date) : Record :=
  [("paid", .value (.boolean true)), ("ship_date", .value (.date shipped))]

/-- The document of the order. -/
def document (shipped : Date) : Json :=
  .object [("paid", .bool true), ("ship_date", .string shipped.text)]

theorem eq_of_mem {p : Property} (hp : p ∈ entity.properties) : p = shipDate ∨ p = paid := by
  simpa [entity] using hp

theorem type_ne_collection {p : Property} (hp : p ∈ entity.properties) (target : EntityType)
    (link : Link) : p.type ≠ .collection target link := by
  obtain rfl | rfl := eq_of_mem hp <;> exact PropertyType.noConfusion

theorem hasPlainKeys : entity.HasPlainKeys :=
  .intro (by decide) fun _ hp target link htype => absurd htype (type_ne_collection hp target link)

/-- A record is an order if both of its values are of their types. -/
theorem conforms_of_values {r : Record}
    (hshipped : (StaticType.primitive .date).Holds (r.value shipDate.source))
    (hpaid : (StaticType.primitive .boolean).Holds (r.value paid.source)) : entity.Conforms r := by
  refine .intro (fun p hp type htype => ?_) fun _ hp target link htype =>
    absurd htype (type_ne_collection hp target link)
  obtain rfl | rfl := eq_of_mem hp
  · cases htype
    exact hshipped
  · cases htype
    exact hpaid

/-- A document stores an order if it has the stored forms of both values. -/
theorem stores_of_members {r : Record} {members : List (String × Json)}
    (hshipped : members.lookup shipDate.source = some (r.value shipDate.source).toDocument)
    (hpaid : members.lookup paid.source = some (r.value paid.source).toDocument) :
    entity.Stores r (.object members) := by
  refine .intro (fun p hp type htype => ?_) (fun _ => [])
    (fun _ hp target link htype => absurd htype (type_ne_collection hp target link))
    fun _ hp target link htype => absurd htype (type_ne_collection hp target link)
  obtain rfl | rfl := eq_of_mem hp
  · exact hshipped
  · exact hpaid

/-- The values of a paid order are stored faithfully if the day of its shipment is. -/
theorem faithful_of_value {v : Value} (h : ∀ ordered, v.Faithful ordered)
    (compared : Bool → String → Prop) :
    Record.Everywhere (fun key v => ∀ ordered, compared ordered key → v.Faithful ordered)
      [(paid.source, .value (.boolean true)), (shipDate.source, .value v)] := by
  refine Record.everywhere_of_values ?_ fun _ _ _ => trivial
  exact List.forall_mem_cons.mpr ⟨⟨_, rfl, fun _ _ => trivial⟩,
    List.forall_mem_singleton.mpr ⟨_, rfl, fun ordered _ => h ordered⟩⟩

theorem conforms (shipped : Date) : entity.Conforms (record shipped) :=
  conforms_of_values (.inr rfl) (.inr rfl)

theorem stores (shipped : Date) : entity.Stores (record shipped) (document shipped) :=
  stores_of_members rfl rfl

/-- The values of an order are stored faithfully if its day has a year of four digits. -/
theorem faithful {shipped : Date} (h : shipped.HasFourDigitYear)
    (compared : Bool → String → Prop) :
    (record shipped).Everywhere fun key v => ∀ ordered, compared ordered key →
      v.Faithful ordered :=
  faithful_of_value (v := .date shipped) (fun _ _ => h) compared

/-- The twentieth of January 2020. -/
def january : Date := { Date.newYear 2020 with day := 20, day_mem := by decide }

end Orders

-- ════════════════════════════════════════════════════════════════════════
-- Both backends
-- ════════════════════════════════════════════════════════════════════════

/-- The query for a predicate selects the document of a record where the predicate is true in memory,
and the query for its negation where it is false. -/
theorem DocumentNode.selects_render {entity : EntityType} {e : Expr} {now now' : Instant}
    {node : DocumentNode} {f : DocumentFilter} {record : Record} {doc : Json}
    (htyped : Expr.Typed entity [] e) (hnode : DocumentNode.ofExpr now e = .ok node)
    (hf : node.predicate = .ok f) (hkeys : entity.HasPlainKeys) (he : e.Portable now)
    (hconforms : entity.Conforms record)
    (hfaithful : record.Everywhere fun key v =>
      ∀ ordered, e.Compares ordered key → v.Faithful ordered)
    (hstores : entity.Stores record doc) :
    ∃ p, Predicate.ofExpr e = .ok p ∧ ∀ negated,
      (f.render negated).selects doc = ((p.value now' record).truth? == some !negated) := by
  obtain ⟨m, hm, hagrees⟩ := DocumentNode.agrees_of_ofExpr htyped he hnode
  have hrepresents := hagrees.predicate hf
  have hexamines : Examines e.Compares entity ⟨now', [record]⟩ record :=
    ⟨rfl, hconforms, hfaithful⟩
  refine ⟨⟨m⟩, Result.bind_eq_ok.mpr ⟨m, hm, rfl⟩, fun negated => ?_⟩
  rw [DocumentFilter.selects_render hrepresents.fits hkeys hconforms hfaithful hstores,
    ← hrepresents.truth _ record hexamines]
  rfl

/-- A predicate that is read and compiled to a document query selects the same records in memory as
the query selects documents. The storage keys are paths of one part, the predicate is portable, the
record conforms to the entity type, the stored forms of all values that the predicate compares keep
what comparisons look at, and the document stores the record. -/
theorem Expr.selects_document_iff {text : String} {entity : EntityType} {allowed : AllowList}
    {maxDepth : Nat} {e : Expr} {now now' : Instant} {query doc : Json} {record : Record}
    (hread : readFilter text entity allowed maxDepth = .ok e)
    (hquery : DocumentQuery.ofExpr now e = .ok query) (hkeys : entity.HasPlainKeys)
    (he : e.Portable now) (hconforms : entity.Conforms record)
    (hfaithful : record.Everywhere fun key v =>
      ∀ ordered, e.Compares ordered key → v.Faithful ordered)
    (hstores : entity.Stores record doc) :
    ∃ p, Predicate.ofExpr e = .ok p ∧
      (p.selects now' record = true ↔ query.selects doc = true) := by
  obtain ⟨node, hnode, hrest⟩ := Result.bind_eq_ok.mp hquery
  obtain ⟨f, hf, hrender⟩ := Result.bind_eq_ok.mp hrest
  cases hrender
  obtain ⟨htyped, _⟩ := typed_of_readFilter hread
  obtain ⟨p, hp, hselects⟩ :=
    DocumentNode.selects_render htyped hnode hf hkeys he hconforms hfaithful hstores
  refine ⟨p, hp, ?_⟩
  rw [hselects]
  exact Iff.rfl

/-- `not (ship_date gt 2020-02-01) and paid` selects an order that was shipped in January, and its
document. -/
theorem Expr.selects_document_orders :
    ∃ e query, readFilter "not (ship_date gt 2020-02-01) and paid" Orders.entity
        (.all Orders.entity) defaultMaxDepth = .ok e ∧
      DocumentQuery.ofExpr .earliest e = .ok query ∧ e.Portable .earliest ∧
      query.selects (Orders.document Orders.january) = true ∧
      ∃ p, Predicate.ofExpr e = .ok p ∧ (p.selects .earliest (Orders.record Orders.january) = true ↔
        query.selects (Orders.document Orders.january) = true) := by
  have hread : Result.passes (fun e => decide (e.Portable .earliest) && Result.passes
      (fun query => query.selects (Orders.document Orders.january))
      (DocumentQuery.ofExpr .earliest e))
      (readFilter "not (ship_date gt 2020-02-01) and paid" Orders.entity (.all Orders.entity)
        defaultMaxDepth) = true := by decide +kernel
  obtain ⟨e, hread, htest⟩ := Result.exists_of_passes hread
  obtain ⟨he, hquery⟩ := Bool.and_eq_true_iff.mp htest
  obtain ⟨query, hquery, hselects⟩ := Result.exists_of_passes hquery
  have he : e.Portable .earliest := of_decide_eq_true he
  exact ⟨e, query, hread, hquery, he, hselects, selects_document_iff hread hquery
    Orders.hasPlainKeys he (Orders.conforms _) (Orders.faithful (by decide) _) (Orders.stores _)⟩

/-- A date behind the year 9999 is stored behind a sign, in front of all other dates: the filter
`ship_date lt date(9999-12-31T23:30:00-01:00)` selects an order, but not its document. Only the
constant is not stored faithfully. -/
theorem Expr.selects_document_late :
    ∃ e query p, readFilter "ship_date lt date(9999-12-31T23:30:00-01:00)" Orders.entity
        (.all Orders.entity) defaultMaxDepth = .ok e ∧
      DocumentQuery.ofExpr .earliest e = .ok query ∧ Predicate.ofExpr e = .ok p ∧
      (∀ p ∈ e.parts, ∀ function ∈ p.function?, function ≠ .now ∧ function ≠ .matchesPattern) ∧
      (∀ p ∈ e.parts, ∀ x ∈ p.equated, x.type = .boolean → x.isSimple = true) ∧
      Orders.entity.HasPlainKeys ∧ Orders.entity.Conforms (Orders.record Orders.january) ∧
      Orders.entity.Stores (Orders.record Orders.january) (Orders.document Orders.january) ∧
      p.selects .earliest (Orders.record Orders.january) = true ∧
      query.selects (Orders.document Orders.january) = false := by
  have hread : Result.passes (fun e =>
      decide ((∀ p ∈ e.parts, ∀ function ∈ p.function?,
        function ≠ .now ∧ function ≠ .matchesPattern) ∧
        ∀ p ∈ e.parts, ∀ x ∈ p.equated, x.type = .boolean → x.isSimple = true) &&
      Result.passes (fun query => Result.passes (fun p =>
        p.selects .earliest (Orders.record Orders.january) &&
          !query.selects (Orders.document Orders.january)) (Predicate.ofExpr e))
      (DocumentQuery.ofExpr .earliest e))
      (readFilter "ship_date lt date(9999-12-31T23:30:00-01:00)" Orders.entity
        (.all Orders.entity) defaultMaxDepth) = true := by decide +kernel
  obtain ⟨e, hread, htest⟩ := Result.exists_of_passes hread
  obtain ⟨he, hquery⟩ := Bool.and_eq_true_iff.mp htest
  obtain ⟨query, hquery, hp⟩ := Result.exists_of_passes hquery
  obtain ⟨p, hp, hselects⟩ := Result.exists_of_passes hp
  obtain ⟨hrecord, hdocument⟩ := Bool.and_eq_true_iff.mp hselects
  obtain ⟨hfunctions, hoperands⟩ := of_decide_eq_true he
  exact ⟨e, query, p, hread, hquery, hp, hfunctions, hoperands, Orders.hasPlainKeys,
    Orders.conforms _, Orders.stores _, hrecord, by simpa using hdocument⟩

end ODataQuery
