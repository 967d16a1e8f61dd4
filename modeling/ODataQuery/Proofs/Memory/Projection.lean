import ODataQuery.Proofs.Memory.Evaluation
import ODataQuery.Proofs.Query.Compilation

/-!
# Records with computed values

The results of a compute option are written into the record under their names, while the record has
its values under storage keys. Names of results are neither names of properties nor names of other
results, so each result is found under its name; nothing keeps them from being storage keys.

## Main definitions

- `Record.Extends` — records that keep every entry of another one
- `ComputeItem.valueOn` — the value of a compute item on a record

## Main statements

- `Setting.ReadsCompute.fresh` — the names of results
- `Projection.get?_apply_of_mem`, `Projection.get?_apply_of_not_mem` — what is written, and what is not
- `Projection.apply_of_readAll` — which compute options extend every record they are applied to
-/

namespace ODataQuery

-- ════════════════════════════════════════════════════════════════════════
-- Entries of records
-- ════════════════════════════════════════════════════════════════════════

namespace Record

/-- The second record has every entry of the first one. -/
def Extends (record record' : Record) : Prop :=
  ∀ key slot, record.get? key = some slot → record'.get? key = some slot

theorem get?_cons (k key : String) (slot : Slot) (rest : Record) :
    get? ((k, slot) :: rest) key = if key = k then some slot else rest.get? key := by
  rw [get?, get?, List.lookup_cons]
  by_cases hkey : key = k
  · rw [if_pos hkey, beq_iff_eq.mpr hkey]
  · rw [if_neg hkey, beq_eq_false_iff_ne.mpr hkey]

/-- An entry that is written is found under its key, and every other one as before. -/
theorem get?_insert (record : Record) (key key' : String) (slot : Slot) :
    (record.insert key slot).get? key' = if key' = key then some slot else record.get? key' := by
  induction record with
  | nil => exact get?_cons key key' slot []
  | cons first rest ih =>
    obtain ⟨k, s⟩ := first
    rw [insert]
    split
    · exact get?_cons key key' slot ((k, s) :: rest)
    · split
      · next hkey =>
        rw [get?_cons, get?_cons, hkey]
        split <;> rfl
      · next hkey =>
        rw [get?_cons, get?_cons, ih]
        by_cases h : key' = key
        · rw [if_pos h, if_pos h, h, if_neg hkey]
        · rw [if_neg h, if_neg h]

/-- The record with values written under names. -/
def insertAll (record : Record) (entries : List (String × Value)) : Record :=
  entries.foldl (fun r (name, v) => r.insert name (.value v)) record

variable {entries : List (String × Value)} {name : String} {v : Value}

theorem get?_insertAll_of_not_mem (h : name ∉ entries.map Prod.fst) (record : Record) :
    (record.insertAll entries).get? name = record.get? name := by
  induction entries generalizing record with
  | nil => rfl
  | cons first rest ih =>
    obtain ⟨hne, hrest⟩ := not_or.mp (mt List.mem_cons.mpr h)
    rw [insertAll, List.foldl_cons]
    exact (ih hrest _).trans ((get?_insert ..).trans (if_neg hne))

/-- Of values under different names none is overwritten. -/
theorem get?_insertAll_of_mem (hnodup : (entries.map Prod.fst).Nodup) (h : (name, v) ∈ entries)
    (record : Record) : (record.insertAll entries).get? name = some (.value v) := by
  induction entries generalizing record with
  | nil => cases h
  | cons first rest ih =>
    obtain ⟨hfirst, hrest⟩ := List.nodup_cons.mp hnodup
    obtain rfl | h := List.mem_cons.mp h
    · exact (get?_insertAll_of_not_mem hfirst _).trans ((get?_insert ..).trans (if_pos rfl))
    · exact ih hrest h _

end Record

-- ════════════════════════════════════════════════════════════════════════
-- Names of results
-- ════════════════════════════════════════════════════════════════════════

namespace Setting

variable {setting : Setting} {c c' : Cursor} {taken : List String}

theorem fresh_of_resultName {name : String} (h : setting.resultName taken c = .ok (name, c')) :
    setting.entity.find? name = none ∧ name ∉ taken := by
  simp only [resultName, Reading.current_bind, Reading.ite_eq_ok, unexpected_ne_ok, and_false,
    or_false] at h
  obtain ⟨_, c₁, _, h⟩ := h.imp_right Reading.advance_bind_eq_ok.mp
  obtain ⟨t, c₂, _, h⟩ := Reading.bind_eq_ok.mp h
  simp only [Reading.ite_eq_ok, fail_ne_ok, and_false, false_or] at h
  obtain ⟨hfresh, h⟩ := h
  obtain ⟨rfl, _⟩ := Reading.pure_eq_ok.mp h
  simpa using hfresh

/-- No result has the name of a property or of another result. -/
theorem ReadsCompute.fresh {limit : Nat} {items : List ComputeItem}
    (h : setting.ReadsCompute limit taken c items c') :
    (items.map ComputeItem.resultName).Nodup ∧
      ∀ item ∈ items, setting.entity.find? item.resultName = none ∧ item.resultName ∉ taken := by
  induction h with
  | exhausted => exact ⟨List.nodup_nil, nofun⟩
  | last _ hname _ =>
    exact ⟨List.nodup_cons.mpr ⟨nofun, List.nodup_nil⟩, List.forall_mem_singleton.mpr (fresh_of_resultName hname)⟩
  | more _ hname _ _ _ ih =>
    obtain ⟨hnodup, hfresh⟩ := ih
    refine ⟨List.nodup_cons.mpr ⟨fun hmem => ?_, hnodup⟩, List.forall_mem_cons.mpr
      ⟨fresh_of_resultName hname, fun item hitem => ?_⟩⟩
    · obtain ⟨item, hitem, hsame⟩ := List.mem_map.mp hmem
      exact (hfresh item hitem).2 (hsame ▸ List.mem_cons_self)
    · obtain ⟨hproperty, htaken⟩ := hfresh item hitem
      exact ⟨hproperty, fun hmem => htaken (List.mem_cons_of_mem _ hmem)⟩

end Setting

theorem ComputeItem.nodup_of_readAll {text : String} {entity : EntityType} {allowed : AllowList}
    {maxDepth : Nat} {items : List ComputeItem}
    (h : readAll text entity allowed maxDepth = .ok items) :
    (items.map resultName).Nodup := by
  obtain ⟨c, c', _, _, hcompute⟩ := Setting.run_eq_ok.mp h
  exact (Setting.compute_eq_ok.mp hcompute).1.fresh.1

-- ════════════════════════════════════════════════════════════════════════
-- Projections
-- ════════════════════════════════════════════════════════════════════════

/-- The value of a compute item on a record. -/
def ComputeItem.valueOn (item : ComputeItem) (now : Instant) (record : Record) : Value :=
  item.expr.eval ⟨now, record, []⟩

namespace Projection

variable {items : List ComputeItem} {p : Projection} {now : Instant} {record : Record}

/-- The results of a projection are the values of its items under their names, in their order. -/
theorem values_of_ofItems (h : ofItems items = .ok p) (now : Instant) (record : Record) :
    p.values now record = items.map fun item => (item.resultName, item.valueOn now record) := by
  obtain ⟨meanings, hmeanings, hp⟩ := Result.bind_eq_ok.mp h
  cases hp
  rw [values]
  refine List.forall₂_eq_eq_eq ▸ ?_
  rw [List.forall₂_map_left_iff, List.forall₂_map_right_iff]
  refine (Result.mapM_eq_ok.mp hmeanings).flip.imp fun entry item hentry => ?_
  obtain ⟨m, hm, hentry⟩ := Result.bind_eq_ok.mp hentry
  cases hentry
  exact congrArg (Prod.mk item.resultName) (Meaning.eval_of_ofExpr hm now record)

theorem names_of_values (now : Instant) (record : Record) :
    (items.map fun item => (item.resultName, item.valueOn now record)).map Prod.fst =
      items.map ComputeItem.resultName := by
  rw [List.map_map]
  rfl

/-- What a record has under keys that are not names of results stays. -/
theorem get?_apply_of_not_mem (h : ofItems items = .ok p) {key : String}
    (hkey : key ∉ items.map ComputeItem.resultName) :
    (p.apply now record).get? key = record.get? key := by
  have hvalues := values_of_ofItems h now record
  refine Record.get?_insertAll_of_not_mem ?_ record
  rwa [hvalues, names_of_values]

/-- The result of every item is found under its name. -/
theorem get?_apply_of_mem (h : ofItems items = .ok p)
    (hnodup : (items.map ComputeItem.resultName).Nodup) {item : ComputeItem} (hitem : item ∈ items) :
    (p.apply now record).get? item.resultName = some (.value (item.valueOn now record)) := by
  have hvalues := values_of_ofItems h now record
  refine Record.get?_insertAll_of_mem ?_ ?_ record
  · rwa [hvalues, names_of_values]
  · rw [hvalues]
    exact List.mem_map_of_mem hitem

/-- A record is extended unless the name of a result is a key under which it has something else. -/
theorem extends_apply_iff (h : ofItems items = .ok p)
    (hnodup : (items.map ComputeItem.resultName).Nodup) :
    record.Extends (p.apply now record) ↔
      ∀ item ∈ items, ∀ slot, record.get? item.resultName = some slot →
        slot = .value (item.valueOn now record) := by
  constructor
  · intro hextends item hitem slot hslot
    have hkept := hextends _ slot hslot
    rw [get?_apply_of_mem h hnodup hitem] at hkept
    exact (Option.some.inj hkept).symm
  · intro hsame key slot hslot
    by_cases hkey : key ∈ items.map ComputeItem.resultName
    · obtain ⟨item, hitem, rfl⟩ := List.mem_map.mp hkey
      rw [get?_apply_of_mem h hnodup hitem, hsame item hitem slot hslot]
    · rw [get?_apply_of_not_mem h hkey, hslot]

/-- Only the bound on the walk can refuse the items of an accepted compute option. -/
theorem eq_depthExceeded_of_ofItems {text : String} {entity : EntityType} {allowed : AllowList}
    {maxDepth : Nat} (h : ComputeItem.readAll text entity allowed maxDepth = .ok items)
    {err : CompileError} (herr : ofItems items = .error err) :
    err = .depthExceeded defaultMaxDepth := by
  have htyped : ∀ item ∈ items, item.expr.Typed entity [] := fun item hitem =>
    (Expr.Accepted.item h hitem).typed
  have hcompiled : CompiledCompute.ofItems .earliest items entity .memory = .error err :=
    congrArg (Except.map CompiledCompute.memory) herr
  obtain ⟨item, _, hcut⟩ | hlacks := Backend.cutShort_or_lacks_items htyped hcompiled
  · exact hcut.1
  · exact hlacks.elim

/-- Unless it nests too deep for the walk, an accepted compute option gives a projection. Applied to a
record it adds exactly the results, each with its value on the record as it was, and keeps every entry
under another key. It extends the record if it does not write over a key of the record, as the names of
results are told apart from the names of properties only. -/
theorem apply_of_readAll {text : String} {entity : EntityType} {allowed : AllowList} {maxDepth : Nat}
    (h : ComputeItem.readAll text entity allowed maxDepth = .ok items) :
    ofItems items = .error (.depthExceeded defaultMaxDepth) ∨
      ∃ p, ofItems items = .ok p ∧ ∀ now record,
        (∀ item ∈ items, (p.apply now record).get? item.resultName =
          some (.value (item.valueOn now record))) ∧
        (∀ key ∉ items.map ComputeItem.resultName,
          (p.apply now record).get? key = record.get? key) ∧
        (record.Extends (p.apply now record) ↔
          ∀ item ∈ items, ∀ slot, record.get? item.resultName = some slot →
            slot = .value (item.valueOn now record)) := by
  have hnodup := ComputeItem.nodup_of_readAll h
  cases hitems : ofItems items with
  | error err => exact .inl (congrArg _ (eq_depthExceeded_of_ofItems h hitems))
  | ok p =>
    exact .inr ⟨p, rfl, fun now record => ⟨fun item hitem => get?_apply_of_mem hitems hnodup hitem,
      fun key hkey => get?_apply_of_not_mem hitems hkey, extends_apply_iff hitems hnodup⟩⟩

/-- Two results over a record of an order, the second one computed from the quantity as it was. -/
theorem apply_of_readAll_orders :
    let order : EntityType :=
      ⟨"Order", "orders", [⟨"amount", "quantity", .primitive .int32, false⟩]⟩
    let record : Record := [("quantity", .value (.int32 7))]
    ∃ items p,
      ComputeItem.readAll "amount mul 2 as double, amount add 1 as next" order (.all order)
        defaultMaxDepth = .ok items ∧
      ofItems items = .ok p ∧ record.Extends (p.apply .earliest record) ∧
      ((p.apply .earliest record).value "quantity", (p.apply .earliest record).value "double",
        (p.apply .earliest record).value "next") = (.int32 7, .int64 14, .int64 8) := by
  intro order record
  have hrun : Result.passes (fun items =>
      (items.map ComputeItem.resultName == ["double", "next"]) &&
      Result.passes (fun p =>
        ((p.apply .earliest record).value "quantity", (p.apply .earliest record).value "double",
          (p.apply .earliest record).value "next") == (.int32 7, .int64 14, .int64 8))
        (ofItems items))
      (ComputeItem.readAll "amount mul 2 as double, amount add 1 as next" order (.all order)
        defaultMaxDepth) = true := by
    decide +kernel
  obtain ⟨items, p, hread, hnames, hp, hvalues⟩ := Result.exists_of_passes_both hrun
  have hnames := eq_of_beq hnames
  obtain hdeep | ⟨p', hp', happly⟩ := apply_of_readAll hread
  · rw [hp] at hdeep
    cases hdeep
  · rw [hp] at hp'
    cases hp'
    refine ⟨items, p, hread, hp, (happly .earliest record).2.2.mpr fun item hitem slot hslot => ?_,
      eq_of_beq hvalues⟩
    have hname : item.resultName ∈ ["double", "next"] := hnames ▸ List.mem_map_of_mem hitem
    simp only [List.mem_cons, List.not_mem_nil, or_false] at hname
    obtain hname | hname := hname
    all_goals
      rw [hname] at hslot
      cases hslot

/-- The storage key of a property is a free name if the property is called something else, and the
result takes the place of the stored value. -/
theorem not_extends_apply_of_source :
    let product : EntityType :=
      ⟨"Product", "products", [⟨"label", "name", .primitive .string, false⟩]⟩
    let record : Record := [("name", .value (.string "desk"))]
    product.Conforms record ∧ ∃ items p,
      ComputeItem.readAll "1 as name" product (.all product) defaultMaxDepth = .ok items ∧
      ofItems items = .ok p ∧ ¬record.Extends (p.apply .earliest record) := by
  intro product record
  have hrun : Result.passes (fun items => Result.passes (fun p =>
        (p.apply .earliest record).value "name" == .int32 1) (ofItems items))
      (ComputeItem.readAll "1 as name" product (.all product) defaultMaxDepth) = true := by
    decide +kernel
  obtain ⟨items, hread, hrun⟩ := Result.exists_of_passes hrun
  obtain ⟨p, hp, hvalue⟩ := Result.exists_of_passes hrun
  have hconforms : product.Conforms record := by
    refine .intro (List.forall_mem_singleton.mpr ?_) (List.forall_mem_singleton.mpr nofun)
    rintro _ ⟨⟩
    exact .inr rfl
  refine ⟨hconforms, items, p, hread, hp, fun hextends => ?_⟩
  have hkept := hextends "name" (.value (.string "desk")) rfl
  have hdesk : (p.apply .earliest record).value "name" = .string "desk" := by
    rw [Record.value, hkept]
  rw [hdesk] at hvalue
  cases eq_of_beq hvalue

end Projection

end ODataQuery
