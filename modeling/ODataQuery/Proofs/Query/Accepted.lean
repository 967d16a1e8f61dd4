import ODataQuery.Proofs.Reading.Ending
import ODataQuery.Proofs.Reading.Typing
import ODataQuery.Proofs.Search.Predicate

/-!
# Expressions of accepted texts

The expressions that backends are given: those of filters, searches and compute items.

## Main definitions

- `Expr.Accepted` — the expressions of texts over an entity type

## Main statements

- `Expr.exists_reads`, `ComputeItem.exists_reads` — accepted texts are read by the rules of
  expressions, up to their end
- `Expr.Accepted.typed` — the expression of an accepted text is typed
-/

namespace ODataQuery

namespace Setting

variable {setting : Setting}

theorem ReadsCompute.tokens_suffix {limit : Nat} {taken : List String} {c c' : Cursor}
    {items : List ComputeItem} (h : setting.ReadsCompute limit taken c items c') :
    c'.tokens <:+ c.tokens := by
  induction h with
  | exhausted => exact List.suffix_refl _
  | last he hname _ => exact (cursor_suffix_of_resultName hname).trans he.tokens_suffix
  | more he hname _ hc₂ _ ih =>
    have hitem := (cursor_suffix_of_resultName hname).trans he.tokens_suffix
    exact ih.trans ((Cursor.tokens_suffix_of_advance hc₂).trans hitem)

/-- Each compute item is read by the rules of expressions, from the outermost level on. -/
theorem ReadsCompute.exists_reads {limit : Nat} {taken : List String} {c c' : Cursor}
    {items : List ComputeItem} (h : setting.ReadsCompute limit taken c items c') (hends : c.Ends) :
    ∀ item ∈ items, ∃ c₁ c₂, c₁.Ends ∧ setting.Reads setting.maxDepth 0 [] none c₁ item.expr c₂ := by
  induction h with
  | exhausted =>
    intro item hitem
    cases hitem
  | last he _ _ => exact List.forall_mem_singleton.mpr ⟨_, _, hends, he⟩
  | more he hname _ hc₂ _ ih =>
    have hnext := ((hends.of_suffix he.tokens_suffix).of_suffix
      (cursor_suffix_of_resultName hname)).of_advance hc₂
    exact List.forall_mem_cons.mpr ⟨⟨_, _, hends, he⟩, ih hnext⟩

end Setting

variable {text : String} {entity : EntityType} {allowed : AllowList} {maxDepth : Nat}

/-- A predicate is read by the rules of expressions, up to the end of its text. -/
theorem Expr.exists_reads {e : Expr} (h : readFilter text entity allowed maxDepth = .ok e) :
    ∃ c c', c.Ends ∧
      Setting.Reads ⟨text.toList, entity, allowed, maxDepth⟩ maxDepth 0 [] none c e c' := by
  obtain ⟨c, c', hc, _, hfilter⟩ := Setting.run_eq_ok.mp h
  obtain ⟨hreads, hend, _⟩ := Setting.filter_eq_ok.mp hfilter
  exact ⟨c, c', Cursor.ends_of_ofText hc hreads.tokens_suffix hend, hreads⟩

/-- The items of a compute option are read by the rules of expressions, up to the end of their text. -/
theorem ComputeItem.exists_reads {items : List ComputeItem}
    (h : readAll text entity allowed maxDepth = .ok items) :
    ∀ item ∈ items, ∃ c c', c.Ends ∧
      Setting.Reads ⟨text.toList, entity, allowed, maxDepth⟩ maxDepth 0 [] none c item.expr c' := by
  obtain ⟨c, c', hc, _, hcompute⟩ := Setting.run_eq_ok.mp h
  obtain ⟨hitems, hend⟩ := Setting.compute_eq_ok.mp hcompute
  exact hitems.exists_reads (Cursor.ends_of_ofText hc hitems.tokens_suffix hend)

namespace Expr

/-- The expressions that texts over an entity type denote, each under some allow-list and nesting at
most so deep: filters, the predicates of searches, and compute items. -/
inductive Accepted (entity : EntityType) (maxDepth : Nat) : Expr → Prop
  | filter {text : String} {allowed : AllowList} {e : Expr}
      (h : readFilter text entity allowed maxDepth = .ok e) : Accepted entity maxDepth e
  | search {text : String} {allowed : AllowList} {search : Search}
      (h : Search.ofText text maxDepth = .ok search) :
      Accepted entity maxDepth (search.predicate (Search.fields entity allowed))
  | item {text : String} {allowed : AllowList} {items : List ComputeItem} {item : ComputeItem}
      (h : ComputeItem.readAll text entity allowed maxDepth = .ok items) (hitem : item ∈ items) :
      Accepted entity maxDepth item.expr

/-- The expression of an accepted text is typed. -/
theorem Accepted.typed {entity : EntityType} {maxDepth : Nat} {e : Expr}
    (h : Accepted entity maxDepth e) : Typed entity [] e := by
  cases h with
  | filter h => exact (typed_of_readFilter h).1
  | @search text allowed search h => exact (Search.admitted_predicate search).1
  | item h hitem =>
    obtain ⟨c, c', _, hreads⟩ := ComputeItem.exists_reads h _ hitem
    exact hreads.typed

end Expr

end ODataQuery
