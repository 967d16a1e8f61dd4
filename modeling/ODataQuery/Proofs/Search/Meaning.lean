import Mathlib.Data.List.Infix
import ODataQuery.Proofs.Memory.Soundness
import ODataQuery.Proofs.Text.Split
import ODataQuery.Search.Predicate

/-!
# Meanings of searches

A search is true, false or unknown of a record. The predicate that it is lowered to, with a disjunction
of tests for every term, has that value in memory.

## Main definitions

- `Kleene.and`, `Kleene.or`, `Kleene.not` — connectives of three truth values
- `EntityType.searched` — the properties that a search may look into
- `Search.termTruth` — whether a term is found in a record
- `Search.valuation` — the truth value of a search, given those of its terms

## Main statements

- `Search.eval_termPredicate` — the value of the disjunction for a term
- `Search.eval_predicate` — the value of the predicate of a search
- `Predicate.value_eq_valuation` — the same of compiled predicates
-/

namespace ODataQuery

-- ════════════════════════════════════════════════════════════════════════
-- Three truth values
-- ════════════════════════════════════════════════════════════════════════

namespace Kleene

/-- The order of truth values: false, unknown, true. -/
def rank : Option Bool → Nat
  | some false => 0
  | none => 1
  | some true => 2

/-- The lesser of two truth values. -/
def and (a b : Option Bool) : Option Bool := if rank a ≤ rank b then a else b

/-- The greater of two truth values. -/
def or (a b : Option Bool) : Option Bool := if rank a ≤ rank b then b else a

/-- The truth value on the other side of the unknown one. -/
def not (a : Option Bool) : Option Bool := a.map Bool.not

/-- The greatest of some truth values; without any, false. -/
def any (as : List (Option Bool)) : Option Bool :=
  if some true ∈ as then some true else if none ∈ as then none else some false

theorem any_singleton (a : Option Bool) : any [a] = a := by
  rcases a with _ | _ | _ <;> rfl

theorem any_concat (as : List (Option Bool)) (a : Option Bool) :
    any (as ++ [a]) = or (any as) a := by
  by_cases htrue : some true ∈ as <;> by_cases hnone : none ∈ as <;>
    match a with
    | none | some false | some true => simp [any, or, rank, htrue, hnone]

end Kleene

namespace Value

theorem conj_ofTruth (a b : Option Bool) :
    conj (ofTruth a) (ofTruth b) = ofTruth (Kleene.and a b) := by
  rcases a with _ | _ | _ <;> rcases b with _ | _ | _ <;> rfl

theorem disj_ofTruth (a b : Option Bool) :
    disj (ofTruth a) (ofTruth b) = ofTruth (Kleene.or a b) := by
  rcases a with _ | _ | _ <;> rcases b with _ | _ | _ <;> rfl

theorem negation_ofTruth (a : Option Bool) :
    (ofTruth a).negation = ofTruth (Kleene.not a) := by
  rcases a with _ | _ | _ <;> rfl

/-- Whether a term occurs in a value; unknown unless this is a text. -/
def findsTerm? (v : Value) (term : String) : Option Bool :=
  v.toString?.map fun s => decide (term.toList <:+: s.toList)

theorem findsTerm?_eq_some_true {v : Value} {term : String} :
    v.findsTerm? term = some true ↔ ∃ s ∈ v.toString?, term.toList <:+: s.toList := by
  simp [findsTerm?]

theorem findsTerm?_eq_none {v : Value} (h : v.IsOfFamily .string) {term : String} :
    v.findsTerm? term = none ↔ v.isNull = true := by
  rw [findsTerm?, Option.map_eq_none_iff]
  cases v with
  | null => exact iff_of_true rfl rfl
  | string s => exact iff_of_false nofun nofun
  | _ => exact absurd (h _ rfl) (by decide)

/-- The value of the test whether a value contains a term. -/
theorem apply_contains (now : Instant) (v : Value) (term : String) :
    apply now .contains [v, .string term] = ofTruth (v.findsTerm? term) := by
  cases v with
  | string s =>
    have hoccurs : occursIn term.toList s.toList = decide (term.toList <:+: s.toList) := by
      rw [Bool.eq_iff_iff, decide_eq_true_iff]
      exact Text.isSome_indexOf? term.toList s.toList
    show boolean (occursIn term.toList s.toList) = _
    rw [hoccurs]
    rfl
  | _ => rfl

end Value

-- ════════════════════════════════════════════════════════════════════════
-- Terms
-- ════════════════════════════════════════════════════════════════════════

/-- The text properties of an entity type that the allow-list has. -/
def EntityType.searched (entity : EntityType) (allowed : AllowList) : List Property :=
  entity.properties.filter fun p => p.kind? == some .string && allowed.allows p.name

/-- A record of the entity type has a text or `null` where a search looks. -/
theorem EntityType.Admits.isOfFamily_of_mem_searched {entity : EntityType} {allowed : AllowList}
    {record : Record} (h : entity.Admits record) {p : Property} (hp : p ∈ entity.searched allowed) :
    (record.value p.source).IsOfFamily .string := by
  obtain ⟨hmem, hsearched⟩ := List.mem_filter.mp hp
  have hkind : p.kind? = some .string := beq_iff_eq.mp (Bool.and_eq_true_iff.mp hsearched).1
  cases h with
  | intro hscalars _ =>
    cases htype : p.type with
    | primitive kind =>
      rw [Property.kind?, htype] at hkind
      cases hkind
      exact hscalars p hmem (.primitive .string) (by rw [htype]; rfl)
    | _ =>
      rw [Property.kind?, htype] at hkind
      cases hkind

namespace Search

variable {entity : EntityType} {allowed : AllowList} {now : Instant} {record : Record}

/-- Whether a term is found in a record: true if it occurs in the text of a property, else unknown if
one of the texts is, and else false. -/
def termTruth (entity : EntityType) (allowed : AllowList) (record : Record) (term : String) :
    Option Bool :=
  if ∃ p ∈ entity.searched allowed, ∃ s ∈ (record.value p.source).toString?,
      term.toList <:+: s.toList then some true
  else if ∃ p ∈ entity.searched allowed, (record.value p.source).isNull = true then none
  else some false

/-- The truth value of a search, given those of its terms. -/
def valuation (truth : String → Option Bool) : Search → Option Bool
  | term text => truth text
  | not operand => Kleene.not (valuation truth operand)
  | and left right => Kleene.and (valuation truth left) (valuation truth right)
  | or left right => Kleene.or (valuation truth left) (valuation truth right)

/-- A search reads the fields of the properties that it may look into. -/
theorem fields_eq_map (entity : EntityType) (allowed : AllowList) :
    fields entity allowed =
      (entity.searched allowed).map fun p => ⟨p.name, p.source, none, .string⟩ := by
  unfold fields EntityType.searched
  induction entity.properties with
  | nil => rfl
  | cons p properties ih =>
    obtain ⟨name, source, type, nullable⟩ := p
    rw [List.filterMap_cons, List.filter_cons]
    cases type with
    | primitive kind =>
      cases kind with
      | string => cases hallowed : allowed.allows name <;> simp [Property.kind?, ih]
      | _ => exact ih
    | _ => exact ih

/-- A disjunction has the greatest of the truth values of its operands. -/
theorem eval_foldl_or {env : Environment} {α : Type} {test : α → Expr} {truth : α → Option Bool}
    (h : ∀ a, (test a).eval env = .ofTruth (truth a)) (as : List α) {e : Expr}
    {before : List (Option Bool)} (he : e.eval env = .ofTruth (Kleene.any before)) :
    ((as.map test).foldl (.binary .or) e).eval env =
      .ofTruth (Kleene.any (before ++ as.map truth)) := by
  induction as generalizing e before with
  | nil => rw [List.map_nil, List.map_nil, List.append_nil, List.foldl_nil, he]
  | cons a as ih =>
    have hor : (Expr.binary .or e (test a)).eval env =
        .ofTruth (Kleene.any (before ++ [truth a])) := by
      rw [Kleene.any_concat, ← Value.disj_ofTruth, ← he, ← h a]
      rfl
    have hrest := ih hor
    rwa [List.append_assoc, List.singleton_append] at hrest

/-- The predicate of a term has the greatest of the truth values of its tests. -/
theorem eval_termPredicate (env : Environment) (term : String) :
    (termPredicate (fields entity allowed) term).eval env = .ofTruth (Kleene.any
      ((entity.searched allowed).map fun p => (env.root.value p.source).findsTerm? term)) := by
  let test (p : Property) : Expr := containsTerm term ⟨p.name, p.source, none, .string⟩
  have htest (p : Property) :
      (test p).eval env = .ofTruth ((env.root.value p.source).findsTerm? term) :=
    Value.apply_contains env.now (env.root.value p.source) term
  have hfields : (fields entity allowed).map (containsTerm term) =
      (entity.searched allowed).map test := by
    rw [fields_eq_map, List.map_map]
    rfl
  unfold termPredicate
  rw [hfields]
  cases entity.searched allowed with
  | nil => rfl
  | cons p ps =>
    have hfirst : (test p).eval env =
        .ofTruth (Kleene.any [(env.root.value p.source).findsTerm? term]) := by
      rw [Kleene.any_singleton, htest]
    exact eval_foldl_or htest ps hfirst

/-- In a record of the entity type, a term is found as far as its tests say. -/
theorem termTruth_eq (hrecord : entity.Admits record) (term : String) :
    termTruth entity allowed record term = Kleene.any
      ((entity.searched allowed).map fun p => (record.value p.source).findsTerm? term) := by
  have htrue : some true ∈ (entity.searched allowed).map (fun p =>
      (record.value p.source).findsTerm? term) ↔ ∃ p ∈ entity.searched allowed,
        ∃ s ∈ (record.value p.source).toString?, term.toList <:+: s.toList := by
    simp only [List.mem_map, Value.findsTerm?_eq_some_true]
  have hnone : none ∈ (entity.searched allowed).map (fun p =>
      (record.value p.source).findsTerm? term) ↔ ∃ p ∈ entity.searched allowed,
        (record.value p.source).isNull = true := by
    rw [List.mem_map]
    refine exists_congr fun p => and_congr_right fun hp => ?_
    exact Value.findsTerm?_eq_none (hrecord.isOfFamily_of_mem_searched hp)
  simp only [termTruth, Kleene.any, htrue, hnone]

/-- The predicate of a search has the truth value of the search. -/
theorem eval_predicate (hrecord : entity.Admits record) (search : Search) :
    (search.predicate (fields entity allowed)).eval ⟨now, record, []⟩ =
      .ofTruth (search.valuation (termTruth entity allowed record)) := by
  induction search with
  | term text => rw [predicate, eval_termPredicate, valuation, termTruth_eq hrecord]
  | not operand ih =>
    rw [predicate, Expr.eval, ih]
    exact Value.negation_ofTruth _
  | and left right ihl ihr =>
    rw [predicate, Expr.eval, ihl, ihr]
    exact Value.conj_ofTruth _ _
  | or left right ihl ihr =>
    rw [predicate, Expr.eval, ihl, ihr]
    exact Value.disj_ofTruth _ _

end Search

/-- On a record of the entity type, the value of the compiled predicate of a search is its truth value: a
term is true if an allowed text property contains it, else unknown if one is `null`, and else false, and
the connectives are those of three truth values. -/
theorem Predicate.value_eq_valuation {search : Search} {entity : EntityType} {allowed : AllowList}
    {p : Predicate} (h : ofExpr (search.predicate (Search.fields entity allowed)) = .ok p)
    (now : Instant) {record : Record} (hrecord : entity.Admits record) :
    p.value now record =
      .ofTruth (search.valuation (Search.termTruth entity allowed record)) := by
  obtain ⟨m, hm, hp⟩ := Result.bind_eq_ok.mp h
  cases hp
  exact (Meaning.eval_of_ofExpr hm now record).trans (Search.eval_predicate hrecord search)

/-- Of a desk without a note it is unknown whether it is not red. -/
theorem Predicate.value_eq_valuation_desk :
    let product : EntityType := ⟨"Product", "products",
      [⟨"name", "name", .primitive .string, false⟩, ⟨"note", "note", .primitive .string, true⟩]⟩
    let record : Record := [("name", .value (.string "oak desk")), ("note", .value .null)]
    let search : Search := .and (.term "desk") (.not (.term "red"))
    ∃ p, ofExpr (search.predicate (Search.fields product (.all product))) = .ok p ∧
      product.Admits record ∧
      p.value .earliest record =
        .ofTruth (search.valuation (Search.termTruth product (.all product) record)) ∧
      Search.termTruth product (.all product) record "desk" = some true ∧
      search.valuation (Search.termTruth product (.all product) record) = none := by
  intro product record search
  have hcompile : Result.passes (fun _ => true)
      (ofExpr (search.predicate (Search.fields product (.all product)))) = true := by
    decide +kernel
  obtain ⟨p, hp, _⟩ := Result.exists_of_passes hcompile
  have hrecord : product.Admits record := by
    refine .intro (fun p hp type htype => ?_) fun p hp target link htype => ?_ <;>
      obtain rfl | rfl := by simpa [product] using hp
    · cases htype
      exact (Value.isOfKind_of_kind? rfl).isOfFamily
    · cases htype
      exact Value.isOfFamily_null _
    · cases htype
    · cases htype
  exact ⟨p, hp, hrecord, value_eq_valuation hp .earliest hrecord, by decide +kernel,
    by decide +kernel⟩

end ODataQuery
