import ODataQuery.Proofs.Expr.Typing

/-!
# Operands and arguments

What operators accept, in terms of the kinds of the types of their operands, and what functions
accept. A literal may stand for a member of an enumeration type that its own type does not show; its
kind is the same.

## Main definitions

- `Function.parameterAt?` — the parameter at the position of an argument

## Main statements

- `Expr.Settled.exists_types` — the operands of an operator have the kinds that it accepts
- `Expr.Settled.isBoolean`, `Expr.Settled.isComparableWith`, `Expr.Settled.isOrdered` — operands of
  logical operators, comparisons, and tests of the order
- `Function.accepts_of_check` — the arguments of a call are accepted by their parameters
-/

namespace ODataQuery

namespace StaticType

variable {s t : StaticType}

theorem kind?_ofValue (v : Value) : (ofValue v).kind? = v.kind? := by
  cases v <;> rfl

theorem isBoolean_iff_kind? : t.isBoolean = true ↔ ∀ k ∈ t.kind?, k = .boolean := by
  cases t with
  | null => exact ⟨fun _ => nofun, fun _ => rfl⟩
  | primitive kind => simp [isBoolean, boolean, kind?]
  | enumeration T => simp [isBoolean, boolean, kind?]

theorem isNumeric_iff_kind? : t.isNumeric = true ↔ ∀ k ∈ t.kind?, k.isNumeric = true := by
  cases t with
  | null => exact ⟨fun _ => nofun, fun _ => rfl⟩
  | primitive kind => simp [isNumeric, kind?]
  | enumeration T => simp [isNumeric, kind?]

theorem isOrdered_iff_kind? : t.isOrdered = true ↔ ∀ k ∈ t.kind?, k.isOrdered = true := by
  cases t with
  | null => exact ⟨fun _ => nofun, fun _ => rfl⟩
  | primitive kind => simp [isOrdered, kind?]
  | enumeration T => simp [isOrdered, kind?]

/-- The kinds of comparable types are comparable. -/
theorem isComparableWith_of_kind? (h : s.isComparableWith t = true) :
    ∀ j ∈ s.kind?, ∀ k ∈ t.kind?, j.isComparableWith k = true := by
  intro j hj k hk
  cases s with
  | null => cases hj
  | primitive j' =>
    cases hj
    cases t with
    | null => cases hk
    | primitive k' =>
      cases hk
      simp only [isComparableWith, Bool.and_eq_true] at h
      exact h.2
    | enumeration T => cases h
  | enumeration S =>
    cases hj
    cases t with
    | null => cases hk
    | primitive k' => cases h
    | enumeration T =>
      cases hk
      rfl

end StaticType

namespace Expr

variable {op : BinaryOp} {left right : Expr}

/-- The place of a literal does not change the kind of its type. -/
theorem kind?_typeAgainst (v : Value) (expected : Option StaticType) :
    (v.typeAgainst expected).kind? = v.kind? := by
  unfold Value.typeAgainst
  split
  · split <;> rfl
  · exact StaticType.kind?_ofValue v

/-- The type that an operand is settled to has the kind of its own. -/
theorem kind?_of_settled? {e e' : Expr} {other type : StaticType}
    (h : e.settled? other = some (e', type)) : type.kind? = e'.type.kind? := by
  obtain ⟨v, w, rfl, _, rfl, rfl⟩ | ⟨_, rfl, rfl⟩ := settled?_cases h
  · rw [kind?_typeAgainst, type, StaticType.kind?_ofValue]
  · rfl

/-- The operands of an operator have the kinds of types that it accepts. -/
theorem Settled.exists_types (h : Settled op left right) :
    ∃ s t, Setting.acceptsOperands op s t = true ∧ s.kind? = left.type.kind? ∧
      t.kind? = right.type.kind? := by
  obtain ⟨_, _, l, s, r, t, hl, hr, haccepts, heq⟩ := h
  cases heq
  exact ⟨s, t, haccepts, kind?_of_settled? hl, kind?_of_settled? hr⟩

/-- The operands of a logical operator are Boolean. -/
theorem Settled.isBoolean (h : Settled op left right) (hop : op.isLogical = true) :
    left.type.isBoolean = true ∧ right.type.isBoolean = true := by
  obtain ⟨s, t, haccepts, hs, ht⟩ := h.exists_types
  rw [Setting.acceptsOperands, if_pos hop, Bool.and_eq_true] at haccepts
  rw [StaticType.isBoolean_iff_kind?, StaticType.isBoolean_iff_kind?, hs, ht] at haccepts
  rwa [StaticType.isBoolean_iff_kind?, StaticType.isBoolean_iff_kind?]

/-- The operands of a comparison have comparable kinds. -/
theorem Settled.isComparableWith (h : Settled op left right) (hop : op.isComparison = true) :
    ∀ j ∈ left.type.kind?, ∀ k ∈ right.type.kind?, j.isComparableWith k = true := by
  obtain ⟨s, t, haccepts, hs, ht⟩ := h.exists_types
  rw [← hs, ← ht]
  exact StaticType.isComparableWith_of_kind? (comparable_of_acceptsOperands hop haccepts).1

/-- The operands of a test of the order have ordered kinds. -/
theorem Settled.isOrdered (h : Settled op left right) (hop : op.isRelational = true) :
    (∀ k ∈ left.type.kind?, k.isOrdered = true) ∧ ∀ k ∈ right.type.kind?, k.isOrdered = true := by
  obtain ⟨s, t, haccepts, hs, ht⟩ := h.exists_types
  have hcomparison : op.isComparison = true := Bool.or_eq_true_iff.mpr (.inr hop)
  have hordered := (comparable_of_acceptsOperands hcomparison haccepts).2 hop
  rw [StaticType.isOrdered_iff_kind?, StaticType.isOrdered_iff_kind?, hs, ht] at hordered
  exact hordered

theorem length_types (es : List Expr) : (types es).length = es.length := by
  induction es with
  | nil => rfl
  | cons e es ih => exact congrArg (· + 1) ih

theorem types_eq_map (es : List Expr) : types es = es.map type := by
  induction es with
  | nil => rfl
  | cons e es ih => exact congrArg (e.type :: ·) ih

end Expr

-- ════════════════════════════════════════════════════════════════════════
-- Arguments
-- ════════════════════════════════════════════════════════════════════════

namespace Function

variable {function : Function} {type : StaticType} {types : List StaticType}

theorem check_eq_ok :
    function.check types = .ok type ↔ function.arity.accepts types.length = true ∧
      firstMismatch 0 function.parameters types = none ∧ type = function.resultType types := by
  unfold check
  cases harity : function.arity.accepts types.length with
  | false => simp
  | true =>
    cases hmismatch : firstMismatch 0 function.parameters types with
    | some e => simp
    | none => simp [eq_comm]

/-- Only so many arguments are accepted as there are parameters, unless the number varies. -/
theorem eq_length_of_accepts {n : Nat} (hconcat : function ≠ .concat)
    (hsubstring : function ≠ .substring) (h : function.arity.accepts n = true) :
    n = function.parameters.length := by
  have harity : function.arity =
      ⟨function.parameters.length, some function.parameters.length⟩ := by
    cases function with
    | concat => exact absurd rfl hconcat
    | substring => exact absurd rfl hsubstring
    | _ => rfl
  rw [harity] at h
  simp only [Arity.accepts, Option.all_some, Bool.and_eq_true, decide_eq_true_eq] at h
  omega

/-- The parameter at the position of an argument. Arguments beyond the parameters are held against
the last one. -/
def parameterAt? (function : Function) (i : Nat) : Option Parameter :=
  function.parameters[min i (function.parameters.length - 1)]?

/-- Arguments without a mismatch are accepted by the parameters at their positions. -/
theorem accepts_of_firstMismatch {index : Nat} {ps : List Parameter} {ts : List StaticType}
    (h : firstMismatch index ps ts = none) {i : Nat} {p : Parameter} {t : StaticType}
    (hp : ps[min i (ps.length - 1)]? = some p) (ht : ts[i]? = some t) : p.accepts t = true := by
  induction index, ps, ts using firstMismatch.induct generalizing i with
  | case1 index q t' ts haccepts ih =>
    rw [firstMismatch, if_pos haccepts] at h
    have hq : q = p := by simpa using hp
    cases i with
    | zero =>
      cases ht
      exact hq ▸ haccepts
    | succ i => exact ih h (by simpa using hp) ht
  | case2 index q t' ts hrefuses =>
    rw [firstMismatch, if_neg hrefuses] at h
    cases h
  | case3 index q q' ps t' ts haccepts ih =>
    rw [firstMismatch, if_pos haccepts] at h
    cases i with
    | zero =>
      cases ht
      have hq : q = p := by simpa using hp
      exact hq ▸ haccepts
    | succ i =>
      refine ih h ?_ ht
      have hmin : min (i + 1) ((q :: q' :: ps).length - 1) =
          min i ((q' :: ps).length - 1) + 1 := by
        simp only [List.length_cons]
        omega
      rwa [hmin, List.getElem?_cons_succ] at hp
  | case4 index q q' ps t' ts hrefuses =>
    rw [firstMismatch, if_neg hrefuses] at h
    cases h
  | case5 ts index ps hone hmore =>
    cases ts with
    | nil => cases ht
    | cons t' ts =>
      cases ps with
      | nil => cases hp
      | cons q ps =>
        cases ps with
        | nil => exact (hone q t' ts rfl rfl).elim
        | cons q' ps => exact (hmore q q' ps t' ts rfl rfl).elim

/-- The arguments of a call are accepted by their parameters. -/
theorem accepts_of_check (h : function.check types = .ok type) {i : Nat} {p : Parameter}
    {t : StaticType} (hp : function.parameterAt? i = some p) (ht : types[i]? = some t) :
    p.accepts t = true :=
  accepts_of_firstMismatch (check_eq_ok.mp h).2.1 hp ht

end Function

end ODataQuery
