import ODataQuery.Proofs.Expr.Height
import ODataQuery.Proofs.Result
import ODataQuery.Search.Predicate

/-!
# Levels of searching and levels of walking

The reader of searches counts a level for each negation and each group. The walk over the predicate of
the search may need two for either: an operand behind `OR` and `AND` stands below both operators, and
below each term stand the tests of the properties with their arguments.

## Main definitions

- `SearchReading.Gives` — what is known of the result of a reading
- `Search.Nests` — a bound on the height of the predicate of a search
- `Search.Chains` — operands of one operator, combined from the left

## Main statements

- `Search.gives_operand` — what a level adds to the height
- `Search.deepest_predicate_le` — the deepest level of the predicate of a search
-/

namespace ODataQuery

-- ════════════════════════════════════════════════════════════════════════
-- Results of readings
-- ════════════════════════════════════════════════════════════════════════

namespace SearchReading

variable {α β : Type} {P : α → Prop} {Q : β → Prop}

/-- Whatever the reading gives satisfies a predicate. -/
def Gives (P : α → Prop) (r : SearchReading α) : Prop :=
  ∀ ⦃c a c'⦄, r c = .ok (a, c') → P a

theorem gives_true (r : SearchReading α) : Gives (fun _ => True) r := fun _ _ _ _ => trivial

theorem Gives.mono {P' : α → Prop} {r : SearchReading α} (h : Gives P r) (hP : ∀ a, P a → P' a) :
    Gives P' r := fun _ a _ hr => hP a (h hr)

theorem gives_pure {a : α} (h : P a) : Gives P (pure a) := by
  intro c a' c' hr
  cases hr
  exact h

theorem gives_fail {text : List Char} {fault : ParseFault} : Gives P (fail text fault) := by
  intro c a c' hr
  cases hr

theorem gives_unexpected {text : List Char} {expected : String} :
    Gives P (unexpected text expected) := by
  intro c a c' hr
  rw [unexpected, Result.run_bind] at hr
  obtain ⟨t, ht, hr⟩ := Result.bind_eq_ok.mp hr
  split at hr
  · exact gives_fail hr
  · exact gives_fail hr

theorem Gives.bind {r : SearchReading α} {f : α → SearchReading β} (hr : Gives P r)
    (hf : ∀ a, P a → Gives Q (f a)) : Gives Q (r >>= f) := by
  intro c b c' h
  obtain ⟨a, c₁, ha, hb⟩ := Result.run_bind_eq_ok.mp h
  exact hf a (hr ha) hb

/-- A step about whose result nothing has to be known. -/
theorem gives_bind {r : SearchReading α} {f : α → SearchReading β} (hf : ∀ a, Gives Q (f a)) :
    Gives Q (r >>= f) :=
  (gives_true r).bind fun a _ => hf a

theorem gives_ite {p : Prop} [Decidable p] {r r' : SearchReading α} (h : Gives P r)
    (h' : Gives P r') : Gives P (if p then r else r') := by
  split
  · exact h
  · exact h'

end SearchReading

-- ════════════════════════════════════════════════════════════════════════
-- Heights of predicates
-- ════════════════════════════════════════════════════════════════════════

namespace Expr

variable {op : BinaryOp} {left right : Expr} {bound : Nat}

/-- A chain of one operator stays as high as its operands make it. -/
theorem heightBefore_binary_le (hleft : left.heightBefore op.precedence ≤ bound)
    (hright : right.height < bound) :
    (binary op left right).heightBefore op.precedence ≤ bound := by
  rw [heightBefore_eq (isGroupedBefore_of_le rfl rfl (Nat.le_refl _)), height_binary]
  omega

theorem height_le_heightBefore (e : Expr) (precedence : Nat) :
    e.height ≤ e.heightBefore precedence := Nat.le_add_right _ _

end Expr

namespace Search

open SearchReading

variable {fields : List Field}

theorem heightBefore_foldl_or_le {tests : List Expr} {e : Expr}
    (he : e.heightBefore BinaryOp.or.precedence ≤ 2) (h : ∀ test ∈ tests, test.height = 1) :
    (tests.foldl (.binary .or) e).heightBefore BinaryOp.or.precedence ≤ 2 := by
  induction tests generalizing e with
  | nil => exact he
  | cons test tests ih =>
    obtain ⟨htest, htests⟩ := List.forall_mem_cons.mp h
    exact ih (Expr.heightBefore_binary_le he (by omega)) htests

theorem height_termPredicate_le (term : String) : (termPredicate fields term).height ≤ 2 := by
  have htest : ∀ test ∈ fields.map (containsTerm term), test.height = 1 :=
    List.forall_mem_map.mpr fun f _ => rfl
  unfold termPredicate
  split
  · exact Nat.zero_le _
  · next test tests heq =>
    rw [heq] at htest
    obtain ⟨htest, htests⟩ := List.forall_mem_cons.mp htest
    have hbefore : test.heightBefore BinaryOp.or.precedence ≤ test.height + 1 :=
      Expr.heightBefore_le
    have hfirst : test.heightBefore BinaryOp.or.precedence ≤ 2 := by omega
    have hchain := heightBefore_foldl_or_le hfirst htests
    exact Nat.le_trans (Expr.height_le_heightBefore _ _) hchain

/-- The predicate of the search is not higher than a bound. -/
def Nests (fields : List Field) (bound : Nat) (search : Search) : Prop :=
  (search.predicate fields).height ≤ bound

/-- Nor is it higher than the bound as the left operand of an operator. -/
def NestsBefore (fields : List Field) (op : BinaryOp) (bound : Nat) (search : Search) : Prop :=
  (search.predicate fields).heightBefore op.precedence ≤ bound

variable {bound : Nat} {search left right : Search} {op : BinaryOp}

theorem Nests.before (h : Nests fields bound search) (op : BinaryOp) :
    NestsBefore fields op (bound + 1) search :=
  Nat.le_trans Expr.heightBefore_le (Nat.succ_le_succ h)

theorem NestsBefore.nests (h : NestsBefore fields op bound search) : Nests fields bound search :=
  Nat.le_trans (Expr.height_le_heightBefore _ _) h

/-- Operands of one operator, combined from the left: a step reads one more of them, or the chain
ends. -/
structure Chains (fields : List Field) (op : BinaryOp) (combine : Search → Search → Search)
    (operand : SearchReading Search) (chain : Nat → Search → SearchReading Search) : Prop where
  predicate_combine : ∀ left right, (combine left right).predicate fields =
    .binary op (left.predicate fields) (right.predicate fields)
  gives_zero : ∀ {P : Search → Prop} {left}, P left → Gives P (chain 0 left)
  gives_succ : ∀ {P : Search → Prop} {limit left}, P left →
    Gives P (operand >>= fun right => chain limit (combine left right)) →
      Gives P (chain (limit + 1) left)

namespace Chains

variable {combine : Search → Search → Search} {operand : SearchReading Search}
  {chain : Nat → Search → SearchReading Search}

theorem nestsBefore (h : Chains fields op combine operand chain)
    (hleft : NestsBefore fields op (bound + 1) left) (hright : Nests fields bound right) :
    NestsBefore fields op (bound + 1) (combine left right) := by
  unfold NestsBefore
  rw [h.predicate_combine]
  exact Expr.heightBefore_binary_le hleft (Nat.lt_succ_of_le hright)

theorem gives (h : Chains fields op combine operand chain)
    (hoperand : Gives (Nests fields bound) operand) (limit : Nat)
    (hleft : NestsBefore fields op (bound + 1) left) :
    Gives (NestsBefore fields op (bound + 1)) (chain limit left) := by
  induction limit generalizing left with
  | zero => exact h.gives_zero hleft
  | succ limit ih =>
    exact h.gives_succ hleft (hoperand.bind fun right hright => ih (h.nestsBefore hleft hright))

/-- A chain, with its first operand, adds one level to the height of its operands. -/
theorem gives_nests (h : Chains fields op combine operand chain)
    (hoperand : Gives (Nests fields bound) operand) :
    Gives (Nests fields (bound + 1)) (do
      let left ← operand
      let remaining ← remaining
      chain (remaining + 1) left) :=
  hoperand.bind fun _ hleft => gives_bind fun _ =>
    (h.gives hoperand _ (hleft.before op)).mono fun _ hs => hs.nests

end Chains

-- ════════════════════════════════════════════════════════════════════════
-- Readings
-- ════════════════════════════════════════════════════════════════════════

variable {inner : SearchReading Search}

theorem chains_conjuncts (fields : List Field) (inner : SearchReading Search) :
    Chains fields .and .and inner (conjuncts inner) where
  predicate_combine _ _ := rfl
  gives_zero := gives_pure
  gives_succ hleft hmore :=
    gives_bind fun _ => gives_ite (gives_bind fun _ => hmore) (gives_ite hmore (gives_pure hleft))

theorem chains_disjuncts (fields : List Field) (inner : SearchReading Search) :
    Chains fields .or .or (conjunction inner) (disjuncts inner) where
  predicate_combine _ _ := rfl
  gives_zero := gives_pure
  gives_succ hleft hmore :=
    gives_bind fun _ => gives_ite (gives_bind fun _ => hmore) (gives_pure hleft)

theorem gives_conjunction (h : Gives (Nests fields bound) inner) :
    Gives (Nests fields (bound + 1)) (conjunction inner) :=
  (chains_conjuncts fields inner).gives_nests h

/-- Operands behind `OR` and `AND` stand two levels below. -/
theorem gives_disjunction (h : Gives (Nests fields bound) inner) :
    Gives (Nests fields (bound + 2)) (disjunction inner) :=
  (chains_disjuncts fields inner).gives_nests (gives_conjunction h)

theorem gives_operandWith {text : List Char} {negated grouped : SearchReading Search}
    (hbound : 2 ≤ bound) (hnegated : Gives (fun s => Nests fields bound (.not s)) negated)
    (hgrouped : Gives (Nests fields bound) grouped) :
    Gives (Nests fields bound) (operandWith text negated grouped) := by
  have hterm (term : String) : Nests fields bound (.term term) :=
    Nat.le_trans (height_termPredicate_le term) hbound
  refine gives_bind fun t => ?_
  split
  · exact gives_bind fun _ => gives_pure (hterm _)
  · exact gives_bind fun _ => gives_pure (hterm _)
  · exact hnegated.bind fun s hs => gives_pure hs
  · refine gives_bind fun opened => hgrouped.bind fun s hs => ?_
    exact gives_bind fun _ => gives_pure hs
  · exact gives_unexpected

/-- Each level adds at most two to the height of an operand. -/
theorem gives_operand (fields : List Field) (text : List Char) (maxDepth levels : Nat) :
    Gives (Nests fields (2 * levels + 2)) (operand text maxDepth levels) := by
  induction levels with
  | zero => exact gives_operandWith (Nat.le_refl _) gives_fail gives_fail
  | succ levels ih =>
    refine gives_operandWith (by omega) (gives_bind fun _ => ih.mono fun search hsearch => ?_)
      (gives_disjunction ih)
    exact Nat.le_trans (Nat.succ_le_succ hsearch) (by omega)

/-- The predicate of a search takes at most two levels of the walk for each level of the search, and
three for its terms. -/
theorem deepest_predicate_le {text : String} {maxDepth : Nat} {search : Search}
    (h : ofText text maxDepth = .ok search) (fields : List Field) :
    (search.predicate fields).deepest 1 ≤ 2 * maxDepth + 3 := by
  have hnested : Gives (Nests fields (2 * maxDepth + 2)) (nested text.toList maxDepth) := by
    cases maxDepth with
    | zero => exact gives_fail
    | succ levels => exact gives_disjunction (gives_operand fields text.toList (levels + 1) levels)
  have hcomplete : Gives (Nests fields (2 * maxDepth + 2)) (complete text.toList maxDepth) := by
    refine gives_bind fun t => gives_ite ?_ ?_
    · intro c s c' hr
      cases hr
    · refine hnested.bind fun s hs => gives_bind fun t' => ?_
      split
      · exact gives_pure hs
      · exact gives_fail
      · exact gives_unexpected
  obtain ⟨c, _, h⟩ := Result.bind_eq_ok.mp h
  obtain ⟨⟨_, c'⟩, hread, h⟩ := Result.bind_eq_ok.mp h
  cases h
  have hheight : (search.predicate fields).height ≤ 2 * maxDepth + 2 := hcomplete hread
  rw [Expr.deepest_eq]
  omega

end Search

end ODataQuery
