import ODataQuery.Proofs.Reading.Deepening
import ODataQuery.Search.Basic

/-!
# Options under larger bounds on nesting

The texts of all options are read under a larger bound as under a smaller one, unless the smaller one
cuts them short.

## Main definitions

- `OutlastsBound` — how the outcome under a larger bound follows from that under a smaller one

## Main statements

- `Search.relaxed_ofText` — searches
- `Query.outlasts_bound` — filters, compute items and searches
-/

namespace ODataQuery

-- ════════════════════════════════════════════════════════════════════════
-- Searches
-- ════════════════════════════════════════════════════════════════════════

namespace Search

open SearchReading

variable {bound : Nat} {reader reader' : SearchReading Search}

theorem relaxes_conjuncts (h : Relaxes bound reader reader') (limit : Nat) (left : Search) :
    Relaxes bound (conjuncts reader limit left) (conjuncts reader' limit left) := by
  induction limit generalizing left with
  | zero => exact .refl _
  | succ limit ih =>
    have hmore : Relaxes bound (reader >>= fun right => conjuncts reader limit (.and left right))
        (reader' >>= fun right => conjuncts reader' limit (.and left right)) :=
      h.bind fun right => ih _
    exact .behind fun t => .ite (.behind fun _ => hmore) (.ite hmore (.refl _))

theorem relaxes_conjunction (h : Relaxes bound reader reader') :
    Relaxes bound (conjunction reader) (conjunction reader') :=
  h.bind fun left => .behind fun _ => relaxes_conjuncts h _ left

theorem relaxes_disjuncts (h : Relaxes bound reader reader') (limit : Nat) (left : Search) :
    Relaxes bound (disjuncts reader limit left) (disjuncts reader' limit left) := by
  induction limit generalizing left with
  | zero => exact .refl _
  | succ limit ih =>
    refine .behind fun t => .ite (.behind fun _ => ?_) (.refl _)
    exact (relaxes_conjunction h).bind fun right => ih _

theorem relaxes_disjunction (h : Relaxes bound reader reader') :
    Relaxes bound (disjunction reader) (disjunction reader') :=
  (relaxes_conjunction h).bind fun left => .behind fun _ => relaxes_disjuncts h _ left

theorem relaxes_operandWith (text : List Char) {negated negated' grouped grouped' : SearchReading Search}
    (hnegated : Relaxes bound negated negated') (hgrouped : Relaxes bound grouped grouped') :
    Relaxes bound (operandWith text negated grouped) (operandWith text negated' grouped') := by
  refine .behind fun t => ?_
  cases t with
  | not => exact hnegated.bind fun operand => .refl _
  | leftParen => exact .behind fun opened => hgrouped.bind fun search => .refl _
  | _ => exact .refl _

theorem relaxes_tooDeep (text : List Char) (reader : SearchReading Search) :
    Relaxes bound (fail text (.depthExceeded bound)) reader :=
  fun _ => .inl ⟨_, rfl, rfl⟩

variable (text : List Char) {deeper : Nat}

/-- Readers of operands with more levels to go into relax those with fewer levels. -/
theorem relaxes_operand {levels levels' : Nat} (hle : levels ≤ levels') :
    Relaxes bound (operand text bound levels) (operand text deeper levels') := by
  induction levels generalizing levels' with
  | zero =>
    cases levels' with
    | zero => exact relaxes_operandWith text (relaxes_tooDeep text _) (relaxes_tooDeep text _)
    | succ levels' => exact relaxes_operandWith text (relaxes_tooDeep text _) (relaxes_tooDeep text _)
  | succ levels ih =>
    obtain ⟨inner, rfl⟩ := Nat.exists_eq_add_of_le' (Nat.le_trans (Nat.le_add_left 1 _) hle)
    have hinner := ih (Nat.le_of_succ_le_succ hle)
    exact relaxes_operandWith text (.behind fun _ => hinner) (relaxes_disjunction hinner)

theorem relaxes_nested (hle : bound ≤ deeper) :
    Relaxes bound (nested text bound) (nested text deeper) := by
  cases bound with
  | zero => exact relaxes_tooDeep text _
  | succ levels =>
    obtain ⟨inner, rfl⟩ := Nat.exists_eq_add_of_le' (Nat.le_trans (Nat.le_add_left 1 _) hle)
    exact relaxes_disjunction (relaxes_operand text (Nat.le_of_succ_le_succ hle))

theorem relaxes_complete (hle : bound ≤ deeper) :
    Relaxes bound (complete text bound) (complete text deeper) :=
  .behind fun _ => .ite (.refl _) ((relaxes_nested text hle).bind fun _ => .refl _)

/-- A larger bound only takes back refusals of searches. -/
theorem relaxed_ofText (text : String) (hle : bound ≤ deeper) :
    Relaxed bound (ofText text bound) (ofText text deeper) :=
  (Relaxed.refl _).bind fun c => (relaxes_complete text.toList hle c).bind fun _ => .refl _

end Search

-- ════════════════════════════════════════════════════════════════════════
-- All options
-- ════════════════════════════════════════════════════════════════════════

/-- An outcome that is not cut short by a bound on nesting is also that under the larger bound, and what
is read under the larger bound is read under this one or cut short by it. -/
structure OutlastsBound {α : Type} (bound : Nat) (shallow deep : Except ParseError α) : Prop where
  same : (∀ err, shallow = .error err → ∀ limit, err.fault ≠ .depthExceeded limit) → deep = shallow
  kept : ∀ a, deep = .ok a →
    shallow = .ok a ∨ ∃ err, shallow = .error err ∧ err.fault = .depthExceeded bound

theorem Relaxed.outlastsBound {α : Type} {bound : Nat} {shallow deep : Except ParseError α}
    (h : Relaxed bound shallow deep) : OutlastsBound bound shallow deep := by
  obtain ⟨err, hcut, hfault⟩ | rfl := h
  · exact ⟨fun hsame => absurd hfault (hsame err hcut bound), fun _ _ => .inr ⟨err, hcut, hfault⟩⟩
  · exact ⟨fun _ => rfl, fun a ha => .inl ha⟩

namespace Query

/-- Raising the bound on nesting changes no outcome of reading a filter, compute items or a search other
than that the smaller bound is exceeded. -/
theorem outlasts_bound (text : String) (entity : EntityType) (allowed : AllowList)
    {bound deeper : Nat} (hle : bound ≤ deeper) :
    OutlastsBound bound (Expr.readFilter text entity allowed bound)
        (Expr.readFilter text entity allowed deeper) ∧
      OutlastsBound bound (ComputeItem.readAll text entity allowed bound)
        (ComputeItem.readAll text entity allowed deeper) ∧
      OutlastsBound bound (Search.ofText text bound) (Search.ofText text deeper) :=
  ⟨(Expr.relaxed_readFilter text entity allowed hle).outlastsBound,
    (ComputeItem.relaxed_readAll text entity allowed hle).outlastsBound,
    (Search.relaxed_ofText text hle).outlastsBound⟩

/-- A group takes a level as a filter and as a search: one level is not enough for `(paid)`, three
are. -/
theorem outlasts_bound_group :
    let entity : EntityType := ⟨"Sale", "sales", [⟨"paid", "paid", .primitive .boolean, true⟩]⟩
    (OutlastsBound 1 (Expr.readFilter "(paid)" entity (.all entity) 1)
        (Expr.readFilter "(paid)" entity (.all entity) 3) ∧
      OutlastsBound 1 (ComputeItem.readAll "(paid)" entity (.all entity) 1)
        (ComputeItem.readAll "(paid)" entity (.all entity) 3) ∧
      OutlastsBound 1 (Search.ofText "(paid)" 1) (Search.ofText "(paid)" 3)) ∧
      Search.ofText "(paid)" 1 = .error ⟨.depthExceeded 1, 1, "(paid)"⟩ ∧
      Search.ofText "(paid)" 3 = .ok (.term "paid") ∧
      ∃ e, Expr.readFilter "(paid)" entity (.all entity) 3 = .ok e := by
  intro entity
  have hread : Result.passes (fun _ => true)
      (Expr.readFilter "(paid)" entity (.all entity) 3) = true := by
    decide +kernel
  obtain ⟨e, he, _⟩ := Result.exists_of_passes hread
  exact ⟨outlasts_bound "(paid)" entity (.all entity) (by decide), by decide +kernel,
    by decide +kernel, e, he⟩

end Query

end ODataQuery
