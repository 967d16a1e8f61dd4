import ODataQuery.Proofs.Reading.Rules
import ODataQuery.Proofs.Value.Typing

/-!
# Typed expressions

What holds of the types in every expression that is read, without regard to its text.

## Main definitions

- `Expr.constant?` — the value of an expression of literals
- `Expr.startsAt?` — the entity type that a reference starts at
- `Expr.Settled` — operands that were fitted to each other and are accepted by an operator
- `Expr.Typed` — expressions whose parts fit together
- `StaticType.Meets` — the constants that values of a type can be compared with

## Main statements

- `Expr.Typed.covers` — the type of an expression of literals covers its value
- `Expr.Settled.meets_right`, `Expr.Settled.meets_left` — a constant that is compared with a
  property meets its type
-/

namespace ODataQuery

/-- The value is a constant that a value of the type can be compared with. -/
def StaticType.Meets : StaticType → Value → Prop
  | null, _ => True
  | primitive kind, v => ∀ k ∈ v.kind?, (primitive kind).isComparableWith (primitive k) = true
  | enumeration type, v => v = .null ∨ ∃ names, type.value? names = some v

namespace Expr

-- ════════════════════════════════════════════════════════════════════════
-- Constants
-- ════════════════════════════════════════════════════════════════════════

mutual

/-- The value of an expression of literals, arithmetic and functions. -/
def constant? (now : Instant) : Expr → Option Value
  | literal v => some v
  | binary op left right =>
    match op.isArithmetic, constant? now left, constant? now right with
    | true, some a, some b => some (Value.arithmetic op a b)
    | _, _, _ => none
  | unary .negate operand => (constant? now operand).map Value.opposite
  | call function arguments => (constants? now arguments).map (Value.apply now function)
  | _ => none

/-- The values of expressions of literals. -/
def constants? (now : Instant) : List Expr → Option (List Value)
  | [] => some []
  | e :: es =>
    match constant? now e, constants? now es with
    | some v, some vs => some (v :: vs)
    | _, _ => none

end

-- ════════════════════════════════════════════════════════════════════════
-- Types of expressions
-- ════════════════════════════════════════════════════════════════════════

/-- The entity type that a reference starts at. -/
def startsAt? (root : EntityType) (scope : List Frame) : Option String → Option EntityType
  | none => some root
  | some name => (Frame.find? scope name).map Frame.entity

/-- Operands that were fitted to each other and are accepted by an operator. -/
def Settled (op : BinaryOp) (left right : Expr) : Prop :=
  ∃ l r, Combines op l r (.binary op left right)

/-- The parts of the expression fit together: references lead to declared properties, and operators
and functions accept their operands. -/
inductive Typed (root : EntityType) : List Frame → Expr → Prop
  | literal {scope v} : Typed root scope (.literal v)
  | field {scope origin entity} {p : Property} {type}
      (hentity : startsAt? root scope origin = some entity) (hp : p ∈ entity.properties)
      (htype : p.type.scalar? = some type) :
      Typed root scope (.field ⟨p.name, p.source, origin, type⟩)
  | binary {scope op left right} (hleft : Typed root scope left) (hright : Typed root scope right)
      (h : Settled op left right) : Typed root scope (.binary op left right)
  | unary {scope op operand} (h : Typed root scope operand)
      (htype : Setting.acceptsOperand op operand.type = true) :
      Typed root scope (.unary op operand)
  | membership {scope operand list} (h : Typed root scope operand)
      (hlist : ∀ v ∈ list, v.isNull = false ∧ operand.type.Meets v) :
      Typed root scope (.membership operand list)
  | call {scope function arguments type} (h : ∀ e ∈ arguments, Typed root scope e)
      (htype : function.check (types arguments) = .ok type) :
      Typed root scope (.call function arguments)
  | lambda {scope origin entity} {p : Property} {target link quantifier frame body}
      (hentity : startsAt? root scope origin = some entity) (hp : p ∈ entity.properties)
      (htype : p.type = .collection target link) (hframe : frame.entity = target)
      (h : Typed root (frame :: scope) body) (hbody : body.type.isBoolean = true) :
      Typed root scope
        (.lambda ⟨⟨p.name, p.source, origin, target, link⟩, quantifier, frame.name⟩ body)
  | bare {scope origin entity} {p : Property} {target link quantifier}
      (hentity : startsAt? root scope origin = some entity) (hp : p ∈ entity.properties)
      (htype : p.type = .collection target link) :
      Typed root scope (.bare ⟨⟨p.name, p.source, origin, target, link⟩, quantifier, ""⟩)

-- ════════════════════════════════════════════════════════════════════════
-- Settled operands
-- ════════════════════════════════════════════════════════════════════════

/-- An operand is a fitted literal, or it stays what it was. -/
theorem settled?_cases {e e' : Expr} {other type : StaticType}
    (h : e.settled? other = some (e', type)) :
    (∃ v w, e = .literal v ∧ v.coerce? other = some w ∧ e' = .literal w ∧
      type = w.typeAgainst (some other)) ∨
      (∀ v, e' ≠ .literal v) ∧ e = e' ∧ type = e'.type := by
  cases e with
  | literal v =>
    simp only [settled?, Option.map_eq_some_iff, Prod.mk.injEq] at h
    obtain ⟨w, hw, rfl, rfl⟩ := h
    exact .inl ⟨v, w, rfl, hw, rfl, rfl⟩
  | _ =>
    cases h
    exact .inr ⟨fun _ h => Expr.noConfusion h, rfl, rfl⟩

theorem Typed.of_settled? {root : EntityType} {scope : List Frame} {e e' : Expr}
    {other type : StaticType} (he : Typed root scope e) (h : e.settled? other = some (e', type)) :
    Typed root scope e' := by
  obtain ⟨v, w, rfl, _, rfl, _⟩ | ⟨_, rfl, _⟩ := settled?_cases h
  · exact .literal
  · exact he

/-- Operands that are combined make a typed operation. -/
theorem Typed.of_combines {root : EntityType} {scope : List Frame} {op : BinaryOp}
    {left right e : Expr} (hleft : Typed root scope left) (hright : Typed root scope right)
    (h : Combines op left right e) : Typed root scope e := by
  obtain ⟨l, lt, r, rt, hl, hr, hop, rfl⟩ := id h
  exact .binary (hleft.of_settled? hl) (hright.of_settled? hr) ⟨left, right, h⟩

/-- The type of a number does not depend on what is expected in its place. -/
theorem typeAgainst_of_isNumeric {v : Value} {expected : Option StaticType}
    (h : (v.typeAgainst expected).isNumeric = true) : v.typeAgainst expected = .ofValue v := by
  have henum (T : EnumType) : (StaticType.enumeration T).isNumeric = false := rfl
  cases v with
  | enumeration e =>
    unfold Value.typeAgainst at h
    split at h
    · next he =>
      cases he
      split at h
      · rw [henum] at h
        cases h
      · cases h
    · cases h
  | _ => rfl

/-- The type that a numeric operand was settled to is its own. -/
theorem type_of_settled? {e e' : Expr} {other type : StaticType}
    (h : e.settled? other = some (e', type)) (hnumeric : type.isNumeric = true) :
    e'.type = type := by
  obtain ⟨v, w, rfl, _, rfl, rfl⟩ | ⟨_, rfl, rfl⟩ := settled?_cases h
  · exact (typeAgainst_of_isNumeric hnumeric).symm
  · rfl

/-- Operands of arithmetic are numbers. -/
theorem Settled.isNumeric {op : BinaryOp} {left right : Expr} (h : Settled op left right)
    (hop : op.isArithmetic = true) : left.type.isNumeric = true ∧ right.type.isNumeric = true := by
  obtain ⟨l₀, r₀, l, lt, r, rt, hl, hr, haccepts, heq⟩ := h
  cases heq
  have hnumeric : lt.isNumeric = true ∧ rt.isNumeric = true := by
    cases op with
    | add | sub | mul | div | divby | mod => exact Bool.and_eq_true_iff.mp haccepts
    | _ => cases hop
  rw [type_of_settled? hl hnumeric.1, type_of_settled? hr hnumeric.2]
  exact hnumeric

theorem constants?_cons {now : Instant} {e : Expr} {es : List Expr} {vs : List Value}
    (h : constants? now (e :: es) = some vs) :
    ∃ v ws, e.constant? now = some v ∧ constants? now es = some ws ∧ vs = v :: ws := by
  unfold constants? at h
  split at h
  · next v ws hv hws =>
    cases h
    exact ⟨v, ws, hv, hws, rfl⟩
  · cases h

/-- The type of an expression of literals covers its value. -/
theorem Typed.covers {root : EntityType} {scope : List Frame} {e : Expr} {now : Instant}
    {v : Value} (h : Typed root scope e) (hv : e.constant? now = some v) : e.type.Covers v := by
  induction h generalizing v with
  | literal =>
    cases hv
    exact StaticType.covers_ofValue _
  | @binary scope op left right hleft hright hsettled ihl ihr =>
    simp only [constant?] at hv
    split at hv
    · next a b hop ha hb =>
      cases hv
      obtain ⟨hl, hr⟩ := hsettled.isNumeric hop
      rw [type, if_pos hop]
      exact StaticType.covers_arithmetic hl hr (ihl ha) (ihr hb)
    · cases hv
  | @unary scope op operand h htype ih =>
    cases op with
    | not => cases hv
    | negate =>
      simp only [constant?, Option.map_eq_some_iff] at hv
      obtain ⟨a, ha, rfl⟩ := hv
      exact StaticType.covers_opposite htype (ih ha)
  | @call scope function arguments type h htype ih =>
    simp only [constant?, Option.map_eq_some_iff] at hv
    obtain ⟨vs, hvs, rfl⟩ := hv
    have hheads : ∀ t ∈ (types arguments).head?, ∀ v ∈ vs.head?, t.Covers v := by
      cases arguments with
      | nil => exact nofun
      | cons e es =>
        obtain ⟨v, ws, hv, _, rfl⟩ := constants?_cons hvs
        intro t ht w hw
        cases ht
        cases hw
        exact ih e List.mem_cons_self hv
    simp only [Expr.type, htype]
    exact StaticType.covers_apply htype hheads now
  | field | membership | lambda | bare => cases hv

-- ════════════════════════════════════════════════════════════════════════
-- Constants that are compared with properties
-- ════════════════════════════════════════════════════════════════════════

theorem isComparableWith_comm (s t : StaticType) : s.isComparableWith t = t.isComparableWith s := by
  cases s <;> cases t <;>
    simp only [StaticType.isComparableWith, Kind.isComparableWith_comm, Bool.beq_comm, Bool.and_comm]

/-- Numbers stand for each other, and all other kinds for themselves. -/
theorem isComparableWith_trans {j k l : Kind} (hjk : j.isComparableWith k = true)
    (hkl : k.isComparableWith l = true) : j.isComparableWith l = true := by
  simp only [Kind.isComparableWith, Bool.or_eq_true, beq_iff_eq, Bool.and_eq_true] at *
  obtain rfl | ⟨hj, hk⟩ := hjk
  · exact hkl
  · obtain rfl | ⟨_, hl⟩ := hkl
    · exact .inr ⟨hj, hk⟩
    · exact .inr ⟨hj, hl⟩

/-- A value meets a type if it can be compared with it, and has members that the type declares if it
is one of its values. -/
theorem meets_of_isComparableWith {type : StaticType} {v : Value}
    (h : type.isComparableWith (v.typeAgainst (some type)) = true)
    (hmember : ∀ T e, type = .enumeration T → v = .enumeration e → e.typeName = T.name →
      ∃ names, T.value? names = some v) : type.Meets v := by
  cases type with
  | null => trivial
  | primitive kind =>
    intro k hk
    have htype : v.typeAgainst (some (.primitive kind)) = .primitive k := by
      cases v <;> cases hk <;> rfl
    rwa [htype] at h
  | enumeration T =>
    cases v with
    | null => exact .inl rfl
    | enumeration e =>
      simp only [Value.typeAgainst] at h
      split at h
      · next hname => exact .inr (hmember T e rfl rfl hname)
      · cases h
    | _ => cases h

/-- A value that was fitted to an enumeration type has members that the type declares. -/
theorem exists_members_of_coerce? {T : EnumType} {v w : Value} {e : EnumValue}
    (hw : v.coerce? (.enumeration T) = some w) (he : w = .enumeration e)
    (hname : e.typeName = T.name) : ∃ names, T.value? names = some w := by
  cases v with
  | string s =>
    simp only [Value.coerce?, Option.bind_eq_some_iff] at hw
    obtain ⟨names, _, hnames⟩ := hw
    exact ⟨names, hnames⟩
  | enumeration e' =>
    simp only [Value.coerce?] at hw
    split at hw
    · exact ⟨_, hw⟩
    · next hne =>
      cases hw
      cases he
      exact absurd hname hne
  | _ =>
    cases hw
    cases he

/-- A constant operand that was fitted to a type, and can be compared with it, meets it. -/
theorem Typed.meets {root : EntityType} {scope : List Frame} {e e' : Expr} {now : Instant}
    {v : Value} {other type : StaticType} (he : Typed root scope e')
    (hv : e'.constant? now = some v) (h : e.settled? other = some (e', type))
    (hcomparable : other.isComparableWith type = true) : other.Meets v := by
  obtain ⟨v₀, w, rfl, hw, rfl, rfl⟩ | ⟨_, rfl, rfl⟩ := settled?_cases h
  · cases hv
    refine meets_of_isComparableWith hcomparable fun T e hT he hname => ?_
    subst hT
    exact exists_members_of_coerce? hw he hname
  · have hcovers := he.covers hv
    cases htype : e.type with
    | null =>
      rw [htype] at hcovers
      cases hcovers
      cases other with
      | null => trivial
      | primitive kind => exact nofun
      | enumeration T => exact .inl rfl
    | enumeration T =>
      rw [htype] at hcovers
      exact hcovers.elim
    | primitive kind =>
      rw [htype] at hcovers hcomparable
      cases other with
      | null => trivial
      | enumeration T => cases hcomparable
      | primitive kind' =>
        intro k hk
        simp only [StaticType.isComparableWith, Bool.and_eq_true, bne_iff_ne] at hcomparable ⊢
        obtain ⟨⟨hne', hne⟩, hkinds⟩ := hcomparable
        refine ⟨⟨hne', ?_⟩, isComparableWith_trans hkinds (hcovers k hk)⟩
        rintro rfl
        have := hcovers _ hk
        simp only [Kind.isComparableWith, Bool.or_eq_true, beq_iff_eq] at this
        obtain heq | hnumeric := this
        · exact hne heq
        · simp [Kind.isNumeric, Kind.isInteger, Kind.isFloating] at hnumeric

/-- What a comparison accepts. -/
theorem comparable_of_acceptsOperands {op : BinaryOp} {s t : StaticType}
    (hop : op.isComparison = true) (h : Setting.acceptsOperands op s t = true) :
    s.isComparableWith t = true ∧
      (op.isRelational = true → s.isOrdered = true ∧ t.isOrdered = true) := by
  cases op with
  | eq | ne => exact ⟨h, nofun⟩
  | gt | ge | lt | le =>
    have h : (s.isComparableWith t && s.isOrdered && t.isOrdered) = true := h
    simp only [Bool.and_eq_true] at h
    exact ⟨h.1.1, fun _ => ⟨h.1.2, h.2⟩⟩
  | _ => cases hop

/-- A constant on the right of a comparison meets the type of the property on the left. -/
theorem Settled.meets_right {root : EntityType} {scope : List Frame} {op : BinaryOp} {f : Field}
    {right : Expr} {now : Instant} {v : Value} (h : Settled op (.field f) right)
    (hop : op.isComparison = true) (hright : Typed root scope right)
    (hv : right.constant? now = some v) :
    f.type.Meets v ∧ (op.isRelational = true → f.type.isOrdered = true) := by
  obtain ⟨l₀, r₀, l, lt, r, rt, hl, hr, haccepts, heq⟩ := h
  cases heq
  obtain ⟨_, _, _, _, hliteral, _⟩ | ⟨_, rfl, rfl⟩ := settled?_cases hl
  · cases hliteral
  obtain ⟨hcomparable, hordered⟩ := comparable_of_acceptsOperands hop haccepts
  exact ⟨hright.meets hv hr hcomparable, fun h => (hordered h).1⟩

/-- A constant on the left of a comparison meets the type of the property on the right. -/
theorem Settled.meets_left {root : EntityType} {scope : List Frame} {op : BinaryOp} {f : Field}
    {left : Expr} {now : Instant} {v : Value} (h : Settled op left (.field f))
    (hop : op.isComparison = true) (hleft : Typed root scope left)
    (hv : left.constant? now = some v) :
    f.type.Meets v ∧ (op.isRelational = true → f.type.isOrdered = true) := by
  obtain ⟨l₀, r₀, l, lt, r, rt, hl, hr, haccepts, heq⟩ := h
  cases heq
  obtain ⟨_, _, _, _, hliteral, _⟩ | ⟨_, rfl, rfl⟩ := settled?_cases hr
  · cases hliteral
  obtain ⟨hcomparable, hordered⟩ := comparable_of_acceptsOperands hop haccepts
  rw [isComparableWith_comm] at hcomparable
  exact ⟨hleft.meets hv hl hcomparable, fun h => (hordered h).2⟩

end Expr

end ODataQuery
