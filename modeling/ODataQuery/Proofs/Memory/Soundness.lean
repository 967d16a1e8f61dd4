import ODataQuery.Proofs.Memory.Compilation
import ODataQuery.Proofs.Memory.Evaluation
import ODataQuery.Proofs.Query.Accepted
import ODataQuery.Proofs.Value.Family

/-!
# Soundness of static types

On records with values of the declared types, every part of an accepted expression has a value of
its static type, or `null`, and sees only operands that it can work with.

## Main definitions

- `Expr.Occurs` — the parts of an expression with the variables in scope
- `EntityType.Admits`, `Environment.Conforms` — records with values of the declared types
- `Expr.OperandsFit` — whether a node sees only operands that it can work with

## Main statements

- `Expr.Typed.admits` — the value of a typed expression is admitted by its type
- `Expr.Typed.operandsFit` — the operands of a typed expression fit
- `Expr.Accepted.sound` — both, for all parts of accepted expressions
-/

namespace ODataQuery

-- ════════════════════════════════════════════════════════════════════════
-- Parts of expressions
-- ════════════════════════════════════════════════════════════════════════

/-- A variable of a lambda with the entity type that it ranges over. -/
abbrev Variable := String × EntityType

/-- The variables of a scope. -/
def Frame.bindings (scope : List Frame) : List Variable := scope.map fun f => (f.name, f.entity)

namespace Expr

/-- The expression is a part of `e`, below the lambdas of some variables, the innermost first. -/
inductive Occurs (e : Expr) : List Variable → Expr → Prop
  | self : Occurs e [] e
  | left {vars op left right} (h : Occurs e vars (.binary op left right)) : Occurs e vars left
  | right {vars op left right} (h : Occurs e vars (.binary op left right)) : Occurs e vars right
  | operand {vars op operand} (h : Occurs e vars (.unary op operand)) : Occurs e vars operand
  | member {vars operand list} (h : Occurs e vars (.membership operand list)) :
      Occurs e vars operand
  | argument {vars function arguments argument} (h : Occurs e vars (.call function arguments))
      (hargument : argument ∈ arguments) : Occurs e vars argument
  | body {vars binder body} (h : Occurs e vars (.lambda binder body)) :
      Occurs e ((binder.bound, binder.navigation.target) :: vars) body

variable {root : EntityType} {e part : Expr} {vars : List Variable}

/-- The parts of a typed expression are typed. -/
theorem Typed.of_occurs (h : Typed root [] e) (hpart : e.Occurs vars part) :
    ∃ scope, Frame.bindings scope = vars ∧ Typed root scope part := by
  induction hpart with
  | self => exact ⟨[], rfl, h⟩
  | left _ ih =>
    obtain ⟨scope, hscope, htyped⟩ := ih
    cases htyped with
    | binary hleft _ _ => exact ⟨scope, hscope, hleft⟩
  | right _ ih =>
    obtain ⟨scope, hscope, htyped⟩ := ih
    cases htyped with
    | binary _ hright _ => exact ⟨scope, hscope, hright⟩
  | operand _ ih =>
    obtain ⟨scope, hscope, htyped⟩ := ih
    cases htyped with
    | unary hoperand _ => exact ⟨scope, hscope, hoperand⟩
  | member _ ih =>
    obtain ⟨scope, hscope, htyped⟩ := ih
    cases htyped with
    | membership hoperand _ => exact ⟨scope, hscope, hoperand⟩
  | argument _ hargument ih =>
    obtain ⟨scope, hscope, htyped⟩ := ih
    cases htyped with
    | call harguments _ => exact ⟨scope, hscope, harguments _ hargument⟩
  | body _ ih =>
    obtain ⟨scope, rfl, htyped⟩ := ih
    cases htyped with
    | @lambda _ _ _ _ _ _ _ frame _ _ _ _ hframe hbody _ =>
      refine ⟨frame :: scope, ?_, hbody⟩
      rw [← hframe]
      rfl

end Expr

-- ════════════════════════════════════════════════════════════════════════
-- Records of the declared types
-- ════════════════════════════════════════════════════════════════════════

/-- Under the storage key of every scalar property is nothing, `null`, or a value of the family of
the declared type, and under the key of every collection are such records of its target. -/
inductive EntityType.Admits : EntityType → Record → Prop
  | intro {entity : EntityType} {record : Record}
      (hscalars : ∀ p ∈ entity.properties, ∀ type, p.type.scalar? = some type →
        type.Admits (record.value p.source))
      (hrelated : ∀ p ∈ entity.properties, ∀ target link, p.type = .collection target link →
        ∀ r ∈ record.related p.source, target.Admits r) :
      Admits entity record

namespace Environment

/-- The root record is one of the root entity type, and the records of the variables are ones of the
types that these range over. -/
structure Conforms (root : EntityType) (vars : List Variable) (env : Environment) : Prop where
  root : root.Admits env.root
  bound : List.Forall₂ (fun b v => b.1 = v.1 ∧ v.2.Admits b.2) env.bound vars

variable {root entity : EntityType} {scope : List Frame} {env : Environment}

theorem Conforms.bind (h : Conforms root (Frame.bindings scope) env) {frame : Frame} {r : Record}
    (hr : frame.entity.Admits r) :
    Conforms root (Frame.bindings (frame :: scope)) (env.bind frame.name r) :=
  ⟨h.root, .cons ⟨rfl, hr⟩ h.bound⟩

theorem Conforms.names_eq (h : Conforms root (Frame.bindings scope) env) :
    env.names = Frame.names scope := by
  obtain ⟨_, hbound⟩ := h
  rw [names, Frame.names]
  generalize env.bound = bound at hbound
  induction scope generalizing bound with
  | nil =>
    cases hbound
    rfl
  | cons frame scope ih =>
    obtain ⟨b, rest, ⟨hname, _⟩, hrest, rfl⟩ := List.forall₂_cons_right_iff.mp hbound
    exact congrArg₂ _ hname (ih rest hrest)

/-- A variable in scope is bound to a record of the type that it ranges over. -/
theorem exists_lookup {bound : List (String × Record)}
    (h : List.Forall₂ (fun b v => b.1 = v.1 ∧ v.2.Admits b.2) bound (Frame.bindings scope))
    {name : String} {frame : Frame} (hframe : Frame.find? scope name = some frame) :
    ∃ r, bound.lookup name = some r ∧ frame.entity.Admits r := by
  induction scope generalizing bound with
  | nil => cases hframe
  | cons first scope ih =>
    obtain ⟨⟨key, r⟩, rest, ⟨hkey, hr⟩, hrest, rfl⟩ := List.forall₂_cons_right_iff.mp h
    cases hkey
    by_cases hname : first.name = name
    · have hfirst : first = frame := by simpa [Frame.find?, hname] using hframe
      subst hfirst
      exact ⟨r, by simp [hname], hr⟩
    · have hrestFrame : Frame.find? scope name = some frame := by
        simpa [Frame.find?, hname] using hframe
      have hne : (name == first.name) = false := by simpa using Ne.symm hname
      simpa only [List.lookup_cons, hne] using ih hrest hrestFrame

/-- A reference starts at a record of its entity type. -/
theorem Conforms.exists_record (h : Conforms root (Frame.bindings scope) env)
    {origin : Option String} (hentity : Expr.startsAt? root scope origin = some entity) :
    ∃ r, env.record? origin = some r ∧ entity.Admits r := by
  cases origin with
  | none =>
    cases hentity
    exact ⟨env.root, rfl, h.root⟩
  | some name =>
    obtain ⟨frame, hframe, rfl⟩ := Option.map_eq_some_iff.mp hentity
    exact exists_lookup h.bound hframe

/-- The value of a declared property is admitted by its type. -/
theorem Conforms.admits_value (h : Conforms root (Frame.bindings scope) env)
    {origin : Option String} (hentity : Expr.startsAt? root scope origin = some entity)
    {p : Property} (hp : p ∈ entity.properties) {type : StaticType}
    (htype : p.type.scalar? = some type) : type.Admits (env.value origin p.source) := by
  obtain ⟨r, hr, hadmits⟩ := h.exists_record hentity
  rw [value, hr]
  cases hadmits with
  | intro hscalars _ => exact hscalars p hp type htype

/-- The records under a declared collection are ones of its target. -/
theorem Conforms.admits_related (h : Conforms root (Frame.bindings scope) env)
    {origin : Option String} (hentity : Expr.startsAt? root scope origin = some entity)
    {p : Property} (hp : p ∈ entity.properties) {target : EntityType} {link : Link}
    (htype : p.type = .collection target link) :
    ∀ r ∈ env.related origin p.source, target.Admits r := by
  obtain ⟨r, hr, hadmits⟩ := h.exists_record hentity
  rw [related, hr]
  cases hadmits with
  | intro _ hrelated => exact hrelated p hp target link htype

end Environment

-- ════════════════════════════════════════════════════════════════════════
-- Values of typed expressions
-- ════════════════════════════════════════════════════════════════════════

namespace Value

theorem isOfKind_applyBinary {op : BinaryOp} (hop : op.isArithmetic = false) (a b : Value) :
    IsOfKind .boolean (applyBinary op a b) := by
  have htruth (b : Bool) : IsOfKind .boolean (boolean b) := isOfKind_of_kind? rfl
  cases op with
  | and =>
    simp only [applyBinary, conj]
    split <;> first | exact htruth _ | exact isOfKind_null _
  | or =>
    simp only [applyBinary, disj]
    split <;> first | exact htruth _ | exact isOfKind_null _
  | eq | ne => exact htruth _
  | gt | ge | lt | le => exact isOfKind_ofTruth _
  | _ => cases hop

theorem isOfKind_isIn (v : Value) (list : List Value) : IsOfKind .boolean (v.isIn list) := by
  unfold isIn
  split
  · exact isOfKind_null _
  · exact isOfKind_of_kind? rfl

end Value

namespace Expr

variable {root : EntityType} {scope : List Frame} {e : Expr} {env : Environment}

theorem evalAll_eq_map (env : Environment) (es : List Expr) : evalAll env es = es.map (eval env) := by
  induction es with
  | nil => rfl
  | cons e es ih => exact congrArg (e.eval env :: ·) ih

/-- A lambda is true or false, with a body or without. -/
theorem admits_quantified (binder : Binder) (body : Expr) :
    (StaticType.boolean.Admits ((lambda binder body).eval env)) ∧
      StaticType.boolean.Admits ((bare binder).eval env) := by
  have htruth (b : Bool) : StaticType.boolean.Admits (.boolean b) :=
    StaticType.admits_boolean (Value.isOfKind_of_kind? rfl)
  constructor
  · rw [eval]
    cases binder.quantifier <;> exact htruth _
  · rw [eval]
    cases binder.quantifier <;> exact htruth _

/-- The value of a typed expression on records of the declared types is admitted by its type. -/
theorem Typed.admits (h : Typed root scope e) (henv : env.Conforms root (Frame.bindings scope)) :
    e.type.Admits (e.eval env) := by
  induction h generalizing env with
  | literal => exact StaticType.admits_ofValue _
  | field hentity hp htype => exact henv.admits_value hentity hp htype
  | @binary _ op left right _ _ _ ihl ihr =>
    rw [type, eval]
    cases hop : op.isArithmetic with
    | true =>
      have happly : (left.eval env).applyBinary op (right.eval env) =
          Value.arithmetic op (left.eval env) (right.eval env) := by
        cases op <;> first | rfl | cases hop
      rw [if_pos rfl, happly]
      exact StaticType.admits_arithmetic (ihl henv) (ihr henv)
    | false =>
      rw [if_neg Bool.false_ne_true]
      exact StaticType.admits_boolean (Value.isOfKind_applyBinary hop _ _)
  | @unary _ op operand _ htype ih =>
    cases op with
    | not => exact StaticType.admits_boolean (Value.isOfKind_ofTruth _)
    | negate => exact StaticType.admits_opposite htype (ih henv)
  | membership _ _ _ => exact StaticType.admits_boolean (Value.isOfKind_isIn _ _)
  | @call _ function arguments type _ hcheck ih =>
    have hvalues : List.Forall₂ StaticType.Admits (types arguments) (evalAll env arguments) := by
      rw [types_eq_map, evalAll_eq_map, List.forall₂_map_left_iff, List.forall₂_map_right_iff,
        List.forall₂_same]
      exact fun e he => ih e he henv
    rw [Expr.type, eval, hcheck]
    exact StaticType.admits_apply hcheck hvalues env.now
  | lambda => exact (admits_quantified _ _).1
  | bare => exact (admits_quantified _ (.literal .null)).2

/-- The operands of the node have values that it can work with, or are `null`. -/
def OperandsFit (env : Environment) : Expr → Prop
  | literal _ | field _ | bare _ => True
  | binary op left right =>
    (op.isLogical = true →
      (left.eval env).IsOfKind .boolean ∧ (right.eval env).IsOfKind .boolean) ∧
    (op.isComparison = true → ∀ j ∈ (left.eval env).kind?, ∀ k ∈ (right.eval env).kind?,
      j.isComparableWith k = true) ∧
    (op.isRelational = true → (∀ k ∈ (left.eval env).kind?, k.isOrdered = true) ∧
      ∀ k ∈ (right.eval env).kind?, k.isOrdered = true) ∧
    (op.isArithmetic = true → (left.eval env).IsNumber ∧ (right.eval env).IsNumber)
  | unary .not operand => (operand.eval env).IsOfKind .boolean
  | unary .negate operand => (operand.eval env).IsNumber
  | membership operand list => ∀ v ∈ list, ∀ j ∈ (operand.eval env).kind?, ∀ k ∈ v.kind?,
      j.isComparableWith k = true
  | call function arguments => ∀ i argument p, arguments[i]? = some argument →
      function.parameterAt? i = some p → ∀ k ∈ (argument.eval env).kind?, p.acceptsKind k = true
  | lambda binder body =>
    ∀ r ∈ env.related binder.navigation.origin binder.navigation.source,
      (body.eval (env.bind binder.bound r)).IsOfKind .boolean

/-- What holds of the kinds of a type, for their whole families, holds of the kinds of the values of a
typed expression. -/
theorem Typed.forall_kind? {P : Kind → Prop} (hP : ∀ k : Kind, P k.family ↔ P k)
    (h : Typed root scope e) (henv : env.Conforms root (Frame.bindings scope))
    (htype : ∀ k ∈ e.type.kind?, P k) : ∀ k ∈ (e.eval env).kind?, P k :=
  (h.admits henv).forall_kind? hP htype

/-- Operands of comparable kinds have values of comparable kinds. -/
theorem Typed.isComparableWith {left right : Expr} (hleft : Typed root scope left)
    (hright : Typed root scope right) (henv : env.Conforms root (Frame.bindings scope))
    (h : ∀ j ∈ left.type.kind?, ∀ k ∈ right.type.kind?, j.isComparableWith k = true) :
    ∀ j ∈ (left.eval env).kind?, ∀ k ∈ (right.eval env).kind?, j.isComparableWith k = true := by
  intro j hj k hk
  obtain ⟨j', hj', hjfamily⟩ := (hleft.admits henv).exists_kind? hj
  obtain ⟨k', hk', hkfamily⟩ := (hright.admits henv).exists_kind? hk
  rw [← Kind.isComparableWith_family, hjfamily, hkfamily, Kind.isComparableWith_family]
  exact h j' hj' k' hk'

/-- A constant that meets a type has a kind that is comparable with that of the type. -/
theorem isComparableWith_of_meets {t : StaticType} {v : Value} (h : t.Meets v) :
    ∀ j ∈ t.kind?, ∀ k ∈ v.kind?, j.isComparableWith k = true := by
  intro j hj k hk
  cases t with
  | null => cases hj
  | primitive kind =>
    cases hj
    exact StaticType.isComparableWith_of_kind? (h k hk) _ rfl k rfl
  | enumeration T =>
    cases hj
    obtain rfl | ⟨names, hnames⟩ := h
    · cases hk
    · obtain ⟨members, _, rfl⟩ := Option.map_eq_some_iff.mp hnames
      cases hk
      rfl

/-- The nodes of a typed expression see only operands that they can work with. -/
theorem Typed.operandsFit (h : Typed root scope e)
    (henv : env.Conforms root (Frame.bindings scope)) : e.OperandsFit env := by
  cases h with
  | literal | field | bare => trivial
  | binary hleft hright hsettled =>
    refine ⟨fun hop => ?_, fun hop => ?_, fun hop => ?_, fun hop => ?_⟩
    · obtain ⟨hl, hr⟩ := hsettled.isBoolean hop
      exact ⟨(hleft.admits henv).isOfKind_boolean hl, (hright.admits henv).isOfKind_boolean hr⟩
    · exact hleft.isComparableWith hright henv (hsettled.isComparableWith hop)
    · have hordered (k : Kind) : k.family.isOrdered = true ↔ k.isOrdered = true := by
        rw [Kind.isOrdered_family]
      obtain ⟨hl, hr⟩ := hsettled.isOrdered hop
      exact ⟨hleft.forall_kind? hordered henv hl, hright.forall_kind? hordered henv hr⟩
    · obtain ⟨hl, hr⟩ := hsettled.isNumeric hop
      exact ⟨(hleft.admits henv).isNumber hl, (hright.admits henv).isNumber hr⟩
  | @unary _ op operand hoperand htype =>
    cases op with
    | not => exact (hoperand.admits henv).isOfKind_boolean htype
    | negate => exact (hoperand.admits henv).isNumber htype
  | membership hoperand hlist =>
    intro v hv
    have hcomparable (k l : Kind) : k.family.isComparableWith l = true ↔
        k.isComparableWith l = true := by
      rw [← Kind.isComparableWith_family, ← Kind.isComparableWith_family k, Kind.family_family]
    have hmeets := isComparableWith_of_meets (hlist v hv).2
    intro j hj k hk
    exact hoperand.forall_kind? (P := (·.isComparableWith k = true)) (hcomparable · k) henv
      (fun j hj => hmeets j hj k hk) j hj
  | @call _ function arguments _ harguments hcheck =>
    intro i argument p hargument hp
    have haccepts (k : Kind) : p.acceptsKind k.family = true ↔ p.acceptsKind k = true := by
      rw [Kind.acceptsKind_family]
    have htype : (types arguments)[i]? = some argument.type := by
      rw [types_eq_map, List.getElem?_map, hargument]
      rfl
    have hparameter := Function.accepts_of_check hcheck hp htype
    rw [Parameter.accepts, Option.all_eq_true] at hparameter
    have htyped := harguments argument (List.mem_of_getElem? hargument)
    exact htyped.forall_kind? haccepts henv hparameter
  | lambda hentity hp htype hframe hbody hboolean =>
    intro r hr
    subst hframe
    have henv' := henv.bind (henv.admits_related hentity hp htype r hr)
    exact (hbody.admits henv').isOfKind_boolean hboolean

/-- Every part of an accepted expression has a meaning over the records of the variables around it.
On records with values of the declared types, its value is `null` or of the family of its static
type, and its operands are such that it can work with them. -/
theorem Accepted.sound {entity : EntityType} {maxDepth : Nat} {e part : Expr}
    {vars : List Variable} {env : Environment} (he : e.Accepted entity maxDepth)
    (hpart : e.Occurs vars part) (henv : env.Conforms entity vars) :
    ∃ m, Meaning.builder.build part env.names = .ok (m, env.names) ∧
      m env.surroundings = part.eval env ∧ part.type.Admits (m env.surroundings) ∧
      part.OperandsFit env := by
  obtain ⟨scope, rfl, htyped⟩ := he.typed.of_occurs hpart
  obtain ⟨m, hm⟩ := htyped.exists_meaning
  rw [← henv.names_eq] at hm
  have heval : m env.surroundings = part.eval env := (Meaning.eval_of_build part _ _ _ hm).2 env rfl
  exact ⟨m, hm, heval, heval ▸ htyped.admits henv, htyped.operandsFit henv⟩

/-- In `lines/any(l:l/qty divby 2 gt limit)` the test of a line is true or false although the line
holds a whole number of another width than declared. -/
theorem Accepted.sound_lines :
    let line : EntityType := ⟨"Line", "lines", [⟨"qty", "qty", .primitive .int32, true⟩]⟩
    let order : EntityType := ⟨"Order", "orders",
      [⟨"limit", "limit", .primitive .int32, false⟩,
        ⟨"lines", "lines", .collection line ⟨"id", "order"⟩, false⟩]⟩
    let row : Record := [("qty", .value (.int64 7))]
    let record : Record := [("limit", .value (.int32 3)), ("lines", .related [row, []])]
    let env : Environment := ⟨.earliest, record, [("l", row)]⟩
    ∃ e test, Accepted order defaultMaxDepth e ∧ e.Occurs [("l", line)] test ∧
      env.Conforms order [("l", line)] ∧ test.type = .boolean ∧
      (test.eval env).kind? = some .boolean ∧
      ∃ m, Meaning.builder.build test env.names = .ok (m, env.names) ∧
        m env.surroundings = test.eval env ∧ StaticType.Admits .boolean (m env.surroundings) ∧
        test.OperandsFit env := by
  intro line order row record env
  have hread : Result.passes (fun e => match e with
      | .lambda binder test =>
        decide (binder.bound = "l" ∧ test.type = .boolean ∧
          (test.eval env).kind? = some .boolean)
      | _ => false)
      (readFilter "lines/any(l:l/qty divby 2 gt limit)" order (.all order) defaultMaxDepth) =
        true := by
    decide +kernel
  have htarget {binder : Binder} {body : Expr} (h : Typed order [] (lambda binder body)) :
      binder.navigation.target = line := by
    cases h with
    | @lambda _ origin _ p _ _ _ _ _ hentity hp htype _ _ _ =>
      cases origin with
      | some name => cases hentity
      | none =>
        cases hentity
        obtain rfl | rfl := by simpa [order] using hp
        · cases htype
        · cases htype
          rfl
  have hfamily (n : Int64) : StaticType.Admits (.primitive .int32) (.int64 n) := by
    intro k hk
    cases hk
    rfl
  have hrow : line.Admits row := by
    refine .intro (fun p hp type htype => ?_) fun p hp target link htype => ?_ <;>
      obtain rfl := by simpa [line] using hp
    · cases htype
      exact hfamily 7
    · cases htype
  have hempty : line.Admits [] := by
    refine .intro (fun p hp type htype => StaticType.admits_null type) fun p hp target link htype => ?_
    obtain rfl := by simpa [line] using hp
    cases htype
  have hrecord : order.Admits record := by
    refine .intro (fun p hp type htype => ?_) fun p hp target link htype => ?_ <;>
      obtain rfl | rfl := by simpa [order] using hp
    · cases htype
      exact (Value.isOfKind_of_kind? rfl).isOfFamily
    · cases htype
    · cases htype
    · cases htype
      exact List.forall_mem_cons.mpr ⟨hrow, List.forall_mem_singleton.mpr hempty⟩
  have henv : env.Conforms order [("l", line)] := ⟨hrecord, .cons ⟨rfl, hrow⟩ .nil⟩
  obtain ⟨e, he, hshape⟩ := Result.exists_of_passes hread
  split at hshape
  · next binder test =>
    obtain ⟨hbound, htype, hkind⟩ := of_decide_eq_true hshape
    have haccepted : Accepted order defaultMaxDepth (lambda binder test) := .filter he
    have htest : Occurs (lambda binder test) [("l", line)] test := by
      have hbody : Occurs _ _ test := (Occurs.self (e := lambda binder test)).body
      rwa [hbound, htarget haccepted.typed] at hbody
    obtain ⟨m, hm, heval, hadmits, hfit⟩ := haccepted.sound htest henv
    rw [htype] at hadmits
    exact ⟨_, test, haccepted, htest, henv, htype, hkind, m, hm, heval, hadmits, hfit⟩
  · cases hshape

end Expr

end ODataQuery
