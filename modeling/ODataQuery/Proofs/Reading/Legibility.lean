import ODataQuery.Proofs.Expr.Fitting
import ODataQuery.Proofs.Expr.Typing
import ODataQuery.Proofs.Reading.Admission

/-!
# Legible expressions

The expressions whose text shows all that they consist of: their names are words, their literals are
printed exactly, and no minus stands where it would become part of a number.

## Main definitions

- `Text.IsAsciiWord` — words of letters, digits and underscores
- `Expr.IsLegible` — legible expressions
- `Expr.literals` — the literals of an expression with the types that their places expect
- `Expr.IsSteady` — whether no number is printed like one of the kind that its place expects

## Main statements

- `Expr.Admitted.isPrintable` — a legible expression that can be read is scanned into its tokens
-/

namespace ODataQuery

/-- A text of ASCII letters, digits and underscores. -/
def Text.IsAsciiWord (text : String) : Prop :=
  ∀ c ∈ text.toList, (Text.isAsciiAlphanumeric c || c == '_') = true

instance (text : String) : Decidable (Text.IsAsciiWord text) :=
  inferInstanceAs (Decidable (∀ c ∈ text.toList, _))

namespace Lexeme

/-- An identifier of ASCII letters, digits and underscores is scanned as one wherever it stands. -/
theorem IsIdentifier.isReference {name : String} (h : IsIdentifier name)
    (hword : Text.IsAsciiWord name) : IsReference name := by
  have hcharacter : ∀ c ∈ name.toList, isWordCharacter c = true := fun c hc =>
    isWordCharacter_of_ascii (hword c hc)
  refine ⟨?_, hcharacter, h.shape⟩
  obtain ⟨c, cs, hname, hopens⟩ := h.opens
  rw [Text.IsAsciiWord, hname] at hword
  rw [hname] at hcharacter ⊢
  have hletter : (Text.isAsciiLetter c || c == '_') = true := by
    obtain hc | hc := Bool.or_eq_true_iff.mp (hword c List.mem_cons_self)
    · obtain hc | hc := Bool.or_eq_true_iff.mp hc
      · rw [hc, Bool.true_or]
      · -- A digit starts no name.
        have hdigit := Text.toNat_of_isAsciiDigit hc
        have hascii : c.toNat < 128 := by omega
        have hdollar : (c == '$') = false := by
          rw [beq_eq_false_iff_ne]
          rintro rfl
          cases hc
        rw [opensName, Text.isAlphabetic, if_pos hascii, hdollar, Bool.or_false] at hopens
        exact hopens
    · rw [hc, Bool.or_true]
  refine isName_cons hletter fun d hd => ?_
  rw [isNameCharacter, hcharacter d (List.mem_cons_of_mem _ hd), Bool.true_or]

end Lexeme

namespace Expr

/-- The names of a path are words. -/
def IsPathLegible (origin : Option String) (name : String) : Prop :=
  (∀ root ∈ origin, Text.IsAsciiWord root) ∧ Text.IsAsciiWord name

instance (origin : Option String) (name : String) : Decidable (IsPathLegible origin name) :=
  inferInstanceAs (Decidable (_ ∧ _))

/-- Whether the expression is a number. -/
def isNumber : Expr → Bool
  | literal v => v.kind?.any Kind.isNumeric
  | _ => false

/-- Whether the text of a node shows its names and literals. A property of the root entity must not
have the name of an operator that stands in front of operands. -/
def IsNodeLegible : Expr → Prop
  | literal v => v.IsLegible
  | field f => IsPathLegible f.origin f.name ∧ (f.origin = none → f.name ≠ "not")
  | unary .negate operand => operand.isNumber = false
  | membership _ list => ∀ v ∈ list, v.IsLegible
  | lambda binder _ =>
    IsPathLegible binder.navigation.origin binder.navigation.name ∧ Text.IsAsciiWord binder.bound
  | bare binder => IsPathLegible binder.navigation.origin binder.navigation.name
  | _ => True

instance : (e : Expr) → Decidable e.IsNodeLegible
  | literal v => inferInstanceAs (Decidable v.IsLegible)
  | field _ => inferInstanceAs (Decidable (_ ∧ (_ → _)))
  | unary .negate operand => inferInstanceAs (Decidable (operand.isNumber = false))
  | membership _ list => inferInstanceAs (Decidable (∀ v ∈ list, v.IsLegible))
  | lambda _ _ => inferInstanceAs (Decidable (_ ∧ _))
  | bare binder =>
    inferInstanceAs (Decidable (IsPathLegible binder.navigation.origin binder.navigation.name))
  | binary _ _ _ | unary .not _ | call _ _ => inferInstanceAs (Decidable True)

/-- Whether the text of an expression shows all its names and literals. -/
def IsLegible (e : Expr) : Prop := ∀ n ∈ e.nodes, n.IsNodeLegible

instance (e : Expr) : Decidable e.IsLegible := inferInstanceAs (Decidable (∀ n ∈ e.nodes, _))

mutual

/-- The literals of an expression with the types that their places expect. -/
def literals (expected : Option StaticType) : Expr → List (Option StaticType × Value)
  | literal v => [(expected, v)]
  | field _ | bare _ => []
  | binary op left right =>
    left.literals expected ++ right.literals (if op.isComparison then some left.type else none)
  | unary _ operand => operand.literals none
  | membership operand list =>
    operand.literals expected ++ list.map fun v => (some operand.type, v)
  | call _ arguments => argumentLiterals arguments
  | lambda _ body => body.literals none

/-- The literals of arguments. -/
def argumentLiterals : List Expr → List (Option StaticType × Value)
  | [] => []
  | e :: es => e.literals none ++ argumentLiterals es

end

/-- Whether no number of an expression is printed like one of another kind that its place expects. -/
def IsSteady (e : Expr) (expected : Option StaticType) : Prop :=
  ∀ p ∈ e.literals expected, p.2.IsSteady p.1

instance (e : Expr) (expected : Option StaticType) : Decidable (e.IsSteady expected) :=
  inferInstanceAs (Decidable (∀ p ∈ e.literals expected, _))

theorem mem_argumentLiterals {arguments : List Expr} {p : Option StaticType × Value} :
    p ∈ argumentLiterals arguments ↔ ∃ e ∈ arguments, p ∈ e.literals none := by
  induction arguments with
  | nil => simp [argumentLiterals]
  | cons e es ih => simp [argumentLiterals, ih]

-- ════════════════════════════════════════════════════════════════════════
-- Legible expressions are printable
-- ════════════════════════════════════════════════════════════════════════

namespace Admitted

variable {entity : EntityType} {allowed : AllowList} {scope : List Frame}
  {expected : Option StaticType}

theorem literalAt {v : Value} (h : Admitted entity allowed scope expected (.literal v)) :
    Value.LiteralAt expected v := by
  cases h with
  | literal h => exact h
  | binary _ _ h =>
    obtain ⟨_, _, _, _, _, _, _, heq⟩ := h
    cases heq

/-- A fitted operand is printable if the operand is. -/
theorem isPrintable_of_settled? {e e' : Expr} {other type : StaticType}
    (h : Admitted entity allowed scope expected e) (hsettled : e.settled? other = some (e', type))
    (hlegible : e'.IsLegible) (hprint : e.IsLegible → e.IsPrintable) : e'.IsPrintable := by
  obtain ⟨v, w, rfl, hw, rfl, _⟩ | ⟨_, rfl, _⟩ := settled?_cases hsettled
  · have hread := h.literalAt.isReadable_of_coerce? hw (hlegible _ (mem_nodes _))
    exact List.forall_mem_singleton.mpr hread
  · exact hprint hlegible

end Admitted

theorem Denotes.isPathPrintable {entity : EntityType} {scope : List Frame} {origin : Option String}
    {above : String} {property : Property} (h : Denotes entity scope origin above property)
    (hlegible : IsPathLegible origin property.name) : IsPathPrintable origin property.name := by
  cases h with
  | root _ hname => exact ⟨nofun, hname.isReference hlegible.2⟩
  | below _ _ _ horigin hname =>
    refine ⟨?_, hname.isReference hlegible.2⟩
    rintro _ ⟨⟩
    exact horigin.isReference (hlegible.1 _ rfl)

/-- A legible expression that can be read is scanned into its tokens. -/
theorem Admitted.isPrintable {entity : EntityType} {allowed : AllowList} {scope : List Frame}
    {expected : Option StaticType} {e : Expr} (h : Admitted entity allowed scope expected e)
    (hlegible : e.IsLegible) : e.IsPrintable := by
  induction h with
  | literal h =>
    exact List.forall_mem_singleton.mpr (h.isReadable (hlegible _ (mem_nodes _)))
  | field h _ _ =>
    exact List.forall_mem_singleton.mpr (h.isPathPrintable (hlegible _ (mem_nodes _)).1)
  | bare h _ _ =>
    exact List.forall_mem_singleton.mpr (h.isPathPrintable (hlegible _ (mem_nodes _)))
  | binary hleft hright h ihl ihr =>
    obtain ⟨l, lt, r, rt, hl, hr, _, rfl⟩ := h
    obtain ⟨_, hparts⟩ := List.forall_mem_cons.mp hlegible
    obtain ⟨hlegiblel, hlegibler⟩ := List.forall_mem_append.mp hparts
    have hprintl := hleft.isPrintable_of_settled? hl hlegiblel ihl
    have hprintr := hright.isPrintable_of_settled? hr hlegibler ihr
    exact List.forall_mem_cons.mpr ⟨trivial, List.forall_mem_append.mpr ⟨hprintl, hprintr⟩⟩
  | @unary _ _ op operand h htype ih =>
    obtain ⟨hnode, hparts⟩ := List.forall_mem_cons.mp hlegible
    refine List.forall_mem_cons.mpr ⟨?_, ih hparts⟩
    cases op with
    | not => trivial
    | negate =>
      rintro v rfl
      have hnumeric : (StaticType.ofValue v).isNumeric = true := htype
      cases hkind : v.kind? with
      | none =>
        cases v with
        | null => rfl
        | _ => cases hkind
      | some kind =>
        have hother : v.kind?.any Kind.isNumeric = false := hnode
        rw [hkind, Option.any_some] at hother
        simp [StaticType.ofValue, hkind, StaticType.isNumeric, StaticType.kind?, hother] at hnumeric
  | membership h _ hliteral _ _ ih =>
    obtain ⟨hnode, hparts⟩ := List.forall_mem_cons.mp hlegible
    exact List.forall_mem_cons.mpr ⟨fun v hv => (hliteral v hv).isReadable (hnode v hv), ih hparts⟩
  | call h _ ih =>
    obtain ⟨_, hparts⟩ := List.forall_mem_cons.mp hlegible
    refine List.forall_mem_cons.mpr ⟨trivial, fun n hn => ?_⟩
    obtain ⟨e, he, hn⟩ := mem_argumentNodes.mp hn
    exact ih e he (fun n hn => hparts n (mem_argumentNodes.mpr ⟨e, he, hn⟩)) n hn
  | lambda h _ _ hbound _ _ _ ih =>
    obtain ⟨hnode, hparts⟩ := List.forall_mem_cons.mp hlegible
    have hpath := h.isPathPrintable hnode.1
    exact List.forall_mem_cons.mpr ⟨⟨hpath, hbound.isReference hnode.2⟩, ih hparts⟩

end Expr

end ODataQuery
