import Mathlib.Data.List.Find
import Mathlib.Data.List.TakeWhile
import ODataQuery.Proofs.Reading.Authorization
import ODataQuery.Proofs.Reading.Binders
import ODataQuery.Proofs.Token.Respelling

/-!
# Renaming a property

A property of the root entity is given the keyword of an operator as its name: in the entity type, in
the allow-list, in the tree of an expression and in its text. What a name in a text means depends on
the tokens in front of it, which say whether an operand can start there.

## Main definitions

- `Renaming` — a declared property and a keyword that is no other property
- `Renaming.renamedEntity`, `Renaming.allowList` — the metadata with the new name
- `Renaming.expr` — an expression with the new name
- `Renaming.Place` — what a name can be, by the tokens in front of it
- `Renaming.text` — a text with the new name

## Main statements

- `Renaming.find?_name` — properties are found under their new names
- `Renaming.allows_path` — paths are allowed under their new names
- `Renaming.type_expr` — a renamed expression has the same type
- `Renaming.respells` — a renamed text has other names for identifiers only
-/

namespace ODataQuery

/-- A property of the root entity that gets the keyword of an operator as its name. No other property
has that name. -/
structure Renaming where
  entity : EntityType
  old : String
  new : String
  declared : (entity.find? old).isSome = true
  keyword : (Operator.ofKeyword? new).isSome = true
  fresh : entity.find? new = none ∨ new = old

namespace Renaming

variable (r : Renaming)

-- ════════════════════════════════════════════════════════════════════════
-- Metadata and trees
-- ════════════════════════════════════════════════════════════════════════

/-- The name of a reference. Only properties of the root entity, which start at no variable, have a
new name. -/
def name (origin : Option String) (name : String) : String :=
  if origin = none ∧ name = r.old then r.new else name

/-- A property of the root entity with its new name. It is stored as before. -/
def property (p : Property) : Property := { p with name := r.name none p.name }

/-- The root entity with the new name. -/
def renamedEntity : EntityType := { r.entity with properties := r.entity.properties.map r.property }

/-- A path with the new name as its first name. -/
def path (path : String) : String :=
  let first := path.toList.takeWhile (· != '/')
  if first = r.old.toList then r.new ++ String.ofList (path.toList.drop first.length) else path

/-- The allow-list with the new name. -/
def allowList (allowed : AllowList) : AllowList := .ofList (allowed.paths.map r.path)

/-- A field with its new name. -/
def field (f : Field) : Field := { f with name := r.name f.origin f.name }

/-- The head of a lambda with the new name of its navigation. -/
def binder (b : Binder) : Binder :=
  { b with navigation := { b.navigation with name := r.name b.navigation.origin b.navigation.name } }

mutual

/-- An expression with the new name in its references. -/
def expr : Expr → Expr
  | .literal v => .literal v
  | .field f => .field (r.field f)
  | .binary op left right => .binary op (expr left) (expr right)
  | .unary op operand => .unary op (expr operand)
  | .membership operand list => .membership (expr operand) list
  | .call function arguments => .call function (exprs arguments)
  | .lambda binder body => .lambda (r.binder binder) (expr body)
  | .bare binder => .bare (r.binder binder)

/-- Some expressions with the new name in their references. -/
def exprs : List Expr → List Expr
  | [] => []
  | e :: es => expr e :: exprs es

end

-- ════════════════════════════════════════════════════════════════════════
-- Texts
-- ════════════════════════════════════════════════════════════════════════

/-- What a name can be, by the tokens in front of it. -/
inductive Place where
  /-- The start of an operand. -/
  | operand
  /-- An operator behind an operand. -/
  | operator
  /-- What stands behind `$it`, which is a slash. -/
  | it
  /-- A property of the root entity, behind `$it` and a slash. -/
  | rootMember
  /-- A property of another entity or a quantifier, behind a slash. -/
  | member
deriving DecidableEq

/-- Whether an identifier that starts an operand is the operator `not`. -/
def negates (s next : Spelling) : Bool :=
  s.text == "not" && next.leadingSpace && next.kind != .endOfText

/-- The place behind a token, given the token behind it. -/
def Place.behind (root : EntityType) (place : Place) (s next : Spelling) : Place :=
  match s.kind with
  | .leftParen | .comma | .colon | .minus | .functionName => operand
  | .rightParen | .literal | .endOfText => operator
  | .slash => if place = it then rootMember else member
  | .identifier =>
    match place with
    | operand =>
      if negates s next then operand
      else if s.text = "$it" ∧ root.find? "$it" = none then it
      else operator
    | operator => operand
    | it | rootMember | member => operator

/-- Whether a token refers to the property: its name starts an operand, or stands behind `$it`. -/
def refers (place : Place) (s next : Spelling) : Bool :=
  s.kind == .identifier && s.text == r.old &&
    (place == .rootMember || (place == .operand && !negates s next))

/-- A token with the new name, if it refers to the property. -/
def spelling (place : Place) (s next : Spelling) : Spelling :=
  if r.refers place s next then { s with text := r.new } else s

/-- Tokens with the new name where they refer to the property. -/
def spellings (place : Place) : List Spelling → List Spelling
  | [] => []
  | s :: ls =>
    let next := ls.headD .ending
    r.spelling place s next :: spellings (place.behind r.entity s next) ls

/-- A text with the new name in every token that refers to the property. -/
def text (text : String) : String :=
  let tokens := (scanText text.toList).1.map Token.spelling
  String.ofList (Spelling.respell tokens (r.spellings .operand tokens) text.toList)

-- ════════════════════════════════════════════════════════════════════════
-- Names
-- ════════════════════════════════════════════════════════════════════════

/-- The keywords of the operators between operands. -/
def keywords : List String := "in" :: BinaryOp.all.map BinaryOp.keyword

theorem new_mem_keywords : r.new ∈ keywords := by
  have hkeyword := r.keyword
  unfold Operator.ofKeyword? at hkeyword
  split at hkeyword
  · next op hop =>
    have hmem := List.mem_of_find?_eq_some hop
    have hword : op.keyword = r.new := by simpa using List.find?_some hop
    exact hword ▸ List.mem_cons_of_mem _ (List.mem_map_of_mem hmem)
  · split at hkeyword
    · next hin => exact beq_iff_eq.mp hin ▸ List.mem_cons_self
    · cases hkeyword

/-- A keyword is a word and no literal. -/
theorem isFreeName_new : Spelling.IsFreeName r.new.toList := by
  have hall : ∀ word ∈ keywords, Spelling.IsFreeName word.toList := by decide +kernel
  exact hall _ r.new_mem_keywords

theorem new_ne {word : String} (h : word ∉ keywords) : r.new ≠ word := fun heq =>
  h (heq ▸ r.new_mem_keywords)

theorem new_ne_empty : r.new ≠ "" := r.new_ne (by decide)

@[simp]
theorem name_some (origin name : String) : r.name (some origin) name = name := by simp [Renaming.name]

theorem name_of_ne {name : String} (h : name ≠ r.old) (origin : Option String) :
    r.name origin name = name := by simp [Renaming.name, h]

theorem name_old : r.name none r.old = r.new := by simp [Renaming.name]

theorem new_eq_old_of_find? {name : String} {p : Property} (h : r.entity.find? name = some p)
    (hname : name = r.new) : r.new = r.old := by
  rw [hname] at h
  obtain hnone | hold := r.fresh
  · cases hnone.symm.trans h
  · exact hold

/-- Different names stay different, unless one of them is the new name of another property. -/
theorem name_eq_iff {a b : String} (ha : a = r.new → r.new = r.old) (hb : b = r.new → r.new = r.old) :
    r.name none a = r.name none b ↔ a = b := by
  constructor
  · intro h
    by_cases holda : a = r.old <;> by_cases holdb : b = r.old
    · rw [holda, holdb]
    · rw [holda, name_old, r.name_of_ne holdb] at h
      exact absurd (h.symm.trans (hb h.symm)) holdb
    · rw [holdb, name_old, r.name_of_ne holda] at h
      exact absurd (h.trans (ha h)) holda
    · rwa [r.name_of_ne holda, r.name_of_ne holdb] at h
  · rintro rfl
    rfl

/-- The property of a name is that of the new name, renamed. -/
theorem find?_name {name : String} (h : name = r.new → r.new = r.old) :
    r.renamedEntity.find? (r.name none name) = (r.entity.find? name).map r.property := by
  have hfresh : ∀ p ∈ r.entity.properties, p.name = r.new → r.new = r.old := by
    intro p hp hnew
    obtain hnone | hold := r.fresh
    · rw [EntityType.find?, List.find?_eq_none] at hnone
      exact absurd (beq_iff_eq.mpr hnew) (hnone p hp)
    · exact hold
  rw [EntityType.find?, renamedEntity, List.find?_map, EntityType.find?]
  refine congrArg (Option.map r.property) (List.find?_congr fun p hp => ?_)
  rw [Bool.eq_iff_iff, Function.comp_apply, beq_iff_eq, beq_iff_eq]
  exact r.name_eq_iff (hfresh p hp) h

theorem property_of_ne {p : Property} (h : p.name ≠ r.old) : r.property p = p := by
  obtain ⟨name, source, type, nullable⟩ := p
  rw [property, r.name_of_ne h]

/-- A name that is neither the old one nor the new one is found as before. -/
theorem find?_of_ne {name : String} (hold : name ≠ r.old) (hnew : name ≠ r.new) :
    r.renamedEntity.find? name = r.entity.find? name := by
  have hfind := r.find?_name fun h => absurd h hnew
  rw [r.name_of_ne hold] at hfind
  rw [hfind]
  cases hproperty : r.entity.find? name with
  | none => rfl
  | some p =>
    have hname := (EntityType.mem_properties_of_find? hproperty).2
    rw [Option.map_some, r.property_of_ne (hname ▸ hold)]

theorem ne_old_of_find? {name : String} (h : r.entity.find? name = none) : name ≠ r.old := by
  rintro rfl
  have hdeclared := r.declared
  rw [h] at hdeclared
  cases hdeclared

-- ════════════════════════════════════════════════════════════════════════
-- Paths
-- ════════════════════════════════════════════════════════════════════════

/-- A name alone is renamed like a property of the root entity. -/
theorem path_name {name : String} (h : '/' ∉ name.toList) : r.path name = r.name none name := by
  have htake : name.toList.takeWhile (· != '/') = name.toList :=
    List.takeWhile_eq_self_iff.mpr fun c hc => bne_iff_ne.mpr fun heq => h (heq ▸ hc)
  simp only [path, htake, Renaming.name, true_and, String.toList_inj, List.drop_length]
  split
  · exact String.append_empty
  · rfl

/-- A path below another one keeps its last name. -/
theorem path_below (above name : String) :
    r.path (above ++ "/" ++ name) = r.path above ++ "/" ++ name := by
  have hchars : (above ++ "/" ++ name).toList = above.toList ++ '/' :: name.toList := by simp
  have htake : (above ++ "/" ++ name).toList.takeWhile (· != '/') =
      above.toList.takeWhile (· != '/') := by
    have hslash : ('/' :: name.toList).takeWhile (· != '/') = [] := rfl
    rw [hchars, List.takeWhile_append]
    split
    · next hall =>
      rw [hslash, List.append_nil]
      exact ((List.takeWhile_prefix _).eq_of_length hall).symm
    · rfl
  have hle := (List.takeWhile_prefix (l := above.toList) (· != '/')).length_le
  rw [path, path, htake]
  split
  · rw [hchars, List.drop_append_of_le_length hle]
    simp [← String.toList_inj]
  · rfl

theorem path_ne_empty {path : String} (h : path ≠ "") : r.path path ≠ "" := by
  rw [Renaming.path]
  split
  · intro heq
    have := congrArg String.toList heq
    rw [String.toList_append] at this
    exact r.new_ne_empty (String.toList_eq_nil_iff.mp (List.append_eq_nil_iff.mp this).1)
  · exact h

/-- What is allowed stays allowed under its new name. -/
theorem allows_path {allowed : AllowList} {path : String} (h : allowed.allows path = true) :
    (r.allowList allowed).allows (r.path path) = true := by
  rw [AllowList.allows, List.contains_iff_mem] at h ⊢
  rw [allowList, AllowList.ofList, AllowList.mem_paths_foldl_insert]
  exact .inr (List.mem_map_of_mem h)

-- ════════════════════════════════════════════════════════════════════════
-- Types
-- ════════════════════════════════════════════════════════════════════════

theorem types_exprs_of {es : List Expr} (h : ∀ e ∈ es, (r.expr e).type = e.type) :
    Expr.types (r.exprs es) = Expr.types es := by
  induction es with
  | nil => rfl
  | cons e es ih =>
    rw [exprs, Expr.types, Expr.types, h e List.mem_cons_self,
      ih fun e' he' => h e' (List.mem_cons_of_mem _ he')]

/-- A renamed expression has the same type. -/
@[simp]
theorem type_expr (e : Expr) : (r.expr e).type = e.type := by
  induction e with
  | literal v => rfl
  | field f => rfl
  | binary op left right hleft hright => rw [expr, Expr.type, Expr.type, hleft, hright]
  | unary op operand ih =>
    cases op with
    | not => rfl
    | negate => rw [expr, Expr.type, Expr.type, ih]
  | membership operand list _ => rfl
  | call function arguments ih => rw [expr, Expr.type, Expr.type, r.types_exprs_of ih]
  | lambda binder body _ => rfl
  | bare binder => rfl

@[simp]
theorem types_exprs (es : List Expr) : Expr.types (r.exprs es) = Expr.types es :=
  r.types_exprs_of fun e _ => r.type_expr e

theorem settled?_expr {e e' : Expr} {other type : StaticType}
    (h : e.settled? other = some (e', type)) :
    (r.expr e).settled? other = some (r.expr e', type) := by
  cases e with
  | literal v =>
    obtain ⟨w, hw, heq⟩ := Option.map_eq_some_iff.mp h
    cases heq
    exact h
  | _ =>
    cases h
    first
      | rfl
      | exact congrArg (fun t => some (_, t)) (r.type_expr _)

/-- Operands that are combined are combined under their new names. -/
theorem combines_expr {op : BinaryOp} {left right e : Expr} (h : Expr.Combines op left right e) :
    Expr.Combines op (r.expr left) (r.expr right) (r.expr e) := by
  obtain ⟨l, lt, r', rt, hl, hr, haccepts, rfl⟩ := h
  have hl' := r.settled?_expr hl
  rw [← r.type_expr right] at hl'
  exact ⟨r.expr l, lt, r.expr r', rt, hl', r.settled?_expr hr, haccepts, by rw [expr]⟩

-- ════════════════════════════════════════════════════════════════════════
-- Tokens
-- ════════════════════════════════════════════════════════════════════════

variable {r} {place : Place} {s next : Spelling}

@[simp]
theorem kind_spelling : (r.spelling place s next).kind = s.kind := by
  unfold spelling
  split <;> rfl

@[simp]
theorem leadingSpace_spelling : (r.spelling place s next).leadingSpace = s.leadingSpace := by
  unfold spelling
  split <;> rfl

theorem length_spellings (place : Place) (ls : List Spelling) :
    (r.spellings place ls).length = ls.length := by
  induction ls generalizing place with
  | nil => rfl
  | cons s ls ih => rw [spellings, List.length_cons, List.length_cons, ih]

/-- Only identifiers refer to the property, at two places. -/
theorem spelling_eq_self (h : s.kind ≠ .identifier ∨ (place ≠ .operand ∧ place ≠ .rootMember) ∨
    s.text ≠ r.old) : r.spelling place s next = s := by
  have hrefers : r.refers place s next = false := by
    obtain h | ⟨hoperand, hroot⟩ | h := h
    · simp [refers, h]
    · simp [refers, hoperand, hroot]
    · simp [refers, h]
  rw [spelling, hrefers]
  rfl

/-- Renamed tokens have other names for identifiers only. -/
theorem respells (place : Place) (ls : List Spelling) :
    List.Forall₂ Spelling.Respells ls (r.spellings place ls) := by
  induction ls generalizing place with
  | nil => exact .nil
  | cons s ls ih =>
    refine .cons ?_ (ih _)
    rw [spelling]
    split
    · next hrefers =>
      simp only [refers, Bool.and_eq_true, beq_iff_eq] at hrefers
      exact .inr ⟨hrefers.1.1, r.new, r.isFreeName_new, rfl⟩
    · exact .inl rfl

end Renaming

end ODataQuery
