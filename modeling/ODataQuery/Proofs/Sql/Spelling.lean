import ODataQuery.Proofs.Sql.Compilation
import ODataQuery.Proofs.Sql.Precedence

/-!
# The forms of clauses

What the pieces of each node are read as, made of what those of its parts are read as.

## Main definitions

- `Dialect.words` — the words of an operator between operands
- `SqlForm.ofLiteral`, `SqlForm.column`, `SqlForm.head` — the forms of literals, columns and the
  heads of subqueries

## Main statements

- `SqlPiece.spells_binary`, `SqlPiece.spells_division`, `SqlPiece.spells_modulo` — operations
- `SqlPiece.spells_membership` — membership tests
- `SqlPiece.spells_template`, `SqlTemplate.exists_outline` — calls
- `SqlPiece.spells_lambda`, `SqlPiece.spells_bare` — lambdas
-/

namespace ODataQuery

/-- The words of an operator between operands. -/
def Dialect.words (dialect : Dialect) (op : BinaryOp) : List String :=
  match op with
  | .eq =>
    match dialect with
    | sqlite => ["IS"]
    | postgres => ["IS", "NOT", "DISTINCT", "FROM"]
  | .ne =>
    match dialect with
    | sqlite => ["IS", "NOT"]
    | postgres => ["IS", "DISTINCT", "FROM"]
  | .gt => [">"]
  | .ge => [">="]
  | .lt => ["<"]
  | .le => ["<="]
  | .and => ["AND"]
  | .or => ["OR"]
  | .add => ["+"]
  | .sub => ["-"]
  | .mul => ["*"]
  | .div => ["/"]
  | .divby => ["*", "1.0", "/"]
  | .mod => ["%"]

namespace SqlForm

/-- Keywords, signs and the like. -/
def ofWords (ws : List String) : List SqlForm := ws.map word

/-- The form of a literal. -/
def ofLiteral (v : Value) : SqlForm := if v.isNull then word "NULL" else parameter

/-- The forms of a column. -/
def column (table key : String) : List SqlForm := [name table, word ".", name key]

/-- The forms of the literals of a list. -/
def ofItems (list : List Value) : List SqlForm := (list.map ofLiteral).intersperse (word ",")

/-- What stands behind a division: the divisor, which must not be zero. -/
def divisor (fs : List SqlForm) : List SqlForm :=
  [word "NULLIF", bracket (fs ++ [word ",", word "0"])]

/-- The forms of the remainder in SQLite. -/
def modulo (l r : List SqlForm) : List SqlForm :=
  fillAll [l, r] [bracket [slot 0, word "-", slot 1, word "*", word "CAST",
    bracket ([slot 0, word "/"] ++ divisor [slot 1] ++ [word "AS", word "INTEGER"])]]

/-- The form of a prefix operator. -/
def ofPrefix (op : UnaryOp) : SqlForm :=
  match op with
  | .not => word "NOT"
  | .negate => word "-"

/-- The forms of the head of the subquery of a lambda. -/
def head (rootAlias : String) (binder : Binder) : List SqlForm :=
  let n := binder.navigation
  let inner := if binder.bound = "" then n.name else binder.bound
  (ofWords ["SELECT", "1", "FROM"] ++
      ([name n.target.source] ++ (ofWords ["AS"] ++ [name inner]))) ++
    (ofWords ["WHERE"] ++ (column inner n.link.targetKey ++
      (ofWords ["="] ++ column (n.origin.getD rootAlias) n.link.sourceKey)))

/-- The forms of a test whether a subquery has rows. -/
def subquery (fs : List SqlForm) : List SqlForm := [word "EXISTS", bracket fs]

/-- The condition that the body is true of a row. -/
def holding (body : List SqlForm) : List SqlForm := [word "AND", bracket body]

/-- The condition that the body is not true of a row. -/
def failing (body : List SqlForm) : List SqlForm :=
  [word "AND", bracket [word "CASE", word "WHEN", bracket body, word "THEN", word "1", word "ELSE",
    word "0", word "END"], word "=", word "0"]

/-- The forms of a lambda with its head and body. -/
def ofLambda (quantifier : Quantifier) (head body : List SqlForm) : List SqlForm :=
  match quantifier with
  | .any => subquery (head ++ holding body)
  | .all => word "NOT" :: subquery (head ++ failing body)

/-- The forms of a quantifier without a body. -/
def ofBare (quantifier : Quantifier) (head : List SqlForm) : List SqlForm :=
  match quantifier with
  | .any => subquery head
  | .all => [bracket (ofWords ["1", "=", "1"])]

end SqlForm

namespace SqlPiece

open SqlLexeme (Breaks ofText isWordCharacter)
open SqlForm (flattenAll fillAll)

variable {dialect : Dialect} {rootAlias : String} {l r ps qs : List SqlPiece}
  {fl fr fs : List SqlForm}

theorem Spells.congr (h : Spells dialect qs fs)
    (hchars : ∀ count, chars dialect count ps = chars dialect count qs) : Spells dialect ps fs := by
  intro count rest hrest
  rw [hchars]
  exact h count rest hrest

/-- Texts that are written one after another. -/
theorem chars_text_append (dialect : Dialect) (count : Nat) (s s' : String) (ps : List SqlPiece) :
    chars dialect count (.text (s ++ s') :: ps) =
      chars dialect count (.text s :: .text s' :: ps) := by
  rw [chars_text, chars_text, chars_text, String.toList_append, List.append_assoc]

-- ════════════════════════════════════════════════════════════════════════
-- Literals and columns
-- ════════════════════════════════════════════════════════════════════════

theorem isWordCharacter_placeholder (dialect : Dialect) (index : Nat) :
    ∀ c ∈ (dialect.placeholder index).toList, isWordCharacter c = true := by
  cases dialect with
  | sqlite =>
    rw [Dialect.placeholder]
    decide
  | postgres =>
    rw [toList_placeholder_postgres]
    refine List.forall_mem_cons.mpr ⟨by decide, fun c hc => ?_⟩
    have hdigit : c.isDigit = true := Text.isAsciiDigit_of_mem_digitsOf hc
    have halphanum : c.isAlphanum = true := Bool.or_eq_true_iff.mpr (.inr hdigit)
    exact Bool.or_eq_true_iff.mpr (.inl halphanum)

theorem ofWord_placeholder (dialect : Dialect) (index : Nat) :
    SqlLexeme.ofWord (dialect.placeholder index).toList = .parameter := by
  cases dialect with
  | sqlite =>
    rw [Dialect.placeholder]
    decide
  | postgres =>
    rw [toList_placeholder_postgres]
    rfl

theorem spells_param (v : SqlValue) : Spells dialect [.param v] [.parameter] := by
  intro count rest hrest
  have hne : (dialect.placeholder (count + 1)).toList ≠ [] := by
    intro hnil
    have hword := ofWord_placeholder dialect (count + 1)
    rw [hnil] at hword
    cases hword
  have hword := SqlLexeme.ofText_word hne (isWordCharacter_placeholder dialect (count + 1)) hrest
  rw [ofWord_placeholder] at hword
  rw [chars_param]
  show ofText (_ ++ [] ++ rest) = _
  rw [List.append_nil]
  exact hword

theorem spells_literal (v : Value) :
    Spells dialect [SqlWriter.literal v] [SqlForm.ofLiteral v] := by
  unfold SqlWriter.literal SqlForm.ofLiteral
  split
  · intro count rest hrest
    rw [chars_text]
    have hne : "NULL".toList ≠ [] := by decide
    have hword := SqlLexeme.ofText_word hne (by decide) hrest
    exact hword
  · exact spells_param _

theorem spells_name (s : String) : Spells dialect [.text (SqlWriter.quote s)] [.name s] := by
  intro count rest hrest
  rw [chars_text]
  show ofText ((SqlWriter.quote s).toList ++ [] ++ rest) = _
  rw [List.append_nil, ofText, SqlToken.read_quote s hrest.head?_ne]
  rfl

theorem spells_column (table key : String) :
    Spells dialect [.text (SqlWriter.quote table ++ "." ++ SqlWriter.quote key)]
      (SqlForm.column table key) := by
  intro count rest hrest
  have hdot : (".".toList ++ ((SqlWriter.quote key).toList ++ rest)).head? ≠ some '"' := by
    show some '.' ≠ some '"'
    decide
  rw [chars_text]
  show ofText ((SqlWriter.quote table ++ "." ++ SqlWriter.quote key).toList ++ [] ++ rest) = _
  rw [List.append_nil, String.toList_append, String.toList_append, List.append_assoc,
    List.append_assoc, ofText, SqlToken.read_quote table hdot, show ".".toList = ['.'] from rfl,
    List.singleton_append, SqlToken.read_mark (by decide), SqlToken.read_quote key hrest.head?_ne]
  rfl

-- ════════════════════════════════════════════════════════════════════════
-- Operations
-- ════════════════════════════════════════════════════════════════════════

theorem Spells.parenthesized (h : Spells dialect ps fs) :
    Spells dialect (SqlWriter.parenthesized ps) [.bracket fs] := by
  have hexpand : (SqlTemplate.around "(" ")").expand? [ps] =
      some (SqlWriter.parenthesized ps) := by
    show some [_, ps, _].flatten = _
    simp only [List.flatten_cons, List.flatten_nil, List.append_nil]
    rfl
  have houtline : (SqlTemplate.around "(" ")").lexemes (fun index => [.slot index]) =
      flattenAll [.bracket [.slot 0]] := by decide +kernel
  have hspells := spells_expand (by decide +kernel) (by decide +kernel) houtline (.cons h .nil)
    hexpand
  have hfill : fillAll [fs] [.bracket [.slot 0]] = [.bracket fs] := by
    show [SqlForm.bracket (fs ++ [])] = _
    rw [List.append_nil]
  rwa [hfill] at hspells

theorem fillAll_ofWords (args : List (List SqlForm)) (ws : List String) :
    fillAll args (SqlForm.ofWords ws) = SqlForm.ofWords ws := by
  induction ws with
  | nil => rfl
  | cons w ws ih => exact congrArg (SqlForm.word w :: ·) ih

/-- Words stand between operands. -/
theorem spells_between (s : String) (ws : List String) (hl : Spells dialect l fl)
    (hr : Spells dialect r fr)
    (hcloses : SqlTemplate.closes 0 [.slot 0, .text s, .slot 1] = true)
    (hspaced : SqlTemplate.spaced [.slot 0, .text s, .slot 1] = true)
    (hwords : SqlTemplate.lexemes (fun index => [.slot index]) [.slot 0, .text s, .slot 1] =
      flattenAll (.slot 0 :: (SqlForm.ofWords ws ++ [.slot 1]))) :
    Spells dialect (l ++ .text s :: r) (fl ++ (SqlForm.ofWords ws ++ fr)) := by
  have hexpand : SqlTemplate.expand? [.slot 0, .text s, .slot 1] [l, r] =
      some (l ++ .text s :: r) := by
    show some [l, _, r].flatten = _
    simp only [List.flatten_cons, List.flatten_nil, List.append_nil]
    rfl
  have hspells := spells_expand hcloses hspaced hwords (.cons hl (.cons hr .nil)) hexpand
  have hfill : fillAll [fl, fr] (.slot 0 :: (SqlForm.ofWords ws ++ [.slot 1])) =
      fl ++ (SqlForm.ofWords ws ++ fr) := by
    rw [fillAll, SqlForm.fillAll_append, fillAll_ofWords]
    show fl ++ (_ ++ (fr ++ [])) = _
    rw [List.append_nil]
  rwa [hfill] at hspells

/-- Operators that do not divide stand between their operands. -/
theorem spells_binary (hl : Spells dialect l fl) (hr : Spells dialect r fr) {op : BinaryOp}
    (hop : op.isDivision = false) :
    Spells dialect (l ++ .text (dialect.operator op) :: r)
      (fl ++ (SqlForm.ofWords (dialect.words op) ++ fr)) := by
  cases op with
  | div | divby | mod => cases hop
  | _ =>
    cases dialect <;>
      exact spells_between _ _ hl hr (by decide +kernel) (by decide +kernel) (by decide +kernel)

theorem spaced_operationTemplate (dialect : Dialect) (op : BinaryOp) (chained : Bool) :
    (operationTemplate dialect op chained).spaced = true := by
  cases dialect <;> cases op <;> cases chained <;> decide +kernel

/-- An operation is read as the outline of its template. -/
theorem spells_operation (hl : Spells dialect l fl) (hr : Spells dialect r fr) {op : BinaryOp}
    {chained : Bool} {outline : List SqlForm}
    (houtline : ((operationTemplate dialect op chained).lexemes fun index => [.slot index]) =
      flattenAll outline) :
    Spells dialect (operation dialect op chained l r) (fillAll [fl, fr] outline) :=
  spells_expand (closes_operationTemplate dialect op chained)
    (spaced_operationTemplate dialect op chained) houtline (.cons hl (.cons hr .nil))
    (expand?_operationTemplate dialect op chained l r)

/-- The divisor of a division must not be zero. -/
theorem spells_division (hl : Spells dialect l fl) (hr : Spells dialect r fr) {op : BinaryOp}
    (hop : op.isDivision = true) (hmod : ¬(dialect = .sqlite ∧ op = .mod)) (chained : Bool) :
    Spells dialect (operation dialect op chained l r)
      (fl ++ (SqlForm.ofWords (dialect.words op) ++ SqlForm.divisor fr)) := by
  have houtline : ((operationTemplate dialect op chained).lexemes fun index => [.slot index]) =
      flattenAll (.slot 0 ::
        (SqlForm.ofWords (dialect.words op) ++ SqlForm.divisor [.slot 1])) := by
    cases op with
    | div | divby => cases dialect <;> cases chained <;> decide +kernel
    | mod =>
      cases dialect with
      | sqlite => exact absurd ⟨rfl, rfl⟩ hmod
      | postgres => cases chained <;> decide +kernel
    | _ => cases hop
  have hspells := spells_operation hl hr houtline
  have hfill : fillAll [fl, fr]
      (.slot 0 :: (SqlForm.ofWords (dialect.words op) ++ SqlForm.divisor [.slot 1])) =
        fl ++ (SqlForm.ofWords (dialect.words op) ++ SqlForm.divisor fr) := by
    rw [fillAll, SqlForm.fillAll_append, fillAll_ofWords]
    rfl
  rwa [hfill] at hspells

/-- The remainder of SQLite is a template. -/
theorem spells_modulo (hl : Spells .sqlite l fl) (hr : Spells .sqlite r fr) (chained : Bool) :
    Spells .sqlite (operation .sqlite .mod chained l r) (SqlForm.modulo fl fr) :=
  spells_operation hl hr (by cases chained <;> decide +kernel)

-- ════════════════════════════════════════════════════════════════════════
-- Memberships and prefix operations
-- ════════════════════════════════════════════════════════════════════════

/-- Words stand in front of an operand. -/
theorem spells_behind (s : String) (ws : List String) (h : Spells dialect ps fs)
    (hcloses : SqlTemplate.closes 0 [.text s, .slot 0] = true)
    (hspaced : SqlTemplate.spaced [.text s, .slot 0] = true)
    (hwords : SqlTemplate.lexemes (fun index => [.slot index]) [.text s, .slot 0] =
      flattenAll (SqlForm.ofWords ws ++ [.slot 0])) :
    Spells dialect (.text s :: ps) (SqlForm.ofWords ws ++ fs) := by
  have hexpand : SqlTemplate.expand? [.text s, .slot 0] [ps] = some (.text s :: ps) := by
    show some [_, ps].flatten = _
    simp only [List.flatten_cons, List.flatten_nil, List.append_nil]
    rfl
  have hspells := spells_expand hcloses hspaced hwords (.cons h .nil) hexpand
  have hfill : fillAll [fs] (SqlForm.ofWords ws ++ [.slot 0]) = SqlForm.ofWords ws ++ fs := by
    rw [SqlForm.fillAll_append, fillAll_ofWords]
    show _ ++ (fs ++ []) = _
    rw [List.append_nil]
  rwa [hfill] at hspells

theorem spells_unary (h : Spells dialect ps fs) (op : UnaryOp) :
    Spells dialect (ofPrefix op :: ps) (SqlForm.ofPrefix op :: fs) := by
  cases op with
  | not =>
    exact spells_behind _ ["NOT"] h (by decide +kernel) (by decide +kernel) (by decide +kernel)
  | negate =>
    exact spells_behind _ ["-"] h (by decide +kernel) (by decide +kernel) (by decide +kernel)

theorem spells_items (list : List Value) :
    Spells dialect ((list.map SqlWriter.literal).intersperse (.text ", "))
      (SqlForm.ofItems list) := by
  induction list with
  | nil => exact fun _ _ _ => rfl
  | cons v list ih =>
    cases list with
    | nil => exact spells_literal v
    | cons v' list =>
      have hspells := spells_between ", " [","] (spells_literal v) ih (by decide +kernel)
        (by decide +kernel) (by decide +kernel)
      exact hspells

theorem spells_membership (h : Spells dialect ps fs) (list : List Value) :
    Spells dialect (ps ++ .text " IN " :: ofItems list)
      (fs ++ [.word "IN", .bracket (SqlForm.ofItems list)]) :=
  spells_between _ ["IN"] h (spells_items list).parenthesized (by decide +kernel)
    (by decide +kernel) (by decide +kernel)

-- ════════════════════════════════════════════════════════════════════════
-- Calls
-- ════════════════════════════════════════════════════════════════════════

end SqlPiece

namespace SqlForm

/-- Whether the forms are those of a call, or stand in parentheses. -/
def isCall : List SqlForm → Bool
  | [bracket _] => true
  | [word s, bracket _] => !isReserved s
  | _ => false

theorem isCall_fillAll {fs : List SqlForm} (h : isCall fs = true) (args : List (List SqlForm)) :
    isCall (fillAll args fs) = true := by
  unfold isCall at h
  split at h
  · rfl
  · exact h
  · cases h

end SqlForm

namespace SqlTemplate

/-- The arguments of a concatenation stand in parentheses, with operators between them. -/
theorem lexemes_concatenated (arity : Nat) :
    ((concatenated arity).lexemes fun index => [.slot index]) =
      SqlForm.flattenAll [.bracket
        (((List.range arity).map SqlForm.slot).intersperse (.word "||"))] := by
  suffices h : ∀ indices : List Nat, lexemes (fun index => [.slot index])
      ((indices.map TemplatePart.slot).intersperse (.text " || ") ++ [.text ")"]) =
        SqlForm.flattenAll ((indices.map SqlForm.slot).intersperse (.word "||")) ++ [.closing] by
    rw [SqlForm.flattenAll_singleton, SqlForm.flatten, ← h]
    rfl
  intro indices
  induction indices with
  | nil => decide +kernel
  | cons index indices ih =>
    cases indices with
    | nil => rfl
    | cons index' indices => exact congrArg (fun ls => .slot index :: .word "||" :: ls) ih

theorem spaced_concatenated (arity : Nat) : spaced (concatenated arity) = true := by
  suffices h : ∀ indices : List Nat, spaced
      ((indices.map TemplatePart.slot).intersperse (.text " || ") ++ [.text ")"]) = true from
    h (List.range arity)
  intro indices
  induction indices with
  | nil => decide +kernel
  | cons index indices ih =>
    cases indices with
    | nil => rfl
    | cons index' indices => exact ih

/-- The template of a function is a call, and no word runs into its arguments. -/
theorem exists_outline {dialect : Dialect} {function : Function} {arity : Nat}
    {template : SqlTemplate} (h : dialect.template? function arity = some template) :
    template.spaced = true ∧ ∃ outline, template.outline? = some outline ∧
      SqlForm.isCall outline = true := by
  have hfixed : ∀ template ∈ fixed dialect,
      (template.spaced && template.outline?.any SqlForm.isCall) = true := by
    cases dialect <;> decide +kernel
  obtain rfl | hmem := eq_concatenated_or_mem_fixed h
  · exact ⟨spaced_concatenated arity, _, outline?_of_lexemes (lexemes_concatenated arity), rfl⟩
  · obtain ⟨hspaced, houtline⟩ := Bool.and_eq_true_iff.mp (hfixed template hmem)
    exact ⟨hspaced, (Option.any_eq_true _ _).mp houtline⟩

end SqlTemplate

namespace SqlPiece

open SqlForm (flattenAll fillAll)

variable {dialect : Dialect} {rootAlias : String} {ps : List SqlPiece} {fs : List SqlForm}

/-- A call by a template is read as the outline of the template with the forms of the arguments. -/
theorem spells_template {function : Function} {arity : Nat} {template : SqlTemplate}
    {args : List (List SqlPiece)} {fss : List (List SqlForm)} {outline : List SqlForm}
    (htemplate : dialect.template? function arity = some template)
    (houtline : template.outline? = some outline)
    (hargs : List.Forall₂ (Spells dialect) args fss) (h : template.expand? args = some ps) :
    Spells dialect ps (fillAll fss outline) :=
  spells_expand (SqlTemplate.closes_template htemplate) (SqlTemplate.exists_outline htemplate).1
    (SqlTemplate.lexemes_of_outline? houtline) hargs h

-- ════════════════════════════════════════════════════════════════════════
-- Lambdas
-- ════════════════════════════════════════════════════════════════════════

theorem spells_head (dialect : Dialect) (rootAlias : String) (binder : Binder) :
    Spells dialect [.text ((SqlWriter.start dialect rootAlias).subqueryHead binder)]
      (SqlForm.head rootAlias binder) := by
  obtain ⟨inner, hinner⟩ : ∃ inner, inner =
    if binder.bound = "" then binder.navigation.name else binder.bound := ⟨_, rfl⟩
  have hhead : (SqlWriter.start dialect rootAlias).subqueryHead binder =
      "SELECT 1 FROM " ++ ((SqlWriter.quote binder.navigation.target.source ++ " AS " ++
        SqlWriter.quote inner) ++ (" WHERE " ++ ((SqlWriter.quote inner ++ "." ++
          SqlWriter.quote binder.navigation.link.targetKey) ++ (" = " ++
            (SqlWriter.quote (binder.navigation.origin.getD rootAlias) ++ "." ++
              SqlWriter.quote binder.navigation.link.sourceKey))))) := by
    unfold SqlWriter.subqueryHead
    dsimp only
    rw [← hinner]
    exact append_parts _ _ _ _ _ _ _ _ _ _ _
  have htable : Spells dialect _ _ := spells_between " AS " ["AS"]
    (spells_name binder.navigation.target.source) (spells_name inner)
    (by decide +kernel) (by decide +kernel) (by decide +kernel)
  have hrows := spells_behind "SELECT 1 FROM " ["SELECT", "1", "FROM"] htable (by decide +kernel)
    (by decide +kernel) (by decide +kernel)
  have hjoin : Spells dialect _ _ := spells_between " = " ["="]
    (spells_column inner binder.navigation.link.targetKey)
    (spells_column (binder.navigation.origin.getD rootAlias) binder.navigation.link.sourceKey)
    (by decide +kernel) (by decide +kernel) (by decide +kernel)
  have hspells := spells_between " WHERE " ["WHERE"] hrows hjoin (by decide +kernel)
    (by decide +kernel) (by decide +kernel)
  rw [hhead, SqlForm.head, ← hinner]
  refine hspells.congr fun count => ?_
  simp only [List.cons_append, List.nil_append, chars_text, String.toList_append, List.append_assoc]

theorem spells_lambda (rootAlias : String) (binder : Binder) (h : Spells dialect ps fs) :
    Spells dialect (ofLambda binder.quantifier
        ((SqlWriter.start dialect rootAlias).subqueryHead binder) ps)
      (SqlForm.ofLambda binder.quantifier (SqlForm.head rootAlias binder) fs) := by
  have hhead := spells_head dialect rootAlias binder
  generalize (SqlWriter.start dialect rootAlias).subqueryHead binder = head at hhead
  have hsubquery (before between behind : String) (outline : List SqlForm)
      (hcloses : SqlTemplate.closes 0
        [.text before, .slot 0, .text between, .slot 1, .text behind] = true)
      (hspaced : SqlTemplate.spaced
        [.text before, .slot 0, .text between, .slot 1, .text behind] = true)
      (houtline : SqlTemplate.lexemes (fun index => [.slot index])
        [.text before, .slot 0, .text between, .slot 1, .text behind] = flattenAll outline) :
      Spells dialect (.text (before ++ head ++ between) :: (ps ++ [.text behind]))
        (fillAll [SqlForm.head rootAlias binder, fs] outline) := by
    have hexpand : SqlTemplate.expand?
        [.text before, .slot 0, .text between, .slot 1, .text behind] [[.text head], ps] =
          some (.text before :: .text head :: .text between :: (ps ++ [.text behind])) := by
      show some [_, _, _, ps, _].flatten = _
      simp only [List.flatten_cons, List.flatten_nil, List.append_nil]
      rfl
    refine (spells_expand hcloses hspaced houtline (.cons hhead (.cons h .nil)) hexpand).congr
      fun count => ?_
    rw [chars_text_append, chars_text_append]
  cases binder.quantifier with
  | any =>
    have hspells := hsubquery "EXISTS (" " AND (" "))" (SqlForm.ofLambda .any [.slot 0] [.slot 1])
      (by decide +kernel) (by decide +kernel) (by decide +kernel)
    have hfill : fillAll [SqlForm.head rootAlias binder, fs]
        (SqlForm.ofLambda .any [.slot 0] [.slot 1]) =
          SqlForm.ofLambda .any (SqlForm.head rootAlias binder) (fs ++ []) := rfl
    rwa [hfill, List.append_nil] at hspells
  | all =>
    have hspells := hsubquery "NOT EXISTS (" " AND (CASE WHEN (" ") THEN 1 ELSE 0 END) = 0)"
      (SqlForm.ofLambda .all [.slot 0] [.slot 1]) (by decide +kernel) (by decide +kernel)
      (by decide +kernel)
    have hfill : fillAll [SqlForm.head rootAlias binder, fs]
        (SqlForm.ofLambda .all [.slot 0] [.slot 1]) =
          SqlForm.ofLambda .all (SqlForm.head rootAlias binder) (fs ++ []) := rfl
    rwa [hfill, List.append_nil] at hspells

theorem spells_bare (binder : Binder) :
    Spells dialect (ofBare binder.quantifier
        ((SqlWriter.start dialect rootAlias).subqueryHead binder))
      (SqlForm.ofBare binder.quantifier (SqlForm.head rootAlias binder)) := by
  have hhead := spells_head dialect rootAlias binder
  generalize (SqlWriter.start dialect rootAlias).subqueryHead binder = head at hhead
  cases binder.quantifier with
  | any =>
    have hexpand : SqlTemplate.expand? [.text "EXISTS (", .slot 0, .text ")"] [[.text head]] =
        some [.text "EXISTS (", .text head, .text ")"] := rfl
    have houtline : SqlTemplate.lexemes (fun index => [.slot index])
        [.text "EXISTS (", .slot 0, .text ")"] = flattenAll (SqlForm.ofBare .any [.slot 0]) := by
      decide +kernel
    have hspells := spells_expand (by decide +kernel) (by decide +kernel) houtline
      (.cons hhead .nil) hexpand
    have hfill : fillAll [SqlForm.head rootAlias binder] (SqlForm.ofBare .any [.slot 0]) =
        SqlForm.ofBare .any (SqlForm.head rootAlias binder ++ []) := rfl
    rw [hfill, List.append_nil] at hspells
    refine hspells.congr fun count => ?_
    rw [ofBare, chars_text_append, chars_text_append]
  | all =>
    have hexpand : SqlTemplate.expand? [.text "(1 = 1)"] [] = some [.text "(1 = 1)"] := rfl
    have houtline : SqlTemplate.lexemes (fun index => [.slot index]) [.text "(1 = 1)"] =
        flattenAll [.bracket (SqlForm.ofWords ["1", "=", "1"])] := by decide +kernel
    exact spells_expand (by decide +kernel) (by decide +kernel) houtline .nil hexpand

end SqlPiece

end ODataQuery
