import ODataQuery.Proofs.Lists
import ODataQuery.Proofs.Numeric.Digits
import ODataQuery.Proofs.Sql.Rendering

/-!
# The columns that a clause names

The text of a clause, read as a database does: identifiers stand in double quotes, each parenthesis
opens a scope, `AS` introduces an alias in its scope, and the alias of a column is the innermost
one of its name.

## Main definitions

- `SqlToken.read` — the names and parentheses of a text
- `SqlColumn` — a key with the row that it is read from
- `SqlToken.columns`, `SqlClause.columns` — the columns of a text, in its order
- `SqlTemplate.closes` — a template closes every parenthesis that it opens
- `SqlTemplate.fixed` — the templates of all functions but concatenation
- `SqlPiece.Names` — pieces name columns wherever they stand

## Main statements

- `SqlToken.columns_quiet` — text without names
- `SqlTemplate.names_expand` — a template names the columns of its arguments

## Design notes

Aliases are compared letter by letter, in both dialects: an alias scopes the columns behind it that
name it exactly. SQLite is coarser and ignores the letter case of quoted names, so there two aliases
that differ in letter case only stand for one another. What is said here of names that differ is
about exact names.
-/

namespace ODataQuery

-- ════════════════════════════════════════════════════════════════════════
-- Reading
-- ════════════════════════════════════════════════════════════════════════

/-- A part of a clause. Everything that is no name and no parenthesis is read character by
character. -/
inductive SqlToken where
  | identifier (name : String)
  | leftParen
  | rightParen
  | mark (c : Char)
deriving DecidableEq

namespace SqlToken

/-- Where a character of a text stands. -/
inductive Place where
  | outside
  /-- In a name, behind some of its characters. -/
  | name (read : List Char)
  /-- Behind a quote that closes a name, if it is not doubled. -/
  | behindName (read : List Char)
  /-- In a constant in single quotes. -/
  | constant

/-- The token of a character outside of quotes. -/
def ofChar (c : Char) : SqlToken :=
  if c = '(' then .leftParen else if c = ')' then .rightParen else .mark c

/-- The tokens of a text from a place on. -/
def read : Place → List Char → List SqlToken
  | .outside, [] => []
  | .outside, c :: cs =>
    if c = '"' then read (.name []) cs
    else if c = '\'' then read .constant cs
    else ofChar c :: read .outside cs
  | .name _, [] => []
  | .name s, c :: cs =>
    if c = '"' then read (.behindName s) cs else read (.name (s ++ [c])) cs
  | .behindName s, [] => [.identifier (String.ofList s)]
  | .behindName s, c :: cs =>
    if c = '"' then read (.name (s ++ [c])) cs
    else .identifier (String.ofList s) ::
      if c = '\'' then read .constant cs else ofChar c :: read .outside cs
  | .constant, [] => []
  | .constant, c :: cs => if c = '\'' then read .outside cs else read .constant cs

end SqlToken

/-- A column that a clause reads. -/
structure SqlColumn where
  /-- The row: zero is that of the entity, the others are those of the enclosing subqueries,
  counted from the outside. None if there is no row of the name. -/
  row : Option Nat
  key : String
deriving DecidableEq

/-- The open parentheses of a text, the innermost first, each with the alias that it introduces. -/
abbrev SqlLevels := List (Option String)

namespace SqlLevels

/-- The aliases of the enclosing subqueries, the innermost first. -/
def aliases (levels : SqlLevels) : List String := levels.reduceOption

/-- Introduces an alias in the innermost parentheses. -/
def declare (name : String) : SqlLevels → SqlLevels
  | _ :: outer => some name :: outer
  | [] => [some name]

/-- Parentheses without an alias change no names. -/
theorem aliases_replicate (depth : Nat) (levels : SqlLevels) :
    aliases (List.replicate depth none ++ levels) = levels.aliases := by
  induction depth with
  | zero => rfl
  | succ depth ih => exact ih

/-- The row that an alias stands for. -/
def row (rootAlias : String) (levels : SqlLevels) (name : String) : Option Nat :=
  if name ∈ levels.aliases then some (levels.aliases.dropWhile (· != name)).length
  else if name = rootAlias then some 0
  else none

end SqlLevels

namespace SqlToken

/-- The columns of a text in the given parentheses. -/
def columns (rootAlias : String) : SqlLevels → List SqlToken → List SqlColumn
  | levels, .identifier _ :: .mark ' ' :: .mark 'A' :: .mark 'S' :: .mark ' ' ::
      .identifier name :: ts => columns rootAlias (levels.declare name) ts
  | levels, .identifier name :: .mark '.' :: .identifier key :: ts =>
    ⟨levels.row rootAlias name, key⟩ :: columns rootAlias levels ts
  | levels, .leftParen :: ts => columns rootAlias (none :: levels) ts
  | levels, .rightParen :: ts => columns rootAlias levels.tail ts
  | levels, _ :: ts => columns rootAlias levels ts
  | _, [] => []

end SqlToken

/-- The columns of a clause, in the order of its text, where the rows of the entity have the given
alias. -/
def SqlClause.columns (rootAlias : String) (c : SqlClause) : List SqlColumn :=
  SqlToken.columns rootAlias [] (SqlToken.read .outside c.clause.toList)

-- ════════════════════════════════════════════════════════════════════════
-- Text without names
-- ════════════════════════════════════════════════════════════════════════

namespace SqlToken

variable {rootAlias : String} {levels : SqlLevels}

/-- How deep the parentheses of a text are open at its end; none if the text has a name, or closes
parentheses that it did not open, or ends in a constant. -/
def nesting : (constant : Bool) → (depth : Nat) → List Char → Option Nat
  | false, depth, [] => some depth
  | true, _, [] => none
  | true, depth, c :: cs => nesting (c != '\'') depth cs
  | false, depth, c :: cs =>
    if c = '"' then none
    else if c = '\'' then nesting true depth cs
    else if c = '(' then nesting false (depth + 1) cs
    else if c = ')' then if depth = 0 then none else nesting false (depth - 1) cs
    else nesting false depth cs

@[simp]
theorem columns_leftParen (ts : List SqlToken) :
    columns rootAlias levels (.leftParen :: ts) = columns rootAlias (none :: levels) ts := rfl

@[simp]
theorem columns_rightParen (ts : List SqlToken) :
    columns rootAlias levels (.rightParen :: ts) = columns rootAlias levels.tail ts := rfl

@[simp]
theorem columns_mark (c : Char) (ts : List SqlToken) :
    columns rootAlias levels (.mark c :: ts) = columns rootAlias levels ts := rfl

theorem read_constant (c : Char) (rest : List Char) :
    read .constant (c :: rest) = read (if c != '\'' then .constant else .outside) rest := by
  rw [read]
  by_cases hc : c = '\''
  · subst hc
    rfl
  · rw [if_neg hc, bne_iff_ne.mpr hc, if_pos rfl]

/-- Outside of constants, a character of a text without names starts a constant or is a token, which
opens or closes a parenthesis. -/
theorem outside_of_nesting {c : Char} {cs : List Char} {m n : Nat}
    (h : nesting false m (c :: cs) = some n) :
    (nesting true m cs = some n ∧ ∀ rest, read .outside (c :: rest) = read .constant rest) ∨
      ∃ m', nesting false m' cs = some n ∧
        (∀ rest, read .outside (c :: rest) = ofChar c :: read .outside rest) ∧
        ∀ rootAlias levels ts, columns rootAlias (List.replicate m none ++ levels) (ofChar c :: ts) =
          columns rootAlias (List.replicate m' none ++ levels) ts := by
  rw [nesting] at h
  split at h
  · cases h
  next hname =>
  split at h
  · next hquote =>
    refine .inl ⟨h, fun rest => ?_⟩
    rw [read, if_neg hname, if_pos hquote]
  next hquote =>
  have hread (rest : List Char) : read .outside (c :: rest) = ofChar c :: read .outside rest := by
    rw [read, if_neg hname, if_neg hquote]
  right
  split at h
  · next hopen =>
    refine ⟨m + 1, h, hread, fun rootAlias levels ts => ?_⟩
    rw [ofChar, if_pos hopen, columns_leftParen]
    rfl
  next hopen =>
  split at h
  · next hclose =>
    split at h
    · cases h
    · next hm =>
      obtain ⟨m, rfl⟩ := Nat.exists_eq_succ_of_ne_zero hm
      refine ⟨m, h, hread, fun rootAlias levels ts => ?_⟩
      rw [ofChar, if_neg hopen, if_pos hclose, columns_rightParen]
      rfl
  · next hclose =>
    refine ⟨m, h, hread, fun rootAlias levels ts => ?_⟩
    rw [ofChar, if_neg hopen, if_neg hclose, columns_mark]

/-- Text without names only opens and closes parentheses. -/
theorem columns_quiet {cs : List Char} {constant : Bool} {m n : Nat}
    (h : nesting constant m cs = some n) (rest : List Char) :
    columns rootAlias (List.replicate m none ++ levels)
        (read (if constant then .constant else .outside) (cs ++ rest)) =
      columns rootAlias (List.replicate n none ++ levels) (read .outside rest) := by
  induction cs generalizing constant m with
  | nil =>
    cases constant with
    | true => cases h
    | false =>
      cases h
      rfl
  | cons c cs ih =>
    cases constant with
    | true =>
      rw [List.cons_append, if_pos rfl, read_constant]
      exact ih h
    | false =>
      rw [List.cons_append, if_neg Bool.false_ne_true]
      obtain ⟨h, hread⟩ | ⟨m', h, hread, hcolumns⟩ := outside_of_nesting h
      · rw [hread]
        exact ih h
      · rw [hread, hcolumns]
        exact ih h

/-- Text without names that closes what it opens. -/
theorem columns_closed {cs : List Char} (h : nesting false 0 cs = some 0) (rest : List Char) :
    columns rootAlias levels (read .outside (cs ++ rest)) =
      columns rootAlias levels (read .outside rest) := columns_quiet h rest

-- ════════════════════════════════════════════════════════════════════════
-- Names
-- ════════════════════════════════════════════════════════════════════════

theorem read_name (s cs : List Char) {rest : List Char} (hrest : rest.head? ≠ some '"') :
    read (.name s) (cs.flatMap (fun c => if c = '"' then [c, c] else [c]) ++ '"' :: rest) =
      .identifier (String.ofList (s ++ cs)) :: read .outside rest := by
  induction cs generalizing s with
  | nil =>
    show read (.behindName s) rest = _
    rw [List.append_nil]
    cases rest with
    | nil => rfl
    | cons c cs =>
      have hc : c ≠ '"' := fun h => hrest (congrArg some h)
      rw [read, if_neg hc, read, if_neg hc]
  | cons c cs ih =>
    have hmore := ih (s ++ [c])
    rw [List.append_assoc] at hmore
    rw [List.flatMap_cons]
    by_cases hc : c = '"'
    · subst hc
      exact hmore
    · rw [if_neg hc, List.singleton_append, List.cons_append, read, if_neg hc]
      exact hmore

/-- A name in quotes is read again. -/
theorem read_quote (name : String) {rest : List Char} (hrest : rest.head? ≠ some '"') :
    read .outside ((SqlWriter.quote name).toList ++ rest) =
      .identifier name :: read .outside rest := by
  have hname := read_name [] name.toList hrest
  rw [List.nil_append, String.ofList_toList] at hname
  rw [SqlWriter.quote, String.toList_ofList, List.cons_append, List.append_assoc]
  exact hname

theorem read_mark {c : Char} (h : c ∉ ['"', '\'', '(', ')']) (cs : List Char) :
    read .outside (c :: cs) = .mark c :: read .outside cs := by
  simp only [List.mem_cons, List.not_mem_nil, or_false, not_or] at h
  obtain ⟨hname, hconstant, hopen, hclose⟩ := h
  rw [read, if_neg hname, if_neg hconstant, ofChar, if_neg hopen, if_neg hclose]

/-- A column is read again. -/
theorem columns_column (name key : String) {rest : List Char} (hrest : rest.head? ≠ some '"') :
    columns rootAlias levels (read .outside
        ((SqlWriter.quote name ++ "." ++ SqlWriter.quote key).toList ++ rest)) =
      ⟨levels.row rootAlias name, key⟩ :: columns rootAlias levels (read .outside rest) := by
  have hdot : (".".toList ++ ((SqlWriter.quote key).toList ++ rest)).head? ≠ some '"' := by
    show some '.' ≠ some '"'
    decide
  rw [String.toList_append, String.toList_append, List.append_assoc, List.append_assoc,
    read_quote name hdot, show ".".toList = ['.'] from rfl, List.singleton_append,
    read_mark (by decide), read_quote key hrest]
  rfl

/-- An alias is introduced in the innermost parentheses. -/
theorem columns_as (table name : String) {rest : List Char} (hrest : rest.head? ≠ some '"') :
    columns rootAlias levels (read .outside
        ((SqlWriter.quote table ++ " AS " ++ SqlWriter.quote name).toList ++ rest)) =
      columns rootAlias (levels.declare name) (read .outside rest) := by
  have hspace : (" AS ".toList ++ ((SqlWriter.quote name).toList ++ rest)).head? ≠ some '"' := by
    show some ' ' ≠ some '"'
    decide
  rw [String.toList_append, String.toList_append, List.append_assoc, List.append_assoc,
    read_quote table hspace, show " AS ".toList = [' ', 'A', 'S', ' '] from rfl]
  simp only [List.cons_append, List.nil_append]
  rw [read_mark (by decide), read_mark (by decide), read_mark (by decide), read_mark (by decide),
    read_quote name hrest]
  rfl

end SqlToken

-- ════════════════════════════════════════════════════════════════════════
-- Pieces
-- ════════════════════════════════════════════════════════════════════════

namespace SqlPiece

/-- The characters of pieces behind so many parameters. -/
def chars (dialect : Dialect) (count : Nat) (ps : List SqlPiece) : List Char :=
  (SqlClause.textFrom dialect count ps).toList

/-- Among the given aliases, the pieces name the given columns and close every parenthesis that they
open. -/
def Names (dialect : Dialect) (rootAlias : String) (aliases : List String) (ps : List SqlPiece)
    (columns : List SqlColumn) : Prop :=
  ∀ (count : Nat) (levels : SqlLevels) (rest : List Char), levels.aliases = aliases →
    rest.head? ≠ some '"' →
    SqlToken.columns rootAlias levels (SqlToken.read .outside (chars dialect count ps ++ rest)) =
      columns ++ SqlToken.columns rootAlias levels (SqlToken.read .outside rest)

variable {dialect : Dialect} {rootAlias : String} {aliases : List String}

theorem chars_text (count : Nat) (s : String) (ps : List SqlPiece) :
    chars dialect count (.text s :: ps) = s.toList ++ chars dialect count ps := String.toList_append

theorem chars_param (count : Nat) (v : SqlValue) (ps : List SqlPiece) :
    chars dialect count (.param v :: ps) =
      (dialect.placeholder (count + 1)).toList ++ chars dialect (count + 1) ps :=
  String.toList_append

theorem exists_chars_append (dialect : Dialect) (count : Nat) (ps qs : List SqlPiece) :
    ∃ count', chars dialect count (ps ++ qs) =
      chars dialect count ps ++ chars dialect count' qs := by
  induction ps generalizing count with
  | nil => exact ⟨count, rfl⟩
  | cons p ps ih =>
    cases p with
    | text s =>
      obtain ⟨count', h⟩ := ih count
      exact ⟨count', by rw [List.cons_append, chars_text, chars_text, h, List.append_assoc]⟩
    | param v =>
      obtain ⟨count', h⟩ := ih (count + 1)
      exact ⟨count', by rw [List.cons_append, chars_param, chars_param, h, List.append_assoc]⟩

theorem nesting_digits {cs : List Char} (h : ∀ c ∈ cs, Text.isAsciiDigit c = true) (depth : Nat) :
    SqlToken.nesting false depth cs = some depth := by
  induction cs with
  | nil => rfl
  | cons c cs ih =>
    have hne (c' : Char) (hc' : Text.isAsciiDigit c' = false) : c ≠ c' := by
      rintro rfl
      exact Bool.false_ne_true (hc'.symm.trans (h c List.mem_cons_self))
    rw [SqlToken.nesting, if_neg (hne '"' rfl), if_neg (hne '\'' rfl), if_neg (hne '(' rfl),
      if_neg (hne ')' rfl)]
    exact ih fun c' hc' => h c' (List.mem_cons_of_mem _ hc')

/-- A numbered placeholder is a sign with the digits of its number. -/
theorem toList_placeholder_postgres (index : Nat) :
    (Dialect.postgres.placeholder index).toList = '$' :: Text.digitsOf index := by
  rw [Dialect.placeholder, String.toList_append, Nat.toString_eq_repr, Nat.toList_repr]
  rfl

theorem nesting_placeholder (dialect : Dialect) (index : Nat) :
    SqlToken.nesting false 0 (dialect.placeholder index).toList = some 0 := by
  cases dialect with
  | sqlite =>
    rw [Dialect.placeholder]
    decide
  | postgres =>
    rw [toList_placeholder_postgres]
    exact nesting_digits (fun _ => Text.isAsciiDigit_of_mem_digitsOf) 0

theorem names_nil : Names dialect rootAlias aliases [] [] := fun _ _ _ _ _ => rfl

/-- Text without names, or a parameter. -/
def IsQuiet (p : SqlPiece) : Prop :=
  ∀ s, p = .text s → SqlToken.nesting false 0 s.toList = some 0

/-- A piece without names in front of others. -/
theorem Names.cons {p : SqlPiece} {ps : List SqlPiece} {cols : List SqlColumn} (hp : p.IsQuiet)
    (h : Names dialect rootAlias aliases ps cols) :
    Names dialect rootAlias aliases (p :: ps) cols := by
  intro count levels rest hlevels hrest
  cases p with
  | text s =>
    rw [chars_text, List.append_assoc]
    exact (SqlToken.columns_closed (hp s rfl) _).trans (h count levels rest hlevels hrest)
  | param v =>
    rw [chars_param, List.append_assoc]
    exact (SqlToken.columns_closed (nesting_placeholder dialect _) _).trans
      (h (count + 1) levels rest hlevels hrest)

end SqlPiece

-- ════════════════════════════════════════════════════════════════════════
-- Templates
-- ════════════════════════════════════════════════════════════════════════

namespace SqlTemplate

open SqlPiece (Names chars)

/-- Whether the first part is a slot. -/
def startsWithSlot : SqlTemplate → Bool
  | .slot _ :: _ => true
  | _ => false

/-- Whether a template, behind so many open parentheses, closes all that are open. Its text has no
names, and no two slots meet. -/
def closes : (depth : Nat) → SqlTemplate → Bool
  | depth, [] => depth == 0
  | depth, .text s :: parts =>
    !s.toList.isEmpty && (SqlToken.nesting false depth s.toList).any (closes · parts)
  | depth, .slot _ :: parts => !startsWithSlot parts && closes depth parts

/-- The columns of a template whose arguments name the given columns. -/
def columns (template : SqlTemplate) (cols : List (List SqlColumn)) : List SqlColumn :=
  template.flatMap fun
    | .text _ => []
    | .slot index => cols[index]?.getD []

variable {dialect : Dialect} {rootAlias : String} {aliases : List String}
  {args : List (List SqlPiece)} {cols : List (List SqlColumn)}

theorem expand?_cons {part : TemplatePart} {parts : SqlTemplate} {ps : List SqlPiece}
    (h : expand? (part :: parts) args = some ps) :
    ∃ qs rs, expandPart? args part = some qs ∧ parts.expand? args = some rs ∧ ps = qs ++ rs := by
  unfold expand? at h ⊢
  rw [List.mapM_cons] at h
  cases hpart : expandPart? args part with
  | none =>
    rw [hpart] at h
    cases h
  | some qs =>
    rw [hpart] at h
    cases hparts : parts.mapM (expandPart? args) with
    | none =>
      rw [hparts] at h
      cases h
    | some pss =>
      rw [hparts] at h
      cases h
      exact ⟨qs, pss.flatten, rfl, rfl, rfl⟩

/-- Behind a slot there is text, or what is behind the template. -/
theorem head?_of_closes {depth count : Nat} {parts : SqlTemplate} {ps : List SqlPiece}
    {rest : List Char} (hparts : closes depth parts = true) (hslot : startsWithSlot parts = false)
    (h : parts.expand? args = some ps) (hrest : rest.head? ≠ some '"') :
    (chars dialect count ps ++ rest).head? ≠ some '"' := by
  cases parts with
  | nil =>
    cases h
    exact hrest
  | cons part parts =>
    cases part with
    | slot index => cases hslot
    | text s =>
      obtain ⟨_, rs, hs, _, rfl⟩ := expand?_cons h
      cases hs
      obtain ⟨hne, hnesting⟩ := Bool.and_eq_true_iff.mp hparts
      rw [List.singleton_append, SqlPiece.chars_text, List.append_assoc]
      cases hchars : s.toList with
      | nil =>
        rw [hchars] at hne
        cases hne
      | cons c cs =>
        rw [hchars, SqlToken.nesting] at hnesting
        intro hhead
        rw [if_pos (Option.some.inj hhead)] at hnesting
        cases hnesting

/-- A template that closes its parentheses names the columns of its arguments. -/
theorem columns_expand {depth : Nat} {template : SqlTemplate} {ps : List SqlPiece}
    (ht : closes depth template = true)
    (hargs : List.Forall₂ (Names dialect rootAlias aliases) args cols)
    (h : template.expand? args = some ps) (count : Nat) {levels : SqlLevels} {rest : List Char}
    (hlevels : levels.aliases = aliases) (hrest : rest.head? ≠ some '"') :
    SqlToken.columns rootAlias (List.replicate depth none ++ levels)
        (SqlToken.read .outside (chars dialect count ps ++ rest)) =
      template.columns cols ++ SqlToken.columns rootAlias levels (SqlToken.read .outside rest) := by
  induction template generalizing depth ps count with
  | nil =>
    cases h
    obtain rfl := beq_iff_eq.mp ht
    rfl
  | cons part parts ih =>
    obtain ⟨qs, rs, hpart, hparts, rfl⟩ := expand?_cons h
    cases part with
    | text s =>
      cases hpart
      obtain ⟨_, hnesting⟩ := Bool.and_eq_true_iff.mp ht
      obtain ⟨depth', hdepth, hcloses⟩ : ∃ depth', SqlToken.nesting false depth s.toList =
          some depth' ∧ closes depth' parts = true := by
        cases hdepth : SqlToken.nesting false depth s.toList with
        | none =>
          rw [hdepth] at hnesting
          cases hnesting
        | some depth' =>
          rw [hdepth] at hnesting
          exact ⟨depth', rfl, hnesting⟩
      rw [List.singleton_append, SqlPiece.chars_text, List.append_assoc]
      exact (SqlToken.columns_quiet hdepth _).trans (ih hcloses hparts count)
    | slot index =>
      obtain ⟨hslot, hcloses⟩ := Bool.and_eq_true_iff.mp ht
      have hslot : startsWithSlot parts = false := by simpa using hslot
      obtain ⟨count', hchars⟩ := SqlPiece.exists_chars_append dialect count qs rs
      obtain ⟨qcols, hqcols, hnames⟩ := Lists.exists_getElem?_of_forall₂ hargs hpart
      have haliases : SqlLevels.aliases (List.replicate depth none ++ levels) = aliases :=
        (SqlLevels.aliases_replicate depth levels).trans hlevels
      rw [hchars, List.append_assoc]
      refine (hnames count _ _ haliases (head?_of_closes hcloses hslot hparts hrest)).trans ?_
      rw [ih hcloses hparts count', ← List.append_assoc]
      show _ = (cols[index]?.getD [] ++ _) ++ _
      rw [hqcols]
      rfl

/-- A template that closes its parentheses names the columns of its arguments. -/
theorem names_expand {template : SqlTemplate} {ps : List SqlPiece} (ht : closes 0 template = true)
    (hargs : List.Forall₂ (Names dialect rootAlias aliases) args cols)
    (h : template.expand? args = some ps) :
    Names dialect rootAlias aliases ps (template.columns cols) :=
  fun count _ _ hlevels hrest => columns_expand ht hargs h count hlevels hrest

-- ════════════════════════════════════════════════════════════════════════
-- The templates of functions
-- ════════════════════════════════════════════════════════════════════════

theorem closes_concatenated (arity : Nat) : closes 0 (concatenated arity) = true := by
  suffices h : ∀ indices : List Nat, closes 1
      ((indices.map TemplatePart.slot).intersperse (.text " || ") ++ [.text ")"]) = true from
    h (List.range arity)
  intro indices
  induction indices with
  | nil => decide
  | cons index indices ih =>
    cases indices with
    | nil => rfl
    | cons index' indices => exact ih

/-- The templates of all functions but concatenation, which has one for each number of arguments. -/
def fixed (dialect : Dialect) : List SqlTemplate :=
  (Function.all.filter (· ≠ .concat)).flatMap fun function =>
    [2, 3].filterMap (dialect.template? function)

/-- Only substrings have different templates: one for three arguments, and one for fewer. -/
theorem template?_eq {function : Function} (hne : function ≠ .concat) (arity : Nat) :
    dialect.template? function arity =
      dialect.template? function (if arity = 3 then 3 else 2) := by
  by_cases harity : arity = 3
  · rw [if_pos harity, harity]
  · rw [if_neg harity]
    cases function with
    | concat => exact absurd rfl hne
    | substring => cases dialect <;> exact congrArg some (if_neg harity)
    | _ => cases dialect <;> rfl

/-- A template is a concatenation, or one of a few. -/
theorem eq_concatenated_or_mem_fixed {function : Function} {arity : Nat} {template : SqlTemplate}
    (h : dialect.template? function arity = some template) :
    template = concatenated arity ∨ template ∈ fixed dialect := by
  by_cases hconcat : function = .concat
  · subst hconcat
    cases dialect <;> exact .inl (Option.some.inj h).symm
  · rw [template?_eq hconcat] at h
    have hfunction : function ∈ Function.all.filter (· ≠ .concat) :=
      List.mem_filter.mpr ⟨by cases function <;> decide, decide_eq_true hconcat⟩
    have harity : (if arity = 3 then 3 else 2) ∈ [2, 3] := by
      split <;> decide
    exact .inr (List.mem_flatMap.mpr
      ⟨function, hfunction, List.mem_filterMap.mpr ⟨_, harity, h⟩⟩)

/-- The templates of all functions close their parentheses. -/
theorem closes_template {function : Function} {arity : Nat} {template : SqlTemplate}
    (h : dialect.template? function arity = some template) : closes 0 template = true := by
  have hfixed : ∀ template ∈ fixed dialect, closes 0 template = true := by
    cases dialect <;> decide +kernel
  obtain rfl | hmem := eq_concatenated_or_mem_fixed h
  · exact closes_concatenated arity
  · exact hfixed template hmem

end SqlTemplate

end ODataQuery
