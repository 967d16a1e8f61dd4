import ODataQuery.Proofs.Sql.Forms

/-!
# Precedence of SQL operators

The forms of a text are read as a term by the operator precedence of a dialect: an operand, or a
prefix operation, and then operators between operands as long as they bind tight enough.

## Main definitions

- `SqlInfix`, `Dialect.infixes` — the operators between operands, with their levels
- `SqlTerm` — what operators are applied to
- `SqlTerm.read`, `SqlTerm.readAll` — reads a term by the levels of the operators
- `SqlClause.term?` — the term of a condition
- `SqlClause.columnTerms?` — the terms of computed columns, with their names
- `SqlTerm.Reads` — forms that are read as a term among other forms

## Main statements

- `SqlTerm.Reads.binary`, `SqlTerm.Reads.inList`, `SqlTerm.Reads.prefixed` — how terms are put
  together
- `SqlTerm.Reads.readAll` — forms that are read to their end

## Design notes

Levels grow with the strength of the operators. An operator on a level that does not chain must not
be followed by another one of the level: such a text is not well formed.
-/

namespace ODataQuery

-- ════════════════════════════════════════════════════════════════════════
-- Operators
-- ════════════════════════════════════════════════════════════════════════

/-- An operator between operands. -/
structure SqlInfix where
  words : List String
  /-- The strength of the operator. -/
  level : Nat
  /-- Whether operators of the level may follow each other, and associate to the left. -/
  chains : Bool
  /-- Whether a list in parentheses stands at the right. -/
  takesList : Bool

namespace SqlInfix

/-- An operator that associates to the left. -/
def chaining (words : List String) (level : Nat) : SqlInfix := ⟨words, level, true, false⟩

/-- An operator that does not associate. -/
def single (words : List String) (level : Nat) : SqlInfix := ⟨words, level, false, false⟩

/-- Membership in a list. -/
def membership (level : Nat) : SqlInfix := ⟨["IN"], level, true, true⟩

/-- The operators between operands in SQLite. -/
def sqlite : List SqlInfix :=
  [chaining ["OR"] 1, chaining ["AND"] 2, chaining ["IS", "NOT"] 4, chaining ["IS"] 4,
    membership 4, chaining ["<"] 5, chaining ["<="] 5, chaining [">"] 5, chaining [">="] 5,
    chaining ["+"] 6, chaining ["-"] 6, chaining ["*"] 7, chaining ["/"] 7, chaining ["%"] 7]

/-- The operators between operands in PostgreSQL. -/
def postgres : List SqlInfix :=
  [chaining ["OR"] 1, chaining ["AND"] 2, single ["IS", "NOT", "DISTINCT", "FROM"] 4,
    single ["IS", "DISTINCT", "FROM"] 4, single ["<"] 5, single ["<="] 5, single [">"] 5,
    single [">="] 5, membership 6, chaining ["+"] 7, chaining ["-"] 7, chaining ["*"] 8,
    chaining ["/"] 8, chaining ["%"] 8]

end SqlInfix

namespace Dialect

/-- The operators between operands. Of two that start with the same words, the longer one comes
first. -/
def infixes : Dialect → List SqlInfix
  | sqlite => SqlInfix.sqlite
  | postgres => SqlInfix.postgres

/-- The level of `NOT`. -/
def notLevel : Nat := 3

/-- The level of the sign in front of an operand. -/
def signLevel : Dialect → Nat
  | sqlite => 8
  | postgres => 9

end Dialect

namespace SqlForm

/-- What stands behind words; none if the forms do not start with them. -/
def behindWords : List String → List SqlForm → Option (List SqlForm)
  | [], fs => some fs
  | w :: ws, word s :: fs => if s = w then behindWords ws fs else none
  | _ :: _, _ => none

/-- The operator between operands that forms start with, and what stands behind it. -/
def binaryAt? (dialect : Dialect) (fs : List SqlForm) : Option (SqlInfix × List SqlForm) :=
  dialect.infixes.findSome? fun op => (behindWords op.words fs).map (op, ·)

/-- The prefix operator that forms start with, its level, and what stands behind it. -/
def unaryAt? (dialect : Dialect) : List SqlForm → Option (String × Nat × List SqlForm)
  | word s :: fs =>
    if s = "NOT" then some (s, Dialect.notLevel, fs)
    else if s = "-" then some (s, dialect.signLevel, fs)
    else none
  | _ => none

/-- Words that are no operands. -/
def isReserved (s : String) : Bool :=
  ["OR", "AND", "NOT", "IS", "DISTINCT", "FROM", "IN", "AS", "<", "<=", ">", ">=", "+", "-", "*",
    "/", "%", ","].contains s

/-- The operand that forms start with, and what stands behind it: a column, a call with its
arguments, a constant, a parameter, or what stands in parentheses. -/
def operand? : List SqlForm → Option (List SqlForm × List SqlForm)
  | name a :: word s :: name b :: fs =>
    if s = "." then some ([name a, word s, name b], fs) else none
  | word s :: bracket gs :: fs =>
    if isReserved s then none else some ([word s, bracket gs], fs)
  | word s :: fs => if isReserved s then none else some ([word s], fs)
  | parameter :: fs => some ([parameter], fs)
  | bracket gs :: fs => some ([bracket gs], fs)
  | _ => none

end SqlForm

-- ════════════════════════════════════════════════════════════════════════
-- Terms
-- ════════════════════════════════════════════════════════════════════════

/-- What the operators of a text are applied to. -/
inductive SqlTerm where
  | operand (forms : List SqlForm)
  | prefixed (word : String) (operand : SqlTerm)
  | binary (words : List String) (left right : SqlTerm)

namespace SqlTerm

open SqlForm (binaryAt? unaryAt? operand?)

/-- The list that forms start with. -/
def list? : List SqlForm → Option (SqlTerm × List SqlForm)
  | .bracket gs :: fs => some (operand [.bracket gs], fs)
  | _ => none

/-- Whether an operator that does not chain is followed by another one of its level. -/
def clashes (dialect : Dialect) (op : SqlInfix) (fs : List SqlForm) : Bool :=
  !op.chains && (binaryAt? dialect fs).any (·.1.level == op.level)

mutual

/-- Reads a term of operators that have at least a level. -/
def read (dialect : Dialect) : (fuel minimum : Nat) → List SqlForm →
    Option (SqlTerm × List SqlForm)
  | 0, _, _ => none
  | fuel + 1, minimum, fs =>
    match unaryAt? dialect fs with
    | some (word, level, fs) =>
      match read dialect fuel level fs with
      | some (t, fs) => readOn dialect fuel minimum (prefixed word t) fs
      | none => none
    | none =>
      match operand? fs with
      | some (gs, fs) => readOn dialect fuel minimum (operand gs) fs
      | none => none

/-- Goes on with the operators behind a term. -/
def readOn (dialect : Dialect) : (fuel minimum : Nat) → SqlTerm → List SqlForm →
    Option (SqlTerm × List SqlForm)
  | 0, _, _, _ => none
  | fuel + 1, minimum, t, fs =>
    match binaryAt? dialect fs with
    | none => some (t, fs)
    | some (op, gs) =>
      if op.level < minimum then some (t, fs)
      else
        match if op.takesList then list? gs else read dialect fuel (op.level + 1) gs with
        | none => none
        | some (r, gs) =>
          if clashes dialect op gs then none
          else readOn dialect fuel minimum (binary op.words t r) gs

end

/-- Reads a term at the start of forms. -/
def readFirst (dialect : Dialect) (fs : List SqlForm) : Option (SqlTerm × List SqlForm) :=
  read dialect (2 * fs.length + 1) 0 fs

/-- Reads forms as one term. -/
def readAll (dialect : Dialect) (fs : List SqlForm) : Option SqlTerm :=
  match readFirst dialect fs with
  | some (t, []) => some t
  | _ => none

/-- Reads terms with names, with commas between them. -/
def readColumns (dialect : Dialect) : (fuel : Nat) → List SqlForm → Option (List (SqlTerm × String))
  | 0, _ => none
  | fuel + 1, fs =>
    match readFirst dialect fs with
    | some (t, .word s :: .name n :: gs) =>
      if s = "AS" then
        match gs with
        | [] => some [(t, n)]
        | .word s :: gs =>
          if s = "," then (readColumns dialect fuel gs).map ((t, n) :: ·) else none
        | _ => none
      else none
    | _ => none

end SqlTerm

namespace SqlClause

/-- The term of a condition; none if it is not well formed. -/
def term? (dialect : Dialect) (c : SqlClause) : Option SqlTerm :=
  c.forms?.bind (SqlTerm.readAll dialect)

/-- The terms of computed columns, with their names; none if they are not well formed. -/
def columnTerms? (dialect : Dialect) (c : SqlClause) : Option (List (SqlTerm × String)) :=
  c.forms?.bind fun fs =>
    if fs.isEmpty then some [] else SqlTerm.readColumns dialect fs.length fs

end SqlClause

-- ════════════════════════════════════════════════════════════════════════
-- Reading among other forms
-- ════════════════════════════════════════════════════════════════════════

namespace SqlTerm

open SqlForm (binaryAt? unaryAt? operand? behindWords)

/-- Forms do not go on with a term whose operators have at least a level. -/
structure Follows (dialect : Dialect) (reach : Nat) (rest : List SqlForm) : Prop where
  bracket : ∀ gs fs, rest ≠ .bracket gs :: fs
  level : ∀ op fs, binaryAt? dialect rest = some (op, fs) → op.level < reach

/-- Among operators of at most a level, and in front of operators below another one, forms are read
as the term. -/
def Reads (dialect : Dialect) (fs : List SqlForm) (t : SqlTerm) (level reach : Nat) : Prop :=
  ∀ minimum ≤ level, ∀ rest, Follows dialect reach rest → ∀ fuel k, 2 * fs.length + k ≤ fuel →
    ∃ fuel', k ≤ fuel' ∧
      read dialect fuel minimum (fs ++ rest) = readOn dialect fuel' minimum t rest

/-- Forms are an operand of their own. -/
def IsOperand (dialect : Dialect) (fs : List SqlForm) : Prop :=
  ∀ rest, (∀ gs fs', rest ≠ .bracket gs :: fs') → unaryAt? dialect (fs ++ rest) = none ∧
    operand? (fs ++ rest) = some (fs, rest)

variable {dialect : Dialect} {fs ls rs : List SqlForm} {t l r : SqlTerm}
  {level reach levelₗ reachₗ levelᵣ reachᵣ : Nat}

theorem isOperand_bracket (fs : List SqlForm) : IsOperand dialect [.bracket fs] :=
  fun _ _ => ⟨rfl, rfl⟩

theorem isOperand_parameter : IsOperand dialect [.parameter] := fun _ _ => ⟨rfl, rfl⟩

theorem unaryAt?_of_isReserved {s : String} (hs : SqlForm.isReserved s = false)
    (rest : List SqlForm) : unaryAt? dialect (.word s :: rest) = none := by
  have hne (s' : String) (hs' : SqlForm.isReserved s' = true) : s ≠ s' := by
    rintro rfl
    exact Bool.false_ne_true (hs.symm.trans hs')
  rw [unaryAt?, if_neg (hne "NOT" (by decide)), if_neg (hne "-" (by decide))]

theorem isOperand_word {s : String} (hs : SqlForm.isReserved s = false) :
    IsOperand dialect [.word s] := by
  intro rest hrest
  have hopen : ¬SqlForm.isReserved s = true := by rw [hs]; exact Bool.false_ne_true
  refine ⟨unaryAt?_of_isReserved hs rest, ?_⟩
  cases rest with
  | nil => exact if_neg hopen
  | cons f rest =>
    cases f with
    | bracket gs => exact absurd rfl (hrest gs rest)
    | _ => exact if_neg hopen

theorem isOperand_call {s : String} (hs : SqlForm.isReserved s = false) (gs : List SqlForm) :
    IsOperand dialect [.word s, .bracket gs] := by
  intro rest _
  have hopen : ¬SqlForm.isReserved s = true := by rw [hs]; exact Bool.false_ne_true
  exact ⟨unaryAt?_of_isReserved hs _, if_neg hopen⟩

theorem Follows.mono {rest : List SqlForm} {reach' : Nat} (h : Follows dialect reach rest)
    (hreach : reach ≤ reach') : Follows dialect reach' rest :=
  ⟨h.bracket, fun op fs hop => Nat.lt_of_lt_of_le (h.level op fs hop) hreach⟩

theorem follows_nil (dialect : Dialect) (reach : Nat) : Follows dialect reach [] := by
  refine ⟨nofun, fun op fs h => ?_⟩
  cases dialect <;> cases h

/-- An operator is no part of what is in front of it. -/
theorem follows_operator {rest : List SqlForm} {op : SqlInfix}
    (h : binaryAt? dialect fs = some (op, rest)) (hreach : op.level < reach) : Follows dialect reach fs := by
  refine ⟨?_, ?_⟩
  · rintro gs fs' rfl
    cases dialect <;> cases h
  · intro op' fs' hop
    rw [h] at hop
    cases hop
    exact hreach

theorem readOn_follows {rest : List SqlForm} {fuel minimum : Nat} (h : Follows dialect reach rest)
    (hreach : reach ≤ minimum) (hfuel : 1 ≤ fuel) :
    readOn dialect fuel minimum t rest = some (t, rest) := by
  obtain ⟨fuel, rfl⟩ := Nat.exists_eq_add_of_le' hfuel
  rw [readOn]
  split
  · rfl
  · next op gs hop => rw [if_pos (Nat.lt_of_lt_of_le (h.level op gs hop) hreach)]

/-- An operator is not followed by others of its level that it does not chain with. -/
theorem Follows.clashes_eq_false {rest : List SqlForm} {op : SqlInfix}
    (h : Follows dialect reach rest)
    (hreach : reach ≤ if op.chains then op.level + 1 else op.level) :
    clashes dialect op rest = false := by
  cases hchains : op.chains with
  | true =>
    rw [clashes, hchains]
    rfl
  | false =>
    rw [hchains, if_neg Bool.false_ne_true] at hreach
    rw [clashes, hchains]
    cases hnext : binaryAt? dialect rest with
    | none => rfl
    | some next =>
      have hlevel := h.level next.1 next.2 hnext
      exact beq_eq_false_iff_ne.mpr (by omega)

namespace Reads

theorem mono {level' reach' : Nat} (h : Reads dialect fs t level reach) (hlevel : level' ≤ level)
    (hreach : reach' ≤ reach) : Reads dialect fs t level' reach' :=
  fun minimum hminimum rest hrest =>
    h minimum (Nat.le_trans hminimum hlevel) rest (hrest.mono hreach)

/-- An operand is read wherever it stands. -/
theorem operand (h : IsOperand dialect fs) : Reads dialect fs (.operand fs) level reach := by
  intro minimum _ rest hrest fuel k hfuel
  have hlength : 0 < fs.length := by
    rw [List.length_pos_iff]
    rintro rfl
    cases (h [] nofun).2
  obtain ⟨fuel, rfl⟩ : ∃ n, fuel = n + 1 := ⟨fuel - 1, by omega⟩
  obtain ⟨hunary, hoperand⟩ := h rest hrest.bracket
  refine ⟨fuel, by omega, ?_⟩
  rw [read, hunary]
  dsimp only
  rw [hoperand]

/-- A right operand ends in front of operators that do not bind tighter. -/
theorem right {rest : List SqlForm} {minimum reach' fuel : Nat} (h : Reads dialect fs t level reach)
    (hlevel : minimum ≤ level) (hrest : Follows dialect reach' rest) (hreach : reach' ≤ reach)
    (hminimum : reach' ≤ minimum) (hfuel : 2 * fs.length + 1 ≤ fuel) :
    read dialect fuel minimum (fs ++ rest) = some (t, rest) := by
  obtain ⟨fuel', hfuel', hread⟩ := h minimum hlevel rest (hrest.mono hreach) fuel 1 hfuel
  rw [hread, readOn_follows hrest hminimum hfuel']

theorem ne_nil (h : Reads dialect fs t level reach) : fs ≠ [] := by
  rintro rfl
  obtain ⟨fuel, hfuel, hread⟩ := h 0 (Nat.zero_le _) [] (follows_nil dialect reach) 1 1 (by simp)
  rw [readOn_follows (follows_nil dialect 0) (Nat.le_refl 0) hfuel] at hread
  cases hread

/-- Operands with an operator between them. -/
theorem binary {w : SqlForm} {ws : List SqlForm} {op : SqlInfix}
    (hl : Reads dialect ls l levelₗ reachₗ) (hr : Reads dialect rs r levelᵣ reachᵣ)
    (hop : ∀ rest, binaryAt? dialect (w :: (ws ++ (rs ++ rest))) = some (op, rs ++ rest))
    (hlist : op.takesList = false) (hreachₗ : op.level < reachₗ) (hlevelᵣ : op.level < levelᵣ)
    (hlevel : level ≤ op.level) (hlevelₗ : level ≤ levelₗ)
    (hreach : reach ≤ if op.chains then op.level + 1 else op.level) (hreachᵣ : reach ≤ reachᵣ) :
    Reads dialect (ls ++ w :: (ws ++ rs)) (.binary op.words l r) level reach := by
  intro minimum hminimum rest hrest fuel k hfuel
  rw [List.length_append, List.length_cons, List.length_append] at hfuel
  obtain ⟨fuel₁, hfuel₁, hleft⟩ := hl minimum (Nat.le_trans hminimum hlevelₗ)
    (w :: (ws ++ (rs ++ rest))) (follows_operator (hop rest) hreachₗ) fuel (2 * rs.length + k + 2)
    (by omega)
  obtain ⟨fuel₁, rfl⟩ : ∃ n, fuel₁ = n + 1 := ⟨fuel₁ - 1, by omega⟩
  have hnext : reach ≤ op.level + 1 := by
    split at hreach <;> omega
  have hright : read dialect fuel₁ (op.level + 1) (rs ++ rest) = some (r, rest) :=
    hr.right hlevelᵣ hrest hreachᵣ hnext (by omega)
  refine ⟨fuel₁, by omega, ?_⟩
  rw [List.append_assoc, List.cons_append, List.append_assoc, hleft, readOn, hop rest]
  dsimp only
  rw [if_neg (by omega), hlist, if_neg Bool.false_ne_true, hright]
  dsimp only
  rw [hrest.clashes_eq_false hreach, if_neg Bool.false_ne_true]

/-- An operand in front of a list. -/
theorem inList (op : SqlInfix) {gs : List SqlForm} (hl : Reads dialect ls l levelₗ reachₗ)
    (hop : ∀ rest, binaryAt? dialect (.word "IN" :: rest) = some (op, rest))
    (hlist : op.takesList = true) (hreachₗ : op.level < reachₗ) (hlevel : level ≤ op.level)
    (hlevelₗ : level ≤ levelₗ) (hreach : reach ≤ if op.chains then op.level + 1 else op.level) :
    Reads dialect (ls ++ [.word "IN", .bracket gs]) (.binary op.words l (.operand [.bracket gs]))
      level reach := by
  intro minimum hminimum rest hrest fuel k hfuel
  rw [List.length_append, List.length_cons, List.length_singleton] at hfuel
  obtain ⟨fuel₁, hfuel₁, hleft⟩ := hl minimum (Nat.le_trans hminimum hlevelₗ)
    (.word "IN" :: .bracket gs :: rest) (follows_operator (hop _) hreachₗ) fuel (k + 1) (by omega)
  obtain ⟨fuel₁, rfl⟩ : ∃ n, fuel₁ = n + 1 := ⟨fuel₁ - 1, by omega⟩
  refine ⟨fuel₁, by omega, ?_⟩
  rw [List.append_assoc, List.cons_append, List.singleton_append, hleft, readOn, hop]
  dsimp only
  rw [if_neg (by omega), hlist, if_pos rfl, list?]
  dsimp only
  rw [hrest.clashes_eq_false hreach, if_neg Bool.false_ne_true]

/-- An operator in front of an operand. -/
theorem prefixed {word : String} {strength : Nat} (h : Reads dialect fs t levelᵣ reachᵣ)
    (hop : ∀ rest, unaryAt? dialect (.word word :: rest) = some (word, strength, rest))
    (hlevelᵣ : strength ≤ levelᵣ) (hreach : reach ≤ strength) (hreachᵣ : reach ≤ reachᵣ) :
    Reads dialect (.word word :: fs) (.prefixed word t) level reach := by
  intro minimum _ rest hrest fuel k hfuel
  rw [List.length_cons] at hfuel
  obtain ⟨fuel, rfl⟩ : ∃ n, fuel = n + 1 := ⟨fuel - 1, by omega⟩
  refine ⟨fuel, by omega, ?_⟩
  rw [List.cons_append, read, hop]
  dsimp only
  rw [h.right hlevelᵣ hrest hreachᵣ hreach (by omega)]

/-- A term at the start of forms. -/
theorem readFirst {rest : List SqlForm} (h : Reads dialect fs t level reach)
    (hrest : Follows dialect 0 rest) : readFirst dialect (fs ++ rest) = some (t, rest) :=
  h.right (Nat.zero_le _) hrest (Nat.zero_le _) (Nat.zero_le _) (by
    rw [List.length_append]
    omega)

/-- Forms are read to their end. -/
theorem readAll (h : Reads dialect fs t level reach) : readAll dialect fs = some t := by
  have hfirst := h.readFirst (follows_nil dialect 0)
  rw [List.append_nil] at hfirst
  rw [SqlTerm.readAll, hfirst]

end Reads

-- ════════════════════════════════════════════════════════════════════════
-- Columns
-- ════════════════════════════════════════════════════════════════════════

/-- The forms of columns, given those of their expressions and their names. -/
def ofColumns : List (List SqlForm × String) → List SqlForm
  | [] => []
  | [(fs, n)] => fs ++ [.word "AS", .name n]
  | (fs, n) :: column :: columns =>
    fs ++ .word "AS" :: .name n :: .word "," :: ofColumns (column :: columns)

theorem follows_as (dialect : Dialect) (reach : Nat) (rest : List SqlForm) :
    Follows dialect reach (.word "AS" :: rest) := by
  refine ⟨nofun, fun op fs h => ?_⟩
  cases dialect <;> cases h

theorem ofColumns_ne_nil {columns : List (List SqlForm × String)} (h : columns ≠ []) :
    ofColumns columns ≠ [] := by
  obtain _ | ⟨⟨fs, n⟩, _ | ⟨column, columns⟩⟩ := columns
  · exact absurd rfl h
  · exact List.append_ne_nil_of_right_ne_nil _ (List.cons_ne_nil _ _)
  · exact List.append_ne_nil_of_right_ne_nil _ (List.cons_ne_nil _ _)

theorem length_le_ofColumns (columns : List (List SqlForm × String)) :
    columns.length ≤ (ofColumns columns).length := by
  induction columns with
  | nil => exact Nat.le_refl _
  | cons column columns ih =>
    obtain ⟨fs, n⟩ := column
    cases columns with
    | nil =>
      rw [ofColumns, List.length_append]
      exact Nat.le_trans (Nat.succ_le_succ (Nat.zero_le 1)) (Nat.le_add_left _ _)
    | cons column columns =>
      rw [ofColumns, List.length_append]
      refine Nat.le_trans (Nat.succ_le_succ ih) (Nat.le_trans ?_ (Nat.le_add_left _ _))
      rw [List.length_cons, List.length_cons, List.length_cons]
      omega

/-- Columns are read one by one. -/
theorem readColumns_ofColumns {columns : List (List SqlForm × String)}
    {terms : List (SqlTerm × String)}
    (h : List.Forall₂ (fun (column : List SqlForm × String) (term : SqlTerm × String) =>
      term.2 = column.2 ∧ ∃ level reach, Reads dialect column.1 term.1 level reach) columns terms)
    (hne : columns ≠ []) {fuel : Nat} (hfuel : columns.length ≤ fuel) :
    readColumns dialect fuel (ofColumns columns) = some terms := by
  induction h generalizing fuel with
  | nil => exact absurd rfl hne
  | @cons column term columns terms hfirst hrest ih =>
    obtain ⟨fs, n⟩ := column
    obtain ⟨t, n'⟩ := term
    obtain ⟨rfl, level, reach, hreads⟩ := hfirst
    obtain ⟨fuel, rfl⟩ := Nat.exists_eq_add_of_le' (Nat.le_trans (Nat.succ_pos _) hfuel)
    have hfirst (rest : List SqlForm) :
        readFirst dialect (fs ++ .word "AS" :: rest) = some (t, .word "AS" :: rest) :=
      hreads.readFirst (follows_as dialect 0 rest)
    cases hrest with
    | nil =>
      rw [ofColumns, readColumns, hfirst]
      rfl
    | cons hsecond hrest =>
      have hmore := ih (List.cons_ne_nil _ _) (Nat.le_of_succ_le_succ hfuel)
      rw [ofColumns, readColumns, hfirst]
      dsimp only
      rw [if_pos rfl, if_pos rfl, hmore]
      rfl

end SqlTerm

end ODataQuery
