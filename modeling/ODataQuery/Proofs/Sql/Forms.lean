import ODataQuery.Proofs.Sql.Scoping

/-!
# Forms of SQL texts

A SQL text as a sequence of words, names and placeholders, with the text in parentheses as one part.
No word of a clause runs into the next: what stands in a slot of a template is read as it is read
alone.

## Main definitions

- `SqlLexeme.ofText` — the words, names and parentheses of a text
- `SqlForm` — a part of a text, with the text in parentheses as one part
- `SqlForm.nest` — puts together what stands between parentheses
- `SqlClause.forms?` — the forms of a clause
- `SqlPiece.Spells` — pieces that are read as forms wherever they stand

## Main statements

- `SqlForm.nest_flatten` — forms are found again between their parentheses
- `SqlPiece.spells_expand` — a template is read as its outline with the forms of its arguments

## Design notes

Constants in single quotes are left out. They stand in the templates of functions only, never beside
an operator.
-/

namespace ODataQuery

-- ════════════════════════════════════════════════════════════════════════
-- Lexemes
-- ════════════════════════════════════════════════════════════════════════

/-- A word, a name or a parenthesis of a SQL text. -/
inductive SqlLexeme where
  /-- A name in double quotes. -/
  | name (s : String)
  /-- A keyword, the name of a function, a number, a sign or a comma. -/
  | word (s : String)
  /-- The placeholder of a parameter. -/
  | parameter
  | opening
  | closing
  /-- The place of an argument in a template. -/
  | slot (index : Nat)
deriving DecidableEq

namespace SqlLexeme

/-- Characters that words are made of. All others but blanks make signs. -/
def isWordCharacter (c : Char) : Bool := c.isAlphanum || ['_', '.', '$', '?'].contains c

/-- Signs that never join the character behind them. -/
def standsAlone (c : Char) : Bool := [',', '-', '+', '*', '/', '%'].contains c

/-- The lexeme of the characters of a word. -/
def ofWord (cs : List Char) : SqlLexeme :=
  if cs.head? = some '?' ∨ cs.head? = some '$' then parameter else word (String.ofList cs)

/-- The lexeme of a word that ends; none if there is no word. -/
def ofPending (cs : List Char) : List SqlLexeme := if cs = [] then [] else [ofWord cs]

/-- Whether a character goes on with a word. -/
def continues (cs : List Char) (c : Char) : Bool :=
  cs.head?.any fun d => isWordCharacter d == isWordCharacter c

/-- What a character completes behind those of a word, and the word that may go on behind it. -/
def takeMark (pending : List Char) (c : Char) : List SqlLexeme × List Char :=
  if c = ' ' then (ofPending pending, [])
  else if standsAlone c then (ofPending pending ++ [ofWord [c]], [])
  else if continues pending c then ([], pending ++ [c])
  else (ofPending pending, [c])

/-- What a token completes behind the characters of a word, and the word that may go on behind
it. -/
def take (pending : List Char) : SqlToken → List SqlLexeme × List Char
  | .identifier s => (ofPending pending ++ [name s], [])
  | .leftParen => (ofPending pending ++ [opening], [])
  | .rightParen => (ofPending pending ++ [closing], [])
  | .mark c => takeMark pending c

/-- The lexemes of tokens behind the characters of a word. -/
def ofTokens (pending : List Char) : List SqlToken → List SqlLexeme
  | [] => ofPending pending
  | t :: ts => (take pending t).1 ++ ofTokens (take pending t).2 ts

/-- The lexemes of a text. -/
def ofText (cs : List Char) : List SqlLexeme := ofTokens [] (SqlToken.read .outside cs)

-- ════════════════════════════════════════════════════════════════════════
-- Texts that are joined
-- ════════════════════════════════════════════════════════════════════════

/-- Whether no word goes on behind the character. -/
def ends (c : Char) : Bool := [' ', '(', ')'].contains c || standsAlone c

/-- Whether no word goes on at the character. -/
def isBreak (c : Char) : Bool := [' ', ',', ')'].contains c

/-- The text does not go on with a word. -/
def Breaks (rest : List Char) : Prop := rest.head?.all isBreak = true

theorem Breaks.head?_ne {rest : List Char} (h : Breaks rest) : rest.head? ≠ some '"' := by
  intro hrest
  rw [Breaks, hrest] at h
  exact absurd h (by decide)

theorem breaks_append {cs : List Char} (h : cs.head?.any isBreak = true) (rest : List Char) :
    Breaks (cs ++ rest) := by
  cases cs with
  | nil => cases h
  | cons c cs => exact h

/-- A word ends in front of a break. -/
theorem ofTokens_of_breaks {rest : List Char} (h : Breaks rest) (pending : List Char) :
    ofTokens pending (SqlToken.read .outside rest) = ofPending pending ++ ofText rest := by
  cases rest with
  | nil =>
    have hnil : ofText [] = [] := rfl
    rw [hnil, List.append_nil]
    rfl
  | cons c cs =>
    have hc : c = ' ' ∨ c = ',' ∨ c = ')' := by simpa [Breaks, isBreak] using h
    obtain rfl | rfl | rfl := hc
    · rfl
    · exact List.append_assoc _ [word ","] _
    · exact List.append_assoc _ [closing] _

theorem ne_of_isWordCharacter {c d : Char} (hc : isWordCharacter c = true)
    (hd : isWordCharacter d = false) : c ≠ d := by
  rintro rfl
  exact Bool.false_ne_true (hd.symm.trans hc)

/-- A character of a word starts the word or goes on with it. -/
theorem ofTokens_mark {pending : List Char} {c : Char}
    (hpending : ∀ d ∈ pending.head?, isWordCharacter d = true) (hc : isWordCharacter c = true)
    (ts : List SqlToken) : ofTokens pending (.mark c :: ts) = ofTokens (pending ++ [c]) ts := by
  have halone : ¬standsAlone c = true := by
    simp only [standsAlone, List.contains_eq_mem, decide_eq_true_eq, List.mem_cons,
      List.not_mem_nil, or_false, not_or]
    exact ⟨ne_of_isWordCharacter hc rfl, ne_of_isWordCharacter hc rfl, ne_of_isWordCharacter hc rfl,
      ne_of_isWordCharacter hc rfl, ne_of_isWordCharacter hc rfl, ne_of_isWordCharacter hc rfl⟩
  rw [ofTokens, take, takeMark, if_neg (ne_of_isWordCharacter hc rfl), if_neg halone]
  cases pending with
  | nil => rfl
  | cons d pending =>
    have hcontinues : continues (d :: pending) c = true := by
      show (isWordCharacter d == isWordCharacter c) = true
      rw [hpending d rfl, hc]
      rfl
    rw [if_pos hcontinues]
    rfl

/-- The characters of a word are read until it ends. -/
theorem ofTokens_word {pending cs rest : List Char}
    (hpending : ∀ d ∈ pending.head?, isWordCharacter d = true)
    (hcs : ∀ c ∈ cs, isWordCharacter c = true) (hne : pending ++ cs ≠ []) (hrest : Breaks rest) :
    ofTokens pending (SqlToken.read .outside (cs ++ rest)) =
      ofWord (pending ++ cs) :: ofText rest := by
  induction cs generalizing pending with
  | nil =>
    rw [List.append_nil] at hne ⊢
    rw [List.nil_append, ofTokens_of_breaks hrest, ofPending, if_neg hne]
    rfl
  | cons c cs ih =>
    obtain ⟨hc, hcs⟩ := List.forall_mem_cons.mp hcs
    have hmark : c ∉ ['"', '\'', '(', ')'] := by
      simp only [List.mem_cons, List.not_mem_nil, or_false, not_or]
      exact ⟨ne_of_isWordCharacter hc rfl, ne_of_isWordCharacter hc rfl,
        ne_of_isWordCharacter hc rfl, ne_of_isWordCharacter hc rfl⟩
    have hpending' : ∀ d ∈ (pending ++ [c]).head?, isWordCharacter d = true := by
      cases pending with
      | nil =>
        rintro d ⟨⟩
        exact hc
      | cons d pending => exact hpending
    have hnext := ih hpending' hcs (by simp)
    rw [List.append_assoc] at hnext
    rw [List.cons_append, SqlToken.read_mark hmark, ofTokens_mark hpending hc]
    exact hnext

/-- A word is read up to its end. -/
theorem ofText_word {cs rest : List Char} (hne : cs ≠ [])
    (hcs : ∀ c ∈ cs, isWordCharacter c = true) (hrest : Breaks rest) :
    ofText (cs ++ rest) = ofWord cs :: ofText rest :=
  ofTokens_word nofun hcs hne hrest

/-- Behind a character that ends words, no word goes on. -/
theorem take_ends {c : Char} (h : ends c = true) (pending : List Char) :
    (take pending (SqlToken.ofChar c)).2 = [] := by
  unfold SqlToken.ofChar
  split
  · rfl
  · next hopen =>
    split
    · rfl
    · next hclose =>
      rw [take, takeMark]
      split
      · rfl
      · next hblank =>
        have halone : standsAlone c = true := by
          simpa [ends, hopen, hclose, hblank] using h
        rw [if_pos halone]

/-- A text that closes its constants is read up to its end, if words end there. -/
theorem ofTokens_append {cs pending : List Char} {constant : Bool} {m n : Nat}
    (h : SqlToken.nesting constant m cs = some n) (hends : ∀ c ∈ cs.getLast?, ends c = true)
    (hpending : cs = [] → pending = []) (rest : List Char) :
    ofTokens pending (SqlToken.read (if constant then .constant else .outside) (cs ++ rest)) =
      ofTokens pending (SqlToken.read (if constant then .constant else .outside) cs) ++
        ofText rest := by
  induction cs generalizing pending constant m with
  | nil =>
    cases constant with
    | true => cases h
    | false =>
      rw [hpending rfl]
      rfl
  | cons c cs ih =>
    have hlast : cs = [] → ends c = true := by
      rintro rfl
      exact hends c rfl
    have hends : ∀ d ∈ cs.getLast?, ends d = true := by
      cases cs with
      | nil => exact nofun
      | cons d cs => rwa [List.getLast?_cons_cons] at hends
    cases constant with
    | true =>
      have hclosed : cs = [] → c ≠ '\'' := by
        rintro hcs rfl
        exact absurd (hlast hcs) (by decide)
      have hopen : cs ≠ [] := by
        rintro rfl
        rw [SqlToken.nesting, bne_iff_ne.mpr (hclosed rfl)] at h
        cases h
      rw [List.cons_append, if_pos rfl, SqlToken.read_constant, SqlToken.read_constant]
      exact ih h hends fun hcs => absurd hcs hopen
    | false =>
      rw [List.cons_append, if_neg Bool.false_ne_true]
      obtain ⟨h, hread⟩ | ⟨m', h, hread, _⟩ := SqlToken.outside_of_nesting h
      · have hopen : cs ≠ [] := by
          rintro rfl
          cases h
        rw [hread, hread]
        exact ih h hends fun hcs => absurd hcs hopen
      · have hrest := ih h hends fun hcs => take_ends (hlast hcs) pending
        rw [hread, hread, ofTokens, ofTokens, List.append_assoc]
        exact congrArg _ hrest

/-- Texts that close their constants and end with no word are read one after another. -/
theorem ofText_append {cs : List Char} {m n : Nat} (h : SqlToken.nesting false m cs = some n)
    (hends : ∀ c ∈ cs.getLast?, ends c = true) (rest : List Char) :
    ofText (cs ++ rest) = ofText cs ++ ofText rest :=
  ofTokens_append h hends (fun _ => rfl) rest

-- ════════════════════════════════════════════════════════════════════════
-- Arguments
-- ════════════════════════════════════════════════════════════════════════

/-- A lexeme with arguments in the slots. -/
def fill (args : Nat → List SqlLexeme) : SqlLexeme → List SqlLexeme
  | slot index => args index
  | l => [l]

/-- Texts have no slots. -/
theorem fill_ofTokens (args : Nat → List SqlLexeme) (pending : List Char) (ts : List SqlToken) :
    (ofTokens pending ts).flatMap (fill args) = ofTokens pending ts := by
  have hword (cs : List Char) : fill args (ofWord cs) = [ofWord cs] := by
    unfold ofWord
    split <;> rfl
  have hpending (cs : List Char) : (ofPending cs).flatMap (fill args) = ofPending cs := by
    unfold ofPending
    split
    · rfl
    · rw [List.flatMap_singleton, hword]
  induction ts generalizing pending with
  | nil => exact hpending pending
  | cons t ts ih =>
    have htake : (take pending t).1.flatMap (fill args) = (take pending t).1 := by
      cases t with
      | identifier s => rw [take, List.flatMap_append, hpending]; rfl
      | leftParen => rw [take, List.flatMap_append, hpending]; rfl
      | rightParen => rw [take, List.flatMap_append, hpending]; rfl
      | mark c =>
        rw [take, takeMark]
        split
        · exact hpending pending
        · split
          · rw [List.flatMap_append, hpending, List.flatMap_singleton, hword]
          · split
            · rfl
            · exact hpending pending
    rw [ofTokens, List.flatMap_append, htake, ih]

end SqlLexeme

-- ════════════════════════════════════════════════════════════════════════
-- Forms
-- ════════════════════════════════════════════════════════════════════════

/-- A part of a SQL text, with the text in parentheses as one part. -/
inductive SqlForm where
  | name (s : String)
  | word (s : String)
  | parameter
  | bracket (forms : List SqlForm)
  /-- The place of an argument in a template. -/
  | slot (index : Nat)

namespace SqlForm

mutual

/-- The lexemes of a form. -/
def flatten : SqlForm → List SqlLexeme
  | name s => [.name s]
  | word s => [.word s]
  | parameter => [.parameter]
  | bracket forms => .opening :: (flattenAll forms ++ [.closing])
  | slot index => [.slot index]

/-- The lexemes of forms. -/
def flattenAll : List SqlForm → List SqlLexeme
  | [] => []
  | f :: fs => f.flatten ++ flattenAll fs

/-- A form with arguments in the slots. -/
def fill (args : List (List SqlForm)) : SqlForm → List SqlForm
  | name s => [name s]
  | word s => [word s]
  | parameter => [parameter]
  | bracket forms => [bracket (fillAll args forms)]
  | slot index => args[index]?.getD []

/-- Forms with arguments in the slots. -/
def fillAll (args : List (List SqlForm)) : List SqlForm → List SqlForm
  | [] => []
  | f :: fs => f.fill args ++ fillAll args fs

end

/-- Puts together what stands between parentheses, given what stands in front of each open one, the
innermost first, and what is complete behind it; none if the parentheses do not match. -/
def nest (outer : List (List SqlForm)) (forms : List SqlForm) :
    List SqlLexeme → Option (List SqlForm)
  | [] => if outer.isEmpty then some forms else none
  | .opening :: ls => nest (forms :: outer) [] ls
  | .closing :: ls =>
    match outer with
    | [] => none
    | before :: outer => nest outer (before ++ [bracket forms]) ls
  | .name s :: ls => nest outer (forms ++ [name s]) ls
  | .word s :: ls => nest outer (forms ++ [word s]) ls
  | .parameter :: ls => nest outer (forms ++ [parameter]) ls
  | .slot index :: ls => nest outer (forms ++ [slot index]) ls

theorem flattenAll_append (fs gs : List SqlForm) :
    flattenAll (fs ++ gs) = flattenAll fs ++ flattenAll gs := by
  induction fs with
  | nil => rfl
  | cons f fs ih => rw [List.cons_append, flattenAll, ih, flattenAll, List.append_assoc]

theorem flattenAll_singleton (f : SqlForm) : flattenAll [f] = f.flatten := List.append_nil _

mutual

/-- A form is found again between its parentheses. -/
theorem nest_flatten (outer : List (List SqlForm)) (forms : List SqlForm) (f : SqlForm)
    (ls : List SqlLexeme) : nest outer forms (f.flatten ++ ls) = nest outer (forms ++ [f]) ls := by
  cases f with
  | bracket fs =>
    have hinner := nest_flattenAll (forms :: outer) [] fs (.closing :: ls)
    rw [flatten, List.cons_append, List.append_assoc, nest]
    exact hinner
  | name s | word s | parameter | slot index => rw [flatten, List.singleton_append, nest]

/-- Forms are found again between their parentheses. -/
theorem nest_flattenAll (outer : List (List SqlForm)) (forms fs : List SqlForm)
    (ls : List SqlLexeme) :
    nest outer forms (flattenAll fs ++ ls) = nest outer (forms ++ fs) ls := by
  cases fs with
  | nil => rw [List.append_nil]; rfl
  | cons f fs =>
    rw [flattenAll, List.append_assoc, nest_flatten, nest_flattenAll, List.append_assoc]
    rfl

end

/-- The lexemes in front of the innermost open parenthesis, and with it. -/
def flattenOuter : List (List SqlForm) → List SqlLexeme
  | [] => []
  | forms :: outer => flattenOuter outer ++ (flattenAll forms ++ [.opening])

/-- Forms have the lexemes that they are put together from. -/
theorem flattenAll_of_nest {outer : List (List SqlForm)} {forms fs : List SqlForm}
    {ls : List SqlLexeme} (h : nest outer forms ls = some fs) :
    flattenAll fs = flattenOuter outer ++ (flattenAll forms ++ ls) := by
  induction ls generalizing outer forms with
  | nil =>
    cases outer with
    | nil =>
      cases h
      exact (List.append_nil _).symm
    | cons before outer => cases h
  | cons l ls ih =>
    cases l with
    | opening =>
      rw [ih h, flattenOuter, List.append_assoc, List.append_assoc]
      rfl
    | closing =>
      cases outer with
      | nil => cases h
      | cons before outer =>
        rw [ih h, flattenOuter, flattenAll_append, flattenAll_singleton, flatten]
        simp only [List.append_assoc, List.cons_append, List.nil_append]
    | name s | word s | parameter | slot index =>
      rw [ih h, flattenAll_append, flattenAll_singleton, flatten, List.append_assoc]
      rfl

theorem fillAll_append (args : List (List SqlForm)) (fs gs : List SqlForm) :
    fillAll args (fs ++ gs) = fillAll args fs ++ fillAll args gs := by
  induction fs with
  | nil => rfl
  | cons f fs ih => rw [List.cons_append, fillAll, ih, fillAll, List.append_assoc]

mutual

theorem flattenAll_fill (args : List (List SqlForm)) (f : SqlForm) :
    flattenAll (f.fill args) =
      f.flatten.flatMap (SqlLexeme.fill fun i => flattenAll (args[i]?.getD [])) := by
  cases f with
  | bracket fs =>
    have hinner := flattenAll_fillAll args fs
    rw [fill, flattenAll_singleton, flatten, flatten, hinner, List.flatMap_cons,
      List.flatMap_append]
    rfl
  | slot index => rw [fill, flatten, List.flatMap_singleton, SqlLexeme.fill]
  | name s | word s | parameter => rfl

/-- Arguments are filled in before or after forms come apart. -/
theorem flattenAll_fillAll (args : List (List SqlForm)) (fs : List SqlForm) :
    flattenAll (fillAll args fs) =
      (flattenAll fs).flatMap (SqlLexeme.fill fun i => flattenAll (args[i]?.getD [])) := by
  cases fs with
  | nil => rfl
  | cons f fs =>
    rw [fillAll, flattenAll_append, flattenAll_fill, flattenAll_fillAll, flattenAll,
      List.flatMap_append]

end

end SqlForm

/-- The forms of a clause; none if its parentheses do not match. -/
def SqlClause.forms? (c : SqlClause) : Option (List SqlForm) :=
  SqlForm.nest [] [] (SqlLexeme.ofText c.clause.toList)

-- ════════════════════════════════════════════════════════════════════════
-- Templates
-- ════════════════════════════════════════════════════════════════════════

namespace SqlTemplate

open SqlLexeme (ends isBreak Breaks ofText)
open SqlPiece (chars)

/-- The lexemes of a template with arguments in its slots. -/
def lexemes (args : Nat → List SqlLexeme) (template : SqlTemplate) : List SqlLexeme :=
  template.flatMap fun
    | .text s => ofText s.toList
    | .slot index => args index

/-- The forms of a template, its slots among them; none if its parentheses do not match. -/
def outline? (template : SqlTemplate) : Option (List SqlForm) :=
  SqlForm.nest [] [] (template.lexemes fun index => [.slot index])

/-- Whether no word goes on at the start of the template. -/
def startsWithBreak : SqlTemplate → Bool
  | [] => true
  | .text s :: _ => s.toList.head?.any isBreak
  | .slot _ :: _ => false

/-- Whether words end around each slot. -/
def spaced : SqlTemplate → Bool
  | [] => true
  | .text s :: parts => s.toList.getLast?.all ends && spaced parts
  | .slot _ :: parts => startsWithBreak parts && spaced parts

theorem lexemes_eq (args : Nat → List SqlLexeme) (template : SqlTemplate) :
    template.lexemes args =
      (template.lexemes fun index => [.slot index]).flatMap (SqlLexeme.fill args) := by
  induction template with
  | nil => rfl
  | cons part parts ih =>
    have hpart : ∀ args' : Nat → List SqlLexeme, lexemes args' (part :: parts) =
        lexemes args' [part] ++ lexemes args' parts := fun _ => by
      rw [lexemes, lexemes, lexemes, List.flatMap_cons, List.flatMap_singleton]
    rw [hpart, hpart, List.flatMap_append, ih]
    refine congrArg (· ++ _) ?_
    cases part with
    | slot index => rfl
    | text s =>
      rw [lexemes, lexemes, List.flatMap_singleton, List.flatMap_singleton]
      exact (SqlLexeme.fill_ofTokens args [] _).symm

/-- A template has the lexemes of its outline. -/
theorem lexemes_of_outline? {template : SqlTemplate} {outline : List SqlForm}
    (h : template.outline? = some outline) :
    (template.lexemes fun index => [.slot index]) = SqlForm.flattenAll outline :=
  (SqlForm.flattenAll_of_nest h).symm

theorem outline?_of_lexemes {template : SqlTemplate} {outline : List SqlForm}
    (h : (template.lexemes fun index => [.slot index]) = SqlForm.flattenAll outline) :
    template.outline? = some outline := by
  have hnest := SqlForm.nest_flattenAll [] [] outline []
  rw [List.append_nil] at hnest
  rw [outline?, h, hnest]
  rfl

end SqlTemplate

namespace SqlPiece

open SqlLexeme (Breaks ofText)
open SqlForm (flattenAll fillAll)

/-- The pieces are read as the forms, wherever no word goes on behind them. -/
def Spells (dialect : Dialect) (ps : List SqlPiece) (fs : List SqlForm) : Prop :=
  ∀ (count : Nat) (rest : List Char), Breaks rest →
    ofText (chars dialect count ps ++ rest) = flattenAll fs ++ ofText rest

variable {dialect : Dialect} {args : List (List SqlPiece)} {fss : List (List SqlForm)}

/-- Behind a slot there is no word. -/
theorem breaks_of_startsWithBreak {parts : SqlTemplate} {ps : List SqlPiece}
    (hparts : parts.startsWithBreak = true) (h : parts.expand? args = some ps) (count : Nat)
    {rest : List Char} (hrest : Breaks rest) : Breaks (chars dialect count ps ++ rest) := by
  cases parts with
  | nil =>
    cases h
    exact hrest
  | cons part parts =>
    cases part with
    | slot index => cases hparts
    | text s =>
      obtain ⟨_, rs, hs, _, rfl⟩ := SqlTemplate.expand?_cons h
      cases hs
      rw [List.singleton_append, chars_text, List.append_assoc]
      exact SqlLexeme.breaks_append hparts _

/-- A template is read as its text with the lexemes of its arguments. -/
theorem ofText_expand {depth : Nat} {template : SqlTemplate} {ps : List SqlPiece}
    (hcloses : template.closes depth = true) (hspaced : template.spaced = true)
    (hargs : List.Forall₂ (Spells dialect) args fss) (h : template.expand? args = some ps)
    (count : Nat) {rest : List Char} (hrest : Breaks rest) :
    ofText (chars dialect count ps ++ rest) =
      template.lexemes (fun i => flattenAll (fss[i]?.getD [])) ++ ofText rest := by
  induction template generalizing depth ps count with
  | nil =>
    cases h
    rfl
  | cons part parts ih =>
    obtain ⟨qs, rs, hpart, hparts, rfl⟩ := SqlTemplate.expand?_cons h
    rw [SqlTemplate.lexemes, List.flatMap_cons, List.append_assoc]
    cases part with
    | text s =>
      cases hpart
      obtain ⟨_, hnesting⟩ := Bool.and_eq_true_iff.mp hcloses
      obtain ⟨hends, hspaced⟩ := Bool.and_eq_true_iff.mp hspaced
      obtain ⟨depth', hdepth, hcloses⟩ := (Option.any_eq_true _ _).mp hnesting
      rw [List.singleton_append, chars_text, List.append_assoc,
        SqlLexeme.ofText_append hdepth ((Option.all_eq_true _ _).mp hends)]
      exact congrArg _ (ih hcloses hspaced hparts count)
    | slot index =>
      obtain ⟨_, hcloses⟩ := Bool.and_eq_true_iff.mp hcloses
      obtain ⟨hbreak, hspaced⟩ := Bool.and_eq_true_iff.mp hspaced
      obtain ⟨count', hchars⟩ := exists_chars_append dialect count qs rs
      obtain ⟨fs, hfs, hspells⟩ := Lists.exists_getElem?_of_forall₂ hargs hpart
      rw [hchars, List.append_assoc,
        hspells count _ (breaks_of_startsWithBreak hbreak hparts count' hrest)]
      dsimp only
      rw [hfs]
      exact congrArg _ (ih hcloses hspaced hparts count')

/-- A template is read as its outline with the forms of its arguments. -/
theorem spells_expand {template : SqlTemplate} {ps : List SqlPiece} {outline : List SqlForm}
    (hcloses : template.closes 0 = true) (hspaced : template.spaced = true)
    (houtline : (template.lexemes fun index => [.slot index]) = flattenAll outline)
    (hargs : List.Forall₂ (Spells dialect) args fss) (h : template.expand? args = some ps) :
    Spells dialect ps (fillAll fss outline) := by
  intro count rest hrest
  rw [ofText_expand hcloses hspaced hargs h count hrest, SqlTemplate.lexemes_eq,
    SqlForm.flattenAll_fillAll, houtline]

end SqlPiece

end ODataQuery
