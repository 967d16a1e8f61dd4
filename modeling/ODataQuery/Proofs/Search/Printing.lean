import ODataQuery.Proofs.Lists
import ODataQuery.Search.Basic

/-!
# Printed searches

A search may be printed in many ways: terms as words or phrases, conjunctions with and without `AND`,
and any white space between tokens. Parentheses stand only where the search would be read differently
without them.

## Main definitions

- `Search.Place`, `Search.isGrouped` — where an operand stands, and whether it has parentheses there
- `Search.Prints` — the tokens of the prints of a search
- `SearchToken.Layout` — the texts of some tokens
- `Search.IsPrintedAs` — the prints of a search

## Main statements

- `SearchTokens.tokens_of_layout` — a text is scanned into the tokens that it was laid out from
- `Search.exists_isPrintedAs` — every search has a print
-/

namespace ODataQuery

-- ════════════════════════════════════════════════════════════════════════
-- Tokens of prints
-- ════════════════════════════════════════════════════════════════════════

/-- The words that stand for a term: they are not empty, no operators, and have neither white space nor
parentheses nor double quotes. -/
structure SearchToken.IsBareWord (text : String) : Prop where
  nonempty : text ≠ ""
  characters : ∀ c ∈ text.toList, Text.isBlank c = false ∧ c ≠ '(' ∧ c ≠ ')' ∧ c ≠ '"'
  isTerm : text ≠ "AND" ∧ text ≠ "OR" ∧ text ≠ "NOT"

namespace Search

/-- Where an operand stands, and so what it is without parentheses: anything, no disjunction, or
neither a disjunction nor a conjunction. -/
inductive Place where
  /-- The search itself, the content of parentheses, and the left side of `OR`. -/
  | anywhere
  /-- The right side of `OR` and the left side of `AND`. -/
  | conjunction
  /-- The right side of `AND`, and behind `NOT`. -/
  | operand
deriving DecidableEq

/-- Whether a search has parentheses in a place: a disjunction under `AND` and `NOT` and on the right of
`OR`, a conjunction under `NOT` and on the right of `AND`. -/
def isGrouped : Place → Search → Bool
  | .operand, or _ _ | .operand, and _ _ | .conjunction, or _ _ => true
  | _, _ => false

/-- The tokens that a search is printed as in a place. -/
inductive Prints : Place → Search → List SearchToken → Prop
  | word {place : Place} {text : String} (h : SearchToken.IsBareWord text) :
      Prints place (.term text) [.word text]
  | phrase {place : Place} {text : String} : Prints place (.term text) [.phrase text]
  | not {place : Place} {operand : Search} {ts : List SearchToken} (h : Prints .operand operand ts) :
      Prints place (.not operand) (.not :: ts)
  | and {place : Place} {left right : Search} {ts ts' : List SearchToken}
      (hplace : place ≠ .operand) (hleft : Prints .conjunction left ts)
      (hright : Prints .operand right ts') : Prints place (.and left right) (ts ++ .and :: ts')
  | adjacent {place : Place} {left right : Search} {ts ts' : List SearchToken}
      (hplace : place ≠ .operand) (hleft : Prints .conjunction left ts)
      (hright : Prints .operand right ts') : Prints place (.and left right) (ts ++ ts')
  | or {left right : Search} {ts ts' : List SearchToken} (hleft : Prints .anywhere left ts)
      (hright : Prints .conjunction right ts') :
      Prints .anywhere (.or left right) (ts ++ .or :: ts')
  | group {place : Place} {search : Search} {ts : List SearchToken}
      (hgrouped : search.isGrouped place = true) (h : Prints .anywhere search ts) :
      Prints place search (.leftParen :: ts ++ [.rightParen])

end Search

-- ════════════════════════════════════════════════════════════════════════
-- Texts of tokens
-- ════════════════════════════════════════════════════════════════════════

namespace SearchToken

/-- A text with a backslash in front of each quote and each backslash. -/
def escape (cs : List Char) : List Char :=
  cs.flatMap fun c => if c = '"' ∨ c = '\\' then ['\\', c] else [c]

/-- The characters of a token. -/
def chars : SearchToken → List Char
  | word text => text.toList
  | phrase text => '"' :: escape text.toList ++ ['"']
  | and => "AND".toList
  | or => "OR".toList
  | not => "NOT".toList
  | leftParen => ['(']
  | rightParen => [')']
  | endOfText => []

/-- Whether the token would go on in a character behind it that ends no word. -/
def runsOn : SearchToken → Bool
  | word _ | and | or | not => true
  | _ => false

/-- White space. -/
def IsGap (cs : List Char) : Prop := ∀ c ∈ cs, Text.isBlank c = true

/-- The texts of some tokens: white space may stand in front of each token and at the end, and has to
stand behind a word unless a parenthesis, a quote or the end of the text does. -/
inductive Layout : List SearchToken → List Char → Prop
  | nil {gap : List Char} (hgap : IsGap gap) : Layout [] gap
  | cons {t : SearchToken} {ts : List SearchToken} {gap rest : List Char} (hgap : IsGap gap)
      (hends : t.runsOn = true → ∀ c ∈ rest.head?, endsWord c = true) (hrest : Layout ts rest) :
      Layout (t :: ts) (gap ++ t.chars ++ rest)

/-- Whether a print may have the token. -/
def IsPrintable : SearchToken → Prop
  | word text => IsBareWord text
  | endOfText => False
  | _ => True

end SearchToken

/-- The text is a print of the search. -/
def Search.IsPrintedAs (search : Search) (text : String) : Prop :=
  ∃ ts, search.Prints .anywhere ts ∧ SearchToken.Layout ts text.toList

theorem Search.Prints.isPrintable {place : Place} {search : Search} {ts : List SearchToken}
    (h : search.Prints place ts) : ∀ t ∈ ts, t.IsPrintable := by
  induction h with
  | word hword => exact List.forall_mem_singleton.mpr hword
  | phrase => exact List.forall_mem_singleton.mpr trivial
  | not _ ih => exact List.forall_mem_cons.mpr ⟨trivial, ih⟩
  | and _ _ _ ihl ihr | or _ _ ihl ihr =>
    exact List.forall_mem_append.mpr ⟨ihl, List.forall_mem_cons.mpr ⟨trivial, ihr⟩⟩
  | adjacent _ _ _ ihl ihr => exact List.forall_mem_append.mpr ⟨ihl, ihr⟩
  | group _ _ ih =>
    refine List.forall_mem_cons.mpr ⟨trivial, List.forall_mem_append.mpr ⟨ih, ?_⟩⟩
    exact List.forall_mem_singleton.mpr trivial

-- ════════════════════════════════════════════════════════════════════════
-- Scanning
-- ════════════════════════════════════════════════════════════════════════

namespace SearchToken

/-- A phrase is read back from its escaped text. -/
theorem readPhrase_escape (taken : Nat) (cs rest : List Char) :
    readPhrase taken (escape cs ++ '"' :: rest) = .ok (cs, taken + (escape cs).length + 1) := by
  induction cs generalizing taken with
  | nil => rfl
  | cons c cs ih =>
    by_cases hc : c = '"' ∨ c = '\\'
    · have hescape : escape (c :: cs) = '\\' :: c :: escape cs := by
        simp [escape, hc]
      rw [hescape, List.cons_append, List.cons_append, readPhrase, if_pos hc, ih]
      simp only [Except.map, List.length_cons]
      congr 2
      omega
    · have hescape : escape (c :: cs) = c :: escape cs := by
        simp [escape, hc]
      obtain ⟨hquote, hbackslash⟩ := not_or.mp hc
      rw [hescape, List.cons_append, readPhrase.eq_5 _ _ _ hquote (fun _ _ h _ => hbackslash h)
        (fun h _ => hbackslash h), ih]
      simp only [Except.map, List.length_cons]
      congr 2
      omega

theorem endsWord_eq_false {c : Char} (hblank : Text.isBlank c = false) (hleft : c ≠ '(')
    (hright : c ≠ ')') (hquote : c ≠ '"') : endsWord c = false := by
  simp [endsWord, hblank, hleft, hright, hquote]

theorem isBlank_of_endsWord {c : Char} (h : endsWord c = false) : Text.isBlank c = false := by
  simp only [endsWord, Bool.or_eq_false_iff] at h
  exact h.1.1.1

/-- Characters that end no word make one in front of a character that does. -/
theorem ofText_run {c : Char} {cs rest : List Char} (h : ∀ d ∈ c :: cs, endsWord d = false)
    (hrest : ∀ d ∈ rest.head?, endsWord d = true) :
    ofText c (cs ++ rest) = .ok (ofWord (String.ofList (c :: cs)), cs.length) := by
  obtain ⟨hc, hcs⟩ := List.forall_mem_cons.mp h
  simp only [endsWord, Bool.or_eq_false_iff, beq_eq_false_iff_ne] at hc
  obtain ⟨⟨⟨_, hleft⟩, hright⟩, hquote⟩ := hc
  have hmore : (cs ++ rest).takeWhile (fun d => !endsWord d) = cs :=
    Lists.takeWhile_append (fun d hd => by rw [hcs d hd, Bool.not_false])
      fun d hd => by rw [hrest d hd, Bool.not_true]
  rw [ofText, if_neg hleft, if_neg hright, if_neg hquote, hmore]

/-- In front of a text that a token does not run on into, its characters are read as the token. -/
theorem ofText_chars {t : SearchToken} (h : t.IsPrintable) {rest : List Char}
    (hends : t.runsOn = true → ∀ d ∈ rest.head?, endsWord d = true) :
    ∃ c cs, t.chars = c :: cs ∧ Text.isBlank c = false ∧
      ofText c (cs ++ rest) = .ok (t, cs.length) := by
  cases t with
  | word text =>
    obtain ⟨hne, hcharacters, hand, hor, hnot⟩ := h
    have hrun : ∀ d ∈ text.toList, endsWord d = false := fun d hd =>
      have ⟨hblank, hleft, hright, hquote⟩ := hcharacters d hd
      endsWord_eq_false hblank hleft hright hquote
    obtain ⟨c, cs, htext⟩ := List.exists_cons_of_ne_nil (mt String.toList_eq_nil_iff.mp hne)
    have hword : ofWord (String.ofList (c :: cs)) = .word text := by
      rw [← htext, String.ofList_toList, ofWord, if_neg hand, if_neg hor, if_neg hnot]
    rw [htext] at hrun
    have hread := ofText_run hrun (hends rfl)
    rw [hword] at hread
    exact ⟨c, cs, htext, isBlank_of_endsWord (hrun c List.mem_cons_self), hread⟩
  | phrase text =>
    refine ⟨'"', escape text.toList ++ ['"'], rfl, by decide, ?_⟩
    rw [List.append_assoc, List.singleton_append, ofText, if_neg (by decide), if_neg (by decide),
      if_pos rfl, readPhrase_escape]
    simp [Except.map]
  | and => exact ⟨'A', ['N', 'D'], rfl, by decide, ofText_run (by decide) (hends rfl)⟩
  | or => exact ⟨'O', ['R'], rfl, by decide, ofText_run (by decide) (hends rfl)⟩
  | not => exact ⟨'N', ['O', 'T'], rfl, by decide, ofText_run (by decide) (hends rfl)⟩
  | leftParen => exact ⟨'(', [], rfl, by decide, rfl⟩
  | rightParen => exact ⟨')', [], rfl, by decide, rfl⟩
  | endOfText => exact absurd h not_false

end SearchToken

namespace SearchTokens

open SearchToken

/-- A text is scanned into the tokens that it was laid out from, and the end of the text. -/
theorem tokens_of_layout {ts : List SearchToken} {cs : List Char} (h : Layout ts cs)
    (hts : ∀ t ∈ ts, t.IsPrintable) (text : List Char) {limit : Nat} (hlimit : cs.length < limit)
    (offset : Nat) :
    (scanFrom text limit offset cs).fault = none ∧
      (scanFrom text limit offset cs).tokens.map Prod.fst = ts ++ [.endOfText] := by
  induction h generalizing limit offset with
  | @nil gap hgap =>
    cases limit with
    | zero => omega
    | succ limit =>
      have hskip : (gap ++ []).dropWhile Text.isBlank = [] := List.dropWhile_append_of_pos hgap
      rw [List.append_nil] at hskip
      rw [scanFrom, hskip]
      exact ⟨rfl, rfl⟩
  | @cons t ts gap rest hgap hends hrest ih =>
    obtain ⟨ht, hts⟩ := List.forall_mem_cons.mp hts
    obtain ⟨c, cs, hchars, hblank, hread⟩ := ofText_chars ht hends
    have hskip : (gap ++ t.chars ++ rest).dropWhile Text.isBlank = c :: (cs ++ rest) := by
      rw [List.append_assoc, List.dropWhile_append_of_pos hgap, hchars, List.cons_append,
        List.dropWhile_cons, hblank, if_neg Bool.false_ne_true]
    rw [hchars, List.length_append, List.length_append, List.length_cons] at hlimit
    cases limit with
    | zero => omega
    | succ limit =>
      rw [scanFrom, hskip]
      dsimp only
      rw [hread]
      dsimp only
      rw [List.drop_left]
      have hbehind : rest.length < limit := by omega
      obtain ⟨hfault, htokens⟩ := ih hts hbehind _
      exact ⟨hfault, by rw [List.map_cons, htokens]; rfl⟩

end SearchTokens

-- ════════════════════════════════════════════════════════════════════════
-- Every search has a print
-- ════════════════════════════════════════════════════════════════════════

namespace Search

/-- A search that has a print where it may stand without parentheses has one in every place. -/
theorem exists_prints_of_anywhere {search : Search}
    (h : ∀ place, search.isGrouped place = false → ∃ ts, search.Prints place ts) (place : Place) :
    ∃ ts, search.Prints place ts := by
  cases hgrouped : search.isGrouped place with
  | false => exact h place hgrouped
  | true =>
    obtain ⟨ts, hts⟩ := h .anywhere rfl
    exact ⟨_, .group hgrouped hts⟩

theorem exists_prints (search : Search) (place : Place) : ∃ ts, search.Prints place ts := by
  induction search generalizing place with
  | term text => exact ⟨_, .phrase⟩
  | not operand ih =>
    obtain ⟨ts, hts⟩ := ih .operand
    exact ⟨_, .not hts⟩
  | and left right ihl ihr =>
    obtain ⟨ts, hts⟩ := ihl .conjunction
    obtain ⟨ts', hts'⟩ := ihr .operand
    refine exists_prints_of_anywhere (fun place hplace => ⟨_, .and ?_ hts hts'⟩) place
    rintro rfl
    cases hplace
  | or left right ihl ihr =>
    obtain ⟨ts, hts⟩ := ihl .anywhere
    obtain ⟨ts', hts'⟩ := ihr .conjunction
    refine exists_prints_of_anywhere (fun place hplace => ?_) place
    cases place with
    | anywhere => exact ⟨_, .or hts hts'⟩
    | _ => cases hplace

end Search

/-- Tokens can be laid out with a space behind each of them. -/
theorem SearchToken.exists_layout (ts : List SearchToken) : ∃ cs, Layout ts (' ' :: cs) := by
  have hspace : IsGap [' '] := List.forall_mem_singleton.mpr (by decide)
  induction ts with
  | nil => exact ⟨[], .nil hspace⟩
  | cons t ts ih =>
    obtain ⟨cs, hcs⟩ := ih
    refine ⟨t.chars ++ ' ' :: cs, .cons hspace (fun _ d hd => ?_) hcs⟩
    cases hd
    decide

/-- Every search has a print. -/
theorem Search.exists_isPrintedAs (search : Search) : ∃ text, search.IsPrintedAs text := by
  obtain ⟨ts, hts⟩ := search.exists_prints .anywhere
  obtain ⟨cs, hcs⟩ := SearchToken.exists_layout ts
  exact ⟨String.ofList (' ' :: cs), ts, hts, by rwa [String.toList_ofList]⟩

end ODataQuery
