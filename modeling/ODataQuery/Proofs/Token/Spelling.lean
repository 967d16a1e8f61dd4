import ODataQuery.Proofs.Lists
import ODataQuery.Proofs.Literal.Shape
import ODataQuery.Proofs.Token.Scan

/-!
# Spelled tokens

A text that is put together from the texts of tokens is scanned into those tokens, if each of them
ends where the next one begins.

## Main definitions

- `Spelling` — a token without its place, written behind a space or not
- `Spelling.Fits` — the characters form the token in front of a text
- `Spelling.Written` — a text consists of tokens
- `Spelling.AllFit` — each token of a list fits in front of those behind it
- `Cursor.Shows` — the tokens from a cursor on

## Main statements

- `Spelling.Written.exists_cursor` — the cursor at the start of a text is at the first of its tokens
- `Spelling.exists_cursor` — the cursor at the start of a text shows the tokens it is made of
-/

namespace ODataQuery

/-- A token without its place. -/
structure Spelling where
  kind : TokenKind
  text : String
  leadingSpace : Bool
deriving DecidableEq

/-- The spelling of a token. -/
def Token.spelling (t : Token) : Spelling := ⟨t.kind, t.text, t.leadingSpace⟩

namespace Spelling

/-- The spelling of the end of a text. -/
def ending : Spelling := ⟨.endOfText, "", false⟩

/-- The characters of a token, with the space in front of it. -/
def chars (s : Spelling) : List Char := (if s.leadingSpace then [' '] else []) ++ s.text.toList

/-- The characters of some tokens. -/
def allChars (ls : List Spelling) : List Char := ls.flatMap chars

@[simp]
theorem allChars_nil : allChars [] = [] := rfl

@[simp]
theorem allChars_cons (s : Spelling) (ls : List Spelling) :
    allChars (s :: ls) = s.chars ++ allChars ls := rfl

@[simp]
theorem allChars_append (ls ls' : List Spelling) :
    allChars (ls ++ ls') = allChars ls ++ allChars ls' := List.flatMap_append

/-- In front of a text, the characters form a token of the kind and end there. -/
def Fits (s : Spelling) (rest : List Char) : Prop :=
  s.kind ≠ .endOfText ∧ ∃ c cs, s.text.toList = c :: cs ∧ Text.isBlank c = false ∧
    Lexeme.ofText c (cs ++ rest) = .ok ⟨s.kind, cs.length⟩

/-- A text consists of tokens with white space in front of them, each of which ends where the next one or
the white space in front of it begins. -/
inductive Written : List Char → List Spelling → Prop
  | ending {gap} (hgap : ∀ c ∈ gap, Text.isBlank c = true) :
      Written gap [⟨.endOfText, "", 0 < gap.length⟩]
  | token {gap rest s ls} (hgap : ∀ c ∈ gap, Text.isBlank c = true)
      (hspace : s.leadingSpace = decide (0 < gap.length)) (hfits : s.Fits rest)
      (hrest : Written rest ls) : Written (gap ++ (s.text.toList ++ rest)) (s :: ls)

/-- Each token fits in front of those behind it. -/
def AllFit : List Spelling → Prop
  | [] => True
  | s :: ls => s.Fits (allChars ls) ∧ AllFit ls

-- ════════════════════════════════════════════════════════════════════════
-- Scanning
-- ════════════════════════════════════════════════════════════════════════

theorem next_of_gap {gap rest : List Char} (hgap : ∀ c ∈ gap, Text.isBlank c = true)
    (hrest : ∀ c ∈ rest.head?, Text.isBlank c = false) (offset : Nat) :
    Scan.next offset (gap ++ rest) = Scan.token (0 < gap.length) (offset + gap.length) rest := by
  rw [Scan.next, Lists.takeWhile_append hgap hrest, Lists.dropWhile_append hgap hrest]

/-- A token that fits is scanned. -/
theorem Fits.next {s : Spelling} {gap rest : List Char} (h : s.Fits rest)
    (hgap : ∀ c ∈ gap, Text.isBlank c = true) (hspace : s.leadingSpace = decide (0 < gap.length))
    (offset : Nat) :
    ∃ place offset', Scan.next offset (gap ++ (s.text.toList ++ rest)) =
      ⟨.ok ⟨s.kind, s.text, place, s.leadingSpace⟩, offset', rest⟩ := by
  obtain ⟨_, c, cs, htext, hblank, hlexeme⟩ := h
  have hhead : ∀ d ∈ (s.text.toList ++ rest).head?, Text.isBlank d = false := by
    rw [htext]
    rintro d ⟨⟩
    exact hblank
  refine ⟨offset + gap.length, offset + gap.length + 1 + cs.length, ?_⟩
  rw [next_of_gap hgap hhead, htext, List.cons_append, Scan.token, hlexeme, hspace]
  dsimp only
  rw [List.take_left, List.drop_left, ← htext, String.ofList_toList]

theorem Fits.length_pos {s : Spelling} {rest : List Char} (h : s.Fits rest) :
    0 < s.text.toList.length := by
  obtain ⟨_, c, cs, htext, _⟩ := h
  rw [htext]
  exact Nat.succ_pos _

/-- The tokens of a text are scanned one after the other. -/
theorem Written.exists_tokensFrom {cs : List Char} {ls : List Spelling} (h : Written cs ls)
    (text : List Char) {limit : Nat} (hlimit : cs.length < limit) (offset : Nat) :
    ∃ ts, Scan.tokensFrom text limit offset cs = (ts, none) ∧ ts.map Token.spelling = ls := by
  induction h generalizing limit offset with
  | @ending gap hgap =>
    obtain ⟨limit, rfl⟩ := Nat.exists_eq_succ_of_ne_zero (Nat.ne_zero_of_lt hlimit)
    have hnone : ∀ c ∈ ([] : List Char).head?, Text.isBlank c = false := nofun
    have hnext := next_of_gap hgap hnone offset
    rw [List.append_nil] at hnext
    refine ⟨[⟨.endOfText, "", offset + gap.length, decide (0 < gap.length)⟩], ?_, rfl⟩
    rw [Scan.tokensFrom, hnext]
    rfl
  | @token gap rest s ls hgap hspace hfits _ ih =>
    obtain ⟨limit, rfl⟩ := Nat.exists_eq_succ_of_ne_zero (Nat.ne_zero_of_lt hlimit)
    obtain ⟨place, offset', hnext⟩ := hfits.next hgap hspace offset
    have hpos := hfits.length_pos
    rw [List.length_append, List.length_append] at hlimit
    have hlimit' : rest.length < limit := by omega
    obtain ⟨ts, hts, hmap⟩ := ih hlimit' offset'
    refine ⟨⟨s.kind, s.text, place, s.leadingSpace⟩ :: ts, ?_, ?_⟩
    · rw [Scan.tokensFrom, hnext]
      dsimp only
      rw [if_neg hfits.1, hts]
    · rw [List.map_cons, hmap]
      rfl

/-- The text put together from tokens that fit consists of them. -/
theorem written_allChars {ls : List Spelling} (h : AllFit ls) :
    Written (allChars ls) (ls ++ [ending]) := by
  induction ls with
  | nil => exact .ending nofun
  | cons s ls ih =>
    obtain ⟨hfits, hrest⟩ := h
    rw [allChars_cons, chars, List.append_assoc]
    cases hspace : s.leadingSpace with
    | false => exact .token nofun hspace hfits (ih hrest)
    | true => exact .token (by decide) hspace hfits (ih hrest)

end Spelling

-- ════════════════════════════════════════════════════════════════════════
-- Cursors
-- ════════════════════════════════════════════════════════════════════════

namespace Cursor

/-- The tokens from the current one on are spelled like this, up to the end of the text. -/
def Shows (c : Cursor) (ls : List Spelling) : Prop :=
  c.fault = none ∧ c.tokens.map Token.spelling = ls ++ [.ending]

namespace Shows

variable {c : Cursor} {s : Spelling} {ls : List Spelling}

theorem spelling_current (h : c.Shows ls) : c.current.spelling = ls.headD .ending := by
  have hhead := congrArg List.head? h.2
  cases ls with
  | nil => exact Option.some.inj hhead
  | cons s ls => exact Option.some.inj hhead

/-- The next cursor shows the tokens behind the first one. -/
theorem advance (h : c.Shows (s :: ls)) :
    ∃ c', c.advance = .ok c' ∧ c'.Shows ls ∧ c'.rest.length < c.rest.length := by
  obtain ⟨hfault, htokens⟩ := h
  have hrest : c.rest.map Token.spelling = ls ++ [.ending] := (List.cons.inj htokens).2
  obtain ⟨t, ts, hts⟩ : ∃ t ts, c.rest = t :: ts := by
    cases hc : c.rest with
    | nil => simp [hc] at hrest
    | cons t ts => exact ⟨t, ts, rfl⟩
  refine ⟨⟨t, ts, c.fault⟩, ?_, ⟨hfault, ?_⟩, ?_⟩
  · simp only [Cursor.advance, hts]
  · rw [← hrest, hts]
    rfl
  · rw [hts]
    exact Nat.lt_succ_self _

theorem kind (h : c.Shows (s :: ls)) : c.current.kind = s.kind :=
  congrArg Spelling.kind h.spelling_current

theorem text (h : c.Shows (s :: ls)) : c.current.text = s.text :=
  congrArg Spelling.text h.spelling_current

theorem leadingSpace (h : c.Shows (s :: ls)) : c.current.leadingSpace = s.leadingSpace :=
  congrArg Spelling.leadingSpace h.spelling_current

theorem kind_nil (h : c.Shows []) : c.current.kind = .endOfText :=
  congrArg Spelling.kind h.spelling_current

/-- The token behind the first one. -/
theorem peek (h : c.Shows (s :: ls)) : ∃ t, c.peek = .ok t ∧ t.spelling = ls.headD .ending := by
  obtain ⟨c', hc, hc', _⟩ := h.advance
  refine ⟨c'.current, ?_, hc'.spelling_current⟩
  rw [Cursor.peek, hc]
  rfl

end Shows

end Cursor

namespace Spelling

/-- The cursor at the start of a text shows the tokens that the text consists of. -/
theorem Written.exists_cursor {text : List Char} {ls : List Spelling} (h : Written text ls) :
    ∃ c, Cursor.ofText text = .ok c ∧ c.fault = none ∧ c.tokens.map Token.spelling = ls := by
  obtain ⟨ts, hts, hmap⟩ := h.exists_tokensFrom text (Nat.lt_succ_self _) 0
  cases ts with
  | nil =>
    subst hmap
    cases h
  | cons t ts =>
    refine ⟨⟨t, ts, none⟩, ?_, rfl, hmap⟩
    rw [Cursor.ofText, scanText, hts]
    rfl

/-- The cursor at the start of a text shows the tokens that the text is made of. -/
theorem exists_cursor {ls : List Spelling} (h : AllFit ls) :
    ∃ c, Cursor.ofText (allChars ls) = .ok c ∧ c.Shows ls :=
  (written_allChars h).exists_cursor

end Spelling

end ODataQuery
