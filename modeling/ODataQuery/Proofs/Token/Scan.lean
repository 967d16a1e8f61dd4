import ODataQuery.Token.Scan

/-!
# Scanned tokens

Every token of a text has a character of it, except the one at the end, and identifiers are names
that are no literals.

## Main definitions

- `Lexeme.IsIdentifier` — the texts of identifiers
- `Lexeme.Starts`, `Lexeme.StartsName` — the ways in which a lexeme is found

## Main statements

- `Lexeme.ofText_eq_ok`, `Lexeme.ofName_eq_ok` — a lexeme is found in one of these ways
- `Cursor.hasText_of_ofText` — the tokens of a text have a text of their own
- `Cursor.hasIdentifiers_of_ofText` — the identifiers of a text are names
-/

namespace ODataQuery

/-- Whether a token has characters, or stands at the end of the text. -/
def Token.HasText (t : Token) : Prop := t.kind ≠ .endOfText → t.text ≠ ""

/-- The text of an identifier starts like a name and is no literal. -/
structure Lexeme.IsIdentifier (text : String) : Prop where
  opens : ∃ c cs, text.toList = c :: cs ∧ Lexeme.opensName c = true
  shape : Shape.ofText? text.toList = none

/-- Whether a token is an identifier with the text of one, or of another kind. -/
def Token.IsNamed (t : Token) : Prop := t.kind = .identifier → Lexeme.IsIdentifier t.text

namespace Lexeme

/-- The characters that are tokens on their own, with the kinds of these. -/
def marks : List (Char × TokenKind) :=
  [('(', .leftParen), (')', .rightParen), (',', .comma), (':', .colon), ('/', .slash)]

/-- The characters that are looked at before any other. -/
def punctuation : List Char := '-' :: '\'' :: marks.map Prod.fst

/-- The lexemes of a name that starts with a character in front of some text. -/
inductive StartsName (c : Char) (cs : List Char) : Lexeme → Prop
  | quoted {rest m} (hrest : cs.drop (nameLength cs) = '\'' :: rest)
      (hm : quotedLength? rest = some m) : StartsName c cs ⟨.literal, nameLength cs + 1 + m⟩
  | function {rest} (hrest : cs.drop (nameLength cs) = '(' :: rest) :
      StartsName c cs ⟨.functionName, nameLength cs⟩
  | literal (hquote : (cs.drop (nameLength cs)).head? ≠ some '\'')
      (hparen : (cs.drop (nameLength cs)).head? ≠ some '(')
      (hshape : (Shape.ofText? (c :: cs.take (nameLength cs))).isSome = true) :
      StartsName c cs ⟨.literal, nameLength cs⟩
  | identifier (hquote : (cs.drop (nameLength cs)).head? ≠ some '\'')
      (hparen : (cs.drop (nameLength cs)).head? ≠ some '(')
      (hshape : Shape.ofText? (c :: cs.take (nameLength cs)) = none) :
      StartsName c cs ⟨.identifier, nameLength cs⟩

/-- The lexemes that start with a character in front of some text, one way for each branch of the
lexer. -/
inductive Starts (c : Char) (cs : List Char) : Lexeme → Prop
  | mark {kind} (h : (c, kind) ∈ marks) : Starts c cs ⟨kind, 0⟩
  | minus (h : c = '-') : Starts c cs (ofMinus cs)
  | quoted {m} (h : c = '\'') (hm : quotedLength? cs = some m) : Starts c cs ⟨.literal, m⟩
  | guid (h : c ∉ punctuation) (hguid : startsWithGuid (c :: cs) = true) :
      Starts c cs ⟨.literal, 35⟩
  | number (h : c ∉ punctuation) (hguid : startsWithGuid (c :: cs) = false)
      (hnumber : (Text.isAsciiDigit c || (c == '+' && startsWithDigit cs)) = true) :
      Starts c cs ⟨.literal, numericLength cs⟩
  | name {l} (h : c ∉ punctuation) (hguid : startsWithGuid (c :: cs) = false)
      (hnumber : (Text.isAsciiDigit c || (c == '+' && startsWithDigit cs)) = false)
      (hopens : opensName c = true) (hname : StartsName c cs l) : Starts c cs l

section

variable {c : Char} {cs : List Char} {l : Lexeme}

theorem ofText_of_mem_marks {kind : TokenKind} (h : (c, kind) ∈ marks) (cs : List Char) :
    ofText c cs = .ok ⟨kind, 0⟩ := by
  simp only [marks, List.mem_cons, Prod.mk.injEq, List.not_mem_nil, or_false] at h
  obtain ⟨rfl, rfl⟩ | ⟨rfl, rfl⟩ | ⟨rfl, rfl⟩ | ⟨rfl, rfl⟩ | ⟨rfl, rfl⟩ := h <;> rfl

/-- Another character starts a guid, a number or a name. -/
theorem ofText_of_not_mem (h : c ∉ punctuation) (cs : List Char) :
    ofText c cs =
      if startsWithGuid (c :: cs) then .ok ⟨.literal, 35⟩
      else if Text.isAsciiDigit c || (c == '+' && startsWithDigit cs) then
        .ok ⟨.literal, numericLength cs⟩
      else if opensName c then ofName c cs
      else .error (.unexpectedCharacter c, 0) := by
  have hne {d : Char} (hd : d ∈ punctuation) : c ≠ d := fun heq => h (heq ▸ hd)
  unfold ofText
  split
  case h_8 => rfl
  all_goals exact absurd rfl (hne (by decide))

/-- A name is found in one of these ways. -/
theorem ofName_eq_ok : ofName c cs = .ok l ↔ StartsName c cs l := by
  unfold ofName
  dsimp only
  constructor
  · intro hl
    split at hl
    · next rest hrest =>
      split at hl
      · next m hm =>
        cases hl
        exact .quoted hrest hm
      · cases hl
    · next rest hrest =>
      cases hl
      exact .function hrest
    · next hquote hparen =>
      have hhead {d : Char} (hne : ∀ rest, cs.drop (nameLength cs) ≠ d :: rest) :
          (cs.drop (nameLength cs)).head? ≠ some d := by
        intro heq
        obtain ⟨rest, hrest⟩ := List.head?_eq_some_iff.mp heq
        exact hne rest hrest
      split at hl
      · next hshape =>
        cases hl
        exact .literal (hhead hquote) (hhead hparen) hshape
      · next hshape =>
        cases hl
        exact .identifier (hhead hquote) (hhead hparen) (by simpa using hshape)
  · intro hl
    cases hl with
    | quoted hrest hm =>
      rw [hrest]
      simp only [hm]
    | function hrest =>
      rw [hrest]
      rfl
    | literal hquote hparen hshape =>
      split
      · next rest hrest => exact absurd (by rw [hrest]; rfl) hquote
      · next rest hrest => exact absurd (by rw [hrest]; rfl) hparen
      · rw [if_pos hshape]
    | identifier hquote hparen hshape =>
      split
      · next rest hrest => exact absurd (by rw [hrest]; rfl) hquote
      · next rest hrest => exact absurd (by rw [hrest]; rfl) hparen
      · rw [hshape]
        rfl

/-- A lexeme is found in one of these ways. -/
theorem ofText_eq_ok : ofText c cs = .ok l ↔ Starts c cs l := by
  constructor
  · intro hl
    by_cases hmem : c ∈ punctuation
    · obtain rfl | hmem := List.mem_cons.mp hmem
      · cases hl
        exact .minus rfl
      obtain rfl | hmem := List.mem_cons.mp hmem
      · rw [ofText] at hl
        split at hl
        · next m hm =>
          cases hl
          exact .quoted rfl hm
        · cases hl
      obtain ⟨⟨_, kind⟩, hmark, rfl⟩ := List.mem_map.mp hmem
      rw [ofText_of_mem_marks hmark] at hl
      cases hl
      exact .mark hmark
    rw [ofText_of_not_mem hmem] at hl
    cases hguid : startsWithGuid (c :: cs) with
    | true =>
      rw [hguid, if_pos rfl] at hl
      cases hl
      exact .guid hmem hguid
    | false =>
      rw [hguid, if_neg Bool.false_ne_true] at hl
      cases hnumber : Text.isAsciiDigit c || (c == '+' && startsWithDigit cs) with
      | true =>
        rw [hnumber, if_pos rfl] at hl
        cases hl
        exact .number hmem hguid hnumber
      | false =>
        rw [hnumber, if_neg Bool.false_ne_true] at hl
        split at hl
        · next hopens => exact .name hmem hguid hnumber hopens (ofName_eq_ok.mp hl)
        · cases hl
  · intro hl
    cases hl with
    | mark h => exact ofText_of_mem_marks h cs
    | minus h =>
      subst h
      rfl
    | quoted h hm =>
      subst h
      rw [ofText, hm]
    | guid h hguid => rw [ofText_of_not_mem h, if_pos hguid]
    | number h hguid hnumber =>
      rw [ofText_of_not_mem h, hguid, if_neg Bool.false_ne_true, if_pos hnumber]
    | name h hguid hnumber hopens hname =>
      rw [ofText_of_not_mem h, hguid, if_neg Bool.false_ne_true, hnumber, if_neg Bool.false_ne_true,
        if_pos hopens, ofName_eq_ok.mpr hname]

end

theorem ofMinus_cases (cs : List Char) :
    (ofMinus cs).kind = .literal ∨ ofMinus cs = ⟨.minus, 0⟩ := by
  unfold ofMinus
  split
  · exact .inl rfl
  · split
    · exact .inl rfl
    · split
      · exact .inl rfl
      · exact .inr rfl

/-- Identifiers are scanned as names that have no shape. -/
theorem identifier_of_ofText {c : Char} {cs : List Char} {l : Lexeme} (h : ofText c cs = .ok l)
    (hkind : l.kind = .identifier) :
    opensName c = true ∧ Shape.ofText? (c :: cs.take l.more) = none := by
  cases ofText_eq_ok.mp h with
  | mark hmark =>
    have hkinds : ∀ p ∈ marks, p.2 ≠ .identifier := by decide
    exact absurd hkind (hkinds _ hmark)
  | minus =>
    obtain h | h := ofMinus_cases cs
    · cases h.symm.trans hkind
    · rw [h] at hkind
      cases hkind
  | quoted | guid | number => cases hkind
  | name _ _ _ hopens hname =>
    cases hname with
    | quoted | function | literal => cases hkind
    | identifier _ _ hshape => exact ⟨hopens, hshape⟩

end Lexeme

namespace Scan

variable {space : Bool} {offset : Nat} {cs : List Char} {t : Token}

/-- A token consists of the characters of its lexeme, or stands at the end of the text. -/
theorem token_cases (h : (token space offset cs).outcome = .ok t) :
    t.kind = .endOfText ∨ ∃ c rest l, cs = c :: rest ∧ Lexeme.ofText c rest = .ok l ∧
      t.kind = l.kind ∧ t.text.toList = c :: rest.take l.more := by
  cases cs with
  | nil =>
    cases h
    exact .inl rfl
  | cons c rest =>
    cases hl : Lexeme.ofText c rest with
    | error e =>
      obtain ⟨fault, n⟩ := e
      cases fault <;> simp [token, hl] at h
    | ok l =>
      simp only [token, hl, Except.ok.injEq] at h
      subst h
      exact .inr ⟨c, rest, l, rfl, hl, rfl, String.toList_ofList⟩

theorem hasText_of_token (h : (token space offset cs).outcome = .ok t) : t.HasText := by
  intro hkind hempty
  obtain hend | ⟨c, rest, l, _, _, _, htext⟩ := token_cases h
  · exact hkind hend
  · rw [hempty] at htext
    cases htext

theorem isNamed_of_token (h : (token space offset cs).outcome = .ok t) : t.IsNamed := by
  intro hkind
  obtain hend | ⟨c, rest, l, _, hl, hlexeme, htext⟩ := token_cases h
  · rw [hkind] at hend
    cases hend
  · obtain ⟨hopens, hshape⟩ := Lexeme.identifier_of_ofText hl (hlexeme.symm.trans hkind)
    rw [← htext] at hshape
    exact ⟨⟨c, _, htext, hopens⟩, hshape⟩

/-- What holds of a token wherever it stands, holds of all tokens of a text. -/
theorem forall_tokensFrom {P : Token → Prop}
    (hP : ∀ {space offset cs t}, (token space offset cs).outcome = .ok t → P t) (text : List Char)
    (limit offset : Nat) (cs : List Char) : ∀ t ∈ (tokensFrom text limit offset cs).1, P t := by
  induction limit generalizing offset cs with
  | zero => exact List.forall_mem_nil _
  | succ limit ih =>
    simp only [tokensFrom]
    split
    · exact List.forall_mem_nil _
    · next hnext =>
      split
      · exact List.forall_mem_singleton.mpr (hP hnext)
      · exact List.forall_mem_cons.mpr ⟨hP hnext, ih _ _⟩

end Scan

namespace Cursor

/-- The tokens from the current one on. -/
def tokens (c : Cursor) : List Token := c.current :: c.rest

/-- Whether all tokens from the current one on have a text of their own. -/
def HasText (c : Cursor) : Prop := ∀ t ∈ c.tokens, t.HasText

/-- Whether all identifiers from the current token on are names. -/
def HasIdentifiers (c : Cursor) : Prop := ∀ t ∈ c.tokens, t.IsNamed

theorem forall_of_ofText {P : Token → Prop}
    (hP : ∀ {space offset cs t}, (Scan.token space offset cs).outcome = .ok t → P t)
    {text : List Char} {c : Cursor} (h : ofText text = .ok c) : ∀ t ∈ c.tokens, P t := by
  have hall : ∀ t ∈ (scanText text).1, P t := Scan.forall_tokensFrom hP text _ _ _
  rcases hscan : scanText text with ⟨ts, fault⟩
  rw [ofText, hscan] at h
  rw [hscan] at hall
  cases ts with
  | cons t ts =>
    cases h
    exact hall
  | nil =>
    cases fault with
    | some err => cases h
    | none =>
      cases h
      have hend : (Scan.token false 0 []).outcome = .ok ⟨.endOfText, "", 0, false⟩ := rfl
      exact List.forall_mem_singleton.mpr (hP hend)

/-- The tokens of a text have a text of their own. -/
theorem hasText_of_ofText {text : List Char} {c : Cursor} (h : ofText text = .ok c) : c.HasText :=
  forall_of_ofText Scan.hasText_of_token h

/-- The identifiers of a text are names. -/
theorem hasIdentifiers_of_ofText {text : List Char} {c : Cursor} (h : ofText text = .ok c) :
    c.HasIdentifiers :=
  forall_of_ofText Scan.isNamed_of_token h

end Cursor

end ODataQuery
