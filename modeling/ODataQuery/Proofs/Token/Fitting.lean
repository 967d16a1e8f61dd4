import ODataQuery.Expr.Function
import ODataQuery.Expr.Operator
import ODataQuery.Proofs.Lists
import ODataQuery.Proofs.Token.Spelling

/-!
# Which tokens fit where

The tokens of the text of an expression end where the next one begins: names in front of
punctuation and white space, literals in front of white space, commas and closing parentheses, and a
minus in front of a name or a parenthesis.

## Main definitions

- `Lexeme.IsName` — the texts of names
- `Lexeme.EndsName` — what ends a name

## Main statements

- `Spelling.fits_identifier`, `Spelling.fits_functionName` — names
- `Spelling.fits_literal` — literals
- `Spelling.fits_minus` — a minus in front of a name
-/

namespace ODataQuery

namespace Lexeme

-- ════════════════════════════════════════════════════════════════════════
-- Names
-- ════════════════════════════════════════════════════════════════════════

/-- The text of a name, of which the first character is no digit. -/
def IsName : List Char → Prop
  | [] => False
  | c :: cs => Text.isBlank c = false ∧ Text.isAsciiDigit c = false ∧ opensName c = true ∧
      ∀ d ∈ cs, isNameCharacter d = true

instance : (cs : List Char) → Decidable (IsName cs)
  | [] => inferInstanceAs (Decidable False)
  | _ :: _ => inferInstanceAs (Decidable (_ ∧ _ ∧ _ ∧ _))

/-- What stands behind a name neither continues it nor makes it look like an identifier of digits
and hyphens. -/
def EndsName (rest : List Char) : Prop :=
  ∀ c ∈ rest.head?, isNameCharacter c = false ∧ c ≠ '-' ∧ Guid.digit? c = none

theorem endsName_of_mem {c : Char} (h : c ∈ [' ', ')', ',', '/', ':', '(', '\'']) (rest : List Char) :
    EndsName (c :: rest) := by
  have hall : ∀ d ∈ [' ', ')', ',', '/', ':', '(', '\''],
      isNameCharacter d = false ∧ d ≠ '-' ∧ Guid.digit? d = none := by decide
  intro d hd
  cases hd
  exact hall c h

theorem endsName_of_ends {rest : List Char} (h : Ends rest) : EndsName rest := by
  cases rest with
  | nil => exact nofun
  | cons c rest =>
    have hsubset : [' ', ')', ','] ⊆ [' ', ')', ',', '/', ':', '(', '\''] := by decide
    exact endsName_of_mem (hsubset (h c rfl)) rest

theorem startsWithGuid_eq_false {cs : List Char} (h : ¬Guid.Opens cs) :
    startsWithGuid cs = false := by
  have hnone : (Guid.ofText? (cs.take 36)).isSome = false := by
    rw [Bool.eq_false_iff]
    intro hsome
    have hopens := (Guid.opens_of_ofText? hsome).append (cs.drop 36)
    rw [List.take_append_drop] at hopens
    exact h hopens
  rw [startsWithGuid, hnone]
  rfl

namespace IsName

variable {c : Char} {cs rest : List Char}

theorem hyphen_not_mem (h : IsName (c :: cs)) : '-' ∉ c :: cs := by
  obtain ⟨_, _, hopens, hname⟩ := h
  intro hmem
  obtain rfl | hmem := List.mem_cons.mp hmem
  · exact absurd hopens (by decide)
  · exact absurd (hname _ hmem) (by decide)

theorem not_opens (h : IsName (c :: cs)) (hrest : EndsName rest) : ¬Guid.Opens (c :: cs ++ rest) := by
  cases rest with
  | nil =>
    rw [List.append_nil]
    exact Guid.not_opens_of_not_mem h.hyphen_not_mem
  | cons d rest =>
    obtain ⟨_, hne, hdigit⟩ := hrest d rfl
    exact Guid.not_opens_of_hyphen_not_mem h.hyphen_not_mem hdigit hne

/-- A name is scanned as a name. -/
theorem ofText_eq (h : IsName (c :: cs)) (hrest : EndsName rest) :
    Lexeme.ofText c (cs ++ rest) = ofName c (cs ++ rest) := by
  have hguid := startsWithGuid_eq_false (h.not_opens hrest)
  obtain ⟨_, hdigit, hopens, _⟩ := h
  have hmarks : ∀ d ∈ '+' :: punctuation, opensName d = false := by decide
  have hmark : c ∉ '+' :: punctuation := by
    intro hmem
    rw [hmarks c hmem] at hopens
    cases hopens
  obtain ⟨hplus, hmark⟩ := not_or.mp (mt List.mem_cons.mpr hmark)
  rw [List.cons_append] at hguid
  rw [ofText_of_not_mem hmark, hguid, hdigit, beq_eq_false_iff_ne.mpr hplus, hopens]
  rfl

theorem nameLength_append (h : IsName (c :: cs)) (hrest : EndsName rest) :
    nameLength (cs ++ rest) = cs.length := by
  rw [nameLength, Lists.takeWhile_append h.2.2.2 fun d hd => (hrest d hd).1]

/-- A name in front of a parenthesis is that of a function. -/
theorem ofText_paren (h : IsName (c :: cs)) (rest : List Char) :
    Lexeme.ofText c (cs ++ '(' :: rest) = .ok ⟨.functionName, cs.length⟩ := by
  have hends : EndsName ('(' :: rest) := endsName_of_mem (by decide) rest
  simp only [h.ofText_eq hends, ofName, h.nameLength_append hends, List.drop_left]

/-- A name in front of a quote belongs to the literal up to the closing quote. -/
theorem ofText_quote (h : IsName (c :: cs)) {rest : List Char} {n : Nat}
    (hrest : quotedLength? rest = some n) :
    Lexeme.ofText c (cs ++ '\'' :: rest) = .ok ⟨.literal, cs.length + 1 + n⟩ := by
  have hends : EndsName ('\'' :: rest) := endsName_of_mem (by decide) rest
  simp only [h.ofText_eq hends, ofName, h.nameLength_append hends, List.drop_left, hrest]

/-- Otherwise the name is a literal or an identifier. -/
theorem ofText_alone (h : IsName (c :: cs)) (hends : EndsName rest)
    (hparen : rest.head? ≠ some '(') (hquote : rest.head? ≠ some '\'') :
    Lexeme.ofText c (cs ++ rest) =
      .ok ⟨if (Shape.ofText? (c :: cs)).isSome then .literal else .identifier, cs.length⟩ := by
  rw [h.ofText_eq hends]
  unfold ofName
  dsimp only
  rw [h.nameLength_append hends, List.drop_left, List.take_left]
  split
  · exact absurd rfl hquote
  · exact absurd rfl hparen
  · split <;> rfl

end IsName

-- ════════════════════════════════════════════════════════════════════════
-- Literals
-- ════════════════════════════════════════════════════════════════════════

theorem quotedLength?_cons {c : Char} (hc : c ≠ '\'') (cs : List Char) :
    quotedLength? (c :: cs) = (quotedLength? cs).map (· + 1) := by
  rw [quotedLength?]
  · rintro cs' rfl
    exact absurd rfl hc
  · rintro rfl
    exact absurd rfl hc

/-- The content of quotes ends with the closing quote. -/
theorem quotedLength?_doubled (cs : List Char) {rest : List Char} (h : rest.head? ≠ some '\'') :
    quotedLength? (Quoted.doubled cs ++ '\'' :: rest) = some ((Quoted.doubled cs).length + 1) := by
  induction cs with
  | nil =>
    cases rest with
    | nil => rfl
    | cons c rest =>
      show quotedLength? ('\'' :: c :: rest) = some 1
      rw [quotedLength?]
      rintro cs' heq
      obtain rfl := (List.cons.inj heq).1
      exact h rfl
  | cons c cs ih =>
    rw [Quoted.doubled_cons]
    by_cases hc : c = '\''
    · simp [hc, quotedLength?, ih]
    · rw [if_neg hc, List.append_assoc, List.singleton_append, quotedLength?_cons hc, ih]
      simp

theorem quotedLength?_of_not_mem {cs rest : List Char} (hcs : '\'' ∉ cs)
    (h : rest.head? ≠ some '\'') : quotedLength? (cs ++ '\'' :: rest) = some (cs.length + 1) := by
  have := quotedLength?_doubled cs h
  rwa [Quoted.doubled_of_not_mem hcs] at this

namespace IsPlain

variable {c : Char} {cs rest : List Char}

theorem numericLength_append (h : ∀ d ∈ cs, isNumericCharacter d = true) (hrest : Ends rest) :
    numericLength (cs ++ rest) = cs.length := by
  have hends : ∀ d ∈ [' ', ')', ','], isNumericCharacter d = false := by decide
  rw [numericLength, Lists.takeWhile_append h fun d hd => hends d (hrest d hd)]

/-- A number, a date or a time is scanned as a literal. -/
theorem ofText_eq (h : IsPlain (c :: cs)) (hguid : ¬Guid.Opens (c :: cs ++ rest))
    (hrest : Ends rest) : Lexeme.ofText c (cs ++ rest) = .ok ⟨.literal, cs.length⟩ := by
  have hguid := startsWithGuid_eq_false hguid
  have hdigit : Text.isAsciiDigit c = true := h.digit
  have hmarks : ∀ d ∈ punctuation, Text.isAsciiDigit d = false := by decide
  have hmark : c ∉ punctuation := fun hmem => Text.ne_of_isAsciiDigit hdigit (hmarks c hmem) rfl
  have hlength := numericLength_append (fun d hd => h.numeric d (List.mem_cons_of_mem _ hd)) hrest
  rw [List.cons_append] at hguid
  rw [ofText_of_not_mem hmark, hguid, hdigit, hlength]
  rfl

/-- So is a number behind a minus. -/
theorem ofText_minus {cs : List Char} (h : IsPlain cs) (hrest : Ends rest) :
    Lexeme.ofText '-' (cs ++ rest) = .ok ⟨.literal, cs.length⟩ := by
  obtain ⟨c, cs', rfl, hdigit⟩ := h.exists_cons
  have hname : "INF".toList.isPrefixOf (c :: cs' ++ rest) = false := by
    have hc : ('I' == c) = false :=
      beq_eq_false_iff_ne.mpr (Text.ne_of_isAsciiDigit hdigit (by decide)).symm
    show ('I' == c && _) = false
    rw [hc]
    rfl
  have hstart : startsWithDigit (c :: cs' ++ rest) = true := hdigit
  have hminus : ofMinus (c :: cs' ++ rest) = ⟨.literal, numericLength (c :: cs' ++ rest)⟩ := by
    rw [ofMinus, hname, hstart]
    rfl
  show Except.ok (ofMinus (c :: cs' ++ rest)) = _
  rw [hminus, numericLength_append h.numeric hrest]

end IsPlain

theorem Ends.head?_ne {rest : List Char} (h : Ends rest) {c : Char} (hc : c ∉ [' ', ')', ',']) :
    rest.head? ≠ some c := fun heq => hc (h c heq)

theorem isBlank_eq_false {c : Char} (h : 32 < c.toNat) (h' : c.toNat < 128) :
    Text.isBlank c = false := by
  rw [Text.isBlank, if_pos h']
  simp only [Bool.or_eq_false_iff, beq_eq_false_iff_ne, Bool.and_eq_false_iff, decide_eq_false_iff_not]
  omega

theorem isBlank_of_isAsciiDigit {c : Char} (h : Text.isAsciiDigit c = true) :
    Text.isBlank c = false := by
  have := Text.toNat_of_isAsciiDigit h
  exact isBlank_eq_false (by omega) (by omega)

theorem isBlank_of_digit? {c : Char} (h : (Guid.digit? c).isSome = true) :
    Text.isBlank c = false := by
  have hbetween {low high : Char} (hle : low ≤ c ∧ c ≤ high) :
      low.toNat ≤ c.toNat ∧ c.toNat ≤ high.toNat :=
    ⟨UInt32.le_iff_toNat_le.mp (Char.le_def.mp hle.1),
      UInt32.le_iff_toNat_le.mp (Char.le_def.mp hle.2)⟩
  unfold Guid.digit? at h
  split at h
  · next hle =>
    obtain ⟨hlow, hhigh⟩ := hbetween hle
    exact isBlank_eq_false (Nat.lt_of_lt_of_le (by decide) hlow) (Nat.lt_of_le_of_lt hhigh (by decide))
  · split at h
    · next hle =>
      obtain ⟨hlow, hhigh⟩ := hbetween hle
      exact isBlank_eq_false (Nat.lt_of_lt_of_le (by decide) hlow)
        (Nat.lt_of_le_of_lt hhigh (by decide))
    · split at h
      · next hle =>
        obtain ⟨hlow, hhigh⟩ := hbetween hle
        exact isBlank_eq_false (Nat.lt_of_lt_of_le (by decide) hlow)
          (Nat.lt_of_le_of_lt hhigh (by decide))
      · cases h

theorem toNat_of_isAsciiLetter {c : Char} (h : Text.isAsciiLetter c = true) :
    65 ≤ c.toNat ∧ c.toNat < 128 := by
  have hle {a b : Char} (hab : a ≤ b) : a.toNat ≤ b.toNat :=
    UInt32.le_iff_toNat_le.mp (Char.le_def.mp hab)
  simp only [Text.isAsciiLetter, Bool.or_eq_true, Bool.and_eq_true, decide_eq_true_eq] at h
  obtain ⟨hlow, hhigh⟩ | ⟨hlow, hhigh⟩ := h
  · exact ⟨Nat.le_trans (by decide) (hle hlow), Nat.lt_of_le_of_lt (hle hhigh) (by decide)⟩
  · exact ⟨hle hlow, Nat.lt_of_le_of_lt (hle hhigh) (by decide)⟩

theorem isAlphabetic_of_isAsciiLetter {c : Char} (h : Text.isAsciiLetter c = true) :
    Text.isAlphabetic c = true := by
  rw [Text.isAlphabetic, if_pos (toNat_of_isAsciiLetter h).2, h]

/-- ASCII letters, digits and underscores are characters of words. -/
theorem isWordCharacter_of_ascii {c : Char}
    (h : (Text.isAsciiAlphanumeric c || c == '_') = true) : isWordCharacter c = true := by
  obtain h | h := Bool.or_eq_true_iff.mp h
  · obtain h | h := Bool.or_eq_true_iff.mp h
    · simp [isWordCharacter, Text.isAlphanumeric, isAlphabetic_of_isAsciiLetter h]
    · have hlt : c.toNat < 128 := by
        have := Text.toNat_of_isAsciiDigit h
        omega
      simp [isWordCharacter, Text.isAlphanumeric, Text.isNumeric, hlt, h]
  · simp [isWordCharacter, h]

theorem isName_cons {c : Char} {cs : List Char} (h : (Text.isAsciiLetter c || c == '_') = true)
    (hall : ∀ d ∈ cs, isNameCharacter d = true) : IsName (c :: cs) := by
  obtain hletter | hunderscore := Bool.or_eq_true_iff.mp h
  · have hc := toNat_of_isAsciiLetter hletter
    have hdigit : Text.isAsciiDigit c = false := by
      rw [Bool.eq_false_iff]
      intro hdigit
      have := Text.toNat_of_isAsciiDigit hdigit
      omega
    refine ⟨isBlank_eq_false (by omega) hc.2, hdigit, ?_, hall⟩
    simp [opensName, isAlphabetic_of_isAsciiLetter hletter]
  · obtain rfl := beq_iff_eq.mp hunderscore
    exact ⟨by decide, by decide, by decide, hall⟩

theorem isName_of_isQualifiedName {word : List Char} (h : Quoted.isQualifiedName word = true) :
    IsName word := by
  obtain ⟨c, cs, rfl, hopens⟩ := Quoted.exists_cons_of_isQualifiedName h
  refine isName_cons hopens fun d hd => ?_
  have hd := Quoted.isNameCharacter_of_isQualifiedName h d (List.mem_cons_of_mem _ hd)
  obtain hd | hd := Bool.or_eq_true_iff.mp hd
  · simp [isNameCharacter, isWordCharacter_of_ascii hd]
  · simp [isNameCharacter, hd]

/-- An identifier of digits and hyphens is scanned as a literal. -/
theorem ofText_guid (g : Guid) {rest : List Char} (hrest : Ends rest) :
    ∃ c cs, g.chars = c :: cs ∧ Text.isBlank c = false ∧
      Lexeme.ofText c (cs ++ rest) = .ok ⟨.literal, cs.length⟩ := by
  have hsome : (Guid.ofText? g.chars).isSome = true := by rw [Guid.ofText?_chars]; rfl
  obtain ⟨digits, tail, hchars, hlength, hdigits⟩ := Guid.opens_of_ofText? hsome
  cases digits with
  | nil => cases hlength
  | cons c digits =>
    have hc : (Guid.digit? c).isSome = true := hdigits c List.mem_cons_self
    have hmarks : ∀ d ∈ punctuation, Guid.digit? d = none := by decide
    have hmark : c ∉ punctuation := by
      intro hmem
      rw [hmarks c hmem] at hc
      cases hc
    have hends : endsWord rest = true := by
      have hall : ∀ d ∈ [' ', ')', ','], isWordCharacter d = false := by decide
      cases rest with
      | nil => rfl
      | cons d rest => simp [endsWord, hall d (hrest d rfl)]
    have hguid : startsWithGuid (g.chars ++ rest) = true := by
      have htake : (g.chars ++ rest).take 36 = g.chars := List.take_left' g.length_chars
      have hdrop : (g.chars ++ rest).drop 36 = rest := List.drop_left' g.length_chars
      rw [startsWithGuid, htake, hdrop, hsome, hends]
      rfl
    have hlength := g.length_chars
    rw [hchars] at hguid hlength ⊢
    rw [List.cons_append, List.length_cons] at hlength
    refine ⟨c, digits ++ '-' :: tail, rfl, isBlank_of_digit? hc, ?_⟩
    rw [List.cons_append, List.cons_append] at hguid
    rw [ofText_of_not_mem hmark, if_pos hguid, Nat.succ.inj hlength]

end Lexeme

namespace Spelling

open Lexeme

variable {space : Bool} {rest : List Char}

-- ════════════════════════════════════════════════════════════════════════
-- Tokens of an expression
-- ════════════════════════════════════════════════════════════════════════

/-- A punctuation mark fits everywhere. -/
theorem fits_mark {kind : TokenKind} {text : String} (c : Char) (hkind : kind ≠ .endOfText)
    (htext : text.toList = [c]) (hblank : Text.isBlank c = false)
    (h : ∀ cs, Lexeme.ofText c cs = .ok ⟨kind, 0⟩) : (⟨kind, text, space⟩ : Spelling).Fits rest :=
  ⟨hkind, c, [], htext, hblank, h rest⟩

theorem exists_cons_of_isName {cs : List Char} (h : IsName cs) :
    ∃ c cs', cs = c :: cs' ∧ IsName (c :: cs') := by
  cases cs with
  | nil => exact absurd h id
  | cons c cs' => exact ⟨c, cs', rfl, h⟩

theorem fits_functionName {name : String} (h : IsName name.toList) :
    (⟨.functionName, name, space⟩ : Spelling).Fits ('(' :: rest) := by
  obtain ⟨c, cs, hname, hc⟩ := exists_cons_of_isName h
  exact ⟨by simp, c, cs, hname, hc.1, hc.ofText_paren rest⟩

theorem fits_identifier {name : String} (h : IsName name.toList)
    (hshape : Shape.ofText? name.toList = none) (hends : EndsName rest)
    (hparen : rest.head? ≠ some '(') (hquote : rest.head? ≠ some '\'') :
    (⟨.identifier, name, space⟩ : Spelling).Fits rest := by
  obtain ⟨c, cs, hname, hc⟩ := exists_cons_of_isName h
  refine ⟨by simp, c, cs, hname, hc.1, ?_⟩
  rw [hc.ofText_alone hends hparen hquote, ← hname, hshape]
  rfl

/-- A literal that is a word. -/
theorem fits_wordLiteral {word : String} (h : IsName word.toList)
    (hshape : (Shape.ofText? word.toList).isSome = true) (hrest : Ends rest) :
    (⟨.literal, word, space⟩ : Spelling).Fits rest := by
  obtain ⟨c, cs, hname, hc⟩ := exists_cons_of_isName h
  refine ⟨by simp, c, cs, hname, hc.1, ?_⟩
  rw [hc.ofText_alone (endsName_of_ends hrest) (hrest.head?_ne (by decide))
    (hrest.head?_ne (by decide)), ← hname, if_pos hshape]

/-- A literal with a word in front of quotes. -/
theorem fits_quotedLiteral {text : String} {word body : List Char}
    (htext : text.toList = word ++ '\'' :: (body ++ ['\''])) (hword : IsName word)
    (hbody : '\'' ∉ body) (hrest : Ends rest) : (⟨.literal, text, space⟩ : Spelling).Fits rest := by
  obtain ⟨c, cs, rfl, hc⟩ := exists_cons_of_isName hword
  have hlength := quotedLength?_of_not_mem hbody (hrest.head?_ne (by decide))
  refine ⟨by simp, c, cs ++ '\'' :: (body ++ ['\'']), htext, hc.1, ?_⟩
  have hquote := hc.ofText_quote hlength
  simp only [List.append_assoc, List.cons_append, List.nil_append] at hquote ⊢
  rw [hquote]
  simp only [List.length_append, List.length_cons, List.length_nil]
  congr 2
  omega

/-- A number, a date or a time. -/
theorem fits_plainLiteral {text : String} (h : IsPlain text.toList)
    (hguid : ¬Guid.Opens (text.toList ++ rest)) (hrest : Ends rest) :
    (⟨.literal, text, space⟩ : Spelling).Fits rest := by
  obtain ⟨c, cs, hcons, hdigit⟩ := h.exists_cons
  rw [hcons] at h hguid
  exact ⟨by simp, c, cs, hcons, isBlank_of_isAsciiDigit hdigit, h.ofText_eq hguid hrest⟩

theorem fits_number {text : String} {t : NumberText} (h : t.IsPlain) (htext : text.toList = t.chars)
    (hrest : Ends rest) : (⟨.literal, text, space⟩ : Spelling).Fits rest := by
  have hbody := NumberText.isPlain_body h
  have hguid := NumberText.not_opens h hrest
  rw [NumberText.chars_eq] at htext hguid
  cases hnegative : t.negative with
  | true =>
    rw [hnegative] at htext
    exact ⟨by simp, '-', t.body, htext, by decide, hbody.ofText_minus hrest⟩
  | false =>
    rw [hnegative] at htext hguid
    refine fits_plainLiteral ?_ ?_ hrest
    · rw [htext]
      exact hbody
    · rwa [htext]

/-- The text of a readable value is scanned as one literal. -/
theorem fits_literal {v : Value} (h : v.IsReadable) (hrest : Ends rest) :
    (⟨.literal, v.text, space⟩ : Spelling).Fits rest := by
  have hinteger (n : Int) : (⟨.literal, Text.integerText n, space⟩ : Spelling).Fits rest := by
    refine fits_number (NumberText.isPlain_ofInt n) ?_ hrest
    rw [NumberText.integerText_eq, String.toList_ofList]
  cases v with
  | null => exact fits_wordLiteral (by decide) (by decide) hrest
  | boolean b =>
    cases b with
    | true => exact fits_wordLiteral (by decide) (by decide) hrest
    | false => exact fits_wordLiteral (by decide) (by decide) hrest
  | byte n | sbyte n | int16 n | int32 n | int64 n => exact hinteger _
  | single x | double x => exact absurd h id
  | decimal d =>
    refine fits_number d.isPlain_numberText ?_ hrest
    rw [Value.text, Decimal.text_eq, String.toList_ofList]
  | string s =>
    refine ⟨by simp, '\'', Quoted.doubled s.toList ++ ['\''], Quoted.toList_quoted s, by decide, ?_⟩
    have hlength := quotedLength?_doubled s.toList (hrest.head?_ne (by decide))
    rw [List.append_assoc, List.singleton_append, List.length_append]
    simp only [Lexeme.ofText, hlength]
    rfl
  | binary bytes =>
    refine fits_quotedLiteral (Value.toList_text_binary bytes) (by decide) (fun hmem => ?_) hrest
    exact (Base64.ne_of_mem_encodeUrl hmem).2.1 rfl
  | date d =>
    have htext : (Value.text (.date d)).toList = d.chars := String.toList_ofList
    refine fits_plainLiteral ?_ ?_ hrest
    · rw [htext]
      exact .date h
    · rw [htext]
      exact Date.not_opens h rest
  | timeOfDay t =>
    have htext : (Value.text (.timeOfDay t)).toList = t.chars := String.toList_ofList
    obtain ⟨fraction, _, hchars, _, _⟩ := TimeOfDay.exists_fraction h
    refine fits_plainLiteral ?_ ?_ hrest
    · rw [htext]
      exact .time h
    · rw [htext, hchars, List.append_assoc]
      exact TimeOfDay.not_opens t _
  | dateTimeOffset i =>
    have htext : (Value.text (.dateTimeOffset i)).toList = i.chars := String.toList_ofList
    refine fits_plainLiteral ?_ ?_ hrest
    · rw [htext]
      exact .instant h
    · rw [htext, Instant.chars, List.append_assoc]
      exact Date.not_opens h _
  | duration d =>
    exact fits_quotedLiteral (Value.toList_text_duration d) (by decide)
      (d.not_mem_chars (by decide)) hrest
  | guid g =>
    obtain ⟨c, cs, hchars, hblank, hlexeme⟩ := ofText_guid g hrest
    exact ⟨by simp, c, cs, String.toList_ofList.trans hchars, hblank, hlexeme⟩
  | enumeration e =>
    exact fits_quotedLiteral (Value.toList_text_enumeration e) (isName_of_isQualifiedName h.qualified)
      h.not_mem_membersText.1 hrest

-- ════════════════════════════════════════════════════════════════════════
-- Minus
-- ════════════════════════════════════════════════════════════════════════

/-- The name is neither that of an infinity nor a duration without its sign. -/
structure AllowsMinus (name : List Char) : Prop where
  isName : IsName name
  word : ∀ c ∈ name, isWordCharacter c = true
  ne_inf : name ≠ "INF".toList
  duration : DurationText.read? name = none

theorem isSome_readClock? (negative : Bool) (days : Option (List Char)) (cs : List Char) :
    (DurationText.readClock? negative days cs).isSome =
      (DurationText.readClock? false days cs).isSome := by
  simp only [DurationText.readClock?]
  split <;> rfl

/-- The sign of a duration does not matter for its form. -/
theorem isSome_readBody? (negative : Bool) (cs : List Char) :
    (DurationText.readBody? negative cs).isSome = (DurationText.readBody? false cs).isSome := by
  simp only [DurationText.readBody?]
  split
  · split <;> rfl
  · split
    · rfl
    · exact isSome_readClock? ..
  · rfl

theorem not_duration_of_minus {name : List Char} (h : DurationText.read? name = none)
    (hhead : name.head? = some 'P') : DurationText.read? ('-' :: name) = none := by
  cases name with
  | nil => cases hhead
  | cons c cs =>
    cases hhead
    have hbody := isSome_readBody? true cs
    have hnone : DurationText.readBody? false cs = none := h
    rw [hnone] at hbody
    simpa [DurationText.read?] using hbody

theorem duration_of_ofPlain? {cs : List Char} (h : Shape.ofPlain? cs = none) :
    DurationText.read? cs = none := by
  unfold Shape.ofPlain? at h
  split at h
  · cases h
  · split at h
    · cases h
    · split at h
      · cases h
      · split at h
        · cases h
        · next hnone => simpa using hnone

/-- A minus in front of such a name is a token of its own. -/
theorem fits_minus_name {name : List Char} (h : AllowsMinus name) (hends : EndsName rest) :
    (⟨.minus, "-", space⟩ : Spelling).Fits (name ++ rest) := by
  have hname (c : Char) (hc : c ∈ name) : isNameCharacter c = true := by
    rw [isNameCharacter, h.word c hc]
    rfl
  have hinf : ("INF".toList.isPrefixOf (name ++ rest) && endsWord ((name ++ rest).drop 3)) = false := by
    rw [Bool.eq_false_iff]
    intro hboth
    obtain ⟨hmark, hword⟩ := Bool.and_eq_true_iff.mp hboth
    obtain ⟨tail, htail⟩ := List.isPrefixOf_iff_prefix.mp hmark
    obtain ⟨more, rfl, _⟩ | ⟨more, hmore, rfl⟩ := List.append_eq_append_iff.mp htail
    · -- A character of the name continues the word.
      cases more with
      | nil => exact h.ne_inf rfl
      | cons c more =>
        have hc := h.word c (by simp)
        have hdrop : ("INF".toList ++ c :: more ++ rest).drop 3 = c :: (more ++ rest) := rfl
        rw [hdrop] at hword
        simp [endsWord, hc] at hword
    · -- What ends the name is no letter.
      cases more with
      | nil =>
        rw [List.append_nil] at hmore
        exact h.ne_inf hmore.symm
      | cons c more =>
        have hletter : ∀ d ∈ "INF".toList, isNameCharacter d = true := by decide
        have hc := hletter c (by rw [hmore]; simp)
        rw [(hends c rfl).1] at hc
        cases hc
  obtain ⟨c, cs, rfl, hcons⟩ := exists_cons_of_isName h.isName
  have hdigit : startsWithDigit (c :: cs ++ rest) = false := hcons.2.1
  have hduration : (decide ((c :: cs ++ rest).head? = some 'P') &&
      (DurationText.read? ('-' :: (c :: cs ++ rest).takeWhile isNameCharacter)).isSome) = false := by
    rw [Bool.eq_false_iff]
    intro hboth
    obtain ⟨hhead, hsome⟩ := Bool.and_eq_true_iff.mp hboth
    rw [Lists.takeWhile_append hname fun d hd => (hends d hd).1,
      not_duration_of_minus h.duration (of_decide_eq_true hhead)] at hsome
    cases hsome
  refine ⟨by simp, '-', [], by simp, by decide, ?_⟩
  show Except.ok (ofMinus (c :: cs ++ rest)) = _
  rw [ofMinus, hinf, hdigit, hduration]
  rfl

/-- So is a minus in front of a parenthesis. -/
theorem fits_minus_paren : (⟨.minus, "-", space⟩ : Spelling).Fits ('(' :: rest) :=
  ⟨by simp, '-', [], by simp, by decide, rfl⟩

/-- A text without shape is not taken for a literal behind a minus. -/
theorem allowsMinus_of_shape {name : List Char} (h : IsName name)
    (hword : ∀ c ∈ name, isWordCharacter c = true) (hshape : Shape.ofText? name = none) :
    AllowsMinus name := by
  have hquote : '\'' ∉ name := fun hmem => absurd (hword _ hmem) (by decide)
  have hwords : name ∉ Shape.words := by
    intro hmem
    have hall : ∀ word ∈ Shape.words, (Shape.ofText? word).isSome = true := by decide
    have := hall name hmem
    rw [hshape] at this
    cases this
  refine ⟨h, hword, fun hinf => hwords (by rw [hinf]; decide), ?_⟩
  rw [Shape.ofText?_of_not_mem_words hwords, Quoted.prefixed?_eq_none hquote] at hshape
  split at hshape
  · cases hshape
  · split at hshape
    · cases hshape
    · exact duration_of_ofPlain? hshape

end Spelling

end ODataQuery
