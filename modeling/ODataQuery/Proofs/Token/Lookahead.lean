import ODataQuery.Proofs.Token.Fitting
import ODataQuery.Proofs.Token.Tiling

/-!
# How far a token looks ahead

A token ends in front of white space and punctuation marks, and what it is depends on nothing behind
such a character.

## Main definitions

- `Lexeme.isBreak` — white space and punctuation marks
- `Lexeme.SameBreak` — texts that start with the same break, or are both empty

## Main statements

- `Lexeme.ofText_congr` — a token looks no further than the first break behind it
- `Lexeme.ofText_of_isMark` — a punctuation mark does not look ahead at all
-/

namespace ODataQuery

namespace Lexeme

-- ════════════════════════════════════════════════════════════════════════
-- Breaks
-- ════════════════════════════════════════════════════════════════════════

/-- The kinds of punctuation marks but the minus, which can be part of a number. -/
def isMark (kind : TokenKind) : Bool :=
  [TokenKind.leftParen, .rightParen, .comma, .colon, .slash].contains kind

/-- White space and the punctuation marks that end names. -/
def isBreak (c : Char) : Bool := Text.isBlank c || ['(', ')', ',', ':', '/'].contains c

/-- The code points of white space. -/
def blankCodes : List Nat :=
  [9, 10, 11, 12, 13, 32, 0x85, 0xA0, 0x1680, 0x2000, 0x2001, 0x2002, 0x2003, 0x2004, 0x2005, 0x2006,
    0x2007, 0x2008, 0x2009, 0x200A, 0x2028, 0x2029, 0x202F, 0x205F, 0x3000]

theorem toNat_mem_blankCodes {c : Char} (h : Text.isBlank c = true) : c.toNat ∈ blankCodes := by
  simp only [Text.isBlank, CodeRange.covers, Text.blankRanges, List.any_cons, List.any_nil,
    Bool.or_false] at h
  simp only [blankCodes, List.mem_cons, List.not_mem_nil, or_false]
  split at h
  · simp only [Bool.or_eq_true, Bool.and_eq_true, beq_iff_eq, decide_eq_true_eq] at h
    omega
  · simp only [Bool.or_eq_true, Bool.and_eq_true, decide_eq_true_eq] at h
    omega

/-- A break is no character of a name. -/
theorem isNameCharacter_of_isBreak {c : Char} (h : isBreak c = true) : isNameCharacter c = false := by
  obtain hblank | hmark := Bool.or_eq_true_iff.mp h
  · have hall : ∀ n ∈ blankCodes, isNameCharacter (Char.ofNat n) = false := by decide +kernel
    have := hall _ (toNat_mem_blankCodes hblank)
    rwa [Char.ofNat_toNat] at this
  · have hall : ∀ d ∈ ['(', ')', ',', ':', '/'], isNameCharacter d = false := by decide
    exact hall c (List.contains_iff_mem.mp hmark)

theorem ne_of_isBreak {c d : Char} (h : isBreak c = true) (hd : isBreak d = false) : c ≠ d := by
  rintro rfl
  rw [h] at hd
  cases hd

theorem digit?_of_isBreak {c : Char} (h : isBreak c = true) : Guid.digit? c = none := by
  rw [← Option.isNone_iff_eq_none, ← Option.not_isSome, Bool.not_eq_true', Bool.eq_false_iff]
  intro hdigit
  obtain hblank | hmark := Bool.or_eq_true_iff.mp h
  · exact Bool.false_ne_true ((isBlank_of_digit? hdigit).symm.trans hblank)
  · have hall : ∀ d ∈ ['(', ')', ',', ':', '/'], Guid.digit? d = none := by decide
    rw [hall c (List.contains_iff_mem.mp hmark)] at hdigit
    cases hdigit

theorem opensName_of_isBreak {c : Char} (h : isBreak c = true) : opensName c = false := by
  have hname := isNameCharacter_of_isBreak h
  have hdollar := ne_of_isBreak h (by decide : isBreak '$' = false)
  simp only [isNameCharacter, isWordCharacter, Text.isAlphanumeric, Bool.or_eq_false_iff] at hname
  simp [opensName, hname, hdollar]

/-- What stands behind a name in front of a break ends it. -/
theorem endsName_of_isBreak {rest : List Char} (h : ∀ c ∈ rest.head?, isBreak c = true) :
    EndsName rest := fun c hc =>
  ⟨isNameCharacter_of_isBreak (h c hc), ne_of_isBreak (h c hc) (by decide), digit?_of_isBreak (h c hc)⟩

/-- Two texts start with the same break, or both are empty. -/
structure SameBreak (rest rest' : List Char) : Prop where
  head : rest'.head? = rest.head?
  breaks : ∀ c ∈ rest.head?, isBreak c = true

-- ════════════════════════════════════════════════════════════════════════
-- What is looked at
-- ════════════════════════════════════════════════════════════════════════

section

variable {c : Char} {cs rest rest' : List Char}

/-- So many characters that are no breaks do not reach behind a break. -/
theorem le_length_of_take {n : Nat} (hrest : ∀ c ∈ rest.head?, isBreak c = true)
    (hlength : ((cs ++ rest).take n).length = n) (h : ∀ c ∈ (cs ++ rest).take n, isBreak c = false) :
    n ≤ cs.length := by
  by_contra hlt
  have hlt : cs.length < n := Nat.not_le.mp hlt
  cases rest with
  | nil =>
    rw [List.append_nil, List.length_take] at hlength
    omega
  | cons d rest =>
    have hmem : d ∈ (cs ++ d :: rest).take n := by
      rw [List.take_append, List.take_of_length_le (Nat.le_of_lt hlt)]
      obtain ⟨m, hm⟩ := Nat.exists_eq_succ_of_ne_zero (Nat.sub_ne_zero_of_lt hlt)
      rw [hm, List.take_succ_cons]
      simp
    exact Bool.false_ne_true ((h d hmem).symm.trans (hrest d rfl))

namespace SameBreak

theorem symm (h : SameBreak rest rest') : SameBreak rest' rest :=
  ⟨h.head.symm, by rw [h.head]; exact h.breaks⟩

theorem endsWord_append (h : SameBreak rest rest') (cs : List Char) :
    endsWord (cs ++ rest') = endsWord (cs ++ rest) := by
  rw [endsWord, endsWord, List.head?_append, List.head?_append, h.head]

theorem startsWithDigit_append (h : SameBreak rest rest') (cs : List Char) :
    startsWithDigit (cs ++ rest') = startsWithDigit (cs ++ rest) := by
  rw [startsWithDigit, startsWithDigit, List.head?_append, List.head?_append, h.head]

/-- A name in front of a break ends there. -/
theorem takeWhile_name (h : SameBreak rest rest') (cs : List Char) :
    (cs ++ rest').takeWhile isNameCharacter = (cs ++ rest).takeWhile isNameCharacter := by
  refine Lists.takeWhile_append_congr h.head ?_
  induction cs with
  | nil =>
    cases rest with
    | nil => exact Nat.le_refl _
    | cons d rest => simp [isNameCharacter_of_isBreak (h.breaks d rfl)]
  | cons d cs ih =>
    rw [List.cons_append, List.takeWhile_cons]
    split
    · exact Nat.succ_le_succ ih
    · exact Nat.zero_le _

/-- A test of so many characters without breaks, which no word goes on, does not look behind a
break. -/
theorem word_append (h : SameBreak rest rest') {n : Nat} {test : List Char → Bool}
    (htest : ∀ cs, test cs = true → cs.length = n ∧ ∀ c ∈ cs, isBreak c = false) (cs : List Char) :
    (test ((cs ++ rest').take n) && endsWord ((cs ++ rest').drop n)) =
      (test ((cs ++ rest).take n) && endsWord ((cs ++ rest).drop n)) := by
  by_cases hle : n ≤ cs.length
  · rw [List.take_append_of_le_length hle, List.take_append_of_le_length hle,
      List.drop_append_of_le_length hle, List.drop_append_of_le_length hle, h.endsWord_append]
  · have hfalse {rest : List Char} (hrest : ∀ c ∈ rest.head?, isBreak c = true) :
        test ((cs ++ rest).take n) = false := by
      rw [Bool.eq_false_iff]
      intro hword
      obtain ⟨hlength, hbreak⟩ := htest _ hword
      exact hle (le_length_of_take hrest hlength hbreak)
    rw [hfalse h.breaks, hfalse h.symm.breaks, Bool.false_and, Bool.false_and]

theorem startsWithGuid_append (h : SameBreak rest rest') (cs : List Char) :
    startsWithGuid (cs ++ rest') = startsWithGuid (cs ++ rest) := by
  refine h.word_append (fun cs hguid => ⟨Guid.length_of_ofText? hguid, fun c hc => ?_⟩) cs
  obtain ⟨g, hg⟩ := Option.isSome_iff_exists.mp hguid
  obtain ⟨ds, hds, _⟩ := Option.bind_eq_some_iff.mp hg
  rw [Bool.eq_false_iff]
  intro hbreak
  obtain hdigit | rfl := Guid.digit_or_hyphen_of_readGroups? hds c hc
  · rw [digit?_of_isBreak hbreak] at hdigit
    cases hdigit
  · exact absurd hbreak (by decide)

/-- The closing quote is the first one that is not doubled. -/
theorem quotedLength?_append (h : SameBreak rest rest') {n : Nat}
    (hn : quotedLength? (cs ++ rest) = some n) (hle : n ≤ cs.length) :
    quotedLength? (cs ++ rest') = some n := by
  have hquote {rest : List Char} (hrest : ∀ c ∈ rest.head?, isBreak c = true) (cs : List Char) :
      rest ≠ '\'' :: cs := by
    rintro rfl
    exact absurd (hrest '\'' rfl) (by decide)
  induction cs using quotedLength?.induct generalizing n with
  | case1 =>
    obtain rfl := Nat.le_zero.mp hle
    unfold quotedLength? at hn
    split at hn
    · cases hn
    · exact absurd (Option.map_eq_some_iff.mp hn) (by simp)
    · cases hn
    · exact absurd (Option.map_eq_some_iff.mp hn) (by simp)
  | case2 cs ih =>
    simp only [List.cons_append, quotedLength?, Option.map_eq_some_iff] at hn ⊢
    obtain ⟨m, hm, rfl⟩ := hn
    exact ⟨m, ih hm (by simpa using hle), rfl⟩
  | case3 cs hdoubled =>
    have hends {rest : List Char} (hrest : ∀ c ∈ rest.head?, isBreak c = true) (cs' : List Char) :
        cs ++ rest ≠ '\'' :: cs' := by
      cases cs with
      | nil => exact hquote hrest cs'
      | cons d cs =>
        intro heq
        obtain rfl := (List.cons.inj heq).1
        exact hdoubled cs rfl
    rw [List.cons_append, quotedLength?.eq_3 _ (hends h.breaks)] at hn
    rw [List.cons_append, quotedLength?.eq_3 _ (hends h.symm.breaks), hn]
  | case4 d cs hdoubled hclose ih =>
    have hd : d ≠ '\'' := fun heq => hclose heq
    rw [List.cons_append, quotedLength?_cons hd, Option.map_eq_some_iff] at hn ⊢
    obtain ⟨m, hm, rfl⟩ := hn
    exact ⟨m, ih hm (Nat.le_of_succ_le_succ hle), rfl⟩

end SameBreak

end

-- ════════════════════════════════════════════════════════════════════════
-- Tokens
-- ════════════════════════════════════════════════════════════════════════

section

variable {c : Char} {cs rest rest' : List Char} {l : Lexeme}

/-- What a minus starts looks no further than the first break, unless it goes on behind it. -/
theorem SameBreak.ofMinus_append (h : SameBreak rest rest')
    (hmore : (ofMinus (cs ++ rest)).more ≤ cs.length) :
    ofMinus (cs ++ rest') = ofMinus (cs ++ rest) := by
  have hword : ∀ xs : List Char, decide (xs = "INF".toList) = true →
      xs.length = 3 ∧ ∀ c ∈ xs, Lexeme.isBreak c = false := by
    intro xs hxs
    obtain rfl := of_decide_eq_true hxs
    exact ⟨rfl, by decide⟩
  have hfirst (xs : List Char) : "INF".toList.isPrefixOf xs = decide (xs.take 3 = "INF".toList) := by
    rw [Bool.eq_iff_iff, List.isPrefixOf_iff_prefix, List.prefix_iff_eq_take, decide_eq_true_iff]
    exact eq_comm
  have hinf := h.word_append hword cs
  have hdigit := h.startsWithDigit_append cs
  have hhead : (cs ++ rest').head? = (cs ++ rest).head? := by
    rw [List.head?_append, List.head?_append, h.head]
  have hname : nameLength (cs ++ rest') = nameLength (cs ++ rest) := by
    rw [nameLength, nameLength, h.takeWhile_name]
  unfold ofMinus at hmore ⊢
  rw [hfirst] at hmore
  rw [hfirst, hfirst, hinf, hdigit, hhead, h.takeWhile_name, hname]
  by_cases hthree :
      (decide ((cs ++ rest).take 3 = "INF".toList) && endsWord ((cs ++ rest).drop 3)) = true
  · rw [if_pos hthree, if_pos hthree]
  · rw [if_neg hthree] at hmore
    rw [if_neg hthree, if_neg hthree]
    by_cases hstart : startsWithDigit (cs ++ rest) = true
    · rw [if_pos hstart] at hmore
      rw [if_pos hstart, if_pos hstart, numericLength, numericLength,
        Lists.takeWhile_append_congr h.head hmore]
    · rw [if_neg hstart, if_neg hstart]

/-- What a name starts has all of the name. -/
theorem StartsName.nameLength_le (h : StartsName c cs l) : nameLength cs ≤ l.more := by
  cases h with
  | quoted => exact Nat.le_trans (Nat.le_add_right _ _) (Nat.le_add_right _ _)
  | function | literal | identifier => exact Nat.le_refl _

/-- What a name starts looks no further than the first break, unless it goes on behind it. -/
theorem StartsName.congr (hl : StartsName c (cs ++ rest) l) (h : SameBreak rest rest')
    (hmore : l.more ≤ cs.length) : StartsName c (cs ++ rest') l := by
  have hle := Nat.le_trans hl.nameLength_le hmore
  have hlength : nameLength (cs ++ rest') = nameLength (cs ++ rest) := by
    rw [nameLength, nameLength, h.takeWhile_name]
  have hhead : ((cs ++ rest').drop (nameLength (cs ++ rest'))).head? =
      ((cs ++ rest).drop (nameLength (cs ++ rest))).head? := by
    rw [hlength, List.drop_append_of_le_length hle, List.drop_append_of_le_length hle,
      List.head?_append, List.head?_append, h.head]
  have htake : (cs ++ rest').take (nameLength (cs ++ rest')) =
      (cs ++ rest).take (nameLength (cs ++ rest)) := by
    rw [hlength, List.take_append_of_le_length hle, List.take_append_of_le_length hle]
  cases hl with
  | @quoted tail m hrest hm =>
    -- The closing quote stands in front of the break, so the opening one does, too.
    dsimp only at hmore
    rw [List.drop_append_of_le_length hle] at hrest
    cases hbehind : cs.drop (nameLength (cs ++ rest)) with
    | nil =>
      have := congrArg List.length hbehind
      rw [List.length_drop, List.length_nil] at this
      omega
    | cons d behind =>
      have hcount := congrArg List.length hbehind
      rw [List.length_drop, List.length_cons] at hcount
      rw [hbehind, List.cons_append] at hrest
      obtain ⟨rfl, rfl⟩ := List.cons.inj hrest
      have hrest' : (cs ++ rest').drop (nameLength (cs ++ rest')) = '\'' :: (behind ++ rest') := by
        rw [hlength, List.drop_append_of_le_length hle, hbehind, List.cons_append]
      rw [← hlength]
      exact .quoted hrest' (h.quotedLength?_append hm (by omega))
  | function hrest =>
    obtain ⟨tail, htail⟩ := List.head?_eq_some_iff.mp (hhead.trans (by rw [hrest]; rfl))
    rw [← hlength]
    exact .function htail
  | literal hquote hparen hshape =>
    rw [← hhead] at hquote hparen
    rw [← htake] at hshape
    rw [← hlength]
    exact .literal hquote hparen hshape
  | identifier hquote hparen hshape =>
    rw [← hhead] at hquote hparen
    rw [← htake] at hshape
    rw [← hlength]
    exact .identifier hquote hparen hshape

/-- A token looks no further than the first break, unless it goes on behind it. -/
theorem ofText_congr (h : SameBreak rest rest') (hl : ofText c (cs ++ rest) = .ok l)
    (hmore : l.more ≤ cs.length) : ofText c (cs ++ rest') = .ok l := by
  have hguid := h.startsWithGuid_append (c :: cs)
  rw [List.cons_append, List.cons_append] at hguid
  have hdigit := h.startsWithDigit_append cs
  cases ofText_eq_ok.mp hl with
  | mark hmark => exact ofText_of_mem_marks hmark _
  | minus hc =>
    rw [← h.ofMinus_append hmore]
    exact ofText_eq_ok.mpr (.minus hc)
  | quoted hc hm => exact ofText_eq_ok.mpr (.quoted hc (h.quotedLength?_append hm hmore))
  | guid hc hsome => exact ofText_eq_ok.mpr (.guid hc (hguid.trans hsome))
  | number hc hnone hnumber =>
    rw [← hguid] at hnone
    rw [← hdigit] at hnumber
    have hlength : numericLength (cs ++ rest') = numericLength (cs ++ rest) := by
      rw [numericLength, numericLength, Lists.takeWhile_append_congr h.head hmore]
    rw [← hlength]
    exact ofText_eq_ok.mpr (.number hc hnone hnumber)
  | name hc hnone hnumber hopens hname =>
    rw [← hguid] at hnone
    rw [← hdigit] at hnumber
    exact ofText_eq_ok.mpr (.name hc hnone hnumber hopens (hname.congr h hmore))

-- ════════════════════════════════════════════════════════════════════════
-- What starts a token
-- ════════════════════════════════════════════════════════════════════════

/-- A token is a punctuation mark, whatever stands behind it, or what a minus starts, a literal, or
what a name starts. -/
theorem ofText_cases (hl : ofText c cs = .ok l) :
    (isMark l.kind = true ∧ isBreak c = true ∧ ∀ cs', ofText c cs' = .ok l) ∨
      (c = '-' ∧ l = ofMinus cs) ∨ l.kind = .literal ∨
      (opensName c = true ∧ StartsName c cs l) := by
  cases ofText_eq_ok.mp hl with
  | @mark kind hmark =>
    have hmarks : ∀ p ∈ marks, isMark p.2 = true ∧ isBreak p.1 = true := by decide
    obtain ⟨hkind, hbreak⟩ := hmarks (c, kind) hmark
    exact .inl ⟨hkind, hbreak, ofText_of_mem_marks hmark⟩
  | minus hc => exact .inr (.inl ⟨hc, rfl⟩)
  | quoted | guid | number => exact .inr (.inr (.inl rfl))
  | name _ _ _ hopens hname => exact .inr (.inr (.inr ⟨hopens, hname⟩))

/-- A punctuation mark is a break and does not look ahead. -/
theorem ofText_of_isMark (hl : ofText c cs = .ok l) (hkind : isMark l.kind = true) :
    isBreak c = true ∧ ∀ cs', ofText c cs' = .ok l := by
  have hne {kind : TokenKind} (h : l.kind = kind) (hmark : isMark kind = false) : False := by
    rw [h, hmark] at hkind
    cases hkind
  obtain ⟨_, h⟩ | ⟨_, rfl⟩ | hliteral | ⟨_, hname⟩ := ofText_cases hl
  · exact h
  · obtain h | h := ofMinus_cases cs
    · exact (hne h rfl).elim
    · exact (hne (congrArg kind h) rfl).elim
  · exact (hne hliteral rfl).elim
  · cases hname with
    | quoted | function | literal | identifier => exact (hne rfl rfl).elim

/-- A minus that does not belong to a literal stands alone. -/
theorem eq_of_minus (hl : ofText c cs = .ok l) (hkind : l.kind = .minus) :
    c = '-' ∧ l = ⟨.minus, 0⟩ := by
  obtain ⟨hmark, _⟩ | ⟨hc, rfl⟩ | hliteral | ⟨_, hname⟩ := ofText_cases hl
  · rw [hkind] at hmark
    cases hmark
  · obtain h | h := ofMinus_cases cs
    · cases h.symm.trans hkind
    · exact ⟨hc, h⟩
  · cases hliteral.symm.trans hkind
  · cases hname with
    | quoted | function | literal | identifier => cases hkind

/-- A name that is no literal consists of characters of names, and is that of a function exactly if it
stands in front of a parenthesis. -/
theorem name_of_ofText (hl : ofText c cs = .ok l)
    (hkind : l.kind = .identifier ∨ l.kind = .functionName) :
    opensName c = true ∧ (∀ d ∈ cs.take l.more, isNameCharacter d = true) ∧
      (l.kind = .functionName ↔ (cs.drop l.more).head? = some '(') := by
  have hname (cs : List Char) : ∀ d ∈ cs.take (nameLength cs), isNameCharacter d = true := by
    rw [nameLength, ← List.prefix_iff_eq_take.mp (List.takeWhile_prefix isNameCharacter)]
    exact List.all_eq_true.mp List.all_takeWhile
  obtain ⟨hmark, _⟩ | ⟨_, rfl⟩ | hliteral | ⟨hopens, h⟩ := ofText_cases hl
  · obtain h | h := hkind <;> rw [h] at hmark <;> cases hmark
  · obtain h | h := ofMinus_cases cs
    · rw [h] at hkind
      obtain h | h := hkind <;> cases h
    · rw [h] at hkind
      obtain h | h := hkind <;> cases h
  · rw [hliteral] at hkind
    obtain h | h := hkind <;> cases h
  · refine ⟨hopens, ?_⟩
    cases h with
    | quoted | literal => obtain h | h := hkind <;> cases h
    | function hrest => exact ⟨hname cs, iff_of_true rfl (by rw [hrest]; rfl)⟩
    | identifier _ hparen => exact ⟨hname cs, iff_of_false (by simp) hparen⟩

end

end Lexeme

end ODataQuery
