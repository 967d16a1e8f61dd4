import ODataQuery.Proofs.Token.Fitting

/-!
# Numbers without exponents

The literals that are numbers without an exponent are digits with an optional sign and an optional
point, or names of numbers that are not finite. All of them are scanned as one literal.

## Main definitions

- `Shape.IsNumeral` — the texts of numbers without an exponent

## Main statements

- `NumberText.chars_of_read?` — the characters of a number
- `Spelling.fits_numeral` — a number is scanned as one literal
-/

namespace ODataQuery

namespace NumberText

variable {cs : List Char} {t : NumberText}

theorem append_of_takeFraction? {fraction : Option (List Char)} {rest : List Char}
    (h : takeFraction? cs = some (fraction, rest)) :
    cs = fraction.elim [] (List.cons '.') ++ rest := by
  unfold takeFraction? at h
  split at h
  · obtain ⟨⟨ds, rest'⟩, hds, h⟩ := Option.map_eq_some_iff.mp h
    cases h
    exact congrArg (List.cons '.') (append_of_takeDigits? hds)
  · cases h
    rfl

/-- A number without exponent ends with its last digit. -/
theorem eq_nil_of_finalExponent? (h : finalExponent? cs = some none) : cs = [] := by
  cases cs with
  | nil => rfl
  | cons c cs =>
    rw [finalExponent?] at h
    dsimp only at h
    split at h
    · split at h <;> cases h
    · cases h

/-- A number without exponent consists of a sign, digits, and a point with more digits. -/
theorem chars_of_read? (h : read? cs = some t) (hexponent : t.exponent = none) :
    t.IsPlain ∧ (cs = t.chars ∨ cs = '+' :: t.body) := by
  have hdigits := areDigits_of_read? h
  refine ⟨⟨hdigits.1, hdigits.2, hexponent⟩, ?_⟩
  simp only [read?, Option.bind_eq_bind, Option.bind_eq_some_iff] at h
  obtain ⟨⟨whole, rest⟩, hwhole, ⟨fraction, rest'⟩, hfraction, exponent, hend, h⟩ := h
  cases h
  cases hexponent
  obtain rfl := eq_nil_of_finalExponent? hend
  have hbody : (takeSign cs).2 = body ⟨(takeSign cs).1, whole, fraction, none⟩ := by
    have hpoint : rest = fraction.elim [] (List.cons '.') ++ [] := append_of_takeFraction? hfraction
    rw [append_of_takeDigits? hwhole, hpoint, List.append_nil, body]
    cases fraction <;> rfl
  rw [chars_eq, ← hbody]
  unfold takeSign
  split
  · exact .inl rfl
  · exact .inr rfl
  · exact .inl rfl

end NumberText

namespace Shape

/-- The text of a number without an exponent. -/
def IsNumeral (cs : List Char) : Prop :=
  ofText? cs ∈ [some integer, some decimal, some nonFinite]

instance (cs : List Char) : Decidable (IsNumeral cs) :=
  inferInstanceAs (Decidable (_ ∈ [some integer, some decimal, some nonFinite]))

theorem exists_of_ofPlain? {cs : List Char}
    (h : ofPlain? cs ∈ [some integer, some decimal, some nonFinite]) :
    ∃ t, NumberText.read? cs = some t ∧ t.exponent = none := by
  unfold ofPlain? at h
  split at h
  · exact absurd h (by decide)
  · split at h
    · exact absurd h (by decide)
    · split at h
      · exact absurd h (by decide)
      · split at h
        · exact absurd h (by decide)
        · split at h
          · next t ht =>
            refine ⟨t, ht, ?_⟩
            cases hexponent : t.exponent with
            | none => rfl
            | some e => simp [NumberText.isInteger, NumberText.isDecimal, hexponent] at h
          · exact absurd h (by decide)

/-- A number without an exponent is made of digits, or is the name of one that is not finite. -/
theorem IsNumeral.exists_or_mem {cs : List Char} (h : IsNumeral cs) :
    (∃ t, NumberText.read? cs = some t ∧ t.exponent = none) ∨
      cs ∈ ["INF".toList, "-INF".toList, "NaN".toList] := by
  by_cases hword : cs ∈ words
  · have hall : ∀ word ∈ words, IsNumeral word →
        word ∈ ["INF".toList, "-INF".toList, "NaN".toList] := by decide
    exact .inr (hall cs hword h)
  · refine .inl ?_
    have hwords (word : List Char) : ofWord? word ∉ [some integer, some decimal, some nonFinite] := by
      unfold ofWord?
      split
      · decide
      · split
        · decide
        · split <;> decide
    rw [IsNumeral, ofText?_of_not_mem_words hword] at h
    split at h
    · exact absurd h (by decide)
    · split at h
      · exact absurd h (by decide)
      · cases hquoted : Quoted.prefixed? cs with
        | some p =>
          rw [hquoted] at h
          exact absurd h (hwords p.word)
        | none =>
          rw [hquoted] at h
          exact exists_of_ofPlain? h

theorem IsNumeral.exponent {cs : List Char} {t : NumberText} (h : IsNumeral cs)
    (ht : NumberText.read? cs = some t) : t.exponent = none := by
  obtain ⟨t', ht', hexponent⟩ | hname := h.exists_or_mem
  · cases ht.symm.trans ht'
    exact hexponent
  · have hall : ∀ word ∈ ["INF".toList, "-INF".toList, "NaN".toList],
        NumberText.read? word = none := by decide
    cases ht.symm.trans (hall cs hname)

end Shape

namespace Spelling

open Lexeme

variable {space : Bool} {rest : List Char}

theorem fits_numberText {text : String} {t : NumberText} (ht : NumberText.read? text.toList = some t)
    (hexponent : t.exponent = none) (hrest : Ends rest) :
    (⟨.literal, text, space⟩ : Spelling).Fits rest := by
  obtain ⟨hplain, hchars | hchars⟩ := NumberText.chars_of_read? ht hexponent
  · exact fits_number hplain hchars hrest
  · have hbody := NumberText.isPlain_body hplain
    refine ⟨by simp, '+', t.body, hchars, by decide, ?_⟩
    have hguid : startsWithGuid ('+' :: (t.body ++ rest)) = false :=
      startsWithGuid_eq_false (Guid.not_opens_of_length_lt [] (by decide) rfl)
    have hdigit : startsWithDigit (t.body ++ rest) = true := by
      obtain ⟨c, cs, hcons, hc⟩ := hbody.exists_cons
      rw [hcons]
      exact hc
    have hlength := IsPlain.numericLength_append hbody.numeric hrest
    simp [Lexeme.ofText, hguid, hdigit, hlength]

theorem endsWord_of_ends (hrest : Ends rest) : endsWord rest = true := by
  have hends : ∀ c ∈ [' ', ')', ','], isWordCharacter c = false := by decide
  cases rest with
  | nil => rfl
  | cons c rest => simp [endsWord, hends c (hrest c rfl)]

/-- A number without an exponent is scanned as one literal. -/
theorem fits_numeral {text : String} (h : Shape.IsNumeral text.toList) (hrest : Ends rest) :
    (⟨.literal, text, space⟩ : Spelling).Fits rest := by
  obtain ⟨t, ht, hexponent⟩ | hname := h.exists_or_mem
  · exact fits_numberText ht hexponent hrest
  · simp only [List.mem_cons, List.not_mem_nil, or_false, String.toList_inj] at hname
    obtain rfl | rfl | rfl := hname
    · exact fits_wordLiteral (by decide) (by decide) hrest
    · refine ⟨by simp, '-', "INF".toList, by simp, by decide, ?_⟩
      have hminus : ofMinus ("INF".toList ++ rest) = ⟨.literal, 3⟩ := by
        have hword : endsWord (("INF".toList ++ rest).drop 3) = true := endsWord_of_ends hrest
        rw [ofMinus, hword]
        rfl
      show Except.ok (ofMinus ("INF".toList ++ rest)) = _
      rw [hminus]
      rfl
    · exact fits_wordLiteral (by decide) (by decide) hrest

end Spelling

end ODataQuery
