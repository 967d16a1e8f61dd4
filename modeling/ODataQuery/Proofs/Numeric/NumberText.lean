import ODataQuery.Numeric.Decimal.Basic
import ODataQuery.Proofs.Lists
import ODataQuery.Proofs.Numeric.Digits

/-!
# Reading numeric texts back

## Main definitions

- `NumberText.chars` — the text whose parts are given
- `NumberText.IsPlain` — the parts of a text without an exponent
- `Decimal.numberText` — the parts of the text of a decimal

## Main statements

- `NumberText.read?_chars` — a plain text is taken apart into its parts
- `Decimal.read?_text` — so is the text of a decimal
-/

namespace ODataQuery

namespace NumberText

/-- The text with these parts, apart from an exponent. -/
def chars (t : NumberText) : List Char :=
  (if t.negative then ['-'] else []) ++ t.whole ++
    match t.fraction with
    | some ds => '.' :: ds
    | none => []

/-- Nonempty digits. -/
def AreDigits (ds : List Char) : Prop := ds ≠ [] ∧ ∀ c ∈ ds, Text.isAsciiDigit c = true

/-- Digits before the point, digits after it if there is one, and no exponent. -/
structure IsPlain (t : NumberText) : Prop where
  whole : AreDigits t.whole
  fraction : ∀ ds ∈ t.fraction, AreDigits ds
  exponent : t.exponent = none

theorem takeDigits?_append {ds : List Char} (h : AreDigits ds) (rest : List Char)
    (hrest : ∀ c ∈ rest.head?, Text.isAsciiDigit c = false) :
    takeDigits? (ds ++ rest) = some (ds, rest) := by
  rw [takeDigits?, Lists.takeWhile_append h.2 hrest, Lists.dropWhile_append h.2 hrest]
  cases ds with
  | nil => exact absurd rfl h.1
  | cons d ds => rfl

theorem areDigits_of_takeDigits? {cs ds rest : List Char} (h : takeDigits? cs = some (ds, rest)) :
    AreDigits ds := by
  unfold takeDigits? at h
  split at h
  · cases h
  · next hne =>
    cases h
    refine ⟨fun hnil => hne hnil, fun c hc => ?_⟩
    exact List.all_eq_true.mp List.all_takeWhile c hc

theorem append_of_takeDigits? {cs ds rest : List Char} (h : takeDigits? cs = some (ds, rest)) :
    cs = ds ++ rest := by
  unfold takeDigits? at h
  split at h
  · cases h
  · cases h
    exact List.takeWhile_append_dropWhile.symm

theorem takeSign_of_areDigits {ds : List Char} (h : AreDigits ds) (rest : List Char) :
    takeSign (ds ++ rest) = (false, ds ++ rest) := by
  cases ds with
  | nil => exact absurd rfl h.1
  | cons d ds =>
    have hd := h.2 d List.mem_cons_self
    have hminus : d ≠ '-' := by
      rintro rfl
      exact absurd hd (by decide)
    have hplus : d ≠ '+' := by
      rintro rfl
      exact absurd hd (by decide)
    rw [List.cons_append, takeSign]
    · intro cs hcs
      exact hminus (List.cons.inj hcs).1
    · intro cs hcs
      exact hplus (List.cons.inj hcs).1

/-- A plain text is taken apart into its parts. -/
theorem read?_chars {t : NumberText} (h : t.IsPlain) : read? t.chars = some t := by
  obtain ⟨negative, whole, fraction, exponent⟩ := t
  obtain ⟨hwhole, hfraction, hexponent⟩ := h
  cases hexponent
  have hsign (rest : List Char) : takeSign ((if negative then ['-'] else []) ++ (whole ++ rest)) =
      (negative, whole ++ rest) := by
    cases negative with
    | true => rfl
    | false => exact takeSign_of_areDigits hwhole rest
  cases fraction with
  | none =>
    have hdigits := takeDigits?_append hwhole [] (by simp)
    simp only [chars, read?, List.append_assoc, hsign, hdigits]
    rfl
  | some ds =>
    have hpoint := takeDigits?_append hwhole ('.' :: ds) (by simp [Text.isAsciiDigit])
    have hdigits := takeDigits?_append (hfraction ds rfl) [] (by simp)
    rw [List.append_nil] at hdigits
    have hfraction : takeFraction? ('.' :: ds) = some (some ds, []) := by
      rw [takeFraction?, hdigits]
      rfl
    simp only [chars, read?, List.append_assoc, hsign, hpoint, hfraction, Option.bind_eq_bind,
      Option.bind_some]
    rfl

end NumberText

namespace Decimal

/-- All digits of the coefficient, with one before the point. -/
def digits (d : Decimal) : List Char := Text.paddedDigits (d.scale + 1) d.coefficient

/-- The number of digits before the point. -/
def wholeLength (d : Decimal) : Nat := d.digits.length - d.scale

/-- The parts of the text of a decimal. -/
def numberText (d : Decimal) : NumberText :=
  ⟨d.negative, d.digits.take d.wholeLength,
    if d.scale = 0 then none else some (d.digits.drop d.wholeLength), none⟩

theorem scale_lt_length_digits (d : Decimal) : d.scale < d.digits.length :=
  Text.le_length_paddedDigits _ _

theorem text_eq (d : Decimal) : d.text = String.ofList d.numberText.chars := by
  simp only [text, NumberText.chars, numberText, digits, wholeLength]
  by_cases hscale : d.scale = 0
  · by_cases hnegative : d.negative <;> simp [hscale, hnegative]
  · by_cases hnegative : d.negative <;> simp [hscale, hnegative]

theorem isPlain_numberText (d : Decimal) : d.numberText.IsPlain := by
  have hlength := d.scale_lt_length_digits
  have hdigits : ∀ c ∈ d.digits, Text.isAsciiDigit c = true :=
    fun _ => Text.isAsciiDigit_of_mem_paddedDigits
  refine ⟨⟨?_, fun c hc => hdigits c (List.mem_of_mem_take hc)⟩, ?_, rfl⟩
  · intro hnil
    have := congrArg List.length hnil
    simp only [numberText, wholeLength, List.length_take, List.length_nil] at this
    omega
  · intro ds hds
    simp only [numberText] at hds
    split at hds
    · cases hds
    · next hscale =>
      cases hds
      refine ⟨fun hnil => ?_, fun c hc => hdigits c (List.mem_of_mem_drop hc)⟩
      have := congrArg List.length hnil
      simp only [wholeLength, List.length_drop, List.length_nil] at this
      omega

/-- The text of a decimal is taken apart into its parts. -/
theorem read?_text (d : Decimal) : NumberText.read? d.text.toList = some d.numberText := by
  rw [text_eq, String.toList_ofList]
  exact NumberText.read?_chars d.isPlain_numberText

theorem length_fractionDigits (d : Decimal) : d.numberText.fractionDigits.length = d.scale := by
  have hlength := d.scale_lt_length_digits
  simp only [NumberText.fractionDigits, numberText]
  split
  · next hscale => rw [hscale]; rfl
  · simp only [Option.getD_some, wholeLength, List.length_drop]
    omega

/-- All digits of the text denote the coefficient. -/
theorem naturalOf_numberText (d : Decimal) :
    Text.naturalOf (d.numberText.whole ++ d.numberText.fractionDigits) = d.coefficient := by
  have hdigits : d.numberText.whole ++ d.numberText.fractionDigits = d.digits := by
    simp only [NumberText.fractionDigits, numberText]
    split
    · next hscale => simp [wholeLength, hscale]
    · exact List.take_append_drop _ _
  rw [hdigits]
  exact Text.naturalOf_paddedDigits _ _

end Decimal

end ODataQuery
