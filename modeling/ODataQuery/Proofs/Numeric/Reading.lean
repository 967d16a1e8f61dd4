import Mathlib.Algebra.Group.Int.Defs
import ODataQuery.Literal.Number
import ODataQuery.Proofs.Numeric.NumberText

/-!
# Reading numbers back

Whole numbers and decimals are read back from the texts that are written for them.

## Main definitions

- `NumberText.ofInt` — the parts of the text of an integer
- `Decimal.IsReadable` — the decimals that a text denotes
- `Decimal.reread` — the decimal that is read from the text of a decimal

## Main statements

- `Value.fitsBits_of_toInt?` — integers of all kinds have at most 64 bits
- `Value.wideInteger?_text` — an integer is read back if 128 bits hold it
- `Decimal.ofText?_numberText` — a decimal is read back
- `Value.ofNumber?_text` — a number is read back as its own kind
- `Value.inferNumber?_text` — a number whose kind was inferred is read back
-/

namespace ODataQuery

namespace NumberText

-- ════════════════════════════════════════════════════════════════════════
-- Parts of a text
-- ════════════════════════════════════════════════════════════════════════

/-- The parts of a text that is taken apart are digits. -/
theorem areDigits_of_read? {cs : List Char} {t : NumberText} (h : read? cs = some t) :
    AreDigits t.whole ∧ ∀ ds ∈ t.fraction, AreDigits ds := by
  simp only [read?, Option.bind_eq_bind, Option.bind_eq_some_iff] at h
  obtain ⟨⟨whole, rest⟩, hwhole, ⟨fraction, rest'⟩, hfraction, exponent, _, h⟩ := h
  cases h
  refine ⟨areDigits_of_takeDigits? hwhole, fun ds hds => ?_⟩
  cases hds
  unfold takeFraction? at hfraction
  split at hfraction
  · obtain ⟨⟨ds', rest''⟩, hdigits, h⟩ := Option.map_eq_some_iff.mp hfraction
    cases h
    exact areDigits_of_takeDigits? hdigits
  · cases hfraction

/-- The parts of the text of an integer. -/
def ofInt (n : Int) : NumberText := ⟨n < 0, Text.digitsOf n.natAbs, none, none⟩

theorem integerText_eq (n : Int) : Text.integerText n = String.ofList (ofInt n).chars := by
  by_cases hn : n < 0
  · simp [Text.integerText, chars, ofInt, hn]
  · simp [Text.integerText, chars, ofInt, hn]

theorem isPlain_ofInt (n : Int) : (ofInt n).IsPlain :=
  ⟨⟨Text.digitsOf_ne_nil _, fun _ => Text.isAsciiDigit_of_mem_digitsOf⟩, nofun, rfl⟩

/-- The text of an integer is taken apart into its parts. -/
theorem read?_integerText (n : Int) : read? (Text.integerText n).toList = some (ofInt n) := by
  rw [integerText_eq, String.toList_ofList]
  exact read?_chars (isPlain_ofInt n)

theorem wholeValue_ofInt (n : Int) : (ofInt n).wholeValue = n := by
  simp only [wholeValue, ofInt, Text.naturalOf_digitsOf, decide_eq_true_eq]
  split <;> omega

end NumberText

-- ════════════════════════════════════════════════════════════════════════
-- Decimals
-- ════════════════════════════════════════════════════════════════════════

namespace Decimal

/-- Zero is written without a sign. Reading gives no other decimals. -/
def IsReadable (d : Decimal) : Prop := d.negative = true → d.coefficient ≠ 0

theorem eq_of_parts {a b : Decimal} (hnegative : a.negative = b.negative)
    (hcoefficient : a.coefficient = b.coefficient) (hscale : a.scale = b.scale) : a = b := by
  cases a
  cases b
  cases hnegative
  cases hcoefficient
  cases hscale
  rfl

/-- A decimal as it is read from its text: zero loses its sign. -/
def reread (d : Decimal) : Decimal := { d with negative := d.negative && d.coefficient != 0 }

theorem reread_of_isReadable {d : Decimal} (h : d.IsReadable) : d.reread = d := by
  refine eq_of_parts ?_ rfl rfl
  show (d.negative && d.coefficient != 0) = d.negative
  cases hnegative : d.negative with
  | false => rfl
  | true => simpa using h hnegative

/-- A decimal and the one that is read from its text are the same number. -/
theorem signed_reread (d : Decimal) : d.reread.signed = d.signed := by
  unfold signed reread
  by_cases hzero : d.coefficient = 0 <;> simp [hzero]

theorem ofParts?_eq_some {negative : Bool} {coefficient scale : Nat} {d : Decimal} :
    ofParts? negative coefficient scale = some d ↔
      d.negative = (negative && coefficient != 0) ∧ d.coefficient = coefficient ∧
        d.scale = scale := by
  unfold ofParts? ofSignedParts?
  constructor
  · intro h
    split at h
    · cases h
      exact ⟨rfl, rfl, rfl⟩
    · cases h
  · rintro ⟨hnegative, rfl, rfl⟩
    rw [dif_pos ⟨d.coefficient_lt, d.scale_le⟩]
    exact congrArg some (eq_of_parts hnegative.symm rfl rfl)

theorem isReadable_of_ofParts? {negative : Bool} {coefficient scale : Nat} {d : Decimal}
    (h : ofParts? negative coefficient scale = some d) : d.IsReadable := by
  obtain ⟨hnegative, hcoefficient, _⟩ := ofParts?_eq_some.mp h
  intro hd
  rw [hnegative] at hd
  rw [hcoefficient]
  simpa using (Bool.and_eq_true_iff.mp hd).2

theorem trimZeros_ne_zero {coefficient : Nat} (h : coefficient ≠ 0) (scale : Nat) :
    (trimZeros coefficient scale).1 ≠ 0 := by
  induction scale generalizing coefficient with
  | zero => exact h
  | succ scale ih =>
    unfold trimZeros
    split
    · exact ih (by omega)
    · exact h

theorem isReadable_normalize (d : Decimal) : d.normalize.IsReadable := by
  unfold normalize
  split
  · exact nofun
  · next hne => exact fun _ => trimZeros_ne_zero hne _

theorem isReadable_of_ofText? {t : NumberText} {d : Decimal} (h : ofText? t = some d) :
    d.IsReadable := by
  simp only [ofText?] at h
  split at h
  · obtain ⟨_, _, hparts⟩ := Option.bind_eq_some_iff.mp h
    exact isReadable_of_ofParts? hparts
  · cases h

theorem isReadable_of_ofScientific? {t : NumberText} {d : Decimal}
    (h : ofScientific? t = some d) : d.IsReadable := by
  obtain ⟨d', _, h⟩ := Option.bind_eq_some_iff.mp h
  obtain ⟨⟨negative, digits⟩, _, h⟩ := Option.bind_eq_some_iff.mp h
  dsimp only at h
  split at h
  · cases h
  · split at h
    · exact isReadable_of_ofParts? h
    · split at h
      · exact isReadable_of_ofParts? h
      · split at h
        · cases h
        · obtain ⟨_, _, h⟩ := Option.bind_eq_some_iff.mp h
          obtain ⟨product, _, hproduct⟩ := Option.bind_eq_some_iff.mp h
          cases hproduct
          exact isReadable_normalize product

/-- Fraction digits are all appended while there is room for them. -/
theorem appendFraction_of_lt {coefficient scale : Nat} {ds : List Char}
    (hdigits : ∀ c ∈ ds, Text.isAsciiDigit c = true) (hscale : scale + ds.length ≤ maxScale)
    (hroom : coefficient * tenTo ds.length + Text.naturalOf ds < twoTo 96) :
    appendFraction coefficient scale ds =
      some (coefficient * tenTo ds.length + Text.naturalOf ds, scale + ds.length) := by
  induction ds generalizing coefficient scale with
  | nil => simp [appendFraction, Text.naturalOf, tenTo]
  | cons c cs ih =>
    have hc := Text.toNat_of_isAsciiDigit (hdigits c List.mem_cons_self)
    have hdigit : Text.naturalOf [c] = c.toNat - 48 := by
      rw [Text.naturalOf_cons]
      exact Nat.one_mul _
    -- The digit joins the coefficient, and the digits behind it stay the same.
    have hmove : coefficient * tenTo (c :: cs).length + Text.naturalOf (c :: cs) =
        (coefficient * 10 + (c.toNat - 48)) * tenTo cs.length + Text.naturalOf cs := by
      rw [Text.naturalOf_cons, List.length_cons, tenTo_succ, Nat.add_mul, Nat.mul_assoc,
        Nat.mul_comm 10, Nat.mul_comm (c.toNat - 48), Nat.add_assoc]
    rw [hmove] at hroom
    have hnext : coefficient * 10 + (c.toNat - 48) < twoTo 96 := by
      have := Nat.le_mul_of_pos_right (coefficient * 10 + (c.toNat - 48)) (tenTo_pos cs.length)
      omega
    rw [List.length_cons] at hscale
    have hstep : (decide (scale < maxScale) &&
        decide (coefficient * 10 + (c.toNat - 48) < twoTo 96)) = true := by
      rw [Bool.and_eq_true, decide_eq_true_eq, decide_eq_true_eq]
      exact ⟨by omega, hnext⟩
    have hscale' : scale + 1 + cs.length ≤ maxScale := by omega
    have hrest := ih (fun d hd => hdigits d (List.mem_cons_of_mem _ hd)) hscale' hroom
    rw [hmove]
    simp only [appendFraction, hdigit, hstep, if_true, hrest, List.length_cons]
    rw [Nat.add_right_comm, Nat.add_assoc]

theorem isAsciiDigit_fractionDigits (d : Decimal) :
    ∀ c ∈ d.numberText.fractionDigits, Text.isAsciiDigit c = true := by
  intro c hc
  cases hfraction : d.numberText.fraction with
  | none => simp [NumberText.fractionDigits, hfraction] at hc
  | some ds =>
    rw [NumberText.fractionDigits, hfraction] at hc
    exact (d.isPlain_numberText.fraction ds hfraction).2 c hc

/-- A decimal is read from the parts of its text, up to the sign of zero. -/
theorem ofText?_numberText_eq_reread (d : Decimal) : ofText? d.numberText = some d.reread := by
  have hsum := d.naturalOf_numberText
  rw [Text.naturalOf_append, Nat.mul_comm] at hsum
  have hroom := d.coefficient_lt
  rw [← hsum] at hroom
  have hscale : 0 + d.numberText.fractionDigits.length ≤ maxScale := by
    rw [length_fractionDigits, Nat.zero_add]
    exact d.scale_le
  have happend := appendFraction_of_lt d.isAsciiDigit_fractionDigits hscale hroom
  have hwhole : Text.naturalOf d.numberText.whole < twoTo 96 := by
    have := Nat.le_mul_of_pos_right (Text.naturalOf d.numberText.whole)
      (tenTo_pos d.numberText.fractionDigits.length)
    omega
  have hparts : ofParts? d.negative d.coefficient d.scale = some d.reread :=
    ofParts?_eq_some.mpr ⟨rfl, rfl, rfl⟩
  rw [hsum, length_fractionDigits, Nat.zero_add] at happend
  simp only [ofText?, if_pos hwhole, happend]
  exact hparts

/-- A decimal is read back from the parts of its text. -/
theorem ofText?_numberText {d : Decimal} (h : d.IsReadable) : ofText? d.numberText = some d := by
  rw [ofText?_numberText_eq_reread, reread_of_isReadable h]

/-- A fraction keeps a digit behind the point, unless the coefficient is so large that there is no
room for one. -/
theorem scale_pos_or_large {coefficient scale c s : Nat} {ds : List Char}
    (hdigits : ∀ c ∈ ds, Text.isAsciiDigit c = true) (hne : ds ≠ [] ∨ 0 < scale)
    (h : appendFraction coefficient scale ds = some (c, s)) : 0 < s ∨ twoTo 64 ≤ c := by
  have hroom : twoTo 96 = 79228162514264337593543950336 := rfl
  have hlarge : twoTo 64 = 18446744073709551616 := rfl
  have hmax : maxScale = 28 := rfl
  induction ds generalizing coefficient scale with
  | nil =>
    cases h
    exact .inl (hne.resolve_left fun hnil => hnil rfl)
  | cons d ds ih =>
    have hd := Text.toNat_of_isAsciiDigit (hdigits d List.mem_cons_self)
    have hdigit : Text.naturalOf [d] = d.toNat - 48 := by
      rw [Text.naturalOf_cons]
      exact Nat.one_mul _
    simp only [appendFraction, hdigit] at h
    split at h
    · exact ih (fun c hc => hdigits c (List.mem_cons_of_mem _ hc)) (.inr (Nat.succ_pos scale)) h
    · next hfull =>
      simp only [Bool.and_eq_true, decide_eq_true_eq] at hfull
      unfold roundBy at h
      split at h
      · cases h
        omega
      · split at h
        · cases h
          omega
        · split at h
          · cases h
          · cases h
            omega

theorem exists_of_ofText? {t : NumberText} {d : Decimal} (h : ofText? t = some d) :
    ∃ c s, appendFraction (Text.naturalOf t.whole) 0 t.fractionDigits = some (c, s) ∧
      ofParts? t.negative c s = some d := by
  simp only [ofText?] at h
  split at h
  · obtain ⟨⟨c, s⟩, happend, hparts⟩ := Option.bind_eq_some_iff.mp h
    exact ⟨c, s, happend, hparts⟩
  · cases h

/-- A decimal without point is the whole number of its text. -/
theorem whole_of_ofText? {t : NumberText} {d : Decimal} (h : ofText? t = some d)
    (hfraction : t.fraction = none) : d.scale = 0 ∧ d.signed = t.wholeValue := by
  obtain ⟨c, s, happend, hparts⟩ := exists_of_ofText? h
  obtain ⟨hnegative, hcoefficient, hscale⟩ := ofParts?_eq_some.mp hparts
  rw [NumberText.fractionDigits, hfraction] at happend
  cases happend
  refine ⟨hscale, ?_⟩
  rw [signed, NumberText.wholeValue, hnegative, hcoefficient]
  cases t.negative with
  | false => rfl
  | true => by_cases hzero : Text.naturalOf t.whole = 0 <;> simp [hzero]

end Decimal

-- ════════════════════════════════════════════════════════════════════════
-- Numbers of a kind
-- ════════════════════════════════════════════════════════════════════════

theorem twoTo_le {m n : Nat} (h : m ≤ n) : twoTo m ≤ twoTo n := Nat.pow_le_pow_right (by decide) h

/-- More bits hold more integers. -/
theorem FitsBits.mono {m n : Nat} {i : Int} (hmn : m ≤ n) (h : FitsBits m i) : FitsBits n i := by
  have hle := twoTo_le (Nat.sub_le_sub_right hmn 1)
  obtain ⟨hlow, hhigh⟩ := h
  constructor <;> omega

theorem fitsBits_of_pow {bits : Nat} {n : Int} (hlow : -2 ^ bits ≤ n) (hhigh : n < 2 ^ bits) :
    FitsBits (bits + 1) n := by
  have hpow : (twoTo bits : Int) = 2 ^ bits := Int.natCast_pow 2 bits
  rw [FitsBits, Nat.add_sub_cancel, hpow]
  exact ⟨hlow, hhigh⟩

theorem fitsBits_64 {n : Int} :
    FitsBits 64 n ↔ -9223372036854775808 ≤ n ∧ n < 9223372036854775808 := Iff.rfl

theorem fitsBits_toInt (i : Int64) : FitsBits 64 i.toInt := fitsBits_of_pow i.le_toInt i.toInt_lt

namespace Value

/-- All integers have at most 64 bits. -/
theorem fitsBits_of_toInt? {v : Value} {n : Int} (h : v.toInt? = some n) : FitsBits 64 n := by
  cases v with
  | byte k =>
    cases h
    have := k.toNat_lt
    have hfits : FitsBits 9 (k.toNat : Int) := fitsBits_of_pow (by omega) (by omega)
    exact hfits.mono (by decide)
  | sbyte k =>
    cases h
    exact (fitsBits_of_pow k.le_toInt k.toInt_lt).mono (by decide)
  | int16 k =>
    cases h
    exact (fitsBits_of_pow k.le_toInt k.toInt_lt).mono (by decide)
  | int32 k =>
    cases h
    exact (fitsBits_of_pow k.le_toInt k.toInt_lt).mono (by decide)
  | int64 k =>
    cases h
    exact fitsBits_toInt k
  | _ => cases h

/-- A whole number is read back if 128 bits hold it. -/
theorem wideInteger?_of_read? {cs : List Char} {t : NumberText} (ht : NumberText.read? cs = some t)
    (hinteger : t.isInteger = true) (hfits : FitsBits 128 t.wholeValue) :
    wideInteger? cs = some t.wholeValue := by
  simp only [wideInteger?, ht, Option.bind_eq_bind, Option.bind_some, if_pos hinteger, if_pos hfits]

theorem wideInteger?_text {n : Int} (h : FitsBits 128 n) :
    wideInteger? (Text.integerText n).toList = some n := by
  have hread := wideInteger?_of_read? (NumberText.read?_integerText n) rfl
    (by rwa [NumberText.wholeValue_ofInt])
  rwa [NumberText.wholeValue_ofInt] at hread

theorem signed?_text {bits : Nat} {n : Int} (hbits : bits ≤ 128) (h : FitsBits bits n) :
    signed? bits (Text.integerText n).toList = some n := by
  rw [signed?, wideInteger?_text (h.mono hbits)]
  simp [h]

theorem decimal?_text_eq_reread (d : Decimal) : decimal? d.text.toList = some d.reread := by
  have hscientific : d.numberText.isScientific = false := rfl
  simp only [decimal?, d.read?_text, Option.bind_eq_bind, Option.bind_some, hscientific]
  exact d.ofText?_numberText_eq_reread

theorem decimal?_text {d : Decimal} (h : d.IsReadable) : decimal? d.text.toList = some d := by
  rw [decimal?_text_eq_reread, Decimal.reread_of_isReadable h]

theorem isReadable_of_decimal? {cs : List Char} {d : Decimal} (h : decimal? cs = some d) :
    d.IsReadable := by
  obtain ⟨t, _, h⟩ := Option.bind_eq_some_iff.mp h
  split at h
  · exact Decimal.isReadable_of_ofScientific? h
  · exact Decimal.isReadable_of_ofText? h

/-- A whole number of any width is read back as its own kind. -/
theorem ofNumber?_integerText {v : Value} {kind : Kind} {n : Int} (hkind : v.kind? = some kind)
    (hn : v.toInt? = some n) : ofNumber? kind (Text.integerText n).toList = some v := by
  cases v with
  | byte x =>
    have hfits := fitsBits_of_toInt? hn
    cases hkind
    cases hn
    have hx := x.toNat_lt
    have hmod : ((x.toNat : Int) % 256).toNat = x.toNat := by omega
    simp only [ofNumber?, wideInteger?_text (hfits.mono (by decide)), Option.map_some, hmod,
      UInt8.ofNat_toNat]
  | sbyte x =>
    have hfits := fitsBits_of_toInt? hn
    cases hkind
    cases hn
    simp only [ofNumber?, wideInteger?_text (hfits.mono (by decide)), Option.map_some,
      Int8.ofInt_toInt]
  | int16 x =>
    cases hkind
    cases hn
    have hfits := fitsBits_of_pow x.le_toInt x.toInt_lt
    simp only [ofNumber?, signed?_text (by decide) hfits, Option.map_some, Int16.ofInt_toInt]
  | int32 x =>
    cases hkind
    cases hn
    have hfits := fitsBits_of_pow x.le_toInt x.toInt_lt
    simp only [ofNumber?, signed?_text (by decide) hfits, Option.map_some, Int32.ofInt_toInt]
  | int64 x =>
    have hfits := fitsBits_of_toInt? hn
    cases hkind
    cases hn
    simp only [ofNumber?, signed?_text (by decide) hfits, Option.map_some, Int64.ofInt_toInt]
  | _ => cases hn

/-- A number that is neither of the floating kinds is read back as its own kind. -/
theorem ofNumber?_text {kind : Kind} {cs : List Char} {v : Value}
    (h : ofNumber? kind cs = some v) (hkind : kind.isFloating = false) :
    ofNumber? kind v.text.toList = some v := by
  cases kind with
  | byte | sbyte | int16 | int32 | int64 =>
    obtain ⟨n, _, rfl⟩ := Option.map_eq_some_iff.mp h
    exact ofNumber?_integerText rfl rfl
  | decimal =>
    obtain ⟨d, hd, rfl⟩ := Option.map_eq_some_iff.mp h
    simp only [ofNumber?, text, decimal?_text (isReadable_of_decimal? hd), Option.map_some]
  | single | double => cases hkind
  | _ => cases h

-- ════════════════════════════════════════════════════════════════════════
-- Numbers whose kind their text suggests
-- ════════════════════════════════════════════════════════════════════════

theorem inferNumber?_integer {cs : List Char} {t : NumberText}
    (ht : NumberText.read? cs = some t) (hinteger : t.isInteger = true) :
    inferNumber? cs =
      (ofNumber? .int32 cs).or ((ofNumber? .int64 cs).or (ofNumber? .decimal cs)) := by
  simp only [inferNumber?, ht, if_pos hinteger]

theorem ofNumber?_int32_eq_none {cs : List Char} {n : Int} (hn : wideInteger? cs = some n)
    (h : ¬FitsBits 32 n) : ofNumber? .int32 cs = none := by
  simp [ofNumber?, signed?, hn, h]

theorem ofNumber?_int64_eq_none {cs : List Char} {n : Int} (hn : wideInteger? cs = some n)
    (h : ¬FitsBits 64 n) : ofNumber? .int64 cs = none := by
  simp [ofNumber?, signed?, hn, h]

theorem wholeValue_numberText {d : Decimal} (hscale : d.scale = 0) :
    d.numberText.wholeValue = d.signed := by
  have hfraction : d.numberText.fractionDigits = [] :=
    List.eq_nil_of_length_eq_zero (d.length_fractionDigits.trans hscale)
  have hwhole := d.naturalOf_numberText
  rw [hfraction, List.append_nil] at hwhole
  rw [NumberText.wholeValue, hwhole]
  rfl

theorem fitsBits_signed (d : Decimal) : FitsBits 128 d.signed := by
  have hlt := d.coefficient_lt
  have hle : twoTo 96 ≤ twoTo (128 - 1) := twoTo_le (by decide)
  unfold Decimal.signed FitsBits
  split
  · constructor <;> omega
  · constructor <;> omega

/-- A decimal is inferred from its text if it has a digit behind the point, or is too large for the
integer kinds. -/
theorem inferNumber?_decimalText {d : Decimal} (h : d.IsReadable)
    (hlarge : d.scale = 0 → ¬FitsBits 64 d.signed) :
    inferNumber? d.text.toList = some (decimal d) := by
  have hdecimal : ofNumber? .decimal d.text.toList = some (decimal d) :=
    congrArg (Option.map decimal) (decimal?_text h)
  by_cases hscale : d.scale = 0
  · have hinteger : d.numberText.isInteger = true := by
      simp [NumberText.isInteger, Decimal.numberText, hscale]
    have hwide : wideInteger? d.text.toList = some d.signed := by
      rw [← wholeValue_numberText hscale]
      refine wideInteger?_of_read? d.read?_text hinteger ?_
      rw [wholeValue_numberText hscale]
      exact fitsBits_signed d
    have hlarge := hlarge hscale
    rw [inferNumber?_integer d.read?_text hinteger, ofNumber?_int64_eq_none hwide hlarge,
      ofNumber?_int32_eq_none hwide fun h32 => hlarge (h32.mono (by decide)), hdecimal]
    rfl
  · have hinteger : d.numberText.isInteger = false := by
      simp [NumberText.isInteger, Decimal.numberText, hscale]
    have hpoint : d.numberText.isDecimal = true := by
      simp [NumberText.isDecimal, Decimal.numberText, hscale]
    simp only [inferNumber?, d.read?_text, hinteger, hpoint, if_true, hdecimal]
    rfl

/-- The whole number that was read as a signed integer. -/
theorem signed?_eq_some {bits : Nat} {cs : List Char} {n : Int} :
    signed? bits cs = some n ↔ wideInteger? cs = some n ∧ FitsBits bits n := by
  simp [signed?, Option.filter_eq_some_iff]

/-- A decimal that was inferred has a digit behind the point, or is too large for the integer
kinds. -/
theorem large_of_inferNumber? {cs : List Char} {t : NumberText} {d : Decimal}
    (ht : NumberText.read? cs = some t) (hexponent : t.exponent = none)
    (hd : Decimal.ofText? t = some d)
    (hint : t.isInteger = true → ∀ n, wideInteger? cs = some n → ¬FitsBits 64 n)
    (hscale : d.scale = 0) : ¬FitsBits 64 d.signed := by
  have hdigits := (NumberText.areDigits_of_read? ht).2
  cases hfraction : t.fraction with
  | none =>
    have hinteger : t.isInteger = true := by simp [NumberText.isInteger, hfraction, hexponent]
    have hfits := fitsBits_signed d
    rw [(Decimal.whole_of_ofText? hd hfraction).2] at hfits ⊢
    exact hint hinteger _ (wideInteger?_of_read? ht hinteger hfits)
  | some ds =>
    obtain ⟨c, s, happend, hparts⟩ := Decimal.exists_of_ofText? hd
    obtain ⟨_, hcoefficient, hs⟩ := Decimal.ofParts?_eq_some.mp hparts
    have hds := hdigits ds hfraction
    rw [NumberText.fractionDigits, hfraction] at happend
    obtain hpos | hlarge := Decimal.scale_pos_or_large hds.2 (.inl hds.1) happend
    · omega
    · have h64 : twoTo 64 = 18446744073709551616 := rfl
      have h63 : twoTo 63 = 9223372036854775808 := rfl
      have hsigned : d.signed = d.coefficient ∨ d.signed = -(d.coefficient : Int) := by
        unfold Decimal.signed
        split
        · exact .inr rfl
        · exact .inl rfl
      rintro ⟨hlow, hhigh⟩
      simp only [Nat.reduceSub] at hlow hhigh
      omega

/-- A number of 64 bits that does not fit into 32 is read back. -/
theorem inferNumber?_text_int64 {cs : List Char} {v : Value} (h64 : ofNumber? .int64 cs = some v)
    (h32 : ofNumber? .int32 cs = none) : inferNumber? v.text.toList = some v := by
  have hagain := ofNumber?_text h64 rfl
  obtain ⟨n, hn, rfl⟩ := Option.map_eq_some_iff.mp h64
  obtain ⟨hwide, hfits⟩ := signed?_eq_some.mp hn
  have hlarge : ¬FitsBits 32 n := by
    intro hsmall
    have : signed? 32 cs = some n := signed?_eq_some.mpr ⟨hwide, hsmall⟩
    simp [ofNumber?, this] at h32
  have hback : (Int64.ofInt n).toInt = n := Int64.toInt_ofInt_of_le hfits.1 hfits.2
  have hwide := wideInteger?_text (hfits.mono (by decide : 64 ≤ 128))
  rw [text] at hagain ⊢
  rw [inferNumber?_integer (NumberText.read?_integerText _) rfl, hagain, hback,
    ofNumber?_int32_eq_none hwide hlarge]
  rfl

/-- A decimal that is not a whole number of at most 64 bits is read back. -/
theorem inferNumber?_text_decimal {cs : List Char} {t : NumberText} {v : Value}
    (h : ofNumber? .decimal cs = some v) (ht : NumberText.read? cs = some t)
    (hexponent : t.exponent = none) (hlarge : t.isInteger = true → ofNumber? .int64 cs = none) :
    inferNumber? v.text.toList = some v := by
  obtain ⟨d, hd, rfl⟩ := Option.map_eq_some_iff.mp h
  refine inferNumber?_decimalText (isReadable_of_decimal? hd) ?_
  refine large_of_inferNumber? ht hexponent ?_ fun hinteger n hn hfits => ?_
  · simpa [decimal?, ht, NumberText.isScientific, hexponent] using hd
  · have : signed? 64 cs = some n := signed?_eq_some.mpr ⟨hn, hfits⟩
    simpa [ofNumber?, this] using hlarge hinteger

/-- A number whose kind was inferred, if it is not of a floating kind, is read back. -/
theorem inferNumber?_text {cs : List Char} {v : Value} (h : inferNumber? cs = some v)
    (hkind : ∀ k ∈ v.kind?, k.isFloating = false) : inferNumber? v.text.toList = some v := by
  have hdouble : ofNumber? .double cs ≠ some v := by
    intro hv
    obtain ⟨x, _, rfl⟩ := Option.map_eq_some_iff.mp hv
    cases hkind .double rfl
  unfold inferNumber? at h
  split at h
  · next t ht =>
    split at h
    · next hinteger =>
      have hexponent : t.exponent = none := by
        simp only [NumberText.isInteger, Bool.and_eq_true, Option.isNone_iff_eq_none] at hinteger
        exact hinteger.2
      obtain h32 | ⟨h32, h⟩ := Option.or_eq_some_iff.mp h
      · have hagain := ofNumber?_text h32 rfl
        obtain ⟨n, _, rfl⟩ := Option.map_eq_some_iff.mp h32
        rw [text] at hagain ⊢
        rw [inferNumber?_integer (NumberText.read?_integerText _) rfl, hagain]
        rfl
      obtain h64 | ⟨h64, hdecimal⟩ := Option.or_eq_some_iff.mp h
      · exact inferNumber?_text_int64 h64 h32
      · exact inferNumber?_text_decimal hdecimal ht hexponent fun _ => h64
    · next hinteger =>
      split at h
      · next hpoint =>
        have hexponent : t.exponent = none := by
          simp only [NumberText.isDecimal, Bool.and_eq_true, Option.isNone_iff_eq_none] at hpoint
          exact hpoint.2
        exact inferNumber?_text_decimal h ht hexponent fun hinteger' => absurd hinteger' hinteger
      · exact absurd h hdouble
  · exact absurd h hdouble

end Value

end ODataQuery
