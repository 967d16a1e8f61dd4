import ODataQuery.Proofs.Document.Comparison
import ODataQuery.Proofs.Literal.Kind
import ODataQuery.Proofs.Numeric.Reading
import ODataQuery.Proofs.Token.Numeral

/-!
# Numbers read at a type

A number behind an operand is read as one of the kind of the operand, and a number in front of it by
its text alone. The two readings may be of different kinds, but they compare alike.

A text of digits denotes an integer of any size. A kind of integers keeps what it holds of it: the
kinds of eight bits its remainder, the wider ones the integer itself or nothing. All of them read
the text through 128 bits, so that the kinds of eight bits refuse what does not fit there.

## Main definitions

- `NumberText.FitsByte` — the whole numbers that the kinds of eight bits keep
- `WholeText` — digits with an optional sign, and the integer that they denote
- `Kind.keep?` — what a kind keeps of an integer
- `Kind.narrowest?` — the kind that is chosen for an integer
- `Value.whole?` — a whole number and its kind

## Main statements

- `Value.exactNumber?_of_inferNumber?` — a whole number read by its text alone
- `Value.compare_congr` — whole numbers compare alike, whatever their kinds
- `Value.compare_ofNumberLiteral?` — both readings of a number compare alike
- `WholeText.exists_chars_eq_iff` — the texts that are taken apart into digits only
- `Value.ofNumber?_wholeText` — every text of digits as every kind
-/

namespace ODataQuery

/-- A number with a point, or a whole number that the kind keeps, if its numbers have eight bits. The
readers of the wider kinds refuse the numbers that they cannot keep. -/
def NumberText.FitsByte (t : NumberText) (kind : Kind) : Prop :=
  t.isInteger = true →
    (kind = .byte → 0 ≤ t.wholeValue ∧ t.wholeValue ≤ 255) ∧
      (kind = .sbyte → -128 ≤ t.wholeValue ∧ t.wholeValue ≤ 127)

instance (t : NumberText) (kind : Kind) : Decidable (t.FitsByte kind) :=
  inferInstanceAs (Decidable (_ → _))

/-- The wider kinds keep every number that they read. -/
theorem NumberText.fitsByte (t : NumberText) {kind : Kind} (hbyte : kind ≠ .byte)
    (hsbyte : kind ≠ .sbyte) : t.FitsByte kind := fun _ =>
  ⟨fun h => absurd h hbyte, fun h => absurd h hsbyte⟩

namespace Value

-- ════════════════════════════════════════════════════════════════════════
-- Whole numbers
-- ════════════════════════════════════════════════════════════════════════

/-- In floating point, a whole number is the same whether it is an integer or a decimal. -/
theorem toDouble?_of_exactNumber? {w : Value} {n : Int} (h : w.exactNumber? = some ⟨n, 0⟩) :
    w.toDouble? = some (Double.ofInt n) := by
  obtain ⟨d, rfl, hd⟩ | ⟨m, k, hm, hn, _⟩ := exactNumber?_cases h
  · obtain ⟨hsigned, hscale⟩ := ExactNumber.mk.inj hd
    rw [toDouble?, Decimal.toDouble, if_pos hscale.symm, ← hsigned]
  · cases hn
    cases w <;> cases hm <;> rfl

/-- The numbers without an exact value are those of the floating point kinds. -/
theorem isFloating_of_exactNumber? {v : Value} {j : Kind} (hj : v.kind? = some j)
    (hnumeric : j.isNumeric = true) (h : v.exactNumber? = none) : j.isFloating = true := by
  cases v <;> cases hj <;> cases h <;> first | rfl | cases hnumeric

theorem kind?_of_exactNumber? {w : Value} {x : ExactNumber} (h : w.exactNumber? = some x) :
    ∃ k, w.kind? = some k ∧ k.isNumeric = true ∧ k.isFloating = false := by
  obtain ⟨d, rfl, _⟩ | ⟨_, k, _, _, hk, hinteger⟩ := exactNumber?_cases h
  · exact ⟨.decimal, rfl, rfl, rfl⟩
  · refine ⟨k, hk, isNumeric_of_isInteger hinteger, ?_⟩
    cases k <;> first | rfl | cases hinteger

/-- Numbers of the floating point kinds are compared with others in floating point. -/
theorem compareNumbers_of_isFloating (v w : Value) {j k : Kind} (hj : j.isFloating = true)
    (hk : k.isFloating = false) :
    v.compareNumbers w j k = v.toDouble?.bind fun x => w.toDouble?.bind (compareDoubles x) := by
  have hpromote : j.promote k = .double := by
    cases j <;> cases hj <;> cases k <;> first | rfl | cases hk
  rw [compareNumbers, hpromote]
  rfl

/-- Whole numbers compare alike, whatever their kinds. -/
theorem compare_congr {w w' : Value} {n : Int} (hw : w.exactNumber? = some ⟨n, 0⟩)
    (hw' : w'.exactNumber? = some ⟨n, 0⟩) (v : Value) : v.compare w = v.compare w' := by
  cases hv : v.exactNumber? with
  | some x => rw [compare_of_exactNumber? hv hw, compare_of_exactNumber? hv hw']
  | none =>
    obtain ⟨k, hk, hnumeric, hfloating⟩ := kind?_of_exactNumber? hw
    obtain ⟨k', hk', hnumeric', hfloating'⟩ := kind?_of_exactNumber? hw'
    have hkinds {u : Value} {i : Kind} (hu : u.kind? = some i) (hi : i.isNumeric = true) :
        ∀ k, v.kind? = some k → u.kind? = some k → k.isNumeric = true := by
      rintro _ _ h
      cases hu.symm.trans h
      exact hi
    rw [compare_of_kinds (hkinds hk hnumeric), compare_of_kinds (hkinds hk' hnumeric'), hk, hk']
    cases hj : v.kind? with
    | none => rfl
    | some j =>
      simp only [hnumeric, hnumeric', Bool.and_true]
      split
      · next hnumber =>
        have hjfloating := isFloating_of_exactNumber? hj hnumber hv
        rw [compareNumbers_of_isFloating v w hjfloating hfloating,
          compareNumbers_of_isFloating v w' hjfloating hfloating', toDouble?_of_exactNumber? hw,
          toDouble?_of_exactNumber? hw']
      · rfl

-- ════════════════════════════════════════════════════════════════════════
-- Both readings
-- ════════════════════════════════════════════════════════════════════════

variable {cs : List Char} {t : NumberText} {w w' : Value}

theorem wideInteger?_eq_some {n : Int} (h : wideInteger? cs = some n) :
    ∃ t, NumberText.read? cs = some t ∧ t.isInteger = true ∧ n = t.wholeValue := by
  obtain ⟨t, ht, h⟩ := Option.bind_eq_some_iff.mp h
  dsimp only at h
  split at h
  · next hinteger =>
    split at h
    · cases h
      exact ⟨t, ht, hinteger, rfl⟩
    · cases h
  · cases h

/-- A whole number that is read as one of an exact kind, if that keeps it. -/
theorem exactNumber?_of_ofNumber? {kind : Kind} (ht : NumberText.read? cs = some t)
    (hinteger : t.isInteger = true) (hkind : kind.isFloating = false) (hfits : t.FitsByte kind)
    (h : ofNumber? kind cs = some w) : w.exactNumber? = some ⟨t.wholeValue, 0⟩ := by
  obtain ⟨hbyte, hsbyte⟩ := hfits hinteger
  have hwide {n : Int} (hn : wideInteger? cs = some n) : n = t.wholeValue := by
    obtain ⟨t', ht', _, hn⟩ := wideInteger?_eq_some hn
    cases ht.symm.trans ht'
    exact hn
  have hsome {n : Int} (hn : n = t.wholeValue) :
      some (⟨n, 0⟩ : ExactNumber) = some ⟨t.wholeValue, 0⟩ := by rw [hn]
  cases kind with
  | byte =>
    obtain ⟨n, hn, rfl⟩ := Option.map_eq_some_iff.mp h
    cases hwide hn
    have := hbyte rfl
    refine hsome ?_
    rw [UInt8.toNat_ofNat']
    omega
  | sbyte =>
    obtain ⟨n, hn, rfl⟩ := Option.map_eq_some_iff.mp h
    cases hwide hn
    have := hsbyte rfl
    exact hsome (Int8.toInt_ofInt_of_le (by omega) (by omega))
  | int16 =>
    obtain ⟨n, hn, rfl⟩ := Option.map_eq_some_iff.mp h
    obtain ⟨hn, hlow, hhigh⟩ := signed?_eq_some.mp hn
    cases hwide hn
    exact hsome (Int16.toInt_ofInt_of_le hlow hhigh)
  | int32 =>
    obtain ⟨n, hn, rfl⟩ := Option.map_eq_some_iff.mp h
    obtain ⟨hn, hlow, hhigh⟩ := signed?_eq_some.mp hn
    cases hwide hn
    exact hsome (Int32.toInt_ofInt_of_le hlow hhigh)
  | int64 =>
    obtain ⟨n, hn, rfl⟩ := Option.map_eq_some_iff.mp h
    obtain ⟨hn, hlow, hhigh⟩ := signed?_eq_some.mp hn
    cases hwide hn
    exact hsome (Int64.toInt_ofInt_of_le hlow hhigh)
  | decimal =>
    obtain ⟨d, hd, rfl⟩ := Option.map_eq_some_iff.mp h
    obtain ⟨t', ht', hd⟩ := Option.bind_eq_some_iff.mp hd
    cases ht.symm.trans ht'
    obtain ⟨hfraction, hexponent⟩ := Bool.and_eq_true_iff.mp hinteger
    have hscientific : t.isScientific = false := by
      rw [NumberText.isScientific, Option.isNone_iff_eq_none.mp hexponent]
      rfl
    rw [hscientific] at hd
    obtain ⟨hscale, hsigned⟩ := Decimal.whole_of_ofText? hd (Option.isNone_iff_eq_none.mp hfraction)
    rw [exactNumber?, hscale, hsigned]
  | single | double => cases hkind
  | _ => cases h

/-- A whole number is read by its text alone. -/
theorem exactNumber?_of_inferNumber? (ht : NumberText.read? cs = some t)
    (hinteger : t.isInteger = true) (h : inferNumber? cs = some w) :
    w.exactNumber? = some ⟨t.wholeValue, 0⟩ := by
  rw [inferNumber?_integer ht hinteger] at h
  obtain h | ⟨_, h⟩ := Option.or_eq_some_iff.mp h
  · exact exactNumber?_of_ofNumber? ht hinteger rfl (t.fitsByte (by decide) (by decide)) h
  · obtain h | ⟨_, h⟩ := Option.or_eq_some_iff.mp h
    · exact exactNumber?_of_ofNumber? ht hinteger rfl (t.fitsByte (by decide) (by decide)) h
    · exact exactNumber?_of_ofNumber? ht hinteger rfl (t.fitsByte (by decide) (by decide)) h

/-- The kinds of integers read whole numbers only. -/
theorem exists_of_ofNumber? {kind : Kind} (hkind : kind.isInteger = true)
    (h : ofNumber? kind cs = some w) :
    ∃ t, NumberText.read? cs = some t ∧ t.isInteger = true := by
  have hwide {n : Int} (hn : wideInteger? cs = some n) :
      ∃ t, NumberText.read? cs = some t ∧ t.isInteger = true := by
    obtain ⟨t, ht, hinteger, _⟩ := wideInteger?_eq_some hn
    exact ⟨t, ht, hinteger⟩
  cases kind with
  | byte | sbyte =>
    obtain ⟨n, hn, _⟩ := Option.map_eq_some_iff.mp h
    exact hwide hn
  | int16 | int32 | int64 =>
    obtain ⟨n, hn, _⟩ := Option.map_eq_some_iff.mp h
    exact hwide (signed?_eq_some.mp hn).1
  | _ => cases hkind

/-- A number without exponent compares alike with everything, whether it is read as one of an exact
kind or by its text alone. -/
theorem compare_ofNumberLiteral? {kind : Kind} (hkind : kind.isFloating = false)
    (hplain : ∀ t, NumberText.read? cs = some t → t.exponent = none ∧ t.FitsByte kind)
    (h : ofNumberLiteral? (some (.primitive kind)) cs = some w)
    (h' : inferNumber? cs = some w') (v : Value) : v.compare w = v.compare w' := by
  obtain h | ⟨_, h⟩ := Option.or_eq_some_iff.mp h
  · obtain ⟨_, hwanted, h⟩ := Option.bind_eq_some_iff.mp h
    cases (Option.filter_eq_some_iff.mp hwanted).1
    by_cases hinteger : ∃ t, NumberText.read? cs = some t ∧ t.isInteger = true
    · obtain ⟨t, ht, hinteger⟩ := hinteger
      exact compare_congr (exactNumber?_of_ofNumber? ht hinteger hkind (hplain t ht).2 h)
        (exactNumber?_of_inferNumber? ht hinteger h') v
    · -- A number with a point is a decimal for both.
      have hdecimal : kind = .decimal := by
        have hnumeric := (kind?_of_ofNumber? h).2
        have hnot : kind.isInteger ≠ true := fun hi => hinteger (exists_of_ofNumber? hi h)
        simpa [Kind.isNumeric, hkind, hnot] using hnumeric
      cases hdecimal
      obtain ⟨d, hd, _⟩ := Option.map_eq_some_iff.mp h
      obtain ⟨t, ht, _⟩ := Option.bind_eq_some_iff.mp hd
      have hfraction : t.isInteger = false := by
        simpa using fun hi => hinteger ⟨t, ht, hi⟩
      have hpoint : t.isDecimal = true := by
        have hexponent := (hplain t ht).1
        cases hf : t.fraction with
        | none => simp [NumberText.isInteger, hf, hexponent] at hfraction
        | some ds => simp [NumberText.isDecimal, hf, hexponent]
      simp only [inferNumber?, ht, hfraction, hpoint, Bool.false_eq_true, if_false, if_true] at h'
      cases h.symm.trans h'
      rfl
  · cases h.symm.trans h'
    rfl

end Value

-- ════════════════════════════════════════════════════════════════════════
-- Texts of digits
-- ════════════════════════════════════════════════════════════════════════

instance (ds : List Char) : Decidable (NumberText.AreDigits ds) :=
  inferInstanceAs (Decidable (_ ∧ _))

/-- The text of a whole number: digits, any number of them, perhaps behind a sign. -/
structure WholeText where
  /-- Whether the sign is a minus, if there is one. -/
  sign : Option Bool
  digits : List Char
  areDigits : NumberText.AreDigits digits

namespace WholeText

/-- The characters of the text. -/
def chars (t : WholeText) : List Char :=
  match t.sign with
  | none => t.digits
  | some false => '+' :: t.digits
  | some true => '-' :: t.digits

/-- The integer that the text denotes. -/
def value (t : WholeText) : Int :=
  match t.sign with
  | some true => -(Text.naturalOf t.digits : Int)
  | _ => Text.naturalOf t.digits

/-- The parts of the text. -/
def parts (t : WholeText) : NumberText := ⟨t.sign == some true, t.digits, none, none⟩

variable (t : WholeText)

theorem wholeValue_parts : t.parts.wholeValue = t.value := by
  obtain ⟨sign, digits, _⟩ := t
  cases sign with
  | none => rfl
  | some negative => cases negative <;> rfl

theorem natAbs_value : t.value.natAbs = Text.naturalOf t.digits := by
  unfold value
  split <;> omega

/-- The text is taken apart into its parts. -/
theorem read?_chars : NumberText.read? t.chars = some t.parts := by
  obtain ⟨sign, digits, hdigits⟩ := t
  have hplain (negative : Bool) : NumberText.IsPlain ⟨negative, digits, none, none⟩ :=
    ⟨hdigits, nofun, rfl⟩
  have hunsigned := NumberText.read?_chars (hplain false)
  simp only [NumberText.chars, List.append_nil, Bool.false_eq_true, if_false, List.nil_append]
    at hunsigned
  cases sign with
  | none => exact hunsigned
  | some negative =>
    cases negative with
    | true =>
      have hminus := NumberText.read?_chars (hplain true)
      rwa [NumberText.chars, List.append_nil] at hminus
    | false =>
      -- A plus is taken off, and then the digits are read as they are without it.
      have hsign := NumberText.takeSign_of_areDigits hdigits []
      rw [List.append_nil] at hsign
      rw [NumberText.read?, hsign] at hunsigned
      exact hunsigned

/-- The texts that are taken apart into digits only, without a point or an exponent. -/
theorem exists_chars_eq_iff {cs : List Char} :
    (∃ t : WholeText, t.chars = cs) ↔
      ∃ t, NumberText.read? cs = some t ∧ t.isInteger = true := by
  constructor
  · rintro ⟨t, rfl⟩
    exact ⟨t.parts, t.read?_chars, rfl⟩
  · rintro ⟨⟨negative, whole, fraction, exponent⟩, hread, hinteger⟩
    simp only [NumberText.isInteger, Bool.and_eq_true, Option.isNone_iff_eq_none] at hinteger
    obtain ⟨rfl, rfl⟩ := hinteger
    obtain ⟨hplain, rfl | rfl⟩ := NumberText.chars_of_read? hread rfl
    · cases negative with
      | true => exact ⟨⟨some true, whole, hplain.whole⟩, by simp [chars, NumberText.chars]⟩
      | false => exact ⟨⟨none, whole, hplain.whole⟩, by simp [chars, NumberText.chars]⟩
    · exact ⟨⟨some false, whole, hplain.whole⟩, by simp [chars, NumberText.body]⟩

end WholeText

-- ════════════════════════════════════════════════════════════════════════
-- Kinds
-- ════════════════════════════════════════════════════════════════════════

namespace Kind

/-- What a kind keeps of an integer: the kinds of eight bits its remainder, the others the integer
itself, if they hold it. -/
def keep? (kind : Kind) (n : Int) : Option Int :=
  match kind with
  | .byte => some (n % 256)
  | .sbyte => some (n.bmod 256)
  | .int16 => if FitsBits 16 n then some n else none
  | .int32 => if FitsBits 32 n then some n else none
  | .int64 => if FitsBits 64 n then some n else none
  | .decimal => if n.natAbs < twoTo 96 then some n else none
  | _ => none

/-- The kind for an integer: the first of three that holds it. -/
def narrowest? (n : Int) : Option Kind :=
  [.int32, .int64, .decimal].find? fun kind => (kind.keep? n).isSome

end Kind

namespace Value

/-- A whole number with its kind. -/
def whole? (v : Value) : Option (Kind × Int) :=
  match v.kind?, v.exactNumber? with
  | some kind, some ⟨n, 0⟩ => some (kind, n)
  | _, _ => none

variable (t : WholeText)

-- ════════════════════════════════════════════════════════════════════════
-- Reading
-- ════════════════════════════════════════════════════════════════════════

theorem wideInteger?_wholeText :
    wideInteger? t.chars = if FitsBits 128 t.value then some t.value else none := by
  have hinteger : t.parts.isInteger = true := rfl
  simp only [wideInteger?, t.read?_chars, Option.bind_eq_bind, Option.bind_some, hinteger, if_true,
    t.wholeValue_parts]

/-- The 128 bits do not show in fewer bits. -/
theorem signed?_wholeText {bits : Nat} (hbits : bits ≤ 128) :
    signed? bits t.chars = if FitsBits bits t.value then some t.value else none := by
  rw [signed?, wideInteger?_wholeText]
  by_cases hfits : FitsBits bits t.value
  · rw [if_pos (hfits.mono hbits), if_pos hfits, Option.filter_some, if_pos (decide_eq_true hfits)]
  · rw [if_neg hfits]
    split
    · rw [Option.filter_some, if_neg (by simpa using hfits)]
    · rfl

theorem decimal?_wholeText (hlt : t.value.natAbs < twoTo 96) :
    ∃ d, decimal? t.chars = some d ∧ d.scale = 0 ∧ d.signed = t.value := by
  rw [t.natAbs_value] at hlt
  let d : Decimal :=
    ⟨t.sign == some true && Text.naturalOf t.digits != 0, Text.naturalOf t.digits, 0, hlt,
      Nat.zero_le _⟩
  have hd : Decimal.ofText? t.parts = some d := by
    have hparts : Decimal.ofParts? t.parts.negative (Text.naturalOf t.digits) 0 = some d :=
      Decimal.ofParts?_eq_some.mpr ⟨rfl, rfl, rfl⟩
    have hwhole : Text.naturalOf t.parts.whole < twoTo 96 := hlt
    simp only [Decimal.ofText?, if_pos hwhole]
    exact hparts
  refine ⟨d, ?_, rfl, ?_⟩
  · simp only [decimal?, t.read?_chars, Option.bind_eq_bind, Option.bind_some]
    exact hd
  · rw [(Decimal.whole_of_ofText? hd rfl).2, t.wholeValue_parts]

theorem decimal?_wholeText_eq_none (hle : ¬t.value.natAbs < twoTo 96) :
    decimal? t.chars = none := by
  rw [t.natAbs_value] at hle
  simp only [decimal?, t.read?_chars, Option.bind_eq_bind, Option.bind_some]
  exact if_neg hle

/-- A kind reads what it keeps of the integer, if that fits 128 bits or the kind has more than eight
bits itself. -/
theorem ofNumber?_eq_keep? {kind : Kind} (hkind : kind.isFloating = false)
    (hwide : kind = .byte ∨ kind = .sbyte → FitsBits 128 t.value) :
    (ofNumber? kind t.chars).map whole? = (kind.keep? t.value).map fun n => some (kind, n) := by
  have hsome {m n : Int} (h : m = n) : some (some (kind, m)) = some (some (kind, n)) := by rw [h]
  cases kind with
  | byte =>
    have hmod : (UInt8.ofNat (t.value % 256).toNat).toNat = t.value % 256 := by
      rw [UInt8.toNat_ofNat']
      omega
    simp only [ofNumber?, wideInteger?_wholeText, if_pos (hwide (.inl rfl)), Kind.keep?,
      Option.map_some]
    exact hsome hmod
  | sbyte =>
    have hmod : (Int8.ofInt t.value).toInt = t.value.bmod 256 := Int8.toInt_ofInt
    simp only [ofNumber?, wideInteger?_wholeText, if_pos (hwide (.inr rfl)), Kind.keep?,
      Option.map_some]
    exact hsome hmod
  | int16 =>
    simp only [ofNumber?, signed?_wholeText t (by decide : 16 ≤ 128), Kind.keep?]
    split
    · next hfits =>
      exact hsome (Int16.toInt_ofInt_of_le hfits.1 hfits.2)
    · rfl
  | int32 =>
    simp only [ofNumber?, signed?_wholeText t (by decide : 32 ≤ 128), Kind.keep?]
    split
    · next hfits =>
      exact hsome (Int32.toInt_ofInt_of_le hfits.1 hfits.2)
    · rfl
  | int64 =>
    simp only [ofNumber?, signed?_wholeText t (by decide : 64 ≤ 128), Kind.keep?]
    split
    · next hfits =>
      exact hsome (Int64.toInt_ofInt_of_le hfits.1 hfits.2)
    · rfl
  | decimal =>
    simp only [ofNumber?, Kind.keep?]
    split
    · next hlt =>
      obtain ⟨d, hd, hscale, hsigned⟩ := decimal?_wholeText t hlt
      simp only [hd, Option.map_some, whole?, exactNumber?, kind?, hscale, hsigned]
    · next hle =>
      rw [decimal?_wholeText_eq_none t hle]
      rfl
  | single | double => cases hkind
  | _ => rfl

/-- The kinds of eight bits refuse what 128 bits do not hold. -/
theorem ofNumber?_of_not_fitsBits (h : ¬FitsBits 128 t.value) {kind : Kind}
    (hkind : kind = .byte ∨ kind = .sbyte) : ofNumber? kind t.chars = none := by
  have hwide := wideInteger?_wholeText t
  rw [if_neg h] at hwide
  obtain rfl | rfl := hkind
  · rw [ofNumber?, hwide]
    rfl
  · rw [ofNumber?, hwide]
    rfl

/-- Without a kind, the text is read as the first of three kinds that holds the integer. -/
theorem inferNumber?_eq_narrowest? :
    (inferNumber? t.chars).map whole? =
      (Kind.narrowest? t.value).map fun kind => some (kind, t.value) := by
  rw [inferNumber?_integer t.read?_chars rfl, Option.map_or, Option.map_or,
    ofNumber?_eq_keep? t (rfl : Kind.int32.isFloating = false) nofun,
    ofNumber?_eq_keep? t (rfl : Kind.int64.isFloating = false) nofun,
    ofNumber?_eq_keep? t (rfl : Kind.decimal.isFloating = false) nofun]
  simp only [Kind.narrowest?, Kind.keep?]
  by_cases h32 : FitsBits 32 t.value
  · simp [h32]
  · by_cases h64 : FitsBits 64 t.value
    · simp [h32, h64]
    · by_cases hlt : t.value.natAbs < twoTo 96
      · simp [h32, h64, hlt]
      · simp [h32, h64, hlt]

/-- Every text of digits denotes an integer, and a kind reads from it what it keeps of that integer;
only the kinds of eight bits refuse what 128 bits do not hold. Without a kind, the first of `int32`,
`int64` and `decimal` that holds the integer is chosen. -/
theorem ofNumber?_wholeText (t : WholeText) :
    (∀ kind : Kind, kind.isFloating = false →
      (kind = .byte ∨ kind = .sbyte → FitsBits 128 t.value) →
        (ofNumber? kind t.chars).map whole? =
          (kind.keep? t.value).map fun n => some (kind, n)) ∧
    (¬FitsBits 128 t.value → ofNumber? .byte t.chars = none ∧ ofNumber? .sbyte t.chars = none) ∧
    (inferNumber? t.chars).map whole? =
      (Kind.narrowest? t.value).map fun kind => some (kind, t.value) :=
  ⟨fun _ hkind hwide => ofNumber?_eq_keep? t hkind hwide,
    fun h => ⟨ofNumber?_of_not_fitsBits t h (.inl rfl), ofNumber?_of_not_fitsBits t h (.inr rfl)⟩,
    inferNumber?_eq_narrowest? t⟩

/-- Texts on both sides of a limit. -/
theorem ofNumber?_wholeText_limits :
    let below : WholeText := ⟨some true, "129".toList, by decide⟩
    let above : WholeText :=
      ⟨some false, "0170141183460469231731687303715884105728".toList, by decide⟩
    (ofNumber? .sbyte below.chars).map whole? = some (some (.sbyte, 127)) ∧
      (ofNumber? .int16 above.chars).map whole? = none ∧ ofNumber? .sbyte above.chars = none ∧
      (inferNumber? above.chars).map whole? = none := by
  intro below above
  obtain ⟨hbelow, _, _⟩ := ofNumber?_wholeText below
  obtain ⟨habove, hnone, hinfer⟩ := ofNumber?_wholeText above
  refine ⟨?_, ?_, ?_, ?_⟩
  · exact (hbelow .sbyte rfl fun _ => by decide).trans (by decide)
  · exact (habove .int16 rfl nofun).trans (by decide)
  · exact (hnone (by decide)).2
  · exact hinfer.trans (by decide)

/-- The text of `2 ^ 127` is refused as a number of eight bits, whose lowest eight bits are zero. -/
theorem ofNumber?_byte_two_pow :
    let t : WholeText := ⟨none, "170141183460469231731687303715884105728".toList, by decide⟩
    t.value = 2 ^ 127 ∧ Kind.byte.keep? t.value = some 0 ∧ Kind.sbyte.keep? t.value = some 0 ∧
      ofNumber? .byte t.chars = none ∧ ofNumber? .sbyte t.chars = none := by
  decide +kernel

end Value

end ODataQuery
