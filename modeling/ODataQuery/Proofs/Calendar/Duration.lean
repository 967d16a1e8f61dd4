import ODataQuery.Proofs.Calendar.DurationText
import ODataQuery.Proofs.Calendar.Reading

/-!
# Lengths of durations

The components of a text add up to the exact length, although they are added in numbers of limited
size: a sum is refused only if the length is out of range. The canonical text of a duration leaves
out components that are zero, and is read back.

## Main definitions

- `DurationText.exactNanoseconds` — the exact length that components write
- `DurationText.ComponentsFit` — each component fits a signed number of 64 bits
- `Duration.parts` — the components of the canonical text

## Main statements

- `Duration.ofComponents?_eq_some` — components are read as the duration of their exact length
- `Duration.ofText?_chars` — a duration is read back from its canonical text
- `Duration.ofText?_exact` — which texts are read, as which durations, and that canonical texts differ
-/

namespace ODataQuery

namespace DurationText

-- ════════════════════════════════════════════════════════════════════════
-- Exact lengths
-- ════════════════════════════════════════════════════════════════════════

/-- The number that the digits of a component write, zero if it is left out. -/
def number (digits : Option (List Char)) : Nat := Text.naturalOf (digits.getD [])

/-- Days, hours, minutes and seconds in seconds. -/
def exactSeconds (t : DurationText) : Nat :=
  number t.days * 86400 + number t.hours * 3600 + number t.minutes * 60 + number t.seconds

/-- The fraction in nanoseconds, cut to whole ones. -/
def exactSubsecond (t : DurationText) : Nat :=
  number t.fraction * 1000000000 / tenTo (t.fraction.getD []).length

/-- The exact length in nanoseconds, with its sign. -/
def exactNanoseconds (t : DurationText) : Int :=
  if t.negative then -(t.exactSeconds * 1000000000 + t.exactSubsecond : Nat)
  else (t.exactSeconds * 1000000000 + t.exactSubsecond : Nat)

/-- Each component fits a signed number of 64 bits. -/
def ComponentsFit (t : DurationText) : Prop :=
  ∀ digits ∈ [t.days, t.hours, t.minutes, t.seconds], FitsBits 64 (number digits)

instance (t : DurationText) : Decidable t.ComponentsFit := inferInstanceAs (Decidable (∀ _ ∈ _, _))

variable {t : DurationText} {digits : Option (List Char)} {n m : Nat}

theorem checked?_eq_some : checked? n = some m ↔ n = m ∧ m < twoTo 63 := by
  unfold checked?
  split
  · next h =>
    rw [Option.some.injEq]
    exact ⟨fun heq => ⟨heq, heq ▸ h⟩, And.left⟩
  · next h => exact ⟨nofun, fun ⟨heq, hm⟩ => absurd (heq ▸ hm) h⟩

theorem componentValue?_eq_some :
    componentValue? digits = some n ↔ number digits = n ∧ n < twoTo 63 := by
  cases digits with
  | none =>
    rw [componentValue?, Option.some.injEq]
    exact ⟨fun heq => ⟨heq, heq ▸ Nat.pow_pos (by decide)⟩, And.left⟩
  | some ds => exact checked?_eq_some

/-- A checked step fails only if the new total does not fit. -/
theorem addComponent?_eq_some {total unit : Nat} (hunit : 0 < unit) :
    addComponent? total unit digits = some n ↔
      total + number digits * unit = n ∧ n < twoTo 63 := by
  simp only [addComponent?, Option.bind_eq_bind, Option.bind_eq_some_iff, componentValue?_eq_some,
    checked?_eq_some]
  constructor
  · rintro ⟨_, ⟨rfl, _⟩, _, ⟨rfl, _⟩, h⟩
    exact h
  · rintro ⟨rfl, hfits⟩
    have hle := Nat.le_mul_of_pos_right (number digits) hunit
    exact ⟨_, ⟨rfl, by omega⟩, _, ⟨rfl, by omega⟩, rfl, hfits⟩

/-- The checked sum of all components fails only if the exact sum does not fit. -/
theorem wholeSeconds?_eq_some : wholeSeconds? t = some n ↔ t.exactSeconds = n ∧ n < twoTo 63 := by
  simp only [wholeSeconds?, Option.bind_eq_bind, Option.bind_eq_some_iff,
    addComponent?_eq_some (Nat.succ_pos _), exactSeconds]
  constructor
  · rintro ⟨_, ⟨rfl, _⟩, _, ⟨rfl, _⟩, _, ⟨rfl, _⟩, heq, hfits⟩
    exact ⟨by omega, hfits⟩
  · rintro ⟨rfl, hfits⟩
    refine ⟨_, ⟨rfl, ?_⟩, _, ⟨rfl, ?_⟩, _, ⟨rfl, ?_⟩, ?_, hfits⟩
    all_goals omega

/-- The digits of a fraction are cut to nanoseconds. -/
theorem nanosecondsOf_fraction (h : t.IsWritten) :
    Text.nanosecondsOf (t.fraction.getD []) = t.exactSubsecond := by
  have hdigits : ∀ c ∈ t.fraction.getD [], Text.isAsciiDigit c = true := by
    cases hfraction : t.fraction with
    | none => exact nofun
    | some ds => exact (h.fraction ds hfraction).1.2
  exact Text.nanosecondsOf_eq_div hdigits

/-- A length within the bound has components that fit. -/
theorem componentsFit_of_le (h : t.exactSeconds * 1000000000 ≤ Duration.bound) :
    t.ComponentsFit := by
  have hbound : Duration.bound = 9223372036854775807000000 := rfl
  have htwo : (twoTo (64 - 1) : Int) = 9223372036854775808 := rfl
  simp only [ComponentsFit, FitsBits, htwo, List.forall_mem_cons, List.not_mem_nil, false_imp_iff,
    forall_true_iff, and_true]
  unfold exactSeconds at h
  omega

end DurationText

namespace Duration

open DurationText

theorem ofNanoseconds?_eq_some {n : Int} {d : Duration} :
    ofNanoseconds? n = some d ↔ d.nanoseconds = n := by
  unfold ofNanoseconds?
  constructor
  · intro h
    obtain ⟨_, h⟩ := Option.dite_none_right_eq_some.mp h
    cases h
    rfl
  · rintro rfl
    exact dif_pos d.nanoseconds_le

/-- Components are read as the duration of their exact length, if it has one. -/
theorem ofComponents?_eq_some {t : DurationText} {d : Duration} (h : t.IsWritten) :
    ofComponents? t = some d ↔ d.nanoseconds = t.exactNanoseconds := by
  simp only [ofComponents?, Option.bind_eq_bind, Option.bind_eq_some_iff, wholeSeconds?_eq_some,
    ofNanoseconds?_eq_some, nanosecondsOf_fraction h]
  constructor
  · rintro ⟨_, ⟨rfl, _⟩, heq⟩
    exact heq
  · intro heq
    refine ⟨t.exactSeconds, ⟨rfl, ?_⟩, heq⟩
    have hle := d.nanoseconds_le
    have hbound : bound = 9223372036854775807000000 := rfl
    have htwo : twoTo 63 = 9223372036854775808 := rfl
    rw [heq, exactNanoseconds] at hle
    split at hle <;> omega

-- ════════════════════════════════════════════════════════════════════════
-- Canonical texts
-- ════════════════════════════════════════════════════════════════════════

/-- The digits of a component in a canonical text. -/
def shown (n : Nat) : Option (List Char) := if n = 0 then none else some (Text.digitsOf n)

/-- The components of the canonical text of a duration. Seconds are written unless they and their
fraction are zero and something else is written. -/
def parts (d : Duration) : DurationText :=
  let n := d.nanoseconds.natAbs
  let total := n / 1000000000
  let subsecond := n % 1000000000
  { negative := d.nanoseconds < 0
    days := shown (total / 86400)
    hours := shown (total % 86400 / 3600)
    minutes := shown (total % 3600 / 60)
    seconds :=
      if total % 60 = 0 ∧ subsecond = 0 ∧ n ≠ 0 then none else some (Text.digitsOf (total % 60))
    fraction := if subsecond = 0 then none else some (Text.fractionDigits subsecond) }

theorem number_shown (n : Nat) : number (shown n) = n := by
  unfold shown
  split
  · next hzero =>
    rw [hzero]
    rfl
  · exact Text.naturalOf_digitsOf n

theorem areDigits_digitsOf (n : Nat) : NumberText.AreDigits (Text.digitsOf n) :=
  ⟨Text.digitsOf_ne_nil n, fun _ => Text.isAsciiDigit_of_mem_digitsOf⟩

theorem areDigits_of_mem_shown {n : Nat} : ∀ ds ∈ shown n, NumberText.AreDigits ds := by
  unfold shown
  split
  · exact nofun
  · intro ds hds
    cases hds
    exact areDigits_digitsOf n

theorem componentText_shown (n : Nat) (letter : Char) :
    componentText (shown n) letter = componentChars n letter := by
  unfold shown componentChars
  split
  · rfl
  · rfl

theorem componentChars_eq_nil {n : Nat} {letter : Char} : componentChars n letter = [] ↔ n = 0 := by
  simp [componentChars]

theorem secondsText_shown (seconds subsecond : Nat) :
    secondsText (some (Text.digitsOf seconds))
        (if subsecond = 0 then none else some (Text.fractionDigits subsecond)) =
      secondsChars seconds subsecond := by
  unfold secondsChars
  split
  · simp [secondsText]
  · simp [secondsText]

/-- What is written behind the letter `T`. -/
theorem clockText_parts {d : Duration} {n : Nat} (hn : d.nanoseconds.natAbs = n) :
    d.parts.clockText = componentChars (n / 1000000000 % 86400 / 3600) 'H' ++
      (componentChars (n / 1000000000 % 3600 / 60) 'M' ++
        if n / 1000000000 % 60 = 0 ∧ n % 1000000000 = 0 ∧ n ≠ 0 then []
        else secondsChars (n / 1000000000 % 60) (n % 1000000000)) := by
  simp only [clockText, parts, hn, componentText_shown]
  congr 2
  split
  · rfl
  · exact secondsText_shown _ _

/-- Nothing is written there if the duration is one of whole days. -/
theorem clockText_parts_eq_nil {d : Duration} {n : Nat} (hn : d.nanoseconds.natAbs = n) :
    d.parts.clockText = [] ↔
      n / 1000000000 % 86400 = 0 ∧ n % 1000000000 = 0 ∧ n / 1000000000 / 86400 ≠ 0 := by
  have hseconds (seconds subsecond : Nat) : secondsChars seconds subsecond ≠ [] := by
    simp [secondsChars]
  rw [clockText_parts hn, List.append_eq_nil_iff, List.append_eq_nil_iff, componentChars_eq_nil,
    componentChars_eq_nil, ite_eq_left_iff, imp_iff_not (hseconds _ _), not_not]
  omega

/-- The components of a canonical text can be written. -/
theorem isWritten_parts (d : Duration) : d.parts.IsWritten := by
  refine ⟨areDigits_of_mem_shown, areDigits_of_mem_shown, areDigits_of_mem_shown, ?_, ?_, ?_⟩
  · intro ds hds
    simp only [parts] at hds
    split at hds
    · cases hds
    · cases hds
      exact areDigits_digitsOf _
  · intro fs hfs
    simp only [parts] at hfs ⊢
    split at hfs
    · cases hfs
    · next hne =>
      cases hfs
      have hlt : d.nanoseconds.natAbs % 1000000000 < 1000000000 := Nat.mod_lt _ (by decide)
      obtain ⟨hpos, _, _⟩ := Text.nanosecondsOf_fractionDigits hlt hne
      refine ⟨⟨fun hnil => ?_, fun _ => Text.isAsciiDigit_of_mem_fractionDigits⟩, ?_⟩
      · rw [hnil] at hpos
        cases hpos
      · rw [if_neg fun h => hne h.2.1]
        rfl
  · by_cases hclock : d.parts.clockText = []
    · obtain ⟨_, _, hdays⟩ := (clockText_parts_eq_nil rfl).mp hclock
      refine .inl ?_
      rw [parts, shown, if_neg hdays]
      rfl
    · exact .inr hclock

/-- Its components are those of the length. -/
theorem exactNanoseconds_parts (d : Duration) : d.parts.exactNanoseconds = d.nanoseconds := by
  have hseconds : number d.parts.seconds = d.nanoseconds.natAbs / 1000000000 % 60 := by
    simp only [parts]
    split
    · next h =>
      rw [h.1]
      rfl
    · exact Text.naturalOf_digitsOf _
  have hsubsecond : d.parts.exactSubsecond = d.nanoseconds.natAbs % 1000000000 := by
    rw [← nanosecondsOf_fraction d.isWritten_parts]
    simp only [parts]
    split
    · next hzero =>
      rw [hzero]
      rfl
    · next hne =>
      exact (Text.nanosecondsOf_fractionDigits (Nat.mod_lt _ (by decide)) hne).2.2
  have htotal : d.parts.exactSeconds = d.nanoseconds.natAbs / 1000000000 := by
    rw [exactSeconds, hseconds]
    simp only [parts, number_shown]
    omega
  rw [exactNanoseconds, htotal, hsubsecond]
  simp only [parts, decide_eq_true_eq]
  split <;> omega

/-- A canonical text is written from its components. -/
theorem chars_parts (d : Duration) : d.parts.chars = d.chars := by
  obtain ⟨n, hn⟩ : ∃ n, d.nanoseconds.natAbs = n := ⟨_, rfl⟩
  have hbody : 'P' :: (componentText d.parts.days 'D' ++
      if d.parts.clockText = [] then [] else 'T' :: d.parts.clockText) = magnitudeChars n := by
    have hdays : componentText d.parts.days 'D' = componentChars (n / 1000000000 / 86400) 'D' := by
      simp only [parts, hn, componentText_shown]
    by_cases hclock : d.parts.clockText = []
    · have hwhole := (clockText_parts_eq_nil hn).mp hclock
      simp only [magnitudeChars, hdays, if_pos hclock, if_pos hwhole]
    · have hwhole := mt (clockText_parts_eq_nil hn).mpr hclock
      -- The seconds are left out under the same condition.
      have hseconds : (n / 1000000000 % 60 = 0 ∧ n % 1000000000 = 0 ∧ n ≠ 0) ↔
          ¬(n / 1000000000 % 60 ≠ 0 ∨ n % 1000000000 ≠ 0 ∨
            n / 1000000000 % 86400 / 3600 = 0 ∧ n / 1000000000 % 3600 / 60 = 0) := by omega
      rw [if_neg hclock, clockText_parts hn]
      simp only [magnitudeChars, hdays, if_neg hwhole, hseconds, ite_not, List.append_assoc]
  rw [DurationText.chars, hbody, chars, hn]
  simp only [parts, decide_eq_true_eq]
  split
  · rfl
  · rfl

/-- A duration is read back. -/
theorem ofText?_chars (d : Duration) : ofText? d.chars = some d := by
  rw [← chars_parts, ofText?, read?_chars d.isWritten_parts]
  exact (ofComponents?_eq_some d.isWritten_parts).mpr d.exactNanoseconds_parts.symm

theorem ofText?_text (d : Duration) : ofText? d.text.toList = some d := by
  rw [text, String.toList_ofList]
  exact ofText?_chars d

/-- Different durations have different texts. -/
theorem text_injective : Function.Injective text := by
  intro a b h
  exact Option.some.inj ((ofText?_text a).symm.trans (h ▸ ofText?_text b))

/-- A written duration is read exactly if its length is within the bound, and then as its exact
length. -/
theorem ofText?_written {t : DurationText} (h : t.IsWritten) :
    ((ofText? t.chars).isSome = true ↔
        t.ComponentsFit ∧ t.exactNanoseconds.natAbs ≤ bound) ∧
      ∀ d, ofText? t.chars = some d → d.nanoseconds = t.exactNanoseconds := by
  have hread (d : Duration) : ofText? t.chars = some d ↔ d.nanoseconds = t.exactNanoseconds := by
    rw [ofText?, read?_chars h]
    exact ofComponents?_eq_some h
  refine ⟨⟨fun hsome => ?_, fun ⟨_, hle⟩ => ?_⟩, fun d => (hread d).mp⟩
  · obtain ⟨d, hd⟩ := Option.isSome_iff_exists.mp hsome
    have hle := d.nanoseconds_le
    rw [(hread d).mp hd] at hle
    refine ⟨componentsFit_of_le ?_, hle⟩
    rw [exactNanoseconds] at hle
    split at hle <;> omega
  · exact Option.isSome_iff_exists.mpr ⟨⟨t.exactNanoseconds, hle⟩, (hread _).mpr rfl⟩

/-- A text of the grammar is read exactly if every component fits 64 bits and the exact length is at
most `2 ^ 63 - 1` milliseconds in either direction, and then as that length: no sum on the way
overflows without need. No other text is read. Every duration is read back from its text, so that
different durations have different texts. -/
theorem ofText?_exact :
    (∀ t : DurationText, t.IsWritten →
      ((ofText? t.chars).isSome = true ↔
          t.ComponentsFit ∧ t.exactNanoseconds.natAbs ≤ bound) ∧
        ∀ d, ofText? t.chars = some d → d.nanoseconds = t.exactNanoseconds) ∧
      (∀ cs d, ofText? cs = some d → ∃ t : DurationText, t.IsWritten ∧ t.chars = cs) ∧
      (∀ d : Duration, ofText? d.text.toList = some d) ∧ Function.Injective text := by
  refine ⟨fun t => ofText?_written, fun cs d h => ?_, ofText?_text, text_injective⟩
  obtain ⟨t, ht, _⟩ := Option.bind_eq_some_iff.mp h
  exact ⟨t, read?_eq_some.mp ht⟩

/-- The longest duration in the past, with a fraction that is cut, is still read. -/
theorem ofText?_exact_longest :
    ∃ d, ofText? "-P106751991167DT7H12M55.8070000009S".toList = some d ∧
      d.nanoseconds = -bound := by
  let t : DurationText := ⟨true, some "106751991167".toList, some "7".toList, some "12".toList,
    some "55".toList, some "8070000009".toList⟩
  have hdigits (ds : List Char) (h : ds ≠ [] ∧ ds.all Text.isAsciiDigit = true) :
      ∀ ds' ∈ some ds, NumberText.AreDigits ds' := by
    intro ds' hds'
    cases hds'
    exact ⟨h.1, List.all_eq_true.mp h.2⟩
  have ht : t.IsWritten := ⟨hdigits _ (by decide), hdigits _ (by decide), hdigits _ (by decide),
    hdigits _ (by decide), fun fs hfs => ⟨hdigits _ (by decide) fs hfs, rfl⟩, .inl rfl⟩
  have hfits : t.ComponentsFit ∧ t.exactNanoseconds.natAbs ≤ bound := by decide +kernel
  obtain ⟨hiff, hexact⟩ := ofText?_exact.1 t ht
  obtain ⟨d, hd⟩ := Option.isSome_iff_exists.mp (hiff.mpr hfits)
  have hlength : t.exactNanoseconds = -bound := by decide +kernel
  exact ⟨d, hd, (hexact d hd).trans hlength⟩

end Duration

end ODataQuery
