import ODataQuery.Calendar.Instant
import ODataQuery.Proofs.Calendar.Date
import ODataQuery.Proofs.Calendar.TimeOfDay

/-!
# Reading calendar texts back

Dates, times and instants are read back from the texts that are written for them.

## Main statements

- `Date.ofText?_chars` — a date with a four-digit year
- `TimeOfDay.ofText?_chars` — a time of day outside leap seconds
- `Instant.ofText?_chars` — an instant whose local date has a four-digit year
-/

namespace ODataQuery

-- ════════════════════════════════════════════════════════════════════════
-- Digits of fixed width
-- ════════════════════════════════════════════════════════════════════════

namespace Text

theorem ne_of_isAsciiDigit {c d : Char} (hc : isAsciiDigit c = true) (hd : isAsciiDigit d = false) :
    c ≠ d := by
  rintro rfl
  rw [hc] at hd
  cases hd

theorem naturalOf_pair (a b : Char) :
    naturalOf [a, b] = 10 * (a.toNat - 48) + (b.toNat - 48) := by
  rw [naturalOf_cons, naturalOf_cons]
  show 10 * (a.toNat - 48) + (1 * (b.toNat - 48) + 0) = _
  omega

theorem exists_pair {cs : List Char} (h : cs.length = 2) : ∃ a b, cs = [a, b] := by
  rcases cs with _ | ⟨a, _ | ⟨b, _ | _⟩⟩
  · cases h
  · cases h
  · exact ⟨a, b, rfl⟩
  · cases h

/-- A number below one hundred is read back from its two digits. -/
theorem exists_twoDigits {n : Nat} (h : n < 100) :
    ∃ a b, twoDigits n = [a, b] ∧ isAsciiDigit a = true ∧ isAsciiDigit b = true ∧
      twoDigits? a b = some n := by
  have hlength : (twoDigits n).length = 2 := length_paddedDigits (by decide) h
  have hdigits : ∀ c ∈ twoDigits n, isAsciiDigit c = true := fun _ => isAsciiDigit_of_mem_paddedDigits
  have hvalue : naturalOf (twoDigits n) = n := naturalOf_paddedDigits 2 n
  obtain ⟨a, b, hab⟩ := exists_pair hlength
  rw [hab] at hdigits hvalue
  have ha := hdigits a List.mem_cons_self
  have hb := hdigits b (List.mem_cons_of_mem _ List.mem_cons_self)
  refine ⟨a, b, hab, ha, hb, ?_⟩
  rw [twoDigits?, ha, hb, hvalue]
  rfl

/-- A number below ten thousand is read back from its four digits, two by two. -/
theorem exists_fourDigits {n : Nat} (h : n < 10000) :
    ∃ a b c d, paddedDigits 4 n = [a, b, c, d] ∧
      (∀ x ∈ [a, b, c, d], isAsciiDigit x = true) ∧
      twoDigits? a b = some (n / 100) ∧ twoDigits? c d = some (n % 100) := by
  have hlength : (paddedDigits 4 n).length = 4 := length_paddedDigits (by decide) h
  have hdigits : ∀ c ∈ paddedDigits 4 n, isAsciiDigit c = true :=
    fun _ => isAsciiDigit_of_mem_paddedDigits
  have hvalue := naturalOf_paddedDigits 4 n
  have htake : ((paddedDigits 4 n).take 2).length = 2 := by
    rw [List.length_take, hlength]
    rfl
  have hdrop : ((paddedDigits 4 n).drop 2).length = 2 := by rw [List.length_drop, hlength]
  obtain ⟨a, b, hab⟩ := exists_pair htake
  obtain ⟨c, d, hcd⟩ := exists_pair hdrop
  have hn : paddedDigits 4 n = [a, b] ++ [c, d] := by
    rw [← hab, ← hcd, List.take_append_drop]
  rw [hn] at hdigits hvalue
  have ha := toNat_of_isAsciiDigit (hdigits a (by simp))
  have hb := toNat_of_isAsciiDigit (hdigits b (by simp))
  have hc := toNat_of_isAsciiDigit (hdigits c (by simp))
  have hd := toNat_of_isAsciiDigit (hdigits d (by simp))
  have hsplit : tenTo 2 * naturalOf [a, b] + naturalOf [c, d] = n :=
    (naturalOf_append [a, b] [c, d]).symm.trans hvalue
  rw [naturalOf_pair, naturalOf_pair, show tenTo 2 = 100 from rfl] at hsplit
  refine ⟨a, b, c, d, hn, hdigits, ?_, ?_⟩
  · rw [twoDigits?, hdigits a (by simp), hdigits b (by simp), naturalOf_pair]
    simp only [Bool.and_self, if_true, Option.some.injEq]
    omega
  · rw [twoDigits?, hdigits c (by simp), hdigits d (by simp), naturalOf_pair]
    simp only [Bool.and_self, if_true, Option.some.injEq]
    omega

theorem naturalOf_replicate_zero (n : Nat) : naturalOf (List.replicate n '0') = 0 := by
  induction n with
  | zero => rfl
  | succ n ih =>
    rw [List.replicate_succ, naturalOf_cons, ih]
    rfl

/-- A fraction of at most nine digits as nanoseconds. -/
theorem nanosecondsOf_eq {ds : List Char} (h : ds.length ≤ 9) :
    nanosecondsOf ds = tenTo (9 - ds.length) * naturalOf ds := by
  have htake : (ds ++ List.replicate 9 '0').take 9 = ds ++ List.replicate (9 - ds.length) '0' := by
    rw [List.take_append, List.take_of_length_le h, List.take_replicate]
    congr 2
    omega
  rw [nanosecondsOf, htake, naturalOf_append, naturalOf_replicate_zero, List.length_replicate]
  rfl

/-- A fraction of any length is cut to whole nanoseconds. -/
theorem nanosecondsOf_eq_div {ds : List Char} (h : ∀ c ∈ ds, isAsciiDigit c = true) :
    nanosecondsOf ds = naturalOf ds * tenTo 9 / tenTo ds.length := by
  by_cases hlength : ds.length ≤ 9
  · have hnine : tenTo 9 = tenTo (9 - ds.length) * tenTo ds.length := by
      rw [← tenTo_add, Nat.sub_add_cancel hlength]
    rw [nanosecondsOf_eq hlength, hnine, ← Nat.mul_assoc, Nat.mul_div_cancel _ (tenTo_pos _),
      Nat.mul_comm]
  · -- The digits behind the ninth are less than one nanosecond.
    have hnine : (ds.take 9).length = 9 := List.length_take_of_le (Nat.le_of_not_le hlength)
    have hrest : naturalOf (ds.drop 9) < tenTo (ds.drop 9).length :=
      naturalOf_lt fun c hc => h c (List.mem_of_mem_drop hc)
    have hsplit : naturalOf ds = tenTo (ds.drop 9).length * naturalOf (ds.take 9) +
        naturalOf (ds.drop 9) := by
      rw [← naturalOf_append, List.take_append_drop]
    have hten : tenTo ds.length = tenTo (ds.drop 9).length * tenTo 9 := by
      rw [← tenTo_add, List.length_drop, Nat.sub_add_cancel (Nat.le_of_not_le hlength)]
    have htake : (ds ++ List.replicate 9 '0').take 9 = ds.take 9 :=
      List.take_append_of_le_length (Nat.le_of_not_le hlength)
    rw [nanosecondsOf, htake, hten, Nat.mul_div_mul_right _ _ (tenTo_pos 9), hsplit,
      Nat.mul_add_div (tenTo_pos _), Nat.div_eq_of_lt hrest, Nat.add_zero]

theorem withoutFinalZeros_append (ds : List Char) :
    ∃ n, ds = withoutFinalZeros ds ++ List.replicate n '0' := by
  have hzeros : ∀ c ∈ ds.reverse.takeWhile (· == '0'), c = '0' := by
    intro c hc
    simpa using List.all_eq_true.mp List.all_takeWhile c hc
  refine ⟨(ds.reverse.takeWhile (· == '0')).length, ?_⟩
  have hsplit := congrArg List.reverse (List.takeWhile_append_dropWhile (p := (· == '0')) (l := ds.reverse))
  rw [List.reverse_append, List.reverse_reverse, List.eq_replicate_of_mem hzeros,
    List.reverse_replicate] at hsplit
  exact hsplit.symm

theorem isAsciiDigit_of_mem_fractionDigits {n : Nat} {c : Char} (h : c ∈ fractionDigits n) :
    isAsciiDigit c = true := by
  rw [fractionDigits, List.mem_reverse] at h
  have hmem := (List.dropWhile_suffix _).subset h
  rw [List.mem_reverse] at hmem
  exact isAsciiDigit_of_mem_paddedDigits hmem

/-- Zeros at the end of a fraction do not count. -/
theorem nanosecondsOf_append_zeros (ds : List Char) (n : Nat) :
    nanosecondsOf (ds ++ List.replicate n '0') = nanosecondsOf ds := by
  rw [nanosecondsOf, nanosecondsOf, List.append_assoc, List.replicate_append_replicate,
    List.take_append, List.take_append, List.take_replicate, List.take_replicate]
  congr 3
  omega

theorem length_fractionDigits_le (n : Nat) :
    (fractionDigits n).length ≤ (paddedDigits 9 n).length := by
  obtain ⟨k, hk⟩ := withoutFinalZeros_append (paddedDigits 9 n)
  rw [hk, List.length_append, fractionDigits_eq]
  exact Nat.le_add_right ..

theorem fractionDigits_ne_nil {n : Nat} (h : n ≠ 0) : fractionDigits n ≠ [] := by
  intro hnil
  obtain ⟨k, hk⟩ := withoutFinalZeros_append (paddedDigits 9 n)
  rw [← fractionDigits_eq, hnil, List.nil_append] at hk
  have hvalue := naturalOf_paddedDigits 9 n
  rw [hk, naturalOf_replicate_zero] at hvalue
  exact h hvalue.symm

/-- The first nine digits of a nanosecond count, whatever the number of its digits, are what its
fraction stands for. -/
theorem nanosecondsOf_fractionDigits_eq_div (n : Nat) :
    nanosecondsOf (fractionDigits n) = n * tenTo 9 / tenTo (paddedDigits 9 n).length := by
  obtain ⟨k, hk⟩ := withoutFinalZeros_append (paddedDigits 9 n)
  rw [← fractionDigits_eq] at hk
  rw [← nanosecondsOf_append_zeros _ k, ← hk,
    nanosecondsOf_eq_div fun _ => isAsciiDigit_of_mem_paddedDigits, naturalOf_paddedDigits]

/-- The fraction of a nanosecond count below one second. -/
theorem nanosecondsOf_fractionDigits {n : Nat} (h : n < 1000000000) (hne : n ≠ 0) :
    1 ≤ (fractionDigits n).length ∧ (fractionDigits n).length ≤ 9 ∧
      nanosecondsOf (fractionDigits n) = n := by
  have hlength : (paddedDigits 9 n).length = 9 := length_paddedDigits (by decide) h
  refine ⟨List.length_pos_iff.mpr (fractionDigits_ne_nil hne), ?_, ?_⟩
  · exact hlength ▸ length_fractionDigits_le n
  · rw [nanosecondsOf_fractionDigits_eq_div, hlength, Nat.mul_div_cancel _ (tenTo_pos 9)]

end Text

-- ════════════════════════════════════════════════════════════════════════
-- Dates
-- ════════════════════════════════════════════════════════════════════════

namespace Date

/-- The text of a date with a four-digit year, character by character. -/
theorem exists_chars {d : Date} (h : d.HasFourDigitYear) :
    ∃ y₁ y₂ y₃ y₄ m₁ m₂ d₁ d₂, d.chars = [y₁, y₂, y₃, y₄, '-', m₁, m₂, '-', d₁, d₂] ∧
      (∀ c ∈ [y₁, y₂, y₃, y₄, m₁, m₂, d₁, d₂], Text.isAsciiDigit c = true) ∧
      ofText? [y₁, y₂, y₃, y₄, '-', m₁, m₂, '-', d₁, d₂] = some d := by
  have hyear : d.year.toNat < 10000 := by
    have := h.2
    omega
  obtain ⟨y₁, y₂, y₃, y₄, hy, hydigits, hcentury, hrest⟩ := Text.exists_fourDigits hyear
  obtain ⟨m₁, m₂, hm, hm₁, hm₂, hmonth⟩ := Text.exists_twoDigits d.month_lt
  obtain ⟨d₁, d₂, hd, hd₁, hd₂, hday⟩ := Text.exists_twoDigits d.day_lt
  refine ⟨y₁, y₂, y₃, y₄, m₁, m₂, d₁, d₂, ?_, ?_, ?_⟩
  · rw [chars, yearText_of_mem h, hy, hm, hd]
    rfl
  · simp only [List.forall_mem_cons] at hydigits ⊢
    exact ⟨hydigits.1, hydigits.2.1, hydigits.2.2.1, hydigits.2.2.2.1, hm₁, hm₂, hd₁, hd₂,
      List.forall_mem_nil _⟩
  · have hback : ((d.year.toNat / 100 * 100 + d.year.toNat % 100 : Nat) : Int) = d.year := by
      have := h.1
      omega
    simp only [ofText?, hcentury, hrest, hmonth, hday, Option.bind_eq_bind, Option.bind_some,
      hback, ofParts?]
    exact dif_pos ⟨d.month_mem, d.day_mem⟩

/-- A date with a four-digit year is read back. -/
theorem ofText?_chars {d : Date} (h : d.HasFourDigitYear) : ofText? d.chars = some d := by
  obtain ⟨_, _, _, _, _, _, _, _, hchars, _, hback⟩ := exists_chars h
  rw [hchars]
  exact hback

theorem ofText?_text {d : Date} (h : d.HasFourDigitYear) : ofText? d.text.toList = some d := by
  rw [text, String.toList_ofList]
  exact ofText?_chars h

theorem hasForm_chars {d : Date} (h : d.HasFourDigitYear) : hasForm d.chars = true := by
  obtain ⟨_, _, _, _, _, _, _, _, hchars, hdigits, _⟩ := exists_chars h
  rw [hchars]
  simpa [hasForm] using hdigits

theorem hasFourDigitYear_of_ofText? {cs : List Char} {d : Date} (h : ofText? cs = some d) :
    d.HasFourDigitYear := by
  unfold ofText? at h
  split at h
  · next y₁ y₂ y₃ y₄ m₁ m₂ d₁ d₂ =>
    obtain ⟨century, hcentury, h⟩ := Option.bind_eq_some_iff.mp h
    obtain ⟨rest, hrest, h⟩ := Option.bind_eq_some_iff.mp h
    obtain ⟨_, _, h⟩ := Option.bind_eq_some_iff.mp h
    obtain ⟨_, _, h⟩ := Option.bind_eq_some_iff.mp h
    have hlt {a b : Char} {n : Nat} (h : Text.twoDigits? a b = some n) : n < 100 := by
      unfold Text.twoDigits? at h
      split at h
      · next hdigits =>
        rw [Bool.and_eq_true] at hdigits
        cases h
        have ha := Text.toNat_of_isAsciiDigit hdigits.1
        have hb := Text.toNat_of_isAsciiDigit hdigits.2
        rw [Text.naturalOf_pair]
        omega
      · cases h
    have hcentury := hlt hcentury
    have hrest := hlt hrest
    unfold ofParts? at h
    split at h
    · cases h
      constructor <;> dsimp only <;> omega
    · cases h
  · cases h

end Date

-- ════════════════════════════════════════════════════════════════════════
-- Times of day
-- ════════════════════════════════════════════════════════════════════════

namespace TimeOfDay

/-- The clock part of a time, character by character. -/
theorem exists_clockChars (t : TimeOfDay) :
    ∃ h₁ h₂ m₁ m₂ s₁ s₂, t.clockChars = [h₁, h₂, ':', m₁, m₂, ':', s₁, s₂] ∧
      (∀ c ∈ [h₁, h₂, m₁, m₂, s₁, s₂], Text.isAsciiDigit c = true) ∧
      Text.twoDigits? h₁ h₂ = some t.hour ∧ Text.twoDigits? m₁ m₂ = some t.minute ∧
      Text.twoDigits? s₁ s₂ = some t.shownSecond := by
  have hshown : t.shownSecond < 100 := t.shownSecond_lt_tenTo
  obtain ⟨h₁, h₂, hh, hh₁, hh₂, hhour⟩ := Text.exists_twoDigits t.hour_lt_tenTo
  obtain ⟨m₁, m₂, hm, hm₁, hm₂, hminute⟩ := Text.exists_twoDigits t.minute_lt_tenTo
  obtain ⟨s₁, s₂, hs, hs₁, hs₂, hsecond⟩ := Text.exists_twoDigits hshown
  refine ⟨h₁, h₂, m₁, m₂, s₁, s₂, ?_, ?_, hhour, hminute, hsecond⟩
  · rw [clockChars, hh, hm, hs]
    rfl
  · simp only [List.forall_mem_cons]
    exact ⟨hh₁, hh₂, hm₁, hm₂, hs₁, hs₂, List.forall_mem_nil _⟩

/-- A time is made of the parts that are written for it. -/
theorem ofParts?_shown (t : TimeOfDay) :
    ofParts? t.hour t.minute t.shownSecond t.subsecond = some t := by
  have hhour := t.hour_lt
  have hminute := t.minute_lt
  have hnanosecond := t.nanosecond_lt
  unfold ofParts? shownSecond subsecond
  by_cases hregular : t.nanosecond < 1000000000
  · have hsecond := t.second_lt
    rw [Nat.div_eq_of_lt hregular, Nat.mod_eq_of_lt hregular, Nat.add_zero]
    rw [dif_pos ⟨hhour, hminute, hsecond, hregular⟩]
  · -- In a leap second the second `60` is written.
    have hleap := t.leap (Nat.not_lt.mp hregular)
    have hdiv : t.nanosecond / 1000000000 = 1 := by omega
    have hmod : t.nanosecond % 1000000000 = t.nanosecond - 1000000000 := by omega
    rw [hdiv, hmod, hleap]
    rw [dif_neg (by omega), dif_pos ⟨hhour, hminute, rfl, by omega⟩]
    exact congrArg some (eq_of_parts rfl rfl hleap.symm (Nat.sub_add_cancel (by omega)))

/-- A time is read back from its clock part and a fraction. -/
theorem ofText?_clockChars_append {t : TimeOfDay} {fraction ds : List Char}
    (h : readFraction? fraction = some ds) (hds : Text.nanosecondsOf ds = t.subsecond) :
    ofText? (t.clockChars ++ fraction) = some t := by
  obtain ⟨h₁, h₂, m₁, m₂, s₁, s₂, hclock, _, hhour, hminute, hsecond⟩ := exists_clockChars t
  rw [hclock]
  simp only [List.cons_append, List.nil_append, ofText?, hhour, hminute, hsecond, h,
    Option.bind_eq_bind, Option.bind_some, hds]
  exact t.ofParts?_shown

theorem hasForm_clockChars_append {t : TimeOfDay} {fraction ds : List Char}
    (h : readFraction? fraction = some ds) : hasForm (t.clockChars ++ fraction) = true := by
  obtain ⟨h₁, h₂, m₁, m₂, s₁, s₂, hclock, hdigits, _⟩ := exists_clockChars t
  simp only [List.forall_mem_cons] at hdigits
  obtain ⟨hh₁, hh₂, hm₁, hm₂, hs₁, hs₂, _⟩ := hdigits
  rw [hclock]
  simp [hasForm, hh₁, hh₂, hm₁, hm₂, hs₁, hs₂, h]

/-- Digits after a point are read back. -/
theorem readFraction?_cons {ds : List Char} (hpos : 1 ≤ ds.length) (hle : ds.length ≤ 12)
    (hdigits : ∀ c ∈ ds, Text.isAsciiDigit c = true) : readFraction? ('.' :: ds) = some ds :=
  if_pos ⟨hpos, hle, List.all_eq_true.mpr hdigits⟩

/-- The nanosecond count of a leap second has a tenth digit. -/
theorem length_paddedDigits_nanosecond (t : TimeOfDay) :
    (Text.paddedDigits 9 t.nanosecond).length = if t.IsRegular then 9 else 10 := by
  have hten : t.nanosecond < tenTo 10 := Nat.lt_trans t.nanosecond_lt (by decide)
  split
  · next h => exact Text.length_paddedDigits (by decide) h
  · next h => exact Text.length_paddedDigits_of_le (by decide) (Nat.not_lt.mp h) hten

/-- The nanoseconds that are read from the text of a time. In a leap second the whole count is
written, with ten digits, and the last of them is beyond nanoseconds. -/
def readNanoseconds (t : TimeOfDay) : Nat := if t.IsRegular then t.nanosecond else t.nanosecond / 10

/-- What is written behind the clock part of a time. -/
theorem exists_writtenFraction (t : TimeOfDay) :
    ∃ fraction ds, t.chars = t.clockChars ++ fraction ∧ readFraction? fraction = some ds ∧
      Text.nanosecondsOf ds = t.readNanoseconds := by
  rw [chars_eq]
  by_cases hzero : t.nanosecond = 0
  · have hregular : t.IsRegular := Nat.lt_of_le_of_lt (Nat.le_of_eq hzero) (by decide)
    refine ⟨[], [], ?_, rfl, ?_⟩
    · rw [if_pos hzero]
    · rw [readNanoseconds, if_pos hregular, hzero]
      rfl
  · have hpos := List.length_pos_iff.mpr (Text.fractionDigits_ne_nil hzero)
    have hle := Text.length_fractionDigits_le t.nanosecond
    have hvalue := Text.nanosecondsOf_fractionDigits_eq_div t.nanosecond
    rw [length_paddedDigits_nanosecond] at hle hvalue
    refine ⟨'.' :: Text.fractionDigits t.nanosecond, _, if_neg hzero ▸ rfl,
      readFraction?_cons hpos (Nat.le_trans hle (by split <;> decide))
        fun _ => Text.isAsciiDigit_of_mem_fractionDigits, hvalue.trans ?_⟩
    unfold readNanoseconds
    split
    · exact Nat.mul_div_cancel _ (tenTo_pos 9)
    · rw [show tenTo 10 = 10 * tenTo 9 from rfl, Nat.mul_div_mul_right _ _ (tenTo_pos 9)]

/-- What is written behind the clock part of a time outside leap seconds. -/
theorem exists_fraction {t : TimeOfDay} (h : t.IsRegular) :
    ∃ fraction ds, t.chars = t.clockChars ++ fraction ∧ readFraction? fraction = some ds ∧
      Text.nanosecondsOf ds = t.subsecond := by
  obtain ⟨fraction, ds, hchars, hfraction, hvalue⟩ := exists_writtenFraction t
  rw [readNanoseconds, if_pos h] at hvalue
  exact ⟨fraction, ds, hchars, hfraction, hvalue.trans (Nat.mod_eq_of_lt h).symm⟩

/-- A time outside leap seconds is read back. -/
theorem ofText?_chars {t : TimeOfDay} (h : t.IsRegular) : ofText? t.chars = some t := by
  obtain ⟨fraction, ds, hchars, hfraction, hds⟩ := exists_fraction h
  rw [hchars]
  exact ofText?_clockChars_append hfraction hds

theorem ofText?_text {t : TimeOfDay} (h : t.IsRegular) : ofText? t.text.toList = some t := by
  rw [text, String.toList_ofList]
  exact ofText?_chars h

theorem hasForm_chars {t : TimeOfDay} (h : t.IsRegular) : hasForm t.chars = true := by
  obtain ⟨fraction, ds, hchars, hfraction, _⟩ := exists_fraction h
  rw [hchars]
  exact hasForm_clockChars_append hfraction

end TimeOfDay

-- ════════════════════════════════════════════════════════════════════════
-- Instants
-- ════════════════════════════════════════════════════════════════════════

namespace Instant

theorem opensOffset_of_isAsciiDigit {c : Char} (h : Text.isAsciiDigit c = true) :
    opensOffset c = false := by
  have hne {d : Char} (hd : Text.isAsciiDigit d = false) : c ≠ d := Text.ne_of_isAsciiDigit h hd
  have hz : c ≠ 'Z' ∧ c ≠ 'z' := ⟨hne rfl, hne rfl⟩
  have hsign : c ≠ '+' ∧ c ≠ '-' := ⟨hne rfl, hne rfl⟩
  simp [opensOffset, hz, hsign]

/-- The fraction of an instant is read back. -/
theorem exists_fraction {n : Nat} (h : n < 1000000000) :
    ∃ ds, TimeOfDay.readFraction? (fractionChars n) = some ds ∧ Text.nanosecondsOf ds = n ∧
      ∀ c ∈ fractionChars n, opensOffset c = false := by
  -- Digits behind a point, as many as are written, stand for the count without its final zeros.
  have hdigits {width m : Nat} (hpos : 0 < width) (hle : width ≤ 9) (hm : m < tenTo width)
      (hvalue : tenTo (9 - width) * m = n) :
      ∃ ds, TimeOfDay.readFraction? ('.' :: Text.paddedDigits width m) = some ds ∧
        Text.nanosecondsOf ds = n ∧
        ∀ c ∈ '.' :: Text.paddedDigits width m, opensOffset c = false := by
    have hlength : (Text.paddedDigits width m).length = width := Text.length_paddedDigits hpos hm
    refine ⟨Text.paddedDigits width m, ?_, ?_, ?_⟩
    · exact TimeOfDay.readFraction?_cons (hlength.symm ▸ hpos)
        (hlength.symm ▸ Nat.le_trans hle (by decide))
        fun _ => Text.isAsciiDigit_of_mem_paddedDigits
    · rw [Text.nanosecondsOf_eq (hlength.symm ▸ hle), hlength, Text.naturalOf_paddedDigits, hvalue]
    · intro c hc
      obtain rfl | hc := List.mem_cons.mp hc
      · rfl
      · exact opensOffset_of_isAsciiDigit (Text.isAsciiDigit_of_mem_paddedDigits hc)
  unfold fractionChars
  split
  · next hzero =>
    refine ⟨[], rfl, ?_, nofun⟩
    rw [hzero]
    rfl
  · split
    · exact hdigits (by decide) (by decide) (by rw [show tenTo 3 = 1000 from rfl]; omega)
        (by rw [show tenTo (9 - 3) = 1000000 from rfl]; omega)
    · split
      · exact hdigits (by decide) (by decide) (by rw [show tenTo 6 = 1000000 from rfl]; omega)
          (by rw [show tenTo (9 - 6) = 1000 from rfl]; omega)
      · exact hdigits (by decide) (by decide) h (Nat.one_mul _)

/-- The offset of an instant is read back, and its first character ends the clock part. -/
theorem exists_offset {offset : Int} (h : -1440 < offset ∧ offset < 1440) :
    ∃ c cs, offsetChars offset = c :: cs ∧ opensOffset c = true ∧
      hasForm.offsetForm (c :: cs) = true ∧ readOffset? (c :: cs) = some offset := by
  unfold offsetChars
  split
  · next hzero =>
    refine ⟨'Z', [], rfl, rfl, rfl, ?_⟩
    rw [hzero]
    rfl
  · have hhours : offset.natAbs / 60 < 100 := by omega
    have hminutes : offset.natAbs % 60 < 100 := by omega
    obtain ⟨h₁, h₂, hh, hh₁, hh₂, hhour⟩ := Text.exists_twoDigits hhours
    obtain ⟨m₁, m₂, hm, hm₁, hm₂, hminute⟩ := Text.exists_twoDigits hminutes
    have hsmall : ¬(24 ≤ offset.natAbs / 60 ∨ 60 ≤ offset.natAbs % 60) := by omega
    have hsum : offset.natAbs / 60 * 60 + offset.natAbs % 60 = offset.natAbs := by omega
    rw [hh, hm]
    refine ⟨_, _, rfl, ?_, ?_, ?_⟩
    · split <;> rfl
    · split <;> simp [hasForm.offsetForm, hh₁, hh₂, hm₁, hm₂]
    · by_cases hneg : offset < 0
      · simp only [if_pos hneg, List.cons_append, List.nil_append, readOffset?, hhour, hminute,
          Option.bind_eq_bind, Option.bind_some, if_neg hsmall, hsum, if_true]
        exact congrArg some (by omega)
      · simp only [if_neg hneg, List.cons_append, List.nil_append, readOffset?, hhour, hminute,
          Option.bind_eq_bind, Option.bind_some, if_neg hsmall, hsum, if_true]
        exact congrArg some (by omega)

/-- The text of an instant has its form and denotes it. -/
theorem hasForm_and_ofText?_chars {i : Instant} (h : i.date.HasFourDigitYear) :
    hasForm i.chars = true ∧ ofText? i.chars = some i := by
  obtain ⟨y₁, y₂, y₃, y₄, o₁, o₂, d₁, d₂, hdate, hdigits, hday⟩ := Date.exists_chars h
  obtain ⟨h₁, h₂, m₁, m₂, s₁, s₂, hclock, hclockDigits, _⟩ := i.time.exists_clockChars
  have hsubsecond : i.time.subsecond < 1000000000 := Nat.mod_lt _ (by decide)
  obtain ⟨ds, hfraction, hds, hplain⟩ := exists_fraction hsubsecond
  obtain ⟨c, cs, hoffset, hopens, hform, hback⟩ := exists_offset i.offset_mem
  have htime := TimeOfDay.ofText?_clockChars_append (t := i.time) hfraction hds
  -- The clock part ends where the offset begins.
  have hclosed {front : List Char} (hfront : ∀ x ∈ front, opensOffset x = false) :
      (front ++ c :: cs).takeWhile (!opensOffset ·) = front ∧
        (front ++ c :: cs).dropWhile (!opensOffset ·) = c :: cs := by
    rw [List.takeWhile_append_of_pos (by simpa using hfront),
      List.dropWhile_append_of_pos (by simpa using hfront)]
    simp [hopens]
  have hchars : i.chars = [y₁, y₂, y₃, y₄, '-', o₁, o₂, '-', d₁, d₂] ++ 'T' ::
      ((i.time.clockChars ++ fractionChars i.time.subsecond) ++ c :: cs) := by
    rw [chars, hdate, hoffset]
  have hfront : ∀ x ∈ i.time.clockChars ++ fractionChars i.time.subsecond,
      opensOffset x = false := by
    simp only [List.forall_mem_cons] at hclockDigits
    obtain ⟨hh₁, hh₂, hm₁, hm₂, hs₁, hs₂, _⟩ := hclockDigits
    rw [hclock]
    simp only [List.forall_mem_append, List.forall_mem_cons]
    refine ⟨⟨?_, ?_, rfl, ?_, ?_, rfl, ?_, ?_, nofun⟩, hplain⟩
    all_goals exact opensOffset_of_isAsciiDigit (by assumption)
  have hasform : hasForm i.chars = true := by
    obtain ⟨htake, hdrop⟩ := hclosed hplain
    simp only [List.forall_mem_cons] at hclockDigits hdigits
    obtain ⟨hh₁, hh₂, hm₁, hm₂, hs₁, hs₂, _⟩ := hclockDigits
    obtain ⟨hy₁, hy₂, hy₃, hy₄, ho₁, ho₂, hd₁, hd₂, _⟩ := hdigits
    rw [hchars, hclock]
    simp [hasForm, hasForm.secondsAndOffset, hy₁, hy₂, hy₃, hy₄, ho₁, ho₂, hd₁, hd₂, hh₁, hh₂, hm₁,
      hm₂, hs₁, hs₂, htake, hdrop, hfraction, hform]
  refine ⟨hasform, ?_⟩
  have hdrop (rest : List Char) :
      ([y₁, y₂, y₃, y₄, '-', o₁, o₂, '-', d₁, d₂] ++ 'T' :: rest).drop 11 = rest := rfl
  have htake (rest : List Char) :
      ([y₁, y₂, y₃, y₄, '-', o₁, o₂, '-', d₁, d₂] ++ 'T' :: rest).take 10 =
        [y₁, y₂, y₃, y₄, '-', o₁, o₂, '-', d₁, d₂] := rfl
  rw [ofText?, if_pos hasform, hchars]
  simp only [← List.drop_drop, hdrop, htake, (hclosed hfront).1, List.drop_left, hday, htime, hback,
    Option.bind_eq_bind, Option.bind_some, ofParts?]
  exact dif_pos i.offset_mem

/-- An instant whose local date has a four-digit year is read back. -/
theorem ofText?_chars {i : Instant} (h : i.date.HasFourDigitYear) : ofText? i.chars = some i :=
  (hasForm_and_ofText?_chars h).2

theorem ofText?_text {i : Instant} (h : i.date.HasFourDigitYear) :
    ofText? i.text.toList = some i := by
  rw [text, String.toList_ofList]
  exact ofText?_chars h

theorem hasForm_chars {i : Instant} (h : i.date.HasFourDigitYear) : hasForm i.chars = true :=
  (hasForm_and_ofText?_chars h).1

/-- The local date of an instant that is read has a four-digit year. -/
theorem hasFourDigitYear_of_ofText? {cs : List Char} {i : Instant} (h : ofText? cs = some i) :
    i.date.HasFourDigitYear := by
  unfold ofText? at h
  split at h
  · obtain ⟨date, hdate, h⟩ := Option.bind_eq_some_iff.mp h
    obtain ⟨time, _, h⟩ := Option.bind_eq_some_iff.mp h
    obtain ⟨offset, _, h⟩ := Option.bind_eq_some_iff.mp h
    unfold ofParts? at h
    split at h
    · cases h
      exact Date.hasFourDigitYear_of_ofText? hdate
    · cases h
  · cases h

end Instant

end ODataQuery
