import ODataQuery.Document.Value
import ODataQuery.Proofs.Calendar.Reading
import ODataQuery.Proofs.Calendar.Timeline
import ODataQuery.Proofs.Document.Matching
import ODataQuery.Sql.Value

/-!
# Dates and times as stored texts

Documents keep dates and times of day as texts, and SQLite keeps instants as texts in universal
time. Stores compare these texts, so their order must be that of the values. It is, except that
universal time can leave the years that are written with four digits: the text of the year 10000
begins with a plus sign, which stands before every digit.

## Main definitions

- `Value.StoredLike` — values whose stored texts are in the order of two numbers
- `Date.IsReachable` — the days that universal time has for the instants that can be written

## Main statements

- `Value.storedLike_of_calendar` — dates and times of day in documents
- `Dialect.bind_instants` — instants in SQLite
-/

namespace ODataQuery

-- ════════════════════════════════════════════════════════════════════════
-- Dates and times of day in documents
-- ════════════════════════════════════════════════════════════════════════

namespace Value

/-- Two values are stored in documents as texts in the order of two numbers. The texts tell the
values apart, and a test of the stored texts is that test of the values. -/
def StoredLike (v w : Value) (m n : Int) : Prop :=
  ∃ s t, v.toDocument = .string s ∧ w.toDocument = .string t ∧ (m < n ↔ s < t) ∧
    (s = t ↔ v = w) ∧
    ∀ test, Json.ordered test (some v.toDocument) w.toDocument = (v.compare w).any test

theorem storedLike_of_compare {v w : Value} {m n : Int} {s t : String}
    (hv : v.toDocument = .string s) (hw : w.toDocument = .string t)
    (htexts : Ord.compare s t = Ord.compare m n) (hvalues : v.compare w = some (Ord.compare m n))
    (heq : s = t ↔ v = w) : StoredLike v w m n := by
  refine ⟨s, t, hv, hw, ?_, heq, fun test => ?_⟩
  · rw [← Std.compare_eq_lt, ← htexts, Text.compare_eq_lt]
  · rw [hv, hw, hvalues, ← htexts]
    rfl

/-- Dates with four-digit years are stored in the order of their days, and times of day outside leap
seconds in that of the nanoseconds since midnight. -/
theorem storedLike_of_calendar :
    (∀ a b : Date, a.HasFourDigitYear → b.HasFourDigitYear →
      StoredLike (.date a) (.date b) a.dayNumber b.dayNumber) ∧
    ∀ a b : TimeOfDay, a.IsRegular → b.IsRegular →
      StoredLike (.timeOfDay a) (.timeOfDay b) a.nanoseconds b.nanoseconds := by
  refine ⟨fun a b ha hb => ?_, fun a b ha hb => ?_⟩
  · refine storedLike_of_compare rfl rfl ?_ (congrArg some (a.compare_eq b)) ?_
    · rw [Date.compare_text ha hb, Date.compare_eq]
    · rw [Date.text_injective.eq_iff, Value.date.injEq]
  · refine storedLike_of_compare rfl rfl ?_ (congrArg some (TimeOfDay.compare_eq ha hb)) ?_
    · rw [TimeOfDay.compare_text ha hb, TimeOfDay.compare_eq ha hb]
    · rw [← Std.compare_eq_iff_eq (a := a.text), TimeOfDay.compare_text ha hb,
        Std.LawfulEqCmp.compare_eq_iff_eq, Value.timeOfDay.injEq]

/-- The end of a century of four digits, and two fractions of different lengths. -/
theorem storedLike_of_calendar_fractions :
    StoredLike (.date (.yearEnd 999)) (.date (.newYear 1000)) (Date.yearEnd 999).dayNumber
        (Date.newYear 1000).dayNumber ∧
      ∃ a b : TimeOfDay, TimeOfDay.ofText? "10:15:59.09".toList = some a ∧
        TimeOfDay.ofText? "10:15:59.1".toList = some b ∧
        StoredLike (.timeOfDay a) (.timeOfDay b) a.nanoseconds b.nanoseconds :=
  ⟨storedLike_of_calendar.1 _ _ (by decide) (by decide), _, _, rfl, rfl,
    storedLike_of_calendar.2 _ _ (by decide) (by decide)⟩

end Value

-- ════════════════════════════════════════════════════════════════════════
-- Days in universal time
-- ════════════════════════════════════════════════════════════════════════

namespace Date

variable {a b : Date}

/-- The days that universal time can have for an instant that is written with a four-digit year. -/
def IsReachable (d : Date) : Prop := d.HasFourDigitYear ∨ d = yearEnd (-1) ∨ d = newYear 10000

theorem previous_isReachable (h : a.HasFourDigitYear) : a.previous.IsReachable := by
  unfold previous
  split
  · exact .inl h
  · split
    · exact .inl h
    · obtain hyear | hyear := Int.lt_or_eq_of_le h.1
      · exact .inl ⟨Int.le_sub_one_of_lt hyear, Int.le_trans (Int.sub_le_self _ (by decide)) h.2⟩
      · exact .inr (.inl (by rw [← hyear]; rfl))

theorem next_isReachable (h : a.HasFourDigitYear) : a.next.IsReachable := by
  unfold next
  split
  · exact .inl h
  · split
    · exact .inl h
    · obtain hyear | hyear := Int.lt_or_eq_of_le h.2
      · exact .inl ⟨Int.le_trans h.1 (Int.le_add_of_nonneg_right (by decide)), hyear⟩
      · exact .inr (.inr (by rw [hyear]; rfl))

theorem year_le_of_lt (h : a.compare b = .lt) : a.year ≤ b.year := by
  simp only [compare, Ordering.then_eq_lt, Std.compare_eq_lt, Std.compare_eq_iff_eq] at h
  omega

theorem length_chars (h : a.HasFourDigitYear) : a.chars.length = 10 := by
  obtain ⟨_, _, _, _, _, _, _, _, hchars, _⟩ := exists_chars h
  rw [hchars]
  rfl

/-- The text of a reachable day before the year 10000 begins with a digit or a minus sign. -/
theorem exists_chars_of_isReachable (h : a.IsReachable) (hyear : a.year ≤ 9999) :
    ∃ c cs, a.chars = c :: cs ∧ '+' < c := by
  obtain h | rfl | rfl := h
  · obtain ⟨c, _, _, _, _, _, _, _, hchars, hdigits, _⟩ := exists_chars h
    exact ⟨c, _, hchars, Text.lt_of_isAsciiDigit (by decide) (hdigits c List.mem_cons_self)⟩
  · exact ⟨'-', _, rfl, by decide⟩
  · exact absurd hyear (by decide)

/-- The text of the day after the year 9999 stands before those of all days until then. -/
theorem chars_newYear_append_lt (h : a.IsReachable) (hyear : a.year ≤ 9999) (xs ys : List Char) :
    (newYear 10000).chars ++ ys < a.chars ++ xs := by
  obtain ⟨c, cs, hchars, hlt⟩ := exists_chars_of_isReachable h hyear
  rw [hchars]
  exact List.cons_lt_cons_iff.mpr (.inl hlt)

/-- Up to the year 9999 the texts of reachable days are in the order of the days. -/
theorem chars_append_lt (ha : a.IsReachable) (hb : b.IsReachable)
    (hyears : b.year ≤ 9999 ∨ 9999 < a.year) (h : a.compare b = .lt) (xs ys : List Char) :
    a.chars ++ xs < b.chars ++ ys := by
  have hle := year_le_of_lt h
  have hne : a ≠ b := fun heq => by
    rw [heq, show b.compare b = .eq from Std.ReflCmp.compare_self] at h
    cases h
  obtain ha | rfl | rfl := ha
  · obtain hb | rfl | rfl := hb
    · exact Text.append_lt_append ((length_chars ha).trans (length_chars hb).symm)
        (Text.ofList_lt_ofList.mp (text_lt ha.1 hb.2 h)) _ _
    · exact absurd (Int.le_trans ha.1 hle) (by decide)
    · exact absurd (hyears.resolve_left (by decide)) (Int.not_lt.mpr ha.2)
  · obtain hb | rfl | rfl := hb
    · obtain ⟨c, _, _, _, _, _, _, _, hchars, hdigits, _⟩ := exists_chars hb
      rw [hchars]
      exact List.cons_lt_cons_iff.mpr
        (.inl (Text.lt_of_isAsciiDigit (by decide) (hdigits c List.mem_cons_self)))
    · exact absurd rfl hne
    · exact absurd hyears (by decide)
  · obtain hb | rfl | rfl := hb
    · exact absurd (Int.le_trans hle hb.2) (by decide)
    · exact absurd hle (by decide)
    · exact absurd rfl hne

end Date

-- ════════════════════════════════════════════════════════════════════════
-- Instants in SQLite
-- ════════════════════════════════════════════════════════════════════════

namespace TimeOfDay

variable {a b : TimeOfDay}

/-- Times within one second whose microseconds are in order. -/
theorem microsecondChars_append_lt (hminute : a.minuteOfDay = b.minuteOfDay)
    (hsecond : a.second = b.second) (h : a.nanosecond / 1000 < b.nanosecond / 1000)
    (xs ys : List Char) : a.microsecondChars ++ xs < b.microsecondChars ++ ys := by
  simp only [microsecondChars, List.append_assoc, List.cons_append]
  by_cases hshown : a.shownSecond < b.shownSecond
  · exact clockChars_append_lt (.inr ⟨hminute, hshown⟩) _ _
  · unfold shownSecond at hshown
    have hsame : a.shownSecond = b.shownSecond := by
      unfold shownSecond
      omega
    have hlt {t : TimeOfDay} : t.subsecond / 1000 < tenTo 6 := by
      have hten : tenTo 6 = 1000000 := rfl
      unfold subsecond
      omega
    have hmicroseconds : a.subsecond / 1000 < b.subsecond / 1000 := by
      unfold subsecond
      omega
    rw [clockChars_eq hminute hsame]
    refine List.append_left_lt (List.cons_lt_cons_iff.mpr (.inr ⟨rfl, ?_⟩))
    exact Text.append_lt_append
      ((Text.length_paddedDigits (by decide) hlt).trans
        (Text.length_paddedDigits (by decide) hlt).symm)
      (Text.paddedDigits_lt (by decide) hlt hmicroseconds) _ _

/-- Times within one microsecond are written alike. -/
theorem microsecondChars_eq (hminute : a.minuteOfDay = b.minuteOfDay)
    (hsecond : a.second = b.second) (h : a.nanosecond / 1000 = b.nanosecond / 1000) :
    a.microsecondChars = b.microsecondChars := by
  have hshown : a.shownSecond = b.shownSecond := by
    unfold shownSecond
    omega
  have hmicroseconds : a.subsecond / 1000 = b.subsecond / 1000 := by
    unfold subsecond
    omega
  rw [microsecondChars, microsecondChars, clockChars_eq hminute hshown, hmicroseconds]

/-- An earlier time has a smaller text, unless both lie in the same microsecond. -/
theorem microsecondChars_lt_or_eq (h : a.compare b = .lt) (xs ys : List Char) :
    a.microsecondChars ++ xs < b.microsecondChars ++ ys ∨
      a.microsecondChars = b.microsecondChars ∧ a.secondOfDay = b.secondOfDay ∧
        a.nanosecond / 1000 = b.nanosecond / 1000 := by
  simp only [compare, Ordering.then_eq_lt, Std.compare_eq_lt, Std.compare_eq_iff_eq] at h
  have hclock (h : a.minuteOfDay < b.minuteOfDay ∨
      a.minuteOfDay = b.minuteOfDay ∧ a.shownSecond < b.shownSecond) :
      a.microsecondChars ++ xs < b.microsecondChars ++ ys := by
    simp only [microsecondChars, List.append_assoc]
    exact clockChars_append_lt h _ _
  obtain hminute | ⟨hminute, hsecond | ⟨hsecond, hnanosecond⟩⟩ := h
  · exact .inl (hclock (.inl hminute))
  · -- A second that is followed by others in its minute is not a leap second.
    refine .inl (hclock (.inr ⟨hminute, ?_⟩))
    have hb := b.second_lt
    have hleap := a.leap
    unfold shownSecond
    omega
  · have hle := Nat.div_le_div_right (c := 1000) (Nat.le_of_lt hnanosecond)
    obtain hlt | heq := Nat.lt_or_eq_of_le hle
    · exact .inl (microsecondChars_append_lt hminute hsecond hlt _ _)
    · refine .inr ⟨microsecondChars_eq hminute hsecond heq, ?_, heq⟩
      rw [secondOfDay, secondOfDay, hminute, hsecond]

end TimeOfDay

namespace Instant

variable {a b : Instant}

theorem utcDate_isReachable (h : a.date.HasFourDigitYear) : a.utcDate.IsReachable := by
  unfold utcDate
  split
  · exact Date.previous_isReachable h
  · split
    · exact Date.next_isReachable h
    · exact .inl h

/-- The number of a second, from the parts in universal time. -/
theorem secondNumber_eq (i : Instant) :
    i.secondNumber = i.utcDate.dayNumber * 86400 + i.utcTime.secondOfDay := by
  have hsecond : i.utcTime.second = i.time.second := rfl
  rw [secondNumber, minuteNumber_eq, TimeOfDay.secondOfDay, hsecond]
  omega

/-- An earlier instant has a smaller text, unless both lie in the same microsecond. -/
theorem microsecondText_lt_or_eq (ha : a.utcDate.IsReachable) (hb : b.utcDate.IsReachable)
    (hyears : b.utcDate.year ≤ 9999 ∨ 9999 < a.utcDate.year) (h : a.compare b = .lt) :
    a.microsecondText < b.microsecondText ∨
      a.microsecondText = b.microsecondText ∧ a.secondNumber = b.secondNumber ∧
        a.time.nanosecond / 1000 = b.time.nanosecond / 1000 := by
  simp only [compare, Ordering.then_eq_lt, Std.LawfulEqCmp.compare_eq_iff_eq] at h
  unfold microsecondText
  rw [Text.ofList_lt_ofList, String.ofList_inj]
  obtain hdate | ⟨hdate, htime⟩ := h
  · exact .inl (Date.chars_append_lt ha hb hyears hdate _ _)
  · rw [hdate]
    obtain hlt | ⟨heq, hsecond, hmicrosecond⟩ := TimeOfDay.microsecondChars_lt_or_eq htime ['Z'] ['Z']
    · exact .inl (List.append_left_lt (List.cons_lt_cons_iff.mpr (.inr ⟨rfl, hlt⟩)))
    · refine .inr ⟨?_, ?_, hmicrosecond⟩
      · rw [heq]
      · rw [secondNumber_eq, secondNumber_eq, hdate, hsecond]

/-- Equal instants have equal texts, whatever their offsets. -/
theorem microsecondText_eq (h : a.compare b = .eq) : a.microsecondText = b.microsecondText := by
  simp only [compare, Ordering.then_eq_eq, Std.LawfulEqCmp.compare_eq_iff_eq] at h
  rw [microsecondText, microsecondText, h.1, h.2]

end Instant

/-- The texts that SQLite keeps for two instants that are read. Equal instants have equal texts. The
text of an earlier instant is not greater, and it is smaller if the instants are a microsecond apart
or in different seconds, unless only the later one lies in the year 10000 in universal time: the
texts of this year stand before all others. -/
theorem Dialect.bind_instants {cs ds : List Char} {a b : Instant}
    (ha : Instant.ofText? cs = some a) (hb : Instant.ofText? ds = some b) :
    ∃ s t, sqlite.bind (Value.dateTimeOffset a).toSql = .text s ∧
      sqlite.bind (Value.dateTimeOffset b).toSql = .text t ∧
      (a.compare b = .eq → s = t) ∧
      (a.compare b = .lt →
        (b.utcDate.year ≤ 9999 ∨ 9999 < a.utcDate.year →
          Text.bytes s ≤ Text.bytes t ∧
            (1000 ≤ b.nanoseconds - a.nanoseconds ∨ a.secondNumber < b.secondNumber →
              Text.bytes s < Text.bytes t)) ∧
        (a.utcDate.year ≤ 9999 → 9999 < b.utcDate.year → Text.bytes t < Text.bytes s)) := by
  have ha := Instant.utcDate_isReachable (Instant.hasFourDigitYear_of_ofText? ha)
  have hb := Instant.utcDate_isReachable (Instant.hasFourDigitYear_of_ofText? hb)
  refine ⟨_, _, rfl, rfl, Instant.microsecondText_eq, fun h => ⟨fun hyears => ?_, fun hya hyb => ?_⟩⟩
  · obtain hlt | ⟨heq, hsecond, hmicrosecond⟩ := Instant.microsecondText_lt_or_eq ha hb hyears h
    · have hlt := Text.bytes_lt_bytes_iff.mpr hlt
      exact ⟨List.le_of_lt hlt, fun _ => hlt⟩
    · refine ⟨heq ▸ List.le_refl _, fun hapart => ?_⟩
      simp only [Instant.nanoseconds] at hapart
      omega
  · rw [Text.bytes_lt_bytes_iff, Instant.microsecondText, Instant.microsecondText,
      Text.ofList_lt_ofList]
    obtain hb | hb | hb := hb
    · exact absurd hb.2 (Int.not_le.mpr hyb)
    · rw [hb] at hyb
      exact absurd hyb (by decide)
    · rw [hb]
      exact Date.chars_newYear_append_lt ha hya _ _

/-- The last microsecond of a leap day, and midnight after it in another offset. -/
theorem Dialect.bind_instants_leapDay :
    let a : Instant := ⟨.lastOf 2024 2 (by decide), .lastMicrosecond, 60, by decide⟩
    let b : Instant := ⟨.firstOf 2024 3 (by decide), .midnight, 30, by decide⟩
    Instant.ofText? "2024-02-29T23:59:59.999999+01:00".toList = some a ∧
      Instant.ofText? "2024-03-01T00:00:00+00:30".toList = some b ∧
      ∃ s t, sqlite.bind (Value.dateTimeOffset a).toSql = .text s ∧
        sqlite.bind (Value.dateTimeOffset b).toSql = .text t ∧ Text.bytes s < Text.bytes t := by
  intro a b
  have ha : Instant.ofText? "2024-02-29T23:59:59.999999+01:00".toList = some a := by decide +kernel
  have hb : Instant.ofText? "2024-03-01T00:00:00+00:30".toList = some b := by decide +kernel
  obtain ⟨s, t, hs, ht, _, hlt⟩ := bind_instants ha hb
  exact ⟨ha, hb, s, t, hs, ht, ((hlt (by decide)).1 (.inl (by decide))).2 (.inl (by decide))⟩

/-- A minute after the last microsecond of the year 9999 the text is smaller. -/
theorem Dialect.bind_instants_yearEnd :
    let a : Instant := .latest
    let b : Instant := ⟨.yearEnd 9999, .lastMicrosecond, -1, by decide⟩
    Instant.ofText? "9999-12-31T23:59:59.999999Z".toList = some a ∧
      Instant.ofText? "9999-12-31T23:59:59.999999-00:01".toList = some b ∧
      a.compare b = .lt ∧ b.nanoseconds - a.nanoseconds = 60 * 1000000000 ∧
      sqlite.bind (Value.dateTimeOffset a).toSql = .text "9999-12-31T23:59:59.999999Z" ∧
      sqlite.bind (Value.dateTimeOffset b).toSql = .text "+10000-01-01T00:00:59.999999Z" ∧
      Text.bytes "+10000-01-01T00:00:59.999999Z" < Text.bytes "9999-12-31T23:59:59.999999Z" :=
  ⟨by decide +kernel, by decide +kernel, by decide, by decide, rfl, rfl, by decide⟩

end ODataQuery
