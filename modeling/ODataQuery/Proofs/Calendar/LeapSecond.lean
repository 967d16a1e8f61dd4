import ODataQuery.Proofs.Calendar.Reading

/-!
# Leap seconds in texts

The text of a time is always a time again, and texts tell times apart. Outside leap seconds the
text is that of the time read from it. In a leap second the fraction is written from a count of
one billion nanoseconds or more: its ten digits begin with the `1` of the full second, which is
read as the first digit of a fraction.

## Main definitions

- `TimeOfDay.reread` — the time that is read from the text of a time

## Main statements

- `TimeOfDay.text_injective` — different times have different texts
- `TimeOfDay.ofText?_text_eq_reread` — the times that survive being written and read
-/

namespace ODataQuery

namespace Text

/-- Fractions with the same number of digits are written for the same count. -/
theorem fractionDigits_inj {n m : Nat}
    (hlength : (paddedDigits 9 n).length = (paddedDigits 9 m).length)
    (h : fractionDigits n = fractionDigits m) : n = m := by
  obtain ⟨k, hk⟩ := withoutFinalZeros_append (paddedDigits 9 n)
  obtain ⟨j, hj⟩ := withoutFinalZeros_append (paddedDigits 9 m)
  rw [← fractionDigits_eq] at hk hj
  have hzeros : k = j := by
    rw [hk, hj, h, List.length_append, List.length_append, List.length_replicate,
      List.length_replicate] at hlength
    exact Nat.add_left_cancel hlength
  exact paddedDigits_injective 9 (by rw [hk, hj, h, hzeros])

end Text

namespace TimeOfDay

variable {t u : TimeOfDay}

-- ════════════════════════════════════════════════════════════════════════
-- The time that is read
-- ════════════════════════════════════════════════════════════════════════

/-- A time as it is read from its text. -/
def reread (t : TimeOfDay) : TimeOfDay :=
  { t with
    nanosecond := if t.IsRegular then t.nanosecond else 1000000000 + t.nanosecond / 10
    nanosecond_lt := by
      have := t.nanosecond_lt
      split <;> omega
    leap := by
      intro h
      refine t.leap (Nat.not_lt.mp fun (hregular : t.IsRegular) => ?_)
      rw [if_pos hregular] at h
      exact Nat.not_le.mpr hregular h }

theorem reread_of_isRegular (h : t.IsRegular) : t.reread = t :=
  eq_of_parts rfl rfl rfl (if_pos h)

theorem nanosecond_reread (h : ¬t.IsRegular) :
    t.reread.nanosecond = 1000000000 + t.nanosecond / 10 := if_neg h

/-- The clock part is read unchanged. -/
theorem clockChars_reread (t : TimeOfDay) : t.reread.clockChars = t.clockChars := by
  by_cases h : t.IsRegular
  · rw [reread_of_isRegular h]
  · have hnanosecond := nanosecond_reread h
    have hlt := t.nanosecond_lt
    have hshown : t.reread.shownSecond = t.shownSecond := by
      show t.second + t.reread.nanosecond / 1000000000 = t.second + t.nanosecond / 1000000000
      unfold IsRegular at h
      omega
    show Text.twoDigits t.hour ++ ':' :: (Text.twoDigits t.minute ++
      ':' :: Text.twoDigits t.reread.shownSecond) = _
    rw [hshown]
    rfl

theorem subsecond_reread (t : TimeOfDay) : t.reread.subsecond = t.readNanoseconds := by
  have hlt := t.nanosecond_lt
  unfold readNanoseconds
  split
  · next h =>
    rw [reread_of_isRegular h]
    exact Nat.mod_eq_of_lt h
  · next h =>
    rw [subsecond, nanosecond_reread h]
    omega

/-- The text of a time is a time again. -/
theorem ofText?_chars_eq_reread (t : TimeOfDay) : ofText? t.chars = some t.reread := by
  obtain ⟨fraction, ds, hchars, hfraction, hvalue⟩ := exists_writtenFraction t
  rw [hchars, ← clockChars_reread]
  exact ofText?_clockChars_append hfraction (hvalue.trans t.subsecond_reread.symm)

-- ════════════════════════════════════════════════════════════════════════
-- Times and their texts
-- ════════════════════════════════════════════════════════════════════════

/-- The second `60` is only written in a leap second. -/
theorem parts_of_shown (hshown : t.shownSecond = u.shownSecond) :
    t.second = u.second ∧ (t.IsRegular ↔ u.IsRegular) := by
  have ht := t.second_lt
  have hu := u.second_lt
  have htleap := t.leap
  have huleap := u.leap
  have htlt := t.nanosecond_lt
  have hult := u.nanosecond_lt
  unfold shownSecond at hshown
  unfold IsRegular
  omega

theorem length_clockChars (t : TimeOfDay) : t.clockChars.length = 8 := by
  obtain ⟨_, _, _, _, _, _, hclock, _⟩ := exists_clockChars t
  rw [hclock]
  rfl

/-- The clock part tells the hour, the minute and the second that is shown. -/
theorem parts_of_clockChars (h : t.clockChars = u.clockChars) :
    t.hour = u.hour ∧ t.minute = u.minute ∧ t.shownSecond = u.shownSecond := by
  obtain ⟨h₁, h₂, m₁, m₂, s₁, s₂, hclock, _, hhour, hminute, hsecond⟩ := exists_clockChars t
  obtain ⟨h₁', h₂', m₁', m₂', s₁', s₂', hclock', _, hhour', hminute', hsecond'⟩ :=
    exists_clockChars u
  rw [hclock, hclock'] at h
  simp only [List.cons.injEq, and_true, true_and] at h
  obtain ⟨rfl, rfl, rfl, rfl, rfl, rfl⟩ := h
  exact ⟨Option.some.inj (hhour.symm.trans hhour'), Option.some.inj (hminute.symm.trans hminute'),
    Option.some.inj (hsecond.symm.trans hsecond')⟩

/-- Different times have different texts. -/
theorem text_injective : Function.Injective text := by
  intro t u h
  have hchars : t.chars = u.chars := String.ofList_injective h
  rw [chars_eq, chars_eq] at hchars
  obtain ⟨hclock, hfraction⟩ :=
    List.append_inj hchars (t.length_clockChars.trans u.length_clockChars.symm)
  obtain ⟨hhour, hminute, hshown⟩ := parts_of_clockChars hclock
  obtain ⟨hsecond, hregular⟩ := parts_of_shown hshown
  refine eq_of_parts hhour hminute hsecond ?_
  split at hfraction
  · next htzero =>
    split at hfraction
    · next huzero => rw [htzero, huzero]
    · cases hfraction
  · split at hfraction
    · cases hfraction
    · refine Text.fractionDigits_inj ?_ (List.tail_eq_of_cons_eq hfraction)
      rw [length_paddedDigits_nanosecond, length_paddedDigits_nanosecond]
      simp only [hregular]

/-- The only leap second that is read back is the one whose fraction repeats the digit `1`. -/
theorem reread_eq_self_iff (t : TimeOfDay) :
    t.reread = t ↔ t.IsRegular ∨ t.subsecond = 111111111 := by
  by_cases h : t.IsRegular
  · exact iff_of_true (reread_of_isRegular h) (.inl h)
  · have hlt := t.nanosecond_lt
    have hsame : t.reread = t ↔ 1000000000 + t.nanosecond / 10 = t.nanosecond := by
      rw [← nanosecond_reread h]
      exact ⟨congrArg nanosecond, eq_of_parts rfl rfl rfl⟩
    rw [hsame, or_iff_right h, subsecond]
    unfold IsRegular at h
    omega

/-- Every text of a time is read, as a time that has the same text exactly if it is the same time:
those are the times outside leap seconds, and in a leap second the one fraction `.111111111`. -/
theorem ofText?_text_eq_reread (t : TimeOfDay) :
    ofText? t.text.toList = some t.reread ∧
      (t.reread = t ↔ t.IsRegular ∨ t.subsecond = 111111111) ∧
      (t.reread.text = t.text ↔ t.reread = t) := by
  refine ⟨?_, reread_eq_self_iff t, text_injective.eq_iff⟩
  rw [text, String.toList_ofList]
  exact ofText?_chars_eq_reread t

/-- The leap second before midnight is written with a fraction that it does not have. -/
theorem ofText?_text_leapSecond :
    (ofText? "23:59:60".toList).map text = some "23:59:60.1" ∧
      (ofText? "23:59:60.1".toList).map text = some "23:59:60.11" ∧
      ofText? "23:59:60.1".toList ≠ ofText? "23:59:60".toList :=
  ⟨rfl, rfl, by decide⟩

end TimeOfDay

end ODataQuery
