import ODataQuery.Calendar.TimeOfDay
import ODataQuery.Proofs.Numeric.Digits
import ODataQuery.Proofs.Order

/-!
# Texts of times of day

Outside leap seconds, times of day are ordered like their texts, although zeros at the end of a
fraction are left out.

## Main definitions

- `Text.withoutFinalZeros` — digits without the zeros at their end
- `TimeOfDay.IsRegular` — the times that do not lie in a leap second

## Main statements

- `TimeOfDay.compare_text` — regular times are ordered like their texts
-/

namespace ODataQuery

-- ════════════════════════════════════════════════════════════════════════
-- Fractions
-- ════════════════════════════════════════════════════════════════════════

namespace Text

/-- Digits without the zeros at their end. -/
def withoutFinalZeros (ds : List Char) : List Char :=
  (ds.reverse.dropWhile (· == '0')).reverse

theorem fractionDigits_eq (n : Nat) : fractionDigits n = withoutFinalZeros (paddedDigits 9 n) := rfl

/-- A first digit stays unless it is a zero and nothing behind it stays. -/
theorem withoutFinalZeros_cons (d : Char) (ds : List Char) :
    withoutFinalZeros (d :: ds) =
      if withoutFinalZeros ds = [] ∧ d = '0' then [] else d :: withoutFinalZeros ds := by
  simp only [withoutFinalZeros, List.reverse_cons, List.dropWhile_append, List.reverse_eq_nil_iff,
    List.isEmpty_iff]
  by_cases hrest : ds.reverse.dropWhile (· == '0') = []
  · by_cases hd : d = '0'
    · simp [hrest, hd]
    · simp [hrest, hd]
  · simp [hrest]

theorem withoutFinalZeros_cons_le (d : Char) (ds : List Char) :
    withoutFinalZeros (d :: ds) = [] ∨
      withoutFinalZeros (d :: ds) = d :: withoutFinalZeros ds := by
  rw [withoutFinalZeros_cons]
  split
  · exact .inl rfl
  · exact .inr rfl

/-- Dropping zeros at the end keeps the order of digits of equal length. -/
theorem withoutFinalZeros_lt {ds es : List Char} (hds : ∀ c ∈ ds, isAsciiDigit c = true)
    (hlength : ds.length = es.length) (h : ds < es) :
    withoutFinalZeros ds < withoutFinalZeros es := by
  induction ds generalizing es with
  | nil =>
    cases es with
    | nil => exact absurd h (List.not_lt_nil _)
    | cons e es => cases hlength
  | cons d ds ih =>
    cases es with
    | nil => cases hlength
    | cons e es =>
      -- The first digit of the greater text stays, as it is not a zero or something follows it.
      have hstays (hrest : withoutFinalZeros es ≠ [] ∨ e ≠ '0') :
          withoutFinalZeros (e :: es) = e :: withoutFinalZeros es := by
        rw [withoutFinalZeros_cons]
        exact if_neg fun hboth => hrest.elim (absurd hboth.1) (absurd hboth.2)
      have hbelow (htail : d :: withoutFinalZeros ds < e :: withoutFinalZeros es) :
          withoutFinalZeros (d :: ds) < e :: withoutFinalZeros es := by
        obtain hnil | hcons := withoutFinalZeros_cons_le d ds
        · rw [hnil]
          exact List.nil_lt_cons ..
        · rwa [hcons]
      obtain hlt | ⟨rfl, hlt⟩ := List.cons_lt_cons_iff.mp h
      · have hd := toNat_of_isAsciiDigit (hds d List.mem_cons_self)
        have hlt' : d.toNat < e.toNat := UInt32.lt_iff_toNat_lt.mp (Char.lt_def.mp hlt)
        have he : e ≠ '0' := by
          rintro rfl
          have hzero : '0'.toNat = 48 := rfl
          omega
        rw [hstays (.inr he)]
        exact hbelow (List.cons_lt_cons_iff.mpr (.inl hlt))
      · have hrest := ih (fun c hc => hds c (List.mem_cons_of_mem _ hc)) (Nat.succ.inj hlength) hlt
        have hne : withoutFinalZeros es ≠ [] := by
          intro hnil
          rw [hnil] at hrest
          exact List.not_lt_nil _ hrest
        rw [hstays (.inl hne)]
        exact hbelow (List.cons_lt_cons_iff.mpr (.inr ⟨rfl, hrest⟩))

/-- Fractions are ordered like the nanosecond counts that they are written for. -/
theorem fractionDigits_lt {n m : Nat} (hm : m < 1000000000) (h : n < m) :
    fractionDigits n < fractionDigits m := by
  have hm : m < tenTo 9 := hm
  have hlength : (paddedDigits 9 n).length = (paddedDigits 9 m).length :=
    (length_paddedDigits (by decide) (Nat.lt_trans h hm)).trans
      (length_paddedDigits (by decide) hm).symm
  exact withoutFinalZeros_lt (fun _ => isAsciiDigit_of_mem_paddedDigits) hlength
    (paddedDigits_lt (by decide) hm h)

end Text

namespace TimeOfDay

/-- The time does not lie in a leap second. -/
def IsRegular (t : TimeOfDay) : Prop := t.nanosecond < 1000000000

instance (t : TimeOfDay) : Decidable t.IsRegular := inferInstanceAs (Decidable (_ < _))

-- ════════════════════════════════════════════════════════════════════════
-- Order
-- ════════════════════════════════════════════════════════════════════════

theorem eq_of_parts {a b : TimeOfDay} (hhour : a.hour = b.hour) (hminute : a.minute = b.minute)
    (hsecond : a.second = b.second) (hnanosecond : a.nanosecond = b.nanosecond) : a = b := by
  cases a
  cases b
  cases hhour
  cases hminute
  cases hsecond
  cases hnanosecond
  rfl

theorem minuteOfDay_eq_iff {a b : TimeOfDay} :
    a.minuteOfDay = b.minuteOfDay ↔ a.hour = b.hour ∧ a.minute = b.minute := by
  have ha := a.minute_lt
  have hb := b.minute_lt
  simp only [minuteOfDay]
  omega

theorem minuteOfDay_lt_iff {a b : TimeOfDay} :
    a.minuteOfDay < b.minuteOfDay ↔ a.hour < b.hour ∨ a.hour = b.hour ∧ a.minute < b.minute := by
  have ha := a.minute_lt
  have hb := b.minute_lt
  simp only [minuteOfDay]
  omega

instance : Std.TransCmp compare :=
  inferInstanceAs (Std.TransCmp
    (compareLex (compareOn minuteOfDay) (compareLex (compareOn second) (compareOn nanosecond))))

instance : Std.LawfulEqCmp compare where
  compare_self {a} := by simp [compare]
  eq_of_compare {a b} h := by
    simp only [compare, Ordering.then_eq_eq, Std.compare_eq_iff_eq] at h
    obtain ⟨hhour, hminute⟩ := minuteOfDay_eq_iff.mp h.1
    exact eq_of_parts hhour hminute h.2.1 h.2.2

-- ════════════════════════════════════════════════════════════════════════
-- Text
-- ════════════════════════════════════════════════════════════════════════

theorem shownSecond_of_isRegular {t : TimeOfDay} (h : t.IsRegular) : t.shownSecond = t.second := by
  rw [shownSecond, Nat.div_eq_of_lt h, Nat.add_zero]

theorem hour_lt_tenTo (t : TimeOfDay) : t.hour < tenTo 2 := Nat.lt_trans t.hour_lt (by decide)

theorem minute_lt_tenTo (t : TimeOfDay) : t.minute < tenTo 2 := Nat.lt_trans t.minute_lt (by decide)

theorem shownSecond_lt_tenTo (t : TimeOfDay) : t.shownSecond < tenTo 2 := by
  have hsecond := t.second_lt
  have hnanosecond := t.nanosecond_lt
  have hten : tenTo 2 = 100 := rfl
  unfold shownSecond
  omega

/-- The order of the clock parts of two times, whatever is written behind them. -/
theorem clockChars_append_lt {a b : TimeOfDay} (h : a.minuteOfDay < b.minuteOfDay ∨
    a.minuteOfDay = b.minuteOfDay ∧ a.shownSecond < b.shownSecond) (xs ys : List Char) :
    a.clockChars ++ xs < b.clockChars ++ ys := by
  have hlength {n m : Nat} (hn : n < tenTo 2) (hm : m < tenTo 2) :
      (Text.twoDigits n).length = (Text.twoDigits m).length :=
    (Text.length_paddedDigits (by decide) hn).trans (Text.length_paddedDigits (by decide) hm).symm
  simp only [clockChars, List.append_assoc, List.cons_append]
  rw [minuteOfDay_lt_iff, minuteOfDay_eq_iff] at h
  obtain (hlt | ⟨heq, hlt⟩) | ⟨⟨heq, heq'⟩, hlt⟩ := h
  · exact Text.append_lt_append (hlength a.hour_lt_tenTo b.hour_lt_tenTo)
      (Text.paddedDigits_lt (by decide) b.hour_lt_tenTo hlt) _ _
  · rw [heq]
    refine List.append_left_lt (List.cons_lt_cons_iff.mpr (.inr ⟨rfl, ?_⟩))
    exact Text.append_lt_append (hlength a.minute_lt_tenTo b.minute_lt_tenTo)
      (Text.paddedDigits_lt (by decide) b.minute_lt_tenTo hlt) _ _
  · rw [heq, heq']
    refine List.append_left_lt (List.cons_lt_cons_iff.mpr (.inr ⟨rfl, ?_⟩))
    refine List.append_left_lt (List.cons_lt_cons_iff.mpr (.inr ⟨rfl, ?_⟩))
    exact Text.append_lt_append (hlength a.shownSecond_lt_tenTo b.shownSecond_lt_tenTo)
      (Text.paddedDigits_lt (by decide) b.shownSecond_lt_tenTo hlt) _ _

theorem clockChars_eq {a b : TimeOfDay} (hminute : a.minuteOfDay = b.minuteOfDay)
    (hsecond : a.shownSecond = b.shownSecond) : a.clockChars = b.clockChars := by
  obtain ⟨hhour, hminute⟩ := minuteOfDay_eq_iff.mp hminute
  simp only [clockChars, hhour, hminute, hsecond]

/-- A text is a clock part and, unless the nanosecond count is zero, a fraction. -/
theorem chars_eq (t : TimeOfDay) :
    t.chars = t.clockChars ++
      if t.nanosecond = 0 then [] else '.' :: Text.fractionDigits t.nanosecond := by
  unfold chars
  split
  · rw [List.append_nil]
  · rfl

/-- An earlier time has a smaller text. -/
theorem text_lt {a b : TimeOfDay} (ha : a.IsRegular) (hb : b.IsRegular)
    (h : a.compare b = .lt) : a.text < b.text := by
  refine Text.ofList_lt_ofList.mpr ?_
  rw [chars_eq, chars_eq]
  simp only [compare, Ordering.then_eq_lt, Std.compare_eq_lt, Std.compare_eq_iff_eq,
    ← shownSecond_of_isRegular ha, ← shownSecond_of_isRegular hb] at h
  obtain hlt | ⟨heq, hlt | ⟨heq', hlt⟩⟩ := h
  · exact clockChars_append_lt (.inl hlt) _ _
  · exact clockChars_append_lt (.inr ⟨heq, hlt⟩) _ _
  · rw [clockChars_eq heq heq', if_neg (Nat.ne_zero_of_lt hlt)]
    refine List.append_left_lt ?_
    split
    · exact List.nil_lt_cons ..
    · exact List.cons_lt_cons_iff.mpr (.inr ⟨rfl, Text.fractionDigits_lt hb hlt⟩)

/-- Times outside leap seconds are ordered like their texts. -/
theorem compare_text {a b : TimeOfDay} (ha : a.IsRegular) (hb : b.IsRegular) :
    Ord.compare a.text b.text = a.compare b :=
  Text.compare_of_lt (text_lt ha hb) (text_lt hb ha)

end TimeOfDay

end ODataQuery
