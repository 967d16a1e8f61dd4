import ODataQuery.Calendar.Date
import ODataQuery.Proofs.Numeric.Digits
import ODataQuery.Proofs.Order

/-!
# Texts of dates

Different dates have different texts, and dates with four-digit years are ordered like their
texts.

## Main definitions

- `Date.HasFourDigitYear` — the years that a text can have without a sign

## Main statements

- `Date.text_injective` — different dates have different texts
- `Date.compare_text` — dates with four-digit years are ordered like their texts
-/

namespace ODataQuery

namespace Date

/-- The year is written without a sign. -/
def HasFourDigitYear (d : Date) : Prop := 0 ≤ d.year ∧ d.year ≤ 9999

instance (d : Date) : Decidable d.HasFourDigitYear := inferInstanceAs (Decidable (_ ∧ _))

-- ════════════════════════════════════════════════════════════════════════
-- Order
-- ════════════════════════════════════════════════════════════════════════

theorem eq_of_parts {a b : Date} (hyear : a.year = b.year) (hmonth : a.month = b.month)
    (hday : a.day = b.day) : a = b := by
  cases a
  cases b
  cases hyear
  cases hmonth
  cases hday
  rfl

instance : Std.TransCmp compare :=
  inferInstanceAs (Std.TransCmp
    (compareLex (compareOn year) (compareLex (compareOn month) (compareOn day))))

instance : Std.LawfulEqCmp compare where
  compare_self {a} := by simp [compare]
  eq_of_compare {a b} h := by
    simp only [compare, Ordering.then_eq_eq, Std.compare_eq_iff_eq] at h
    exact eq_of_parts h.1 h.2.1 h.2.2

-- ════════════════════════════════════════════════════════════════════════
-- Text
-- ════════════════════════════════════════════════════════════════════════

theorem month_lt (d : Date) : d.month < tenTo 2 := Nat.lt_of_le_of_lt d.month_mem.2 (by decide)

theorem day_lt (d : Date) : d.day < tenTo 2 := by
  have hday : d.day ≤ 31 := Nat.le_trans d.day_mem.2 <| by
    unfold Calendar.daysInMonth
    split
    · split <;> decide
    · split <;> decide
  exact Nat.lt_of_le_of_lt hday (by decide)

theorem length_monthDigits (d : Date) : (Text.twoDigits d.month).length = 2 :=
  Text.length_paddedDigits (by decide) d.month_lt

theorem length_dayDigits (d : Date) : (Text.twoDigits d.day).length = 2 :=
  Text.length_paddedDigits (by decide) d.day_lt

theorem yearText_of_mem {year : Int} (h : 0 ≤ year ∧ year ≤ 9999) :
    yearText year = Text.paddedDigits 4 year.toNat := if_pos h

/-- A year in front of which a sign is written. -/
theorem yearText_of_not_mem {year : Int} (h : ¬(0 ≤ year ∧ year ≤ 9999)) :
    yearText year = (if year < 0 then '-' else '+') :: Text.paddedDigits 4 year.natAbs := if_neg h

/-- A year that is written with a sign has another text than a year without one. -/
theorem yearText_ne {y y' : Int} (h : 0 ≤ y ∧ y ≤ 9999) (h' : ¬(0 ≤ y' ∧ y' ≤ 9999)) :
    yearText y ≠ yearText y' := by
  rw [yearText_of_mem h, yearText_of_not_mem h']
  intro heq
  have hsign : (if y' < 0 then '-' else '+') ∈ Text.paddedDigits 4 y.toNat := by
    rw [heq]
    exact List.mem_cons_self
  have hdigit := Text.isAsciiDigit_of_mem_paddedDigits hsign
  split at hdigit <;> revert hdigit <;> decide

/-- Different years have different texts. -/
theorem yearText_injective : Function.Injective yearText := by
  intro y y' h
  by_cases hy : 0 ≤ y ∧ y ≤ 9999
  · by_cases hy' : 0 ≤ y' ∧ y' ≤ 9999
    · rw [yearText_of_mem hy, yearText_of_mem hy'] at h
      have := Text.paddedDigits_injective 4 h
      omega
    · exact absurd h (yearText_ne hy hy')
  · by_cases hy' : 0 ≤ y' ∧ y' ≤ 9999
    · exact absurd h.symm (yearText_ne hy' hy)
    · rw [yearText_of_not_mem hy, yearText_of_not_mem hy', List.cons.injEq] at h
      obtain ⟨hsign, hdigits⟩ := h
      have habs := Text.paddedDigits_injective 4 hdigits
      -- Equal signs and equal absolute values.
      by_cases hneg : y < 0
      · by_cases hneg' : y' < 0
        · omega
        · simp [hneg, hneg'] at hsign
      · by_cases hneg' : y' < 0
        · simp [hneg, hneg'] at hsign
        · omega

/-- Different dates have different texts. -/
theorem text_injective : Function.Injective text := by
  intro a b h
  have h : a.chars = b.chars := String.ofList_inj.mp h
  simp only [chars] at h
  obtain ⟨hyear, hrest⟩ := List.append_inj' h (by simp [length_monthDigits, length_dayDigits])
  obtain ⟨hmonth, hday⟩ := List.append_inj (List.cons.inj hrest).2
    ((length_monthDigits a).trans (length_monthDigits b).symm)
  exact eq_of_parts (yearText_injective hyear) (Text.paddedDigits_injective 2 hmonth)
    (Text.paddedDigits_injective 2 (List.cons.inj hday).2)

/-- An earlier date has a smaller text. -/
theorem text_lt {a b : Date} (ha : 0 ≤ a.year) (hb : b.year ≤ 9999) (h : a.compare b = .lt) :
    a.text < b.text := by
  refine Text.ofList_lt_ofList.mpr ?_
  simp only [compare, Ordering.then_eq_lt, Std.compare_eq_lt, Std.compare_eq_iff_eq] at h
  have hyear : a.year ≤ b.year := by omega
  simp only [chars, yearText_of_mem ⟨ha, Int.le_trans hyear hb⟩,
    yearText_of_mem ⟨Int.le_trans ha hyear, hb⟩]
  have hlength {y : Int} (h : y ≤ 9999) : (Text.paddedDigits 4 y.toNat).length = 4 :=
    Text.length_paddedDigits (by decide)
      (Nat.lt_of_le_of_lt (by omega : y.toNat ≤ 9999) (by decide))
  obtain hlt | ⟨heq, hlt | ⟨heq', hlt⟩⟩ := h
  · exact Text.append_lt_append ((hlength (by omega)).trans (hlength hb).symm)
      (Text.paddedDigits_lt (by decide)
        (Nat.lt_of_le_of_lt (by omega : b.year.toNat ≤ 9999) (by decide)) (by omega)) _ _
  · rw [heq]
    refine List.append_left_lt (List.cons_lt_cons_iff.mpr (.inr ⟨rfl, ?_⟩))
    exact Text.append_lt_append ((length_monthDigits a).trans (length_monthDigits b).symm)
      (Text.paddedDigits_lt (by decide) b.month_lt hlt) _ _
  · rw [heq, heq']
    refine List.append_left_lt (List.cons_lt_cons_iff.mpr (.inr ⟨rfl, ?_⟩))
    refine List.append_left_lt (List.cons_lt_cons_iff.mpr (.inr ⟨rfl, ?_⟩))
    exact Text.paddedDigits_lt (by decide) b.day_lt hlt

/-- Dates with four-digit years are ordered like their texts. -/
theorem compare_text {a b : Date} (ha : a.HasFourDigitYear) (hb : b.HasFourDigitYear) :
    Ord.compare a.text b.text = a.compare b :=
  Text.compare_of_lt (text_lt ha.1 hb.2) (text_lt hb.1 ha.2)

end Date

end ODataQuery
