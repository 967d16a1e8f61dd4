import ODataQuery.Numeric.NumberText
import ODataQuery.Numeric.Power

/-!
# Digits and their order

Digits denote the number that they were written for, and digits of equal length are ordered as
texts like the numbers that they denote.

## Main statements

- `Text.naturalOf_paddedDigits` — padded digits denote the number they were written for
- `Text.length_paddedDigits` — they keep their width if the number fits in it
- `Text.paddedDigits_lt` — their order as texts is that of the numbers
-/

namespace ODataQuery

namespace Text

-- ════════════════════════════════════════════════════════════════════════
-- The number that digits denote
-- ════════════════════════════════════════════════════════════════════════

theorem toNat_of_isAsciiDigit {c : Char} (h : isAsciiDigit c = true) :
    48 ≤ c.toNat ∧ c.toNat ≤ 57 := by
  simp only [isAsciiDigit, Bool.and_eq_true, decide_eq_true_eq, Char.le_def] at h
  exact ⟨by simpa using UInt32.le_iff_toNat_le.mp h.1, by simpa using UInt32.le_iff_toNat_le.mp h.2⟩

/-- A character in front of the digits is smaller than every digit. -/
theorem lt_of_isAsciiDigit {c d : Char} (hc : c.toNat < 48) (hd : isAsciiDigit d = true) : c < d :=
  Char.lt_def.mpr (UInt32.lt_iff_toNat_lt.mpr (Nat.lt_of_lt_of_le hc (toNat_of_isAsciiDigit hd).1))

theorem isAsciiDigit_of_isDigit {c : Char} (h : c.isDigit = true) : isAsciiDigit c = true := by
  simpa [isAsciiDigit, Char.isDigit, Char.le_def] using h

theorem naturalOf_cons (c : Char) (cs : List Char) :
    naturalOf (c :: cs) = tenTo cs.length * (c.toNat - 48) + naturalOf cs := by
  rw [naturalOf, Nat.ofDigitChars_cons, Nat.ofDigitChars_eq_ofDigitChars_zero]
  simp [naturalOf, tenTo]

theorem naturalOf_append (ds es : List Char) :
    naturalOf (ds ++ es) = tenTo es.length * naturalOf ds + naturalOf es := by
  rw [naturalOf, Nat.ofDigitChars_append, Nat.ofDigitChars_eq_ofDigitChars_zero]
  rfl

/-- Digits denote a number that fits in their width. -/
theorem naturalOf_lt {ds : List Char} (h : ∀ c ∈ ds, isAsciiDigit c = true) :
    naturalOf ds < tenTo ds.length := by
  induction ds with
  | nil => decide
  | cons c cs ih =>
    have hc := toNat_of_isAsciiDigit (h c List.mem_cons_self)
    have hcs := ih fun d hd => h d (List.mem_cons_of_mem _ hd)
    have hdigit : tenTo cs.length * (c.toNat - 48) ≤ tenTo cs.length * 9 :=
      Nat.mul_le_mul_left _ (by omega)
    rw [naturalOf_cons, List.length_cons, tenTo_succ]
    omega

/-- Digits of equal length denote numbers in the order of the texts. -/
theorem naturalOf_lt_naturalOf {ds es : List Char} (hds : ∀ c ∈ ds, isAsciiDigit c = true)
    (hes : ∀ c ∈ es, isAsciiDigit c = true) (hlength : ds.length = es.length) (h : ds < es) :
    naturalOf ds < naturalOf es := by
  induction ds generalizing es with
  | nil =>
    cases es with
    | nil => exact absurd h (List.not_lt_nil _)
    | cons e es => cases hlength
  | cons d ds ih =>
    cases es with
    | nil => cases hlength
    | cons e es =>
      have hlengths : ds.length = es.length := Nat.succ.inj hlength
      have hd := toNat_of_isAsciiDigit (hds d List.mem_cons_self)
      have he := toNat_of_isAsciiDigit (hes e List.mem_cons_self)
      rw [naturalOf_cons, naturalOf_cons, hlengths]
      obtain hlt | ⟨rfl, hlt⟩ := List.cons_lt_cons_iff.mp h
      · have hlt : d.toNat < e.toNat := UInt32.lt_iff_toNat_lt.mp (Char.lt_def.mp hlt)
        have hrest : naturalOf ds < tenTo es.length :=
          hlengths ▸ naturalOf_lt fun c hc => hds c (List.mem_cons_of_mem _ hc)
        calc tenTo es.length * (d.toNat - 48) + naturalOf ds
            < tenTo es.length * (d.toNat - 48) + tenTo es.length := by omega
          _ = tenTo es.length * (d.toNat - 48 + 1) := (Nat.mul_succ _ _).symm
          _ ≤ tenTo es.length * (e.toNat - 48) := Nat.mul_le_mul_left _ (by omega)
          _ ≤ tenTo es.length * (e.toNat - 48) + naturalOf es := Nat.le_add_right ..
      · have := ih (fun c hc => hds c (List.mem_cons_of_mem _ hc))
          (fun c hc => hes c (List.mem_cons_of_mem _ hc)) hlengths hlt
        omega

-- ════════════════════════════════════════════════════════════════════════
-- The digits of a number
-- ════════════════════════════════════════════════════════════════════════

theorem isAsciiDigit_of_mem_digitsOf {n : Nat} {c : Char} (h : c ∈ digitsOf n) :
    isAsciiDigit c = true :=
  isAsciiDigit_of_isDigit (Nat.isDigit_of_mem_toDigits (by decide) (by decide) h)

theorem digitsOf_ne_nil (n : Nat) : digitsOf n ≠ [] := Nat.toDigits_ne_nil

theorem naturalOf_digitsOf (n : Nat) : naturalOf (digitsOf n) = n := Nat.ofDigitChars_ten_toDigits

theorem isAsciiDigit_of_mem_paddedDigits {width n : Nat} {c : Char}
    (h : c ∈ paddedDigits width n) : isAsciiDigit c = true := by
  simp only [paddedDigits, List.mem_append] at h
  obtain h | h := h
  · rw [List.eq_of_mem_replicate h]
    decide
  · exact isAsciiDigit_of_mem_digitsOf h

/-- Padded digits denote the number they were written for. -/
theorem naturalOf_paddedDigits (width n : Nat) : naturalOf (paddedDigits width n) = n := by
  rw [paddedDigits, naturalOf_append, naturalOf_digitsOf]
  simp [naturalOf]

/-- Padded digits keep their width if the number fits in it. -/
theorem length_paddedDigits {width n : Nat} (hwidth : 0 < width) (h : n < tenTo width) :
    (paddedDigits width n).length = width := by
  have := (Nat.length_toDigits_le_iff (by decide) hwidth).mpr h
  simp only [paddedDigits, List.length_append, List.length_replicate, digitsOf]
  omega

/-- A number that is one digit too long for its width is written with all its digits. -/
theorem length_paddedDigits_of_le {width n : Nat} (hwidth : 0 < width) (hle : tenTo width ≤ n)
    (hlt : n < tenTo (width + 1)) : (paddedDigits width n).length = width + 1 := by
  have hlong := (Nat.length_toDigits_le_iff (by decide) (Nat.succ_pos width)).mpr hlt
  have hshort : ¬(Nat.toDigits 10 n).length ≤ width := fun h =>
    Nat.not_lt.mpr hle ((Nat.length_toDigits_le_iff (by decide) hwidth).mp h)
  simp only [paddedDigits, List.length_append, List.length_replicate, digitsOf]
  omega

theorem le_length_paddedDigits (width n : Nat) : width ≤ (paddedDigits width n).length := by
  simp only [paddedDigits, List.length_append, List.length_replicate]
  omega

theorem paddedDigits_injective (width : Nat) : Function.Injective (paddedDigits width) := by
  intro n m h
  rw [← naturalOf_paddedDigits width n, h, naturalOf_paddedDigits]

/-- The order of padded digits as texts is that of the numbers. -/
theorem paddedDigits_lt {width n m : Nat} (hwidth : 0 < width) (hm : m < tenTo width)
    (h : n < m) : paddedDigits width n < paddedDigits width m := by
  have hlength := (length_paddedDigits hwidth (Nat.lt_trans h hm)).trans
    (length_paddedDigits hwidth hm).symm
  have hdigits (k : Nat) : ∀ c ∈ paddedDigits width k, isAsciiDigit c = true :=
    fun _ => isAsciiDigit_of_mem_paddedDigits
  obtain hle | heq := List.le_iff_lt_or_eq.mp
    (List.not_lt.mp fun hlt => by
      have := naturalOf_lt_naturalOf (hdigits m) (hdigits n) hlength.symm hlt
      rw [naturalOf_paddedDigits, naturalOf_paddedDigits] at this
      omega)
  · exact hle
  · exact absurd (paddedDigits_injective width heq) (Nat.ne_of_lt h)

end Text

end ODataQuery
