/-!
# Orders

Comparisons by the images of a map, comparisons of numbers made of units and a rest, and the order
of texts: texts are ordered by the first character in which they differ, and so are their bytes.

## Main definitions

- `Text.bytes` — the bytes that encode a text

## Main statements

- `Comparison.eq_of_lt` — a map that keeps the strict order keeps comparisons
- `Comparison.compare_units` — units are compared before the rest
- `Text.append_lt_append` — the order of texts whose first parts have equal length
- `Text.bytes_lt_bytes_iff` — the order of the bytes is that of the characters
-/

namespace ODataQuery

-- ════════════════════════════════════════════════════════════════════════
-- Comparisons
-- ════════════════════════════════════════════════════════════════════════

namespace Comparison

variable {α β : Type}

/-- Images that are in strict order where their originals are compare like them. -/
theorem eq_of_lt {cmp : α → α → Ordering} [Std.OrientedCmp cmp] [Std.LawfulEqCmp cmp]
    {cmp' : β → β → Ordering} [Std.OrientedCmp cmp'] {f : α → β} {a b : α}
    (hab : cmp a b = .lt → cmp' (f a) (f b) = .lt) (hba : cmp b a = .lt → cmp' (f b) (f a) = .lt) :
    cmp' (f a) (f b) = cmp a b := by
  cases h : cmp a b with
  | lt => exact hab h
  | eq =>
    rw [Std.LawfulEqCmp.eq_of_compare h]
    exact Std.ReflCmp.compare_self
  | gt => exact Std.OrientedCmp.gt_of_lt (hba (Std.OrientedCmp.lt_of_gt h))

/-- Counts of units with rests that are smaller than a unit: the counts are compared first. -/
theorem compare_units {unit m n r s : Int} (hr : 0 ≤ r ∧ r < unit) (hs : 0 ≤ s ∧ s < unit) :
    compare (m * unit + r) (n * unit + s) = (compare m n).then (compare r s) := by
  have hpos : 0 < unit := Int.lt_of_le_of_lt hr.1 hr.2
  have hlt {k l : Int} (h : k < l) : k * unit + unit ≤ l * unit :=
    calc k * unit + unit = (k + 1) * unit := by rw [Int.add_mul, Int.one_mul]
      _ ≤ l * unit := Int.mul_le_mul_of_nonneg_right (Int.add_one_le_of_lt h) (Int.le_of_lt hpos)
  obtain h | rfl | h := Int.lt_trichotomy m n
  · have := hlt h
    rw [Std.compare_eq_lt.mpr h, Std.compare_eq_lt.mpr (by omega)]
    rfl
  · rw [Std.compare_self, Ordering.eq_then]
    obtain h | rfl | h := Int.lt_trichotomy r s
    · rw [Std.compare_eq_lt.mpr h, Std.compare_eq_lt.mpr (by omega)]
    · rw [Std.compare_self, Std.compare_self]
    · rw [Std.compare_eq_gt.mpr h, Std.compare_eq_gt.mpr (by omega)]
  · have := hlt h
    rw [Std.compare_eq_gt.mpr h, Std.compare_eq_gt.mpr (by omega)]
    rfl

/-- Counts of the same units are compared like the counts. -/
theorem compare_mul {unit : Int} (h : 0 < unit) (m n : Int) :
    compare (m * unit) (n * unit) = compare m n := by
  have hrest : (0 : Int) ≤ 0 ∧ (0 : Int) < unit := ⟨Int.le_refl 0, h⟩
  have hunits := @compare_units unit m n 0 0 hrest hrest
  rwa [Int.add_zero, Int.add_zero, Std.compare_self, Ordering.then_eq] at hunits

/-- Natural numbers are compared like integers. -/
theorem compare_natCast (m n : Nat) : compare (m : Int) n = compare m n :=
  eq_of_lt (fun h => Std.compare_eq_lt.mpr (Int.ofNat_lt.mpr (Std.compare_eq_lt.mp h)))
    fun h => Std.compare_eq_lt.mpr (Int.ofNat_lt.mpr (Std.compare_eq_lt.mp h))

end Comparison

-- ════════════════════════════════════════════════════════════════════════
-- Texts
-- ════════════════════════════════════════════════════════════════════════

namespace Text

/-- If the first parts of two texts have equal length and differ, they decide the order. -/
theorem append_lt_append {α : Type} [LT α] {xs ys : List α} (hlength : xs.length = ys.length)
    (h : xs < ys) (as bs : List α) : xs ++ as < ys ++ bs := by
  induction xs generalizing ys with
  | nil =>
    cases ys with
    | nil => exact absurd h (List.not_lt_nil _)
    | cons y ys => cases hlength
  | cons x xs ih =>
    cases ys with
    | nil => cases hlength
    | cons y ys =>
      refine List.cons_lt_cons_iff.mpr ?_
      obtain hlt | ⟨heq, hlt⟩ := List.cons_lt_cons_iff.mp h
      · exact .inl hlt
      · exact .inr ⟨heq, ih (Nat.succ.inj hlength) hlt⟩

theorem compare_eq_lt {s t : String} : compare s t = .lt ↔ s < t := compareOfLessAndEq_eq_lt

theorem ofList_lt_ofList {xs ys : List Char} :
    String.ofList xs < String.ofList ys ↔ xs < ys := by
  rw [String.lt_iff, String.toList_ofList, String.toList_ofList]

/-- Texts that are ordered like what they are written for compare like it. -/
theorem compare_of_lt {α : Type} {cmp : α → α → Ordering} [Std.OrientedCmp cmp]
    [Std.LawfulEqCmp cmp] {text : α → String} {a b : α}
    (hab : cmp a b = .lt → text a < text b) (hba : cmp b a = .lt → text b < text a) :
    compare (text a) (text b) = cmp a b :=
  Comparison.eq_of_lt (fun h => compare_eq_lt.mpr (hab h)) fun h => compare_eq_lt.mpr (hba h)

/-- The bytes that encode a text. -/
def bytes (s : String) : List UInt8 := s.toList.flatMap String.utf8EncodeChar

/-- The encoding of a smaller character comes first, whatever follows. -/
theorem utf8EncodeChar_append_lt {c d : Char} (h : c < d) (xs ys : List UInt8) :
    String.utf8EncodeChar c ++ xs < String.utf8EncodeChar d ++ ys := by
  have hlt : c.val.toNat < d.val.toNat := UInt32.lt_iff_toNat_lt.mp (Char.lt_def.mp h)
  have hmax : d.val.toNat < 1114112 := by
    have : d.val.toNat < 55296 ∨ 57343 < d.val.toNat ∧ d.val.toNat < 1114112 := d.valid
    omega
  have hfirst {x y : Nat} (h : x < y) (hy : y < 256) (as bs : List UInt8) :
      UInt8.ofNat x :: as < UInt8.ofNat y :: bs := by
    refine List.cons_lt_cons_iff.mpr (.inl (UInt8.lt_iff_toNat_lt.mpr ?_))
    rwa [UInt8.toNat_ofNat_of_lt' hy, UInt8.toNat_ofNat_of_lt' (Nat.lt_trans h hy)]
  have hlengths (k : Nat) : k ≤ 127 ∨ ¬k ≤ 127 ∧ k ≤ 2047 ∨
      ¬k ≤ 127 ∧ ¬k ≤ 2047 ∧ k ≤ 65535 ∨ ¬k ≤ 127 ∧ ¬k ≤ 2047 ∧ ¬k ≤ 65535 := by omega
  have hdigits (k : Nat) : k / 4096 = k / 64 / 64 ∧ k / 262144 = k / 64 / 64 / 64 := by omega
  have hbyte {k : Nat} (hk : k < 256) : k % 2 ^ 8 = k := Nat.mod_eq_of_lt hk
  -- Some digit to the base 64 is smaller, and those in front of it are equal.
  have hdigit {k l : Nat} (h : k < l) : k / 64 < l / 64 ∨ k / 64 = l / 64 ∧ k % 64 < l % 64 := by
    omega
  simp only [String.utf8EncodeChar, hdigits]
  generalize d.val.toNat = n at hlt hmax ⊢
  generalize c.val.toNat = m at hlt ⊢
  obtain hm | hm | hm | hm := hlengths m <;> obtain hn | hn | hn | hn := hlengths n
  -- The encoding of the smaller character is not longer, and a longer one has a greater first byte.
  all_goals try omega
  all_goals simp only [hm, hn, if_true, if_false]
  all_goals try exact hfirst (by omega) (by omega) _ _
  all_goals
    refine append_lt_append ?_ ?_ xs ys
    · rfl
    simp (disch := omega) only [List.cons_lt_cons_iff, UInt8.lt_iff_toNat_lt, ← UInt8.toNat_inj,
      UInt8.toNat_ofNat', List.not_lt_nil, and_false, or_false, hbyte]
    obtain h₁ | h₁ := hdigit hlt
    · obtain h₂ | h₂ := hdigit h₁
      · obtain h₃ | h₃ := hdigit h₂ <;> omega
      · omega
    · omega

theorem bytes_lt_of_lt {s t : String} (h : s < t) : bytes s < bytes t := by
  rw [String.lt_iff] at h
  unfold bytes
  generalize s.toList = cs at h ⊢
  generalize t.toList = ds at h ⊢
  induction cs generalizing ds with
  | nil =>
    cases ds with
    | nil => exact absurd h (List.not_lt_nil _)
    | cons d ds =>
      rw [List.flatMap_cons, List.flatMap_nil]
      cases hbytes : String.utf8EncodeChar d with
      | nil => exact absurd hbytes (by simp)
      | cons b bs => exact List.nil_lt_cons ..
  | cons c cs ih =>
    cases ds with
    | nil => exact absurd h (List.not_lt_nil _)
    | cons d ds =>
      rw [List.flatMap_cons, List.flatMap_cons]
      obtain hlt | ⟨rfl, hlt⟩ := List.cons_lt_cons_iff.mp h
      · exact utf8EncodeChar_append_lt hlt _ _
      · exact List.append_left_lt (ih _ hlt)

/-- The order of the bytes of texts is that of their characters. -/
theorem bytes_lt_bytes_iff {s t : String} : bytes s < bytes t ↔ s < t := by
  refine ⟨fun h => ?_, bytes_lt_of_lt⟩
  by_cases heq : s = t
  · exact absurd h (heq ▸ List.lt_irrefl _)
  · cases hcompare : compare s t with
    | lt => exact compare_eq_lt.mp hcompare
    | eq => exact absurd (Std.compare_eq_iff_eq.mp hcompare) heq
    | gt =>
      have hlt := bytes_lt_of_lt (compare_eq_lt.mp (Std.OrientedCmp.lt_of_gt hcompare))
      exact absurd hlt (List.lt_asymm h)

end Text

end ODataQuery
