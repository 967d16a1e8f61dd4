import Mathlib.Algebra.Group.Nat.Defs
import ODataQuery.Proofs.Numeric.Reading
import ODataQuery.Proofs.Text.Split
import ODataQuery.Value.Call

/-!
# Positions in texts

The functions on strings count characters alike: what is searched, cut and measured are the same
positions.

## Main statements

- `Value.le_counts_iff`, `Value.toInt?_difference` — lengths are compared and subtracted as numbers
- `Value.apply_part` — the part of a text at a position
- `Value.positions_agree` — how `indexof`, `contains`, `startswith`, `endswith`, `substring`, `length`
  and `concat` determine one another

## Design notes

A length is a 32-bit integer, so the statements are about texts whose characters it can count.
-/

namespace ODataQuery

namespace Value

-- ════════════════════════════════════════════════════════════════════════
-- Counts
-- ════════════════════════════════════════════════════════════════════════

section Counts

variable {m n : Nat}

/-- A count of a 32-bit integer is not cut. -/
theorem ofCount_eq (h : n < 2 ^ 31) : ofCount n = int32 (Int32.ofNat n) := by
  have hcount : min n (twoTo 31 - 1) = n := Nat.min_eq_left (Nat.le_sub_one_of_lt h)
  rw [ofCount, hcount]

theorem toInt?_ofCount (h : n < 2 ^ 31) : (ofCount n).toInt? = some (n : Int) := by
  rw [ofCount_eq h, toInt?, Int32.toInt_ofNat_of_lt h]

/-- Counts are compared as numbers. -/
theorem le_counts_iff (hm : m < 2 ^ 31) (hn : n < 2 ^ 31) :
    applyBinary .le (ofCount m) (ofCount n) = boolean true ↔ m ≤ n := by
  have hcompare : (ofCount m).compare (ofCount n) = some (Ord.compare (m : Int) (n : Int)) := by
    rw [ofCount_eq hm, ofCount_eq hn, ← Int32.toInt_ofNat_of_lt hm, ← Int32.toInt_ofNat_of_lt hn]
    rfl
  have htest : applyBinary .le (ofCount m) (ofCount n) =
      boolean (Ord.compare (m : Int) (n : Int)).isLE := by
    show ofTruth (((ofCount m).compare (ofCount n)).bind (accepts .le)) = _
    rw [hcompare]
    rfl
  rw [htest, boolean.injEq, Std.isLE_compare, Int.ofNat_le]

/-- Counts are subtracted as numbers. -/
theorem toInt?_difference (hm : m < 2 ^ 31) (hn : n < 2 ^ 31) :
    (applyBinary .sub (ofCount m) (ofCount n)).toInt? = some ((m : Int) - n) := by
  have harithmetic : applyBinary .sub (ofCount m) (ofCount n) = ofInt64 ((m : Int) - n) := by
    rw [ofCount_eq hm, ofCount_eq hn, ← Int32.toInt_ofNat_of_lt hm, ← Int32.toInt_ofNat_of_lt hn]
    rfl
  have hfits : FitsBits 64 ((m : Int) - n) := fitsBits_of_pow (by omega) (by omega)
  rw [harithmetic, ofInt64, if_pos hfits, toInt?,
    Int64.toInt_ofInt_of_le (by omega) (by omega)]

end Counts

-- ════════════════════════════════════════════════════════════════════════
-- Parts
-- ════════════════════════════════════════════════════════════════════════

section Parts

variable (now : Instant) (s : String) {first many : Value} {start length : Int}

theorem isNull_of_toInt? {v : Value} {n : Int} (h : v.toInt? = some n) : v.isNull = false := by
  cases v with
  | null => cases h
  | _ => rfl

/-- The part of a text from a position on. -/
theorem apply_rest (hfirst : first.toInt? = some start) :
    apply now .substring [string s, first] = ofChars (s.toList.drop start.toNat) := by
  have hnull : [string s, first].any isNull = false := by
    simp only [List.any_cons, isNull_of_toInt? hfirst]
    rfl
  simp only [apply, hnull, Bool.false_eq_true, if_false, applyFunction, chars?, toString?,
    Option.map_some, List.head?_cons, Option.bind_some, hfirst]
  rfl

/-- The part of a text at a position, of a length. -/
theorem apply_part (hfirst : first.toInt? = some start) (hmany : many.toInt? = some length) :
    apply now .substring [string s, first, many] =
      ofChars ((s.toList.drop start.toNat).take length.toNat) := by
  have hnull : [string s, first, many].any isNull = false := by
    simp only [List.any_cons, isNull_of_toInt? hfirst, isNull_of_toInt? hmany]
    rfl
  simp only [apply, hnull, Bool.false_eq_true, if_false, applyFunction, chars?, toString?,
    Option.map_some, List.head?_cons, Option.bind_some, hfirst]
  show substring s.toList start (some many) = _
  rw [substring, hmany]

theorem ofChars_eq_string_iff {cs : List Char} {t : String} :
    ofChars cs = string t ↔ cs = t.toList := by
  rw [ofChars, string.injEq]
  constructor
  · rintro rfl
    exact String.toList_ofList.symm
  · rintro rfl
    exact String.ofList_toList

/-- Two texts one after the other. -/
theorem apply_concat (cs ds : List Char) :
    apply now .concat [ofChars cs, ofChars ds] = ofChars (cs ++ ds) := by
  show concat [string (String.ofList cs), string (String.ofList ds)] = _
  simp [concat, chars?, toString?]

end Parts

-- ════════════════════════════════════════════════════════════════════════
-- Positions
-- ════════════════════════════════════════════════════════════════════════

section Positions

variable (now : Instant) {s t : String}

/-- The part of a text at a position that is as long as another text is that text if it stands there. -/
theorem apply_part_eq_iff {v : Value} {n : Int} (ht : t.length < 2 ^ 31) (hv : v.toInt? = some n) :
    apply now .substring [string s, v, apply now .length [string t]] = string t ↔
      t.toList <+: s.toList.drop n.toNat := by
  have hlength : apply now .length [string t] = ofCount t.length := rfl
  rw [hlength, apply_part now s hv (toInt?_ofCount ht), ofChars_eq_string_iff,
    List.prefix_iff_eq_take, Int.toNat_natCast, String.length_toList]
  exact eq_comm

/-- A text ends with another one exactly if that is cut out of its end. -/
theorem isSuffixOf_iff (hs : s.length < 2 ^ 31) (ht : t.length < 2 ^ 31) :
    t.toList <:+ s.toList ↔
      applyBinary .le (apply now .length [string t]) (apply now .length [string s]) = boolean true ∧
      apply now .substring [string s,
        applyBinary .sub (apply now .length [string s]) (apply now .length [string t])] =
          string t := by
  have hlength (u : String) : apply now .length [string u] = ofCount u.length := rfl
  rw [hlength, hlength, le_counts_iff ht hs, apply_rest now s (toInt?_difference hs ht),
    ofChars_eq_string_iff, List.suffix_iff_eq_drop, String.length_toList, String.length_toList]
  constructor
  · intro hends
    have hle : t.length ≤ s.length := by
      have hlengths := congrArg List.length hends
      rw [List.length_drop, String.length_toList, String.length_toList] at hlengths
      omega
    have hstart : ((s.length : Int) - t.length).toNat = s.length - t.length := by omega
    rw [hstart]
    exact ⟨hle, hends.symm⟩
  · rintro ⟨hle, hends⟩
    have hstart : ((s.length : Int) - t.length).toNat = s.length - t.length := by omega
    rw [hstart] at hends
    exact hends.symm

/-- Two parts of a text with one position between them make up the text. -/
theorem concat_parts {v : Value} {k : Int} (hv : v.toInt? = some k) :
    apply now .concat [apply now .substring [string s, int32 0, v],
      apply now .substring [string s, v]] = string s := by
  have hstart : (int32 0).toInt? = some 0 := rfl
  rw [apply_part now s hstart hv, apply_rest now s hv, apply_concat, ofChars_eq_string_iff]
  exact List.take_append_drop k.toNat s.toList

/-- The functions on strings agree that a text `t` has the position `i` in a text `s`, or none if `i` is
negative. -/
structure AgreeAt (now : Instant) (s t : String) (i : Int32) : Prop where
  indexOf : apply now .indexOf [string s, string t] = int32 i
  contains : apply now .contains [string s, string t] = boolean (decide (0 ≤ i.toInt))
  /-- At the position, `t` is cut out of `s`. -/
  part : 0 ≤ i.toInt →
    apply now .substring [string s, int32 i, apply now .length [string t]] = string t
  /-- At no smaller one it is. -/
  first : ∀ (v : Value) (j : Int), v.toInt? = some j → 0 ≤ j → j < i.toInt →
    apply now .substring [string s, v, apply now .length [string t]] ≠ string t
  startsWith : apply now .startsWith [string s, string t] = boolean (decide (i = 0))
  endsWith : apply now .endsWith [string s, string t] = boolean (decide (
    applyBinary .le (apply now .length [string t]) (apply now .length [string s]) = boolean true ∧
    apply now .substring [string s,
      applyBinary .sub (apply now .length [string s]) (apply now .length [string t])] = string t))

/-- The functions on strings agree on positions. A text is contained in another one exactly if it has a
position there, which is the first at which it is cut out; the text starts with it if that position is
zero, and ends with it if it is cut out of the end. Two parts of a text with one position between them,
wherever that is, make up the text. -/
theorem positions_agree (hs : s.length < 2 ^ 31) (ht : t.length < 2 ^ 31) :
    (∃ i, AgreeAt now s t i) ∧ ∀ (v : Value) (k : Int), v.toInt? = some k →
      apply now .concat [apply now .substring [string s, int32 0, v],
        apply now .substring [string s, v]] = string s := by
  refine ⟨?_, fun v k hv => concat_parts now hv⟩
  have hindexOf : apply now .indexOf [string s, string t] = position t.toList s.toList := rfl
  have hcontains : apply now .contains [string s, string t] =
    boolean (Text.indexOf? t.toList s.toList).isSome := rfl
  have hstarts : apply now .startsWith [string s, string t] =
    boolean (t.toList.isPrefixOf s.toList) := rfl
  have hends : apply now .endsWith [string s, string t] =
    boolean (t.toList.isSuffixOf s.toList) := rfl
  have hprefix : t.toList.isPrefixOf s.toList = true ↔
      Text.indexOf? t.toList s.toList = some 0 := by
    rw [List.isPrefixOf_iff_prefix, Text.indexOf?_eq_some_iff, List.drop_zero]
    exact (and_iff_left nofun).symm
  have hsuffix := isSuffixOf_iff now hs ht
  rw [← List.isSuffixOf_iff_suffix] at hsuffix
  cases hindex : Text.indexOf? t.toList s.toList with
  | none =>
    refine ⟨-1, ⟨?_, ?_, fun hpos => absurd hpos (by decide), fun v j _ hpos hlt => ?_, ?_, ?_⟩⟩
    · rw [hindexOf, position, hindex]
      rfl
    · rw [hcontains, hindex]
      rfl
    · exact absurd (Int.lt_of_le_of_lt hpos hlt) (by decide)
    · rw [hstarts, boolean.injEq, Bool.eq_iff_iff, hprefix, hindex]
      decide
    · rw [hends, boolean.injEq, Bool.eq_iff_iff, hsuffix, decide_eq_true_iff]
  | some n =>
    have hn : n < 2 ^ 31 := Nat.lt_of_le_of_lt (Text.le_length_of_indexOf? hindex) hs
    have htoInt : (Int32.ofNat n).toInt = n := Int32.toInt_ofNat_of_lt hn
    obtain ⟨hstands, hfirst⟩ := Text.indexOf?_eq_some_iff.mp hindex
    refine ⟨Int32.ofNat n, ⟨?_, ?_, fun _ => ?_, fun v j hv hpos hlt => ?_, ?_, ?_⟩⟩
    · rw [hindexOf, position, hindex]
      exact ofCount_eq hn
    · rw [hcontains, hindex, htoInt]
      simp
    · rw [apply_part_eq_iff now ht (v := int32 (Int32.ofNat n)) (congrArg some htoInt)]
      exact hstands
    · rw [Ne, apply_part_eq_iff now ht hv]
      exact hfirst j.toNat (by omega)
    · have hzero : Int32.ofNat n = 0 ↔ n = 0 := by
        rw [← Int32.toInt_inj, htoInt]
        exact Int.natCast_eq_zero
      rw [hstarts, boolean.injEq, Bool.eq_iff_iff, hprefix, hindex, decide_eq_true_iff, hzero]
      simp
    · rw [hends, boolean.injEq, Bool.eq_iff_iff, hsuffix, decide_eq_true_iff]

/-- The second character of `ä🧀` stands at position 1, whatever its length in bytes, and a position in
front of the text leaves it whole. -/
theorem positions_agree_cheese :
    let now := Instant.earliest
    "ä🧀ß🧀".length < 2 ^ 31 ∧ "🧀".length < 2 ^ 31 ∧ AgreeAt now "ä🧀ß🧀" "🧀" 1 ∧
      (sbyte (-3)).toInt? = some (-3) ∧
      apply now .concat [apply now .substring [string "ä🧀ß🧀", int32 0, sbyte (-3)],
        apply now .substring [string "ä🧀ß🧀", sbyte (-3)]] = string "ä🧀ß🧀" := by
  intro now
  have hs : "ä🧀ß🧀".length < 2 ^ 31 := by decide
  have ht : "🧀".length < 2 ^ 31 := by decide
  obtain ⟨⟨i, hi⟩, hparts⟩ := positions_agree now hs ht
  have hindexOf : apply now .indexOf [string "ä🧀ß🧀", string "🧀"] = int32 1 := by decide
  obtain rfl : i = 1 := int32.inj (hi.indexOf.symm.trans hindexOf)
  exact ⟨hs, ht, hi, rfl, hparts (sbyte (-3)) (-3) rfl⟩

end Positions

end Value

end ODataQuery
