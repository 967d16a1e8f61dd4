import ODataQuery.Text.Split

/-!
# Splitting and searching texts

## Main statements

- `Text.splitOn_intercalate` — splitting undoes putting separators between parts
- `Text.exists_mem_splitOn_iff` — the characters of the parts
- `Text.isSome_indexOf?` — a text has a position in the texts that it is a part of
- `Text.indexOf?_eq_some_iff` — the position is the first one at which the text stands
-/

namespace ODataQuery

namespace Text

theorem splitOn_eq (separator : Char) (cs : List Char) :
    splitOn separator cs = cs.splitOn separator := by
  induction cs with
  | nil => rfl
  | cons c cs ih =>
    rw [splitOn, ih, List.splitOn_cons_eq_if_modifyHead]
    by_cases hc : c = separator
    · simp [hc]
    · have hne := List.splitOn_ne_nil separator cs
      cases hparts : cs.splitOn separator with
      | nil => exact absurd hparts hne
      | cons part parts => simp [hc]

theorem splitOn_ne_nil (separator : Char) (cs : List Char) : splitOn separator cs ≠ [] := by
  rw [splitOn_eq]
  exact List.splitOn_ne_nil separator cs

/-- A character that is not the separator belongs to the first part. -/
theorem splitOn_cons_of_ne {separator c : Char} (h : c ≠ separator) (cs : List Char) :
    splitOn separator (c :: cs) = (splitOn separator cs).modifyHead (c :: ·) := by
  obtain ⟨part, parts, hparts⟩ := List.exists_cons_of_ne_nil (splitOn_ne_nil separator cs)
  rw [splitOn, if_neg h, hparts]
  rfl

/-- The characters of the parts are those of the text, apart from the separators. -/
theorem exists_mem_splitOn_iff {separator c : Char} {cs : List Char} :
    (∃ part ∈ splitOn separator cs, c ∈ part) ↔ c ∈ cs ∧ c ≠ separator := by
  induction cs with
  | nil => simp [splitOn]
  | cons d cs ih =>
    by_cases hd : d = separator
    · have hparts : (∃ part ∈ splitOn separator (d :: cs), c ∈ part) ↔
          ∃ part ∈ splitOn separator cs, c ∈ part := by
        rw [splitOn, if_pos hd]
        simp
      rw [hparts, ih, List.mem_cons, hd]
      exact ⟨fun h => ⟨.inr h.1, h.2⟩, fun h => ⟨h.1.resolve_left h.2, h.2⟩⟩
    · have hparts : (∃ part ∈ splitOn separator (d :: cs), c ∈ part) ↔
          c = d ∨ ∃ part ∈ splitOn separator cs, c ∈ part := by
        obtain ⟨part, parts, hparts⟩ := List.exists_cons_of_ne_nil (splitOn_ne_nil separator cs)
        rw [splitOn_cons_of_ne hd]
        simp [hparts, or_assoc]
      rw [hparts, ih, List.mem_cons]
      constructor
      · rintro (rfl | ⟨hmem, hc⟩)
        · exact ⟨.inl rfl, hd⟩
        · exact ⟨.inr hmem, hc⟩
      · rintro ⟨rfl | hmem, hc⟩
        · exact .inl rfl
        · exact .inr ⟨hmem, hc⟩

/-- A text without the separator is its only part. -/
theorem splitOn_of_not_mem {separator : Char} {cs : List Char} (h : separator ∉ cs) :
    splitOn separator cs = [cs] := by
  rw [splitOn_eq]
  exact List.splitOn_eq_singleton h

/-- Splitting undoes putting separators between parts that have none themselves. -/
theorem splitOn_intercalate {separator : Char} (parts : List (List Char)) (hne : parts ≠ [])
    (h : ∀ part ∈ parts, separator ∉ part) :
    splitOn separator ([separator].intercalate parts) = parts := by
  rw [splitOn_eq]
  exact List.splitOn_intercalate separator h hne

/-- A text has a position in exactly the texts that it is a part of. -/
theorem isSome_indexOf? (needle cs : List Char) :
    (indexOf? needle cs).isSome = true ↔ needle <:+: cs := by
  induction cs with
  | nil => simp [indexOf?]
  | cons c cs ih =>
    rw [indexOf?, List.infix_cons_iff, ← ih, ← List.isPrefixOf_iff_prefix]
    by_cases hstarts : needle.isPrefixOf (c :: cs) = true <;> simp [hstarts]

/-- The position of a text in another one is the first at which it stands there. -/
theorem indexOf?_eq_some_iff {needle cs : List Char} {n : Nat} :
    indexOf? needle cs = some n ↔ needle <+: cs.drop n ∧ ∀ m < n, ¬needle <+: cs.drop m := by
  induction cs generalizing n with
  | nil =>
    cases n with
    | zero => simp [indexOf?]
    | succ n =>
      simp only [indexOf?, List.drop_nil]
      constructor
      · intro h
        split at h <;> cases h
      · rintro ⟨h, hfirst⟩
        exact absurd h (hfirst 0 n.succ_pos)
  | cons c cs ih =>
    by_cases hstarts : needle <+: c :: cs
    · rw [indexOf?, if_pos (List.isPrefixOf_iff_prefix.mpr hstarts), Option.some.injEq]
      constructor
      · rintro rfl
        exact ⟨hstarts, nofun⟩
      · rintro ⟨_, hfirst⟩
        exact (Nat.eq_zero_of_not_pos fun hpos => hfirst 0 hpos hstarts).symm
    · rw [indexOf?, if_neg (mt List.isPrefixOf_iff_prefix.mp hstarts)]
      cases n with
      | zero => simp [hstarts]
      | succ n =>
        have hrest : (indexOf? needle cs).map (· + 1) = some (n + 1) ↔ indexOf? needle cs = some n := by
          simp
        rw [hrest, ih, List.drop_succ_cons]
        refine and_congr_right fun _ => ⟨fun hfirst m hm => ?_, fun hfirst m hm => ?_⟩
        · cases m with
          | zero => exact hstarts
          | succ m => exact hfirst m (Nat.lt_of_succ_lt_succ hm)
        · exact hfirst (m + 1) (Nat.succ_lt_succ hm)

/-- The position lies inside the text, or at its end. -/
theorem le_length_of_indexOf? {needle cs : List Char} {n : Nat} (h : indexOf? needle cs = some n) :
    n ≤ cs.length := by
  obtain ⟨hstands, hfirst⟩ := indexOf?_eq_some_iff.mp h
  refine Nat.le_of_not_lt fun hbehind => hfirst 0 (Nat.zero_lt_of_lt hbehind) ?_
  rw [List.drop_eq_nil_of_le (Nat.le_of_lt hbehind), List.prefix_nil] at hstands
  rw [hstands]
  exact List.nil_prefix

end Text

end ODataQuery
