import ODataQuery.Value.Guid

/-!
# Texts of identifiers

## Main definitions

- `Guid.Opens` — a text starts like an identifier

## Main statements

- `Guid.ofText?_chars` — an identifier is read back from its text
- `Guid.text_injective` — different identifiers have different texts
-/

namespace ODataQuery

namespace Guid

-- ════════════════════════════════════════════════════════════════════════
-- Order
-- ════════════════════════════════════════════════════════════════════════

/-- Digits are compared like lists of numbers. -/
theorem compareDigits_eq (ds es : List (Fin 16)) :
    compare.compareDigits ds es = Ord.compare (ds.map Fin.val) (es.map Fin.val) := by
  induction ds generalizing es with
  | nil => cases es <;> rfl
  | cons d ds ih =>
    cases es with
    | nil => rfl
    | cons e es =>
      rw [compare.compareDigits, List.map_cons, List.map_cons, List.compare_cons_cons, ih]

theorem compare_eq (a b : Guid) :
    a.compare b = Ord.compare (a.digits.map Fin.val) (b.digits.map Fin.val) :=
  compareDigits_eq a.digits b.digits

instance : Std.TransCmp compare := by
  have h : compare = compareOn fun g : Guid => g.digits.map Fin.val :=
    funext fun a => funext fun b => compare_eq a b
  rw [h]
  infer_instance

instance : Std.LawfulEqCmp compare where
  compare_self {a} := by rw [compare_eq, Std.compare_self]
  eq_of_compare {a b} h := by
    rw [compare_eq, Std.compare_eq_iff_eq, List.map_inj_right fun _ _ => Fin.val_inj.mp] at h
    cases a
    cases b
    cases h
    rfl

-- ════════════════════════════════════════════════════════════════════════
-- Text
-- ════════════════════════════════════════════════════════════════════════

theorem digit?_digitChar (d : Fin 16) : digit? (Nat.digitChar d.val) = some d := by
  revert d
  decide

/-- Digits are read back from their groups. -/
theorem readGroups?_groupChars {n : Nat} {groups : List Nat} {ds : List (Fin 16)}
    (h : ds.length = n + groups.foldr (· + ·) 0) :
    readGroups? n groups (groupChars n groups ds) = some ds := by
  induction n, groups, ds using groupChars.induct with
  | case1 ds =>
    have hnil : ds = [] := List.eq_nil_of_length_eq_zero (by simpa using h)
    rw [hnil, groupChars, readGroups?]
  | case2 n groups ds ih =>
    rw [groupChars, readGroups?]
    exact ih (by simpa using h)
  | case3 n groups =>
    rw [List.length_nil] at h
    omega
  | case4 n groups d ds ih =>
    have hrest := ih (by rw [List.length_cons] at h; omega)
    rw [groupChars, readGroups?, digit?_digitChar, hrest]
    rfl

/-- A hyphen stands in front of every group but the first. -/
theorem length_groupChars {n : Nat} {groups : List Nat} {ds : List (Fin 16)}
    (h : ds.length = n + groups.foldr (· + ·) 0) :
    (groupChars n groups ds).length = ds.length + groups.length := by
  induction n, groups, ds using groupChars.induct with
  | case1 ds =>
    rw [groupChars, h]
    rfl
  | case2 n groups ds ih =>
    have hrest := ih (by simpa using h)
    rw [groupChars, List.length_cons, hrest, List.length_cons, Nat.add_assoc]
  | case3 n groups =>
    rw [List.length_nil] at h
    omega
  | case4 n groups d ds ih =>
    have hrest := ih (by rw [List.length_cons] at h; omega)
    rw [groupChars, List.length_cons, hrest, List.length_cons]
    omega

theorem length_chars (g : Guid) : g.chars.length = 36 := by
  rw [chars, length_groupChars g.length_digits, g.length_digits]
  rfl

/-- An identifier is read back from its text. -/
theorem ofText?_chars (g : Guid) : ofText? g.chars = some g := by
  have h : readGroups? 8 laterGroups g.chars = some g.digits :=
    readGroups?_groupChars g.length_digits
  simp only [ofText?, h, Option.bind_eq_bind, Option.bind_some, g.length_digits, dite_true]

theorem ofText?_text (g : Guid) : ofText? g.text.toList = some g := by
  rw [text, String.toList_ofList]
  exact ofText?_chars g

/-- Different identifiers have different texts. -/
theorem text_injective : Function.Injective text := by
  intro a b h
  exact Option.some.inj ((ofText?_text a).symm.trans (h ▸ ofText?_text b))

/-- A text that is read has a character for each digit and a hyphen in front of every group but the
first. -/
theorem length_of_readGroups? {n : Nat} {groups : List Nat} {cs : List Char} {ds : List (Fin 16)}
    (h : readGroups? n groups cs = some ds) : cs.length = ds.length + groups.length := by
  induction n, groups, cs using readGroups?.induct generalizing ds with
  | case1 =>
    cases h
    rfl
  | case2 n groups cs ih =>
    rw [readGroups?] at h
    rw [List.length_cons, List.length_cons, ih h, Nat.add_assoc]
  | case3 n groups c cs ih =>
    rw [readGroups?] at h
    obtain ⟨d, _, h⟩ := Option.bind_eq_some_iff.mp h
    obtain ⟨rest, hrest, h⟩ := Option.bind_eq_some_iff.mp h
    cases h
    rw [List.length_cons, List.length_cons, ih hrest]
    omega
  | case4 cs n groups hempty hhyphen hdigit =>
    rw [readGroups?.eq_4 _ _ _ hdigit hempty hhyphen] at h
    cases h

/-- A text that is read consists of digits and hyphens. -/
theorem digit_or_hyphen_of_readGroups? {n : Nat} {groups : List Nat} {cs : List Char}
    {ds : List (Fin 16)} (h : readGroups? n groups cs = some ds) :
    ∀ c ∈ cs, (digit? c).isSome = true ∨ c = '-' := by
  induction n, groups, cs using readGroups?.induct generalizing ds with
  | case1 => exact nofun
  | case2 n groups cs ih =>
    rw [readGroups?] at h
    exact List.forall_mem_cons.mpr ⟨.inr rfl, ih h⟩
  | case3 n groups c cs ih =>
    rw [readGroups?] at h
    obtain ⟨d, hd, h⟩ := Option.bind_eq_some_iff.mp h
    obtain ⟨rest, hrest, _⟩ := Option.bind_eq_some_iff.mp h
    exact List.forall_mem_cons.mpr ⟨.inl (Option.isSome_of_eq_some hd), ih hrest⟩
  | case4 cs n groups hempty hhyphen hdigit =>
    rw [readGroups?.eq_4 _ _ _ hdigit hempty hhyphen] at h
    cases h

theorem length_of_ofText? {cs : List Char} (h : (ofText? cs).isSome = true) : cs.length = 36 := by
  obtain ⟨g, hg⟩ := Option.isSome_iff_exists.mp h
  obtain ⟨ds, hds, h⟩ := Option.bind_eq_some_iff.mp hg
  obtain ⟨hlength, _⟩ := Option.dite_none_right_eq_some.mp h
  rw [length_of_readGroups? hds, hlength]
  rfl

-- ════════════════════════════════════════════════════════════════════════
-- The first group
-- ════════════════════════════════════════════════════════════════════════

/-- The text starts like an identifier, with eight digits and a hyphen. -/
def Opens (cs : List Char) : Prop :=
  ∃ digits rest, cs = digits ++ '-' :: rest ∧ digits.length = 8 ∧
    ∀ c ∈ digits, (digit? c).isSome = true

theorem exists_of_readGroups? {n m : Nat} {groups : List Nat} {cs : List Char}
    {ds : List (Fin 16)} (h : readGroups? n (m :: groups) cs = some ds) :
    ∃ digits rest, cs = digits ++ '-' :: rest ∧ digits.length = n ∧
      ∀ c ∈ digits, (digit? c).isSome = true := by
  induction n generalizing cs ds with
  | zero =>
    unfold readGroups? at h
    split at h
    · cases ‹_ = []›
    · exact ⟨[], _, rfl, rfl, nofun⟩
    · omega
    · cases h
  | succ n ih =>
    cases cs with
    | nil => simp [readGroups?] at h
    | cons c cs =>
      rw [readGroups?] at h
      obtain ⟨d, hd, h⟩ := Option.bind_eq_some_iff.mp h
      obtain ⟨ds', hds, _⟩ := Option.bind_eq_some_iff.mp h
      obtain ⟨digits, rest, rfl, hlength, hdigits⟩ := ih hds
      refine ⟨c :: digits, rest, rfl, congrArg Nat.succ hlength, ?_⟩
      exact List.forall_mem_cons.mpr ⟨Option.isSome_iff_exists.mpr ⟨d, hd⟩, hdigits⟩

theorem opens_of_ofText? {cs : List Char} (h : (ofText? cs).isSome = true) : Opens cs := by
  obtain ⟨g, hg⟩ := Option.isSome_iff_exists.mp h
  obtain ⟨ds, hds, _⟩ := Option.bind_eq_some_iff.mp hg
  exact exists_of_readGroups? hds

theorem Opens.append {cs : List Char} (h : Opens cs) (rest : List Char) : Opens (cs ++ rest) := by
  obtain ⟨digits, rest', rfl, hlength, hdigits⟩ := h
  exact ⟨digits, rest' ++ rest, by simp, hlength, hdigits⟩

theorem not_opens_of_not_mem {cs : List Char} (h : '-' ∉ cs) : ¬Opens cs := by
  rintro ⟨digits, rest, rfl, _, _⟩
  exact h (List.mem_append_right _ List.mem_cons_self)

/-- Something else than a digit stands among the first eight characters. -/
theorem not_opens_of_length_lt (front : List Char) {rest : List Char} {c : Char}
    (hfront : front.length < 8) (hc : digit? c = none) : ¬Opens (front ++ c :: rest) := by
  rintro ⟨digits, rest', heq, hlength, hdigits⟩
  obtain ⟨between, rfl, hrest⟩ | ⟨between, rfl, _⟩ := List.append_eq_append_iff.mp heq
  · cases between with
    | nil =>
      rw [List.append_nil] at hlength
      omega
    | cons d between =>
      obtain rfl := (List.cons.inj hrest).1
      have := hdigits c (by simp)
      rw [hc] at this
      cases this
  · rw [List.length_append] at hfront
    omega

/-- Something else than a digit or a hyphen stands in front of all hyphens. -/
theorem not_opens_of_hyphen_not_mem {front rest : List Char} {c : Char} (hfront : '-' ∉ front)
    (hc : digit? c = none) (hne : c ≠ '-') : ¬Opens (front ++ c :: rest) := by
  rintro ⟨digits, rest', heq, hlength, hdigits⟩
  obtain ⟨between, rfl, hrest⟩ | ⟨between, rfl, hrest⟩ := List.append_eq_append_iff.mp heq
  · cases between with
    | nil => exact hne (List.cons.inj hrest).1
    | cons d between =>
      obtain rfl := (List.cons.inj hrest).1
      have := hdigits c (by simp)
      rw [hc] at this
      cases this
  · cases between with
    | nil => exact hne (List.cons.inj hrest).1.symm
    | cons d between =>
      obtain rfl := (List.cons.inj hrest).1
      exact hfront (by simp)

end Guid

end ODataQuery
