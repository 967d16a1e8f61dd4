import Mathlib.Data.List.Forall2

/-!
# Lists

Quantifiers over the members of a list, the longest start of a list that passes a test, and tests of
the elements of two lists that are paired by their positions.
-/

namespace ODataQuery

namespace Lists

variable {α β : Type}

/-- Quantifiers over the members of a list are decided member by member, also where the type of the
members is finite. -/
instance (priority := high) decidableForallMem (as : List α) (p : α → Prop) [DecidablePred p] :
    Decidable (∀ a ∈ as, p a) :=
  List.decidableBAll p as

/-- What a function gathers of the elements of a list, one after the other, has what it gathers of
each of them. -/
theorem subset_of_mem {gather : α → List β} {all : List α → List β}
    (hcons : ∀ a as, all (a :: as) = gather a ++ all as) {a : α} {as : List α} (h : a ∈ as) :
    gather a ⊆ all as := by
  induction as with
  | nil => cases h
  | cons a' as ih =>
    rw [hcons]
    obtain rfl | h := List.mem_cons.mp h
    · exact List.subset_append_left _ _
    · exact List.subset_append_of_subset_right _ (ih h)

/-- The elements that pass a test, in front of one that does not, are what is taken. -/
theorem takeWhile_append {test : α → Bool} {as rest : List α} (h : ∀ a ∈ as, test a = true)
    (hrest : ∀ a ∈ rest.head?, test a = false) : (as ++ rest).takeWhile test = as := by
  rw [List.takeWhile_append_of_pos h]
  cases rest with
  | nil => exact List.append_nil as
  | cons a rest =>
    rw [List.takeWhile_cons, hrest a rfl, if_neg Bool.false_ne_true, List.append_nil]

/-- What is taken of two lists in a row looks no further than the first element of the second one, if
it lies in the first one. -/
theorem takeWhile_append_congr {test : α → Bool} {as rest rest' : List α}
    (hhead : rest'.head? = rest.head?) (h : ((as ++ rest).takeWhile test).length ≤ as.length) :
    (as ++ rest').takeWhile test = (as ++ rest).takeWhile test := by
  induction as with
  | nil =>
    have hnone : rest.takeWhile test = [] := List.eq_nil_of_length_eq_zero (Nat.le_zero.mp h)
    cases rest with
    | nil => rw [List.head?_eq_none_iff.mp hhead]
    | cons a rest =>
      obtain ⟨_, rfl⟩ := List.head?_eq_some_iff.mp hhead
      have ha : ¬test a = true := fun ha => by simp [ha] at hnone
      simp [ha]
  | cons a as ih =>
    simp only [List.cons_append, List.takeWhile_cons] at h ⊢
    by_cases ha : test a = true
    · rw [if_pos ha] at h
      rw [if_pos ha, if_pos ha, ih (Nat.le_of_succ_le_succ h)]
    · rw [if_neg ha, if_neg ha]

/-- What stands behind the elements that pass a test is left. -/
theorem dropWhile_append {test : α → Bool} {as rest : List α} (h : ∀ a ∈ as, test a = true)
    (hrest : ∀ a ∈ rest.head?, test a = false) : (as ++ rest).dropWhile test = rest := by
  rw [List.dropWhile_append_of_pos h]
  cases rest with
  | nil => rfl
  | cons a rest => rw [List.dropWhile_cons, hrest a rfl, if_neg Bool.false_ne_true]

/-- Choosing some elements of a list of different ones gives them in its order. -/
theorem filter_contains_of_sublist [BEq α] [LawfulBEq α] {as bs : List α} (hnodup : bs.Nodup)
    (h : as.Sublist bs) : bs.filter as.contains = as := by
  induction h with
  | slnil => rfl
  | cons b h ih =>
    obtain ⟨hb, hnodup⟩ := List.nodup_cons.mp hnodup
    rw [List.filter_cons_of_neg (by simpa using fun hmem => hb (h.subset hmem)), ih hnodup]
  | @cons_cons as bs a h ih =>
    obtain ⟨ha, hnodup⟩ := List.nodup_cons.mp hnodup
    have hrest : bs.filter (a :: as).contains = bs.filter as.contains := by
      refine List.filter_congr fun b hb => ?_
      have hne : b ≠ a := fun heq => ha (heq ▸ hb)
      simp [hne]
    rw [List.filter_cons_of_pos (by simp), hrest, ih hnodup]

/-- Tests that agree on the pairs of two lists of equal length have the same outcomes. -/
theorem map_eq_map_of_zip {as : List α} {bs : List β} {test : α → Bool} {test' : β → Bool}
    (hlength : bs.length = as.length) (h : ∀ i ∈ as.zip bs, test' i.2 = test i.1) :
    bs.map test' = as.map test := by
  induction as generalizing bs with
  | nil =>
    rw [List.eq_nil_of_length_eq_zero hlength]
    rfl
  | cons a as ih =>
    cases bs with
    | nil => cases hlength
    | cons b bs =>
      have hrest := ih (Nat.succ.inj hlength) fun i hi => h i (List.mem_cons_of_mem _ hi)
      rw [List.map_cons, List.map_cons, hrest, h (a, b) List.mem_cons_self]

/-- Every element of the second of two lists of equal length has a partner in the first. -/
theorem exists_mem_zip {as : List α} {bs : List β} {b : β} (hlength : bs.length = as.length)
    (hb : b ∈ bs) : ∃ a, (a, b) ∈ as.zip bs := by
  induction as generalizing bs with
  | nil =>
    rw [List.eq_nil_of_length_eq_zero hlength] at hb
    cases hb
  | cons a as ih =>
    cases bs with
    | nil => cases hb
    | cons c bs =>
      obtain rfl | hb := List.mem_cons.mp hb
      · exact ⟨a, List.mem_cons_self⟩
      · obtain ⟨a', ha'⟩ := ih (Nat.succ.inj hlength) hb
        exact ⟨a', List.mem_cons_of_mem _ ha'⟩

theorem any_eq_any_map (as : List α) (test : α → Bool) : as.any test = (as.map test).any id := by
  rw [List.any_map]
  rfl

theorem all_eq_all_map (as : List α) (test : α → Bool) : as.all test = (as.map test).all id := by
  rw [List.all_map]
  rfl

/-- The partner of an element of two related lists. -/
theorem exists_getElem?_of_forall₂ {r : α → β → Prop} {as : List α} {bs : List β} {i : Nat} {a : α}
    (h : List.Forall₂ r as bs) (ha : as[i]? = some a) : ∃ b, bs[i]? = some b ∧ r a b := by
  induction h generalizing i with
  | nil => cases ha
  | cons hfirst _ ih =>
    cases i with
    | zero =>
      cases ha
      exact ⟨_, rfl, hfirst⟩
    | succ i => exact ih ha

end Lists

end ODataQuery
