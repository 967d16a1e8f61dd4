import ODataQuery.Calendar.Duration
import ODataQuery.Proofs.Numeric.NumberText

/-!
# The form of durations

The texts of durations are written from their components. A text is taken apart exactly if it is
written in this way, and then into the components that it was written from.

## Main definitions

- `DurationText.chars` — the text with given components
- `DurationText.IsWritten` — the components that a text can have

## Main statements

- `DurationText.read?_eq_some` — what is taken apart, and into which components
-/

namespace ODataQuery.DurationText

open NumberText (AreDigits)

-- ════════════════════════════════════════════════════════════════════════
-- Texts
-- ════════════════════════════════════════════════════════════════════════

/-- A component and its letter, nothing if it is left out. -/
def componentText (digits : Option (List Char)) (letter : Char) : List Char :=
  match digits with
  | some ds => ds ++ [letter]
  | none => []

/-- Seconds with their fraction. -/
def secondsText (seconds fraction : Option (List Char)) : List Char :=
  match seconds, fraction with
  | some ds, some fs => ds ++ '.' :: (fs ++ ['S'])
  | some ds, none => ds ++ ['S']
  | none, _ => []

/-- The components that stand behind the letter `T`. -/
def clockText (t : DurationText) : List Char :=
  componentText t.hours 'H' ++ (componentText t.minutes 'M' ++ secondsText t.seconds t.fraction)

/-- The text with these components. The letter `T` is written if there is a component behind it. -/
def chars (t : DurationText) : List Char :=
  (if t.negative then ['-'] else []) ++ 'P' :: (componentText t.days 'D' ++
    if t.clockText = [] then [] else 'T' :: t.clockText)

/-- Components are digits, a fraction belongs to seconds, and there is at least one component. -/
structure IsWritten (t : DurationText) : Prop where
  days : ∀ ds ∈ t.days, AreDigits ds
  hours : ∀ ds ∈ t.hours, AreDigits ds
  minutes : ∀ ds ∈ t.minutes, AreDigits ds
  seconds : ∀ ds ∈ t.seconds, AreDigits ds
  fraction : ∀ fs ∈ t.fraction, AreDigits fs ∧ t.seconds.isSome = true
  nonempty : t.days.isSome = true ∨ t.clockText ≠ []

variable {letter other : Char} {digits seconds fraction : Option (List Char)}
  {cs ds rest : List Char} {t : DurationText}

-- ════════════════════════════════════════════════════════════════════════
-- Components
-- ════════════════════════════════════════════════════════════════════════

/-- No component of this letter comes next. -/
def Skips (letter : Char) (cs : List Char) : Prop := component letter cs = (none, cs)

theorem skips_nil (letter : Char) : Skips letter [] := rfl

theorem skips_append (hds : AreDigits ds) (hother : Text.isAsciiDigit other = false)
    (hne : other ≠ letter) (rest : List Char) : Skips letter (ds ++ other :: rest) := by
  have htake := NumberText.takeDigits?_append hds (other :: rest) (by simpa using hother)
  simp only [Skips, component, htake, if_neg hne]

theorem skips_cons (hother : Text.isAsciiDigit other = false) (rest : List Char) :
    Skips letter (other :: rest) := by
  have htake : NumberText.takeDigits? (other :: rest) = none := by
    simp only [NumberText.takeDigits?, List.takeWhile_cons, hother]
    rfl
  simp only [Skips, component, htake]

theorem skips_componentText (hdigits : ∀ ds ∈ digits, AreDigits ds)
    (hother : Text.isAsciiDigit other = false) (hne : other ≠ letter) (hrest : Skips letter rest) :
    Skips letter (componentText digits other ++ rest) := by
  cases digits with
  | none => exact hrest
  | some ds =>
    rw [componentText, List.append_assoc]
    exact skips_append (hdigits ds rfl) hother hne rest

theorem skips_secondsText (hseconds : ∀ ds ∈ seconds, AreDigits ds) (hs : 'S' ≠ letter)
    (hpoint : '.' ≠ letter) (fraction : Option (List Char)) :
    Skips letter (secondsText seconds fraction) := by
  cases seconds with
  | none => exact skips_nil letter
  | some ds =>
    cases fraction with
    | none => exact skips_append (hseconds ds rfl) rfl hs []
    | some fs => exact skips_append (hseconds ds rfl) rfl hpoint _

/-- A component is taken off if none of its letter comes behind it. -/
theorem component_componentText (hdigits : ∀ ds ∈ digits, AreDigits ds)
    (hletter : Text.isAsciiDigit letter = false) (hrest : Skips letter rest) :
    component letter (componentText digits letter ++ rest) = (digits, rest) := by
  cases digits with
  | none => exact hrest
  | some ds =>
    have htake := NumberText.takeDigits?_append (hdigits ds rfl) (letter :: rest)
      (by simpa using hletter)
    rw [componentText, List.append_assoc]
    simp only [component, List.singleton_append, htake, if_true]

/-- What is taken off is a component, and was written in front of the rest. -/
theorem componentText_of_component (h : component letter cs = (digits, rest)) :
    (∀ ds ∈ digits, AreDigits ds) ∧ componentText digits letter ++ rest = cs := by
  have hnone (h : (none, cs) = (digits, rest)) :
      (∀ ds ∈ digits, AreDigits ds) ∧ componentText digits letter ++ rest = cs := by
    cases h
    exact ⟨nofun, rfl⟩
  unfold component at h
  split at h
  · next ds c rest' htake =>
    split at h
    · next hc =>
      cases h
      refine ⟨fun _ hds => ?_, ?_⟩
      · cases hds
        exact NumberText.areDigits_of_takeDigits? htake
      · rw [componentText, List.append_assoc, ← hc]
        exact (NumberText.append_of_takeDigits? htake).symm
    · exact hnone h
  · exact hnone h

theorem secondsComponent_secondsText (hseconds : ∀ ds ∈ seconds, AreDigits ds)
    (hfraction : ∀ fs ∈ fraction, AreDigits fs ∧ seconds.isSome = true) :
    secondsComponent (secondsText seconds fraction) = (seconds, fraction, []) := by
  cases seconds with
  | none =>
    cases fraction with
    | none => rfl
    | some fs => cases (hfraction fs rfl).2
  | some ds =>
    have hds := hseconds ds rfl
    cases fraction with
    | none =>
      have htake := NumberText.takeDigits?_append hds ['S'] (by simp [Text.isAsciiDigit])
      simp only [secondsComponent, secondsText, htake]
    | some fs =>
      have htake := NumberText.takeDigits?_append hds ('.' :: (fs ++ ['S']))
        (by simp [Text.isAsciiDigit])
      have hmore := NumberText.takeDigits?_append (hfraction fs rfl).1 ['S']
        (by simp [Text.isAsciiDigit])
      simp only [secondsComponent, secondsText, htake, hmore]

theorem secondsText_of_secondsComponent (h : secondsComponent cs = (seconds, fraction, rest)) :
    (∀ ds ∈ seconds, AreDigits ds) ∧
      (∀ fs ∈ fraction, AreDigits fs ∧ seconds.isSome = true) ∧
      secondsText seconds fraction ++ rest = cs := by
  have hnone (h : (none, none, cs) = (seconds, fraction, rest)) :
      (∀ ds ∈ seconds, AreDigits ds) ∧
        (∀ fs ∈ fraction, AreDigits fs ∧ seconds.isSome = true) ∧
        secondsText seconds fraction ++ rest = cs := by
    cases h
    exact ⟨nofun, nofun, rfl⟩
  unfold secondsComponent at h
  split at h
  · next ds rest' htake =>
    cases h
    refine ⟨fun _ hds => ?_, nofun, ?_⟩
    · cases hds
      exact NumberText.areDigits_of_takeDigits? htake
    · rw [secondsText, List.append_assoc]
      exact (NumberText.append_of_takeDigits? htake).symm
  · next ds more htake =>
    split at h
    · next fs rest' hmore =>
      cases h
      refine ⟨fun _ hds => ?_, fun _ hfs => ?_, ?_⟩
      · cases hds
        exact NumberText.areDigits_of_takeDigits? htake
      · cases hfs
        exact ⟨NumberText.areDigits_of_takeDigits? hmore, rfl⟩
      · rw [NumberText.append_of_takeDigits? htake, NumberText.append_of_takeDigits? hmore]
        simp [secondsText]
    · exact hnone h
  · exact hnone h

-- ════════════════════════════════════════════════════════════════════════
-- Whole texts
-- ════════════════════════════════════════════════════════════════════════

/-- The components behind the letter `T` are read back. -/
theorem readClock?_clockText (h : t.IsWritten) :
    readClock? t.negative t.days t.clockText = some t := by
  have hskip {letter : Char} (hs : 'S' ≠ letter) (hpoint : '.' ≠ letter) :
      Skips letter (secondsText t.seconds t.fraction) :=
    skips_secondsText h.seconds hs hpoint t.fraction
  have hminute : component 'M' (componentText t.minutes 'M' ++ secondsText t.seconds t.fraction) =
      (t.minutes, secondsText t.seconds t.fraction) :=
    component_componentText h.minutes rfl (hskip (by decide) (by decide))
  have hhour : component 'H' t.clockText =
      (t.hours, componentText t.minutes 'M' ++ secondsText t.seconds t.fraction) :=
    component_componentText h.hours rfl
      (skips_componentText h.minutes rfl (by decide) (hskip (by decide) (by decide)))
  simp only [readClock?, hhour, hminute, secondsComponent_secondsText h.seconds h.fraction,
    List.isEmpty_nil, if_true]

theorem readBody?_chars (h : t.IsWritten) :
    readBody? t.negative (componentText t.days 'D' ++
      if t.clockText = [] then [] else 'T' :: t.clockText) = some t := by
  have hread := readClock?_clockText h
  by_cases hclock : t.clockText = []
  · have hday : component 'D' (componentText t.days 'D' ++ []) = (t.days, []) :=
      component_componentText h.days rfl (skips_nil 'D')
    rw [hclock] at hread
    simp only [if_pos hclock, readBody?, hday, h.nonempty.resolve_right (absurd hclock), if_true]
    exact hread
  · have hday : component 'D' (componentText t.days 'D' ++ 'T' :: t.clockText) =
        (t.days, 'T' :: t.clockText) :=
      component_componentText h.days rfl (skips_cons rfl t.clockText)
    simp only [if_neg hclock, readBody?, hday, List.isEmpty_eq_false_iff.mpr hclock,
      Bool.false_eq_true, if_false]
    exact hread

/-- A written duration is taken apart into its components. -/
theorem read?_chars (h : t.IsWritten) : read? t.chars = some t := by
  have hbody := readBody?_chars h
  unfold chars
  cases hnegative : t.negative with
  | true =>
    rw [hnegative] at hbody
    exact hbody
  | false =>
    rw [hnegative] at hbody
    exact hbody

theorem clockText_of_readClock? {negative : Bool} {days : Option (List Char)}
    (h : readClock? negative days cs = some t) :
    t.negative = negative ∧ t.days = days ∧ t.clockText = cs ∧
      ((∀ ds ∈ days, AreDigits ds) → cs ≠ [] → t.IsWritten) := by
  obtain ⟨⟨hours, cs₁⟩, hcs₁⟩ : ∃ r, component 'H' cs = r := ⟨_, rfl⟩
  obtain ⟨⟨minutes, cs₂⟩, hcs₂⟩ : ∃ r, component 'M' cs₁ = r := ⟨_, rfl⟩
  obtain ⟨⟨seconds, fraction, cs₃⟩, hcs₃⟩ : ∃ r, secondsComponent cs₂ = r := ⟨_, rfl⟩
  obtain ⟨hhours, hhour⟩ := componentText_of_component hcs₁
  obtain ⟨hminutes, hminute⟩ := componentText_of_component hcs₂
  obtain ⟨hseconds, hfraction, hsecond⟩ := secondsText_of_secondsComponent hcs₃
  simp only [readClock?, hcs₁, hcs₂, hcs₃] at h
  split at h
  · next hempty =>
    cases h
    rw [List.isEmpty_iff.mp hempty, List.append_nil] at hsecond
    have hclock : clockText ⟨negative, days, hours, minutes, seconds, fraction⟩ = cs := by
      rw [clockText, hsecond, hminute, hhour]
    exact ⟨rfl, rfl, hclock, fun hdays hne =>
      ⟨hdays, hhours, hminutes, hseconds, hfraction, .inr (hclock ▸ hne)⟩⟩
  · cases h

theorem isWritten_of_readBody? {negative : Bool} (h : readBody? negative cs = some t) :
    t.IsWritten ∧ t.negative = negative ∧
      (componentText t.days 'D' ++ if t.clockText = [] then [] else 'T' :: t.clockText) = cs := by
  obtain ⟨⟨days, cs₁⟩, hcs₁⟩ : ∃ r, component 'D' cs = r := ⟨_, rfl⟩
  obtain ⟨hdays, hday⟩ := componentText_of_component hcs₁
  simp only [readBody?, hcs₁] at h
  split at h
  · split at h
    · next hsome =>
      cases h
      exact ⟨⟨hdays, nofun, nofun, nofun, nofun, .inl hsome⟩, rfl, hday⟩
    · cases h
  · split at h
    · cases h
    · next hne =>
      rw [List.isEmpty_iff] at hne
      obtain ⟨hnegative, ht, hclock, hwritten⟩ := clockText_of_readClock? h
      refine ⟨hwritten hdays hne, hnegative, ?_⟩
      rw [hclock, if_neg hne, ht]
      exact hday
  · cases h

/-- Exactly the written durations are taken apart, each into its components. -/
theorem read?_eq_some : read? cs = some t ↔ t.IsWritten ∧ t.chars = cs := by
  constructor
  · intro h
    unfold read? at h
    split at h
    · obtain ⟨hwritten, hnegative, hbody⟩ := isWritten_of_readBody? h
      refine ⟨hwritten, ?_⟩
      rw [chars, hnegative, hbody]
      rfl
    · obtain ⟨hwritten, hnegative, hbody⟩ := isWritten_of_readBody? h
      refine ⟨hwritten, ?_⟩
      rw [chars, hnegative, hbody]
      rfl
    · cases h
  · rintro ⟨hwritten, rfl⟩
    exact read?_chars hwritten

end ODataQuery.DurationText
