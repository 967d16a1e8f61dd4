import ODataQuery.Proofs.Calendar.Duration
import ODataQuery.Proofs.Lists
import ODataQuery.Proofs.Literal.Quoted
import ODataQuery.Proofs.Numeric.NumberText
import ODataQuery.Proofs.Numeric.Reading
import ODataQuery.Proofs.Text.Base64
import ODataQuery.Proofs.Value.Guid
import ODataQuery.Token.Lexeme

/-!
# Shapes of printed literals

Every value that a literal denotes, apart from floating point numbers, is printed in a text whose
shape shows its kind again.

## Main definitions

- `Lexeme.IsPlain` — the texts of numbers, dates and times
- `Value.IsReadable` — the values whose text denotes them again
- `Value.shape` — the shape of the text of a value

## Main statements

- `Shape.ofText?_text` — the text of a readable value has the shape of the value
-/

namespace ODataQuery

-- ════════════════════════════════════════════════════════════════════════
-- Plain texts
-- ════════════════════════════════════════════════════════════════════════

namespace Lexeme

/-- Characters of numbers, dates and times, of which the first is a digit. -/
structure IsPlain (cs : List Char) : Prop where
  numeric : ∀ c ∈ cs, isNumericCharacter c = true
  digit : startsWithDigit cs = true

theorem isNumericCharacter_of_isAsciiDigit {c : Char} (h : Text.isAsciiDigit c = true) :
    isNumericCharacter c = true := by
  simp [isNumericCharacter, Text.isAsciiAlphanumeric, h]

/-- What is written behind a clock part consists of a point and digits. -/
theorem numeric_of_readFraction? {cs ds : List Char} (h : TimeOfDay.readFraction? cs = some ds) :
    ∀ c ∈ cs, isNumericCharacter c = true := by
  unfold TimeOfDay.readFraction? at h
  split at h
  · exact nofun
  · split at h
    · next hdigits =>
      refine List.forall_mem_cons.mpr ⟨rfl, fun c hc => ?_⟩
      exact isNumericCharacter_of_isAsciiDigit (List.all_eq_true.mp hdigits.2.2 c hc)
    · cases h
  · cases h

namespace IsPlain

variable {cs : List Char}

theorem exists_cons (h : IsPlain cs) : ∃ c rest, cs = c :: rest ∧ Text.isAsciiDigit c = true := by
  have hdigit := h.digit
  cases cs with
  | nil => cases hdigit
  | cons c rest => exact ⟨c, rest, rfl, hdigit⟩

theorem quote_not_mem (h : IsPlain cs) : '\'' ∉ cs := fun hmem => by
  have := h.numeric _ hmem
  revert this
  decide

theorem date {d : Date} (h : d.HasFourDigitYear) : IsPlain d.chars := by
  obtain ⟨y₁, y₂, y₃, y₄, m₁, m₂, d₁, d₂, hchars, hdigits, _⟩ := Date.exists_chars h
  simp only [List.forall_mem_cons] at hdigits
  obtain ⟨hy₁, hy₂, hy₃, hy₄, hm₁, hm₂, hd₁, hd₂, _⟩ := hdigits
  rw [hchars]
  refine ⟨?_, hy₁⟩
  simp only [List.forall_mem_cons]
  refine ⟨?_, ?_, ?_, ?_, rfl, ?_, ?_, rfl, ?_, ?_, nofun⟩
  all_goals exact isNumericCharacter_of_isAsciiDigit (by assumption)

theorem append {rest : List Char} (h : IsPlain cs)
    (hrest : ∀ c ∈ rest, isNumericCharacter c = true) : IsPlain (cs ++ rest) := by
  obtain ⟨c, cs', rfl, hdigit⟩ := h.exists_cons
  exact ⟨List.forall_mem_append.mpr ⟨h.numeric, hrest⟩, hdigit⟩

theorem clock (t : TimeOfDay) : IsPlain t.clockChars := by
  obtain ⟨h₁, h₂, m₁, m₂, s₁, s₂, hchars, hdigits, _⟩ := t.exists_clockChars
  simp only [List.forall_mem_cons] at hdigits
  obtain ⟨hh₁, hh₂, hm₁, hm₂, hs₁, hs₂, _⟩ := hdigits
  rw [hchars]
  refine ⟨?_, hh₁⟩
  simp only [List.forall_mem_cons]
  refine ⟨?_, ?_, rfl, ?_, ?_, rfl, ?_, ?_, nofun⟩
  all_goals exact isNumericCharacter_of_isAsciiDigit (by assumption)

theorem time {t : TimeOfDay} (h : t.IsRegular) : IsPlain t.chars := by
  obtain ⟨fraction, ds, hchars, hfraction, _⟩ := TimeOfDay.exists_fraction h
  rw [hchars]
  exact (clock t).append (numeric_of_readFraction? hfraction)

theorem instant {i : Instant} (h : i.date.HasFourDigitYear) : IsPlain i.chars := by
  have hsubsecond : i.time.subsecond < 1000000000 := Nat.mod_lt _ (by decide)
  obtain ⟨ds, hfraction, _, _⟩ := Instant.exists_fraction hsubsecond
  have hdigits {n : Nat} : ∀ c ∈ Text.twoDigits n, isNumericCharacter c = true := fun c hc =>
    isNumericCharacter_of_isAsciiDigit (Text.isAsciiDigit_of_mem_paddedDigits hc)
  have hoffset : ∀ c ∈ Instant.offsetChars i.offset, isNumericCharacter c = true := by
    unfold Instant.offsetChars
    split
    · exact List.forall_mem_singleton.mpr rfl
    · refine List.forall_mem_cons.mpr ⟨by split <;> rfl, ?_⟩
      exact List.forall_mem_append.mpr ⟨hdigits, List.forall_mem_cons.mpr ⟨rfl, hdigits⟩⟩
  refine (date h).append (List.forall_mem_cons.mpr ⟨rfl, ?_⟩)
  refine List.forall_mem_append.mpr ⟨List.forall_mem_append.mpr ⟨(clock _).numeric, ?_⟩, hoffset⟩
  exact numeric_of_readFraction? hfraction

end IsPlain

end Lexeme

/-- The characters of a written duration are those of numbers. -/
theorem DurationText.IsWritten.numeric_chars {t : DurationText} (h : t.IsWritten) :
    ∀ c ∈ t.chars, Lexeme.isNumericCharacter c = true := by
  have hdigits {ds : List Char} (hds : NumberText.AreDigits ds) :
      ∀ c ∈ ds, Lexeme.isNumericCharacter c = true := fun c hc =>
    Lexeme.isNumericCharacter_of_isAsciiDigit (hds.2 c hc)
  have hcomponent {digits : Option (List Char)} {letter : Char}
      (hall : ∀ ds ∈ digits, NumberText.AreDigits ds)
      (hletter : Lexeme.isNumericCharacter letter = true) :
      ∀ c ∈ componentText digits letter, Lexeme.isNumericCharacter c = true := by
    cases digits with
    | none => exact nofun
    | some ds =>
      exact List.forall_mem_append.mpr ⟨hdigits (hall ds rfl), List.forall_mem_singleton.mpr hletter⟩
  have hseconds : ∀ c ∈ secondsText t.seconds t.fraction, Lexeme.isNumericCharacter c = true := by
    unfold secondsText
    split
    · next ds fs hds hfs =>
      refine List.forall_mem_append.mpr ⟨hdigits (h.seconds ds hds), ?_⟩
      refine List.forall_mem_cons.mpr ⟨rfl, List.forall_mem_append.mpr ⟨?_, ?_⟩⟩
      · exact hdigits (h.fraction fs hfs).1
      · exact List.forall_mem_singleton.mpr rfl
    · next ds hds _ =>
      exact List.forall_mem_append.mpr ⟨hdigits (h.seconds ds hds), List.forall_mem_singleton.mpr rfl⟩
    · exact nofun
  have hclock : ∀ c ∈ t.clockText, Lexeme.isNumericCharacter c = true :=
    List.forall_mem_append.mpr ⟨hcomponent h.hours rfl,
      List.forall_mem_append.mpr ⟨hcomponent h.minutes rfl, hseconds⟩⟩
  refine List.forall_mem_append.mpr ⟨?_, List.forall_mem_cons.mpr ⟨rfl, ?_⟩⟩
  · split
    · exact List.forall_mem_singleton.mpr rfl
    · exact nofun
  · refine List.forall_mem_append.mpr ⟨hcomponent h.days rfl, ?_⟩
    split
    · exact nofun
    · exact List.forall_mem_cons.mpr ⟨rfl, hclock⟩

/-- The characters of a duration are those of numbers. -/
theorem Duration.numeric_chars (d : Duration) :
    ∀ c ∈ d.chars, Lexeme.isNumericCharacter c = true := by
  rw [← chars_parts]
  exact d.isWritten_parts.numeric_chars

theorem Duration.not_mem_chars (d : Duration) {c : Char} (hc : Lexeme.isNumericCharacter c = false) :
    c ∉ d.chars := by
  intro hmem
  rw [d.numeric_chars c hmem] at hc
  cases hc

namespace NumberText

/-- The text of a number without its sign. -/
def body (t : NumberText) : List Char :=
  t.whole ++
    match t.fraction with
    | some ds => '.' :: ds
    | none => []

theorem chars_eq (t : NumberText) : t.chars = (if t.negative then ['-'] else []) ++ t.body := by
  rw [chars, List.append_assoc]
  rfl

theorem mem_body {t : NumberText} (h : t.IsPlain) :
    ∀ c ∈ t.body, c = '.' ∨ Text.isAsciiDigit c = true := by
  intro c hc
  obtain hc | hc := List.mem_append.mp hc
  · exact .inr (h.whole.2 c hc)
  · cases hfraction : t.fraction with
    | none =>
      rw [hfraction] at hc
      cases hc
    | some ds =>
      rw [hfraction] at hc
      obtain rfl | hc := List.mem_cons.mp hc
      · exact .inl rfl
      · exact .inr ((h.fraction ds hfraction).2 c hc)

/-- A character that is neither a point nor a digit does not stand behind the sign. -/
theorem not_mem_body {t : NumberText} (h : t.IsPlain) {c : Char} (hc : Text.isAsciiDigit c = false)
    (hpoint : c ≠ '.') : c ∉ t.body := by
  intro hmem
  obtain heq | hdigit := mem_body h c hmem
  · exact hpoint heq
  · rw [hc] at hdigit
    cases hdigit

theorem isPlain_body {t : NumberText} (h : t.IsPlain) : Lexeme.IsPlain t.body := by
  refine ⟨fun c hc => ?_, ?_⟩
  · obtain rfl | hdigit := mem_body h c hc
    · rfl
    · exact Lexeme.isNumericCharacter_of_isAsciiDigit hdigit
  · obtain ⟨hne, hdigits⟩ := h.whole
    unfold body
    cases hwhole : t.whole with
    | nil => exact absurd hwhole hne
    | cons c cs =>
      rw [hwhole] at hdigits
      exact hdigits c List.mem_cons_self

end NumberText

-- ════════════════════════════════════════════════════════════════════════
-- Forms
-- ════════════════════════════════════════════════════════════════════════

theorem Date.length_of_hasForm {cs : List Char} (h : hasForm cs = true) : cs.length = 10 := by
  unfold hasForm at h
  split at h
  · rfl
  · cases h

/-- A hyphen follows the year. -/
theorem Date.hyphen_mem_of_hasForm {cs : List Char} (h : hasForm cs = true) :
    '-' ∈ cs ∧ Lexeme.startsWithDigit cs = true := by
  unfold hasForm at h
  split at h
  · simp only [Bool.and_eq_true, beq_iff_eq, List.all_cons] at h
    obtain ⟨⟨rfl, _⟩, hdigit, _⟩ := h
    exact ⟨by simp, hdigit⟩
  · cases h

theorem TimeOfDay.colon_mem_of_hasForm {cs : List Char} (h : hasForm cs = true) : ':' ∈ cs := by
  unfold hasForm at h
  split at h
  · simp only [Bool.and_eq_true, beq_iff_eq] at h
    obtain ⟨rfl, _⟩ := h
    simp
  · simp only [Bool.and_eq_true, beq_iff_eq] at h
    obtain ⟨⟨⟨rfl, _⟩, _⟩, _⟩ := h
    simp
  · cases h

/-- The third character of an instant is a digit of the year, and a colon stands in its clock
part. -/
theorem Instant.colon_mem_of_hasForm {cs : List Char} (h : hasForm cs = true) :
    ':' ∈ cs ∧ ∀ c ∈ cs[2]?, Text.isAsciiDigit c = true := by
  unfold hasForm at h
  split at h
  · simp only [Bool.and_eq_true, beq_iff_eq, List.all_cons] at h
    obtain ⟨⟨⟨⟨⟨⟨_, _, hdigit, _⟩, _⟩, _⟩, rfl⟩, _⟩, _⟩ := h
    refine ⟨by simp, fun c hc => ?_⟩
    cases hc
    exact hdigit
  · cases h

theorem Date.third_of_hasForm {cs : List Char} (h : hasForm cs = true) :
    ∀ c ∈ cs[2]?, Text.isAsciiDigit c = true := by
  unfold hasForm at h
  split at h
  · simp only [Bool.and_eq_true, List.all_cons] at h
    intro c hc
    cases hc
    exact h.2.2.2.1
  · cases h

/-- The letter `P` opens a duration, behind its sign. -/
theorem DurationText.mem_of_read? {cs : List Char} (h : (read? cs).isSome = true) : 'P' ∈ cs := by
  unfold read? at h
  split at h
  · simp
  · simp
  · cases h

-- ════════════════════════════════════════════════════════════════════════
-- What does not start like an identifier
-- ════════════════════════════════════════════════════════════════════════

theorem Date.not_opens {d : Date} (h : d.HasFourDigitYear) (rest : List Char) :
    ¬Guid.Opens (d.chars ++ rest) := by
  obtain ⟨y₁, y₂, y₃, y₄, m₁, m₂, d₁, d₂, hchars, _, _⟩ := exists_chars h
  rw [hchars]
  exact Guid.not_opens_of_length_lt [y₁, y₂, y₃, y₄] (Nat.lt_of_sub_eq_succ rfl) rfl

theorem TimeOfDay.not_opens (t : TimeOfDay) (rest : List Char) :
    ¬Guid.Opens (t.clockChars ++ rest) := by
  obtain ⟨h₁, h₂, m₁, m₂, s₁, s₂, hchars, _⟩ := t.exists_clockChars
  rw [hchars]
  exact Guid.not_opens_of_length_lt [h₁, h₂] (Nat.lt_of_sub_eq_succ rfl) rfl

/-- What stands behind a literal: nothing, white space, a parenthesis that closes, or a comma. -/
def Lexeme.Ends (rest : List Char) : Prop := ∀ c ∈ rest.head?, c ∈ [' ', ')', ',']

/-- A text without hyphens does not start like an identifier. -/
theorem Guid.not_opens_of_ends {cs rest : List Char} (h : '-' ∉ cs) (hrest : Lexeme.Ends rest) :
    ¬Opens (cs ++ rest) := by
  cases rest with
  | nil =>
    rw [List.append_nil]
    exact not_opens_of_not_mem h
  | cons c rest =>
    have hends : ∀ d ∈ [' ', ')', ','], digit? d = none ∧ d ≠ '-' := by decide
    obtain ⟨hdigit, hne⟩ := hends c (hrest c rfl)
    exact not_opens_of_hyphen_not_mem h hdigit hne

theorem NumberText.not_opens {t : NumberText} (h : t.IsPlain) {rest : List Char}
    (hrest : Lexeme.Ends rest) : ¬Guid.Opens (t.chars ++ rest) := by
  rw [chars_eq]
  cases t.negative with
  | true => exact Guid.not_opens_of_length_lt [] (by decide) rfl
  | false => exact Guid.not_opens_of_ends (not_mem_body h (by decide) (by decide)) hrest

-- ════════════════════════════════════════════════════════════════════════
-- Readable values
-- ════════════════════════════════════════════════════════════════════════

/-- An enumeration value with the name of a type in some namespace, and with members that can be
written between quotes on one line. -/
structure EnumValue.IsReadable (e : EnumValue) : Prop where
  qualified : Quoted.isQualifiedName e.typeName.toList = true
  dotted : '.' ∈ e.typeName.toList
  ne_nil : e.members ≠ []
  isMember : ∀ name ∈ e.members, Quoted.IsMember name
  quote : ∀ name ∈ e.members, '\'' ∉ name.toList
  line : ∀ name ∈ e.members, '\n' ∉ name.toList

/-- The members are written on one line and without quotes. -/
theorem EnumValue.IsReadable.not_mem_membersText {e : EnumValue} (h : e.IsReadable) :
    '\'' ∉ (Value.membersText e.members).toList ∧ '\n' ∉ (Value.membersText e.members).toList := by
  have hnot {c : Char} (hcomma : c ≠ ',') (hnames : ∀ name ∈ e.members, c ∉ name.toList) :
      c ∉ (Value.membersText e.members).toList := by
    intro hmem
    obtain ⟨part, hpart, hmem⟩ := Text.exists_mem_splitOn_iff.mpr ⟨hmem, hcomma⟩
    rw [Quoted.splitOn_membersText h.ne_nil fun name hname => (h.isMember name hname).comma] at hpart
    obtain ⟨name, hname, rfl⟩ := List.mem_map.mp hpart
    exact hnames name hname hmem
  exact ⟨hnot (by decide) h.quote, hnot (by decide) h.line⟩

namespace Value

/-- The values, apart from floating point numbers, whose text denotes them again. -/
def IsReadable : Value → Prop
  | single _ | double _ => False
  | decimal d => d.IsReadable
  | date d => d.HasFourDigitYear
  | dateTimeOffset i => i.date.HasFourDigitYear
  | timeOfDay t => t.IsRegular
  | enumeration e => e.IsReadable
  | _ => True

theorem toList_text_binary (bytes : List UInt8) :
    (text (binary bytes)).toList =
      "binary".toList ++ '\'' :: ((Base64.encodeUrl bytes).toList ++ ['\'']) := by
  simp [text]

theorem toList_text_duration (d : Duration) :
    (text (duration d)).toList = "duration".toList ++ '\'' :: (d.chars ++ ['\'']) := by
  simp [text, Duration.text]

theorem toList_text_enumeration (e : EnumValue) :
    (text (enumeration e)).toList =
      e.typeName.toList ++ '\'' :: ((membersText e.members).toList ++ ['\'']) := by
  simp [text]

/-- The shape of the text of a value. -/
def shape : Value → Shape
  | null => .null
  | boolean _ => .boolean
  | byte _ | sbyte _ | int16 _ | int32 _ | int64 _ => .integer
  | single _ | double _ => .double
  | decimal d => if d.scale = 0 then .integer else .decimal
  | string _ => .string
  | binary _ => .binary
  | date _ => .date
  | timeOfDay _ => .timeOfDay
  | dateTimeOffset _ => .dateTimeOffset
  | duration _ => .prefixedDuration
  | guid _ => .guid
  | enumeration _ => .enumeration

end Value

namespace Shape

-- ════════════════════════════════════════════════════════════════════════
-- Words, identifiers and quotes
-- ════════════════════════════════════════════════════════════════════════

/-- The literals that are words. -/
def words : List (List Char) :=
  ["null".toList, "true".toList, "false".toList, "INF".toList, "-INF".toList, "NaN".toList]

theorem ofText?_of_not_mem_words {cs : List Char} (h : cs ∉ words) :
    ofText? cs =
      if (Guid.ofText? cs).isSome then some guid
      else if cs.head? = some '\'' then some string
      else (Quoted.prefixed? cs).elim (ofPlain? cs) fun p => ofWord? p.word := by
  simp only [words, List.mem_cons, List.not_mem_nil, or_false, not_or] at h
  obtain ⟨hnull, htrue, hfalse, hinf, hminus, hnan⟩ := h
  rw [ofText?, if_neg hnull, if_neg (not_or.mpr ⟨htrue, hfalse⟩),
    if_neg (not_or.mpr ⟨hinf, not_or.mpr ⟨hminus, hnan⟩⟩)]
  cases Quoted.prefixed? cs <;> rfl

/-- No word has a digit or a quote. -/
theorem not_mem_words {cs : List Char} {c : Char} (hmem : c ∈ cs)
    (hc : Text.isAsciiDigit c = true ∨ c = '\'') : cs ∉ words := by
  intro hword
  have hall : ∀ word ∈ words, ∀ d ∈ word, Text.isAsciiDigit d = false ∧ d ≠ '\'' := by decide
  obtain ⟨hdigit, hquote⟩ := hall cs hword c hmem
  obtain hc | hc := hc
  · rw [hdigit] at hc
    cases hc
  · exact hquote hc

/-- An identifier is longer than the words. -/
theorem ofText?_of_guid {cs : List Char} (h : (Guid.ofText? cs).isSome = true) :
    ofText? cs = some guid := by
  have hword : cs ∉ words := by
    intro hword
    have hshort : ∀ word ∈ words, word.length < 8 := by decide
    obtain ⟨digits, rest, heq, hlength, _⟩ := Guid.opens_of_ofText? h
    have := hshort cs hword
    rw [heq, List.length_append] at this
    omega
  rw [ofText?_of_not_mem_words hword, if_pos h]

theorem ofText?_quoted (s : String) : ofText? (Value.quoted s).toList = some string := by
  rw [Quoted.toList_quoted]
  have hguid : ¬(Guid.ofText? ('\'' :: (Quoted.doubled s.toList ++ ['\'']))).isSome = true := fun h =>
    Guid.not_opens_of_length_lt [] (by decide) rfl (Guid.opens_of_ofText? h)
  have hword : '\'' :: (Quoted.doubled s.toList ++ ['\'']) ∉ words :=
    not_mem_words List.mem_cons_self (.inr rfl)
  rw [ofText?_of_not_mem_words hword, if_neg hguid]
  exact if_pos rfl

/-- The word in front of quotes tells the shape. -/
theorem ofText?_word {word body : List Char} (hword : Quoted.isQualifiedName word = true)
    (hbody : '\'' ∉ body) (hline : '\n' ∉ body) :
    ofText? (word ++ '\'' :: (body ++ ['\''])) = ofWord? word := by
  have hquote : '\'' ∉ word := Quoted.not_mem_of_isQualifiedName hword (by decide)
  have hhyphen : '-' ∉ word := Quoted.not_mem_of_isQualifiedName hword (by decide)
  have hguid : ¬(Guid.ofText? (word ++ '\'' :: (body ++ ['\'']))).isSome = true := fun h =>
    Guid.not_opens_of_hyphen_not_mem hhyphen (by decide) (by decide) (Guid.opens_of_ofText? h)
  have hhead : (word ++ '\'' :: (body ++ ['\''])).head? ≠ some '\'' := by
    cases word with
    | nil => exact absurd hword (by decide)
    | cons c cs =>
      intro heq
      obtain rfl := Option.some.inj heq
      exact hquote List.mem_cons_self
  have hwords : word ++ '\'' :: (body ++ ['\'']) ∉ words :=
    not_mem_words (c := '\'') (by simp) (.inr rfl)
  rw [ofText?_of_not_mem_words hwords, if_neg hguid, if_neg hhead,
    Quoted.prefixed?_append hword hbody hline]
  rfl

/-- A word with a point announces an enumeration literal. -/
theorem ofWord?_of_dotted {word : List Char} (h : '.' ∈ word) : ofWord? word = some enumeration := by
  have hword {other : List Char} (hother : '.' ∉ other.map Char.toLower) :
      sameWord word other = false := by
    refine beq_eq_false_iff_ne.mpr fun heq => hother ?_
    rw [← heq]
    exact List.mem_map.mpr ⟨'.', h, rfl⟩
  have hx : (word == ['X']) = false := by
    refine beq_eq_false_iff_ne.mpr ?_
    rintro rfl
    exact absurd h (by decide)
  have hbinary : isBinaryWord word = false := by
    rw [isBinaryWord, hword (by decide), hx]
    rfl
  have hduration : isDurationWord word = false := hword (by decide)
  simp [ofWord?, hbinary, hduration, h]

-- ════════════════════════════════════════════════════════════════════════
-- Plain texts
-- ════════════════════════════════════════════════════════════════════════

/-- A text without quotes that does not start like an identifier is plain, if it has a digit. -/
theorem ofText?_of_digit {cs : List Char} {c : Char} (hmem : c ∈ cs)
    (hc : Text.isAsciiDigit c = true) (hguid : ¬Guid.Opens cs) (hquote : '\'' ∉ cs) :
    ofText? cs = ofPlain? cs := by
  have hnone : ¬(Guid.ofText? cs).isSome = true := fun h => hguid (Guid.opens_of_ofText? h)
  have hhead : cs.head? ≠ some '\'' := fun h => hquote (List.mem_of_head? h)
  rw [ofText?_of_not_mem_words (not_mem_words hmem (.inl hc)), if_neg hnone, if_neg hhead,
    Quoted.prefixed?_eq_none hquote]
  rfl

theorem ofText?_of_isPlain {cs : List Char} (h : Lexeme.IsPlain cs) (hguid : ¬Guid.Opens cs) :
    ofText? cs = ofPlain? cs := by
  obtain ⟨c, rest, rfl, hdigit⟩ := h.exists_cons
  exact ofText?_of_digit List.mem_cons_self hdigit hguid h.quote_not_mem

theorem ofText?_date {d : Date} (h : d.HasFourDigitYear) : ofText? d.chars = some date := by
  have hguid : ¬Guid.Opens d.chars := by simpa using Date.not_opens h []
  rw [ofText?_of_isPlain (.date h) hguid, ofPlain?, if_pos (Date.hasForm_chars h)]

theorem ofText?_dateTimeOffset {i : Instant} (h : i.date.HasFourDigitYear) :
    ofText? i.chars = some dateTimeOffset := by
  have hguid : ¬Guid.Opens i.chars := Date.not_opens h _
  have hdate : ¬Date.hasForm i.chars = true := by
    intro hform
    have hlength := Date.length_of_hasForm hform
    rw [Instant.chars, List.length_append, Date.length_of_hasForm (Date.hasForm_chars h),
      List.length_cons] at hlength
    omega
  rw [ofText?_of_isPlain (.instant h) hguid, ofPlain?, if_neg hdate,
    if_pos (Instant.hasForm_chars h)]

theorem ofText?_timeOfDay {t : TimeOfDay} (h : t.IsRegular) : ofText? t.chars = some timeOfDay := by
  obtain ⟨fraction, ds, hchars, _, _⟩ := TimeOfDay.exists_fraction h
  have hguid : ¬Guid.Opens t.chars := by
    rw [hchars]
    exact TimeOfDay.not_opens t fraction
  -- A colon stands where dates and instants have a digit of the year.
  have hthird : ¬∀ c ∈ t.chars[2]?, Text.isAsciiDigit c = true := by
    obtain ⟨h₁, h₂, m₁, m₂, s₁, s₂, hclock, _⟩ := t.exists_clockChars
    rw [hchars, hclock]
    intro hall
    exact absurd (hall ':' rfl) (by decide)
  have hdate : ¬Date.hasForm t.chars = true := fun hform => hthird (Date.third_of_hasForm hform)
  have hinstant : ¬Instant.hasForm t.chars = true := fun hform =>
    hthird (Instant.colon_mem_of_hasForm hform).2
  rw [ofText?_of_isPlain (.time h) hguid, ofPlain?, if_neg hdate, if_neg hinstant,
    if_pos (TimeOfDay.hasForm_chars h)]

/-- The shape of a number without an exponent. -/
theorem ofText?_number {t : NumberText} (h : t.IsPlain) :
    ofText? t.chars = some (if t.fraction.isNone then integer else decimal) := by
  have hbody := NumberText.isPlain_body h
  obtain ⟨d, rest, hcons, hdigit⟩ := hbody.exists_cons
  have hmem : d ∈ t.chars := by
    rw [NumberText.chars_eq, hcons]
    simp
  have hsign {c : Char} (hc : Text.isAsciiDigit c = false) (hpoint : c ≠ '.') (hminus : c ≠ '-') :
      c ∉ t.chars := by
    rw [NumberText.chars_eq]
    intro hmem
    obtain hmem | hmem := List.mem_append.mp hmem
    · cases hnegative : t.negative with
      | true =>
        rw [hnegative] at hmem
        exact hminus (List.mem_singleton.mp hmem)
      | false =>
        rw [hnegative] at hmem
        cases hmem
    · exact NumberText.not_mem_body h hc hpoint hmem
  have hends : Lexeme.Ends [] := fun c hc => by cases hc
  have hguid : ¬Guid.Opens t.chars := by simpa using NumberText.not_opens h hends
  have hdate : ¬Date.hasForm t.chars = true := by
    intro hform
    obtain ⟨hhyphen, hstart⟩ := Date.hyphen_mem_of_hasForm hform
    rw [NumberText.chars_eq] at hhyphen hstart
    cases hnegative : t.negative with
    | true =>
      rw [hnegative] at hstart
      cases hstart
    | false =>
      rw [hnegative] at hhyphen
      exact NumberText.not_mem_body h (by decide) (by decide) hhyphen
  have hcolon : ':' ∉ t.chars := hsign (by decide) (by decide) (by decide)
  have hinstant : ¬Instant.hasForm t.chars = true := fun hform =>
    hcolon (Instant.colon_mem_of_hasForm hform).1
  have htime : ¬TimeOfDay.hasForm t.chars = true := fun hform =>
    hcolon (TimeOfDay.colon_mem_of_hasForm hform)
  have hduration : ¬(DurationText.read? t.chars).isSome = true := fun hform =>
    hsign (by decide) (by decide) (by decide) (DurationText.mem_of_read? hform)
  have hquote : '\'' ∉ t.chars := hsign (by decide) (by decide) (by decide)
  rw [ofText?_of_digit hmem hdigit hguid hquote, ofPlain?, if_neg hdate, if_neg hinstant,
    if_neg htime, if_neg hduration, NumberText.read?_chars h]
  cases hfraction : t.fraction <;>
    simp [NumberText.isInteger, NumberText.isDecimal, hfraction, h.exponent]

end Shape

-- ════════════════════════════════════════════════════════════════════════
-- Values
-- ════════════════════════════════════════════════════════════════════════

namespace Value

/-- The text of a readable value has the shape of the value. -/
theorem shape_text {v : Value} (h : v.IsReadable) : Shape.ofText? v.text.toList = some v.shape := by
  have hinteger (n : Int) : Shape.ofText? (Text.integerText n).toList = some .integer := by
    rw [NumberText.integerText_eq, String.toList_ofList]
    exact Shape.ofText?_number (NumberText.isPlain_ofInt n)
  cases v with
  | null => rfl
  | boolean b => cases b <;> rfl
  | byte n | sbyte n | int16 n | int32 n | int64 n => exact hinteger _
  | single x | double x => exact absurd h id
  | decimal d =>
    rw [text, Decimal.text_eq, String.toList_ofList, Shape.ofText?_number d.isPlain_numberText]
    by_cases hscale : d.scale = 0
    · simp [shape, Decimal.numberText, hscale]
    · simp [shape, Decimal.numberText, hscale]
  | string s => exact Shape.ofText?_quoted s
  | binary bytes =>
    rw [toList_text_binary]
    refine Shape.ofText?_word rfl (fun hmem => ?_) fun hmem => ?_
    · exact (Base64.ne_of_mem_encodeUrl hmem).2.1 rfl
    · exact (Base64.ne_of_mem_encodeUrl hmem).2.2 rfl
  | date d =>
    rw [text, Date.text, String.toList_ofList]
    exact Shape.ofText?_date h
  | timeOfDay t =>
    rw [text, TimeOfDay.text, String.toList_ofList]
    exact Shape.ofText?_timeOfDay h
  | dateTimeOffset i =>
    rw [text, Instant.text, String.toList_ofList]
    exact Shape.ofText?_dateTimeOffset h
  | duration d =>
    rw [toList_text_duration]
    exact Shape.ofText?_word rfl (d.not_mem_chars (by decide)) (d.not_mem_chars (by decide))
  | guid g =>
    rw [text, Guid.text, String.toList_ofList]
    exact Shape.ofText?_of_guid (by rw [Guid.ofText?_chars]; rfl)
  | enumeration e =>
    obtain ⟨hquote, hline⟩ := h.not_mem_membersText
    rw [toList_text_enumeration, Shape.ofText?_word h.qualified hquote hline]
    exact Shape.ofWord?_of_dotted h.dotted

end Value

end ODataQuery
