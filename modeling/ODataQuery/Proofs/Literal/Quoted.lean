import ODataQuery.Literal.Quoted
import ODataQuery.Proofs.Lists
import ODataQuery.Proofs.Text.Split
import ODataQuery.Value.Basic

/-!
# Reading quoted literals back

## Main definitions

- `Quoted.doubled` — the content of quotes as it is written
- `Quoted.IsMember` — the names that the members of an enumeration literal can have

## Main statements

- `Quoted.string?_quoted` — a string is read back
- `Quoted.prefixed?_eq_some_iff` — what is read as a word and a content, and how it is written
- `Quoted.members?_membersText` — the names of members are read back
- `Quoted.isMember_of_members?` — the names that are read
- `Quoted.not_mem_of_members?_undoubled` — the names that are read back have no quotes
-/

namespace ODataQuery

namespace Text

-- ════════════════════════════════════════════════════════════════════════
-- White space at the ends
-- ════════════════════════════════════════════════════════════════════════

theorem dropWhile_of_head? {p : Char → Bool} {cs : List Char} (h : ∀ c ∈ cs.head?, p c = false) :
    cs.dropWhile p = cs := by
  cases cs with
  | nil => rfl
  | cons c cs => rw [List.dropWhile_cons_of_neg (by simp [h c rfl])]

theorem head?_dropWhile {p : Char → Bool} (cs : List Char) :
    ∀ c ∈ (cs.dropWhile p).head?, p c = false := by
  intro c hc
  have := List.head?_dropWhile_not p cs
  rwa [hc] at this

/-- Trimming twice is trimming once. -/
theorem trim_trim (cs : List Char) : trim (trim cs) = trim cs := by
  have hprefix : trim cs <+: cs.dropWhile isBlank := by
    rw [trim, ← List.reverse_suffix, List.reverse_reverse]
    exact List.dropWhile_suffix isBlank
  have hfront : (trim cs).dropWhile isBlank = trim cs := by
    refine dropWhile_of_head? fun c hc => head?_dropWhile cs c ?_
    obtain ⟨rest, hrest⟩ := hprefix
    rw [← hrest, List.head?_append, hc]
    rfl
  have hback : (trim cs).reverse.dropWhile isBlank = (trim cs).reverse := by
    rw [trim, List.reverse_reverse]
    exact dropWhile_of_head? (head?_dropWhile _)
  rw [trim, hfront, hback, List.reverse_reverse]

theorem mem_of_mem_trim {cs : List Char} {c : Char} (h : c ∈ trim cs) : c ∈ cs := by
  rw [trim, List.mem_reverse] at h
  have := (List.dropWhile_suffix isBlank).subset h
  rw [List.mem_reverse] at this
  exact (List.dropWhile_suffix isBlank).subset this

theorem length_trim_le (cs : List Char) : (trim cs).length ≤ cs.length := by
  have hfront := (List.dropWhile_suffix isBlank (l := cs)).length_le
  have hback := (List.dropWhile_suffix isBlank (l := (cs.dropWhile isBlank).reverse)).length_le
  rw [List.length_reverse] at hback
  rw [trim, List.length_reverse]
  exact Nat.le_trans hback hfront

/-- A trimmed text has no white space at either end. -/
theorem dropWhile_of_trim {cs : List Char} (h : trim cs = cs) :
    cs.dropWhile isBlank = cs ∧ cs.reverse.dropWhile isBlank = cs.reverse := by
  have hback := List.dropWhile_suffix isBlank (l := (cs.dropWhile isBlank).reverse)
  have hlength : cs.length ≤ (cs.dropWhile isBlank).length := by
    calc cs.length = (trim cs).length := by rw [h]
      _ ≤ (cs.dropWhile isBlank).reverse.length := by
        rw [trim, List.length_reverse]
        exact hback.length_le
      _ = (cs.dropWhile isBlank).length := List.length_reverse
  have hfront : cs.dropWhile isBlank = cs := (List.dropWhile_suffix isBlank).eq_of_length_le hlength
  refine ⟨hfront, ?_⟩
  rw [trim, hfront] at h
  rw [← List.reverse_reverse (cs.reverse.dropWhile isBlank), h]

/-- White space around a trimmed text is removed. -/
theorem trim_append {before cs after : List Char} (hbefore : ∀ c ∈ before, isBlank c = true)
    (hafter : ∀ c ∈ after, isBlank c = true) (htrim : trim cs = cs) (hne : cs ≠ []) :
    trim (before ++ cs ++ after) = cs := by
  obtain ⟨hfront, hback⟩ := dropWhile_of_trim htrim
  have hhead : ∀ c ∈ (cs ++ after).head?, isBlank c = false := by
    rw [List.head?_append_of_ne_nil cs hne, ← hfront]
    exact head?_dropWhile cs
  have hlast : ∀ c ∈ cs.reverse.head?, isBlank c = false := by
    rw [← hback]
    exact head?_dropWhile cs.reverse
  rw [trim, List.append_assoc, Lists.dropWhile_append hbefore hhead, List.reverse_append,
    Lists.dropWhile_append (fun c hc => hafter c (List.mem_reverse.mp hc)) hlast, List.reverse_reverse]

end Text

namespace Quoted

-- ════════════════════════════════════════════════════════════════════════
-- Strings
-- ════════════════════════════════════════════════════════════════════════

/-- The content of quotes as it is written, quotes in it doubled. -/
def doubled (cs : List Char) : List Char := cs.flatMap fun c => if c = '\'' then [c, c] else [c]

theorem doubled_cons (c : Char) (cs : List Char) :
    doubled (c :: cs) = (if c = '\'' then [c, c] else [c]) ++ doubled cs := rfl

theorem toList_quoted (s : String) :
    (Value.quoted s).toList = '\'' :: (doubled s.toList ++ ['\'']) := by
  rw [Value.quoted, String.toList_ofList]
  rfl

theorem undouble?_cons {c : Char} (hc : c ≠ '\'') (cs : List Char) :
    undouble? (c :: cs) = (undouble? cs).map (c :: ·) := by
  rw [undouble?.eq_def]
  exact if_neg hc

theorem undouble?_doubled (cs : List Char) : undouble? (doubled cs) = some cs := by
  induction cs with
  | nil => rfl
  | cons c cs ih =>
    rw [doubled_cons]
    by_cases hc : c = '\''
    · simp [hc, undouble?, ih]
    · rw [if_neg hc, List.singleton_append, undouble?_cons hc, ih]
      rfl

/-- A content without quotes is written as it is. -/
theorem doubled_of_not_mem {cs : List Char} (h : '\'' ∉ cs) : doubled cs = cs := by
  induction cs with
  | nil => rfl
  | cons c cs ih =>
    have hc : c ≠ '\'' := fun heq => h (heq ▸ List.mem_cons_self)
    rw [doubled_cons, if_neg hc, ih fun hmem => h (List.mem_cons_of_mem _ hmem)]
    rfl

theorem beforeFinalQuote?_append (body : List Char) :
    beforeFinalQuote? (body ++ ['\'']) = some body := by
  simp [beforeFinalQuote?]

theorem beforeFinalQuote?_eq_some {cs body : List Char} (h : beforeFinalQuote? cs = some body) :
    cs = body ++ ['\''] := by
  unfold beforeFinalQuote? at h
  split at h
  · next hreverse =>
    cases h
    rw [← List.reverse_cons, ← hreverse, List.reverse_reverse]
  · cases h

/-- Only what is written with its quotes doubled has a content. -/
theorem undouble?_eq_some {cs ds : List Char} (h : undouble? cs = some ds) : cs = doubled ds := by
  induction cs using undouble?.induct generalizing ds with
  | case1 =>
    cases h
    rfl
  | case2 rest ih =>
    obtain ⟨ds, hds, rfl⟩ := Option.map_eq_some_iff.mp h
    rw [ih hds]
    rfl
  | case3 rest hrest =>
    rw [undouble?.eq_def] at h
    split at h
    · next hnil => cases hnil
    · next hcons =>
      cases hcons
      rw [if_pos rfl] at h
      split at h
      · next rest => exact absurd rfl (hrest rest)
      · cases h
  | case4 c cs hc ih =>
    rw [undouble?_cons hc] at h
    obtain ⟨ds, hds, rfl⟩ := Option.map_eq_some_iff.mp h
    rw [doubled_cons, if_neg hc, ← ih hds]
    rfl

theorem mem_doubled {c : Char} {cs : List Char} : c ∈ doubled cs ↔ c ∈ cs := by
  rw [doubled, List.mem_flatMap]
  constructor
  · rintro ⟨d, hd, hc⟩
    split at hc <;> simp_all
  · intro hc
    refine ⟨c, hc, ?_⟩
    split <;> simp

theorem length_doubled (cs : List Char) : (doubled cs).length = cs.length + cs.count '\'' := by
  induction cs with
  | nil => rfl
  | cons c cs ih =>
    rw [doubled_cons, List.length_append, ih, List.length_cons, List.count_cons]
    by_cases hc : c = '\''
    · simp [hc]; omega
    · simp [hc]; omega

/-- Trimming does not undo the doubling of a quote. -/
theorem not_mem_of_doubled_eq_trim {cs : List Char} (h : doubled cs = Text.trim cs) : '\'' ∉ cs := by
  have hlength := congrArg List.length h
  have htrim := Text.length_trim_le cs
  rw [length_doubled] at hlength
  exact List.count_eq_zero.mp (by omega)

/-- Doubled quotes stay in the part that they belong to. -/
theorem splitOn_doubled {separator : Char} (h : separator ≠ '\'') (cs : List Char) :
    Text.splitOn separator (doubled cs) = (Text.splitOn separator cs).map doubled := by
  induction cs with
  | nil => rfl
  | cons c cs ih =>
    by_cases hc : c = separator
    · have hquote : c ≠ '\'' := hc ▸ h
      rw [doubled_cons, if_neg hquote, List.singleton_append, Text.splitOn, if_pos hc, ih,
        Text.splitOn, if_pos hc]
      rfl
    · obtain ⟨part, parts, hparts⟩ :=
        List.exists_cons_of_ne_nil (Text.splitOn_ne_nil separator cs)
      rw [Text.splitOn_cons_of_ne hc, hparts, doubled_cons]
      by_cases hquote : c = '\''
      · rw [if_pos hquote, List.cons_append, List.singleton_append, Text.splitOn_cons_of_ne hc,
          Text.splitOn_cons_of_ne hc, ih, hparts]
        simp [doubled_cons, hquote]
      · rw [if_neg hquote, List.singleton_append, Text.splitOn_cons_of_ne hc, ih, hparts]
        simp [doubled_cons, hquote]

/-- A string is read back. -/
theorem string?_quoted (s : String) : string? (Value.quoted s).toList = some s.toList := by
  rw [toList_quoted, string?, beforeFinalQuote?_append, Option.bind_some, undouble?_doubled]

-- ════════════════════════════════════════════════════════════════════════
-- Words in front of quotes
-- ════════════════════════════════════════════════════════════════════════

/-- A character of a qualified name. -/
def isNameCharacter (c : Char) : Bool := Text.isAsciiAlphanumeric c || c == '_' || c == '.'

theorem isNameCharacter_of_isQualifiedName {word : List Char} (h : isQualifiedName word = true) :
    ∀ c ∈ word, isNameCharacter c = true := by
  intro c hc
  by_cases hdot : c = '.'
  · rw [hdot]
    rfl
  · obtain ⟨part, hpart, hmem⟩ := Text.exists_mem_splitOn_iff.mpr ⟨hc, hdot⟩
    have hname := List.all_eq_true.mp h part hpart
    cases part with
    | nil => cases hmem
    | cons d ds =>
      simp only [isNamePart, Bool.and_eq_true, List.all_eq_true] at hname
      obtain ⟨hopens, hall⟩ := hname
      obtain rfl | hmem := List.mem_cons.mp hmem
      · obtain hletter | hunderscore := Bool.or_eq_true_iff.mp hopens
        · simp [isNameCharacter, Text.isAsciiAlphanumeric, hletter]
        · simp [isNameCharacter, hunderscore]
      · rw [isNameCharacter, hall c hmem]
        rfl

theorem not_mem_of_isQualifiedName {word : List Char} {c : Char} (h : isQualifiedName word = true)
    (hc : isNameCharacter c = false) : c ∉ word := by
  intro hmem
  rw [isNameCharacter_of_isQualifiedName h c hmem] at hc
  cases hc

/-- A qualified name starts with a letter or an underscore. -/
theorem exists_cons_of_isQualifiedName {word : List Char} (h : isQualifiedName word = true) :
    ∃ c cs, word = c :: cs ∧ opensName c = true := by
  cases word with
  | nil => cases h
  | cons c cs =>
    refine ⟨c, cs, rfl, ?_⟩
    rw [isQualifiedName, Text.splitOn] at h
    split at h
    · cases h
    · split at h
      · simp only [List.all_cons, isNamePart, Bool.and_eq_true] at h
        exact h.1.1
      · simp only [List.all_cons, isNamePart, Bool.and_eq_true] at h
        exact h.1.1

theorem ne_of_not_mem {d : Char} {cs : List Char} (h : d ∉ cs) : ∀ c ∈ cs, (c != d) = true := by
  intro c hc
  rw [bne_iff_ne]
  rintro rfl
  exact h hc

theorem takeWhile_word {word : List Char} (h : '\'' ∉ word) (rest : List Char) :
    (word ++ '\'' :: rest).takeWhile (· != '\'') = word ∧
      (word ++ '\'' :: rest).dropWhile (· != '\'') = '\'' :: rest := by
  have hquote : ∀ c ∈ ('\'' :: rest).head?, (c != '\'') = false := by
    intro c hc
    cases hc
    rfl
  exact ⟨Lists.takeWhile_append (ne_of_not_mem h) hquote,
    Lists.dropWhile_append (ne_of_not_mem h) hquote⟩

/-- What is read as a word and a content is written as the word and, between quotes on the same line,
the content with its quotes doubled. -/
theorem prefixed?_eq_some_iff {cs : List Char} {p : Prefixed} :
    prefixed? cs = some p ↔ isQualifiedName p.word = true ∧ '\n' ∉ p.body ∧
      cs = p.word ++ '\'' :: (doubled p.body ++ ['\'']) := by
  constructor
  · intro h
    have hsplit := List.takeWhile_append_dropWhile (p := (· != '\'')) (l := cs)
    simp only [prefixed?] at h
    split at h
    · next quote rest hdrop =>
      obtain rfl : quote = '\'' := by
        have := List.head?_dropWhile_not (· != '\'') cs
        rw [hdrop] at this
        simpa using this
      obtain ⟨inner, hinner, h⟩ := Option.bind_eq_some_iff.mp h
      split at h
      · next hform =>
        obtain ⟨body, hbody, h⟩ := Option.bind_eq_some_iff.mp h
        cases h
        obtain ⟨hword, hline⟩ := Bool.and_eq_true_iff.mp hform
        rw [undouble?_eq_some hbody] at hinner hline
        refine ⟨hword, fun hmem => ?_, ?_⟩
        · simpa using List.all_eq_true.mp hline _ (mem_doubled.mpr hmem)
        · rw [← beforeFinalQuote?_eq_some hinner, ← hdrop]
          exact hsplit.symm
      · cases h
    · cases h
  · rintro ⟨hword, hline, rfl⟩
    obtain ⟨htake, hdrop⟩ := takeWhile_word (not_mem_of_isQualifiedName hword (by decide))
      (doubled p.body ++ ['\''])
    have hlines : (doubled p.body).all (· != '\n') = true :=
      List.all_eq_true.mpr (ne_of_not_mem fun hmem => hline (mem_doubled.mp hmem))
    simp only [prefixed?, htake, hdrop, beforeFinalQuote?_append, hword, hlines, undouble?_doubled,
      Option.bind_eq_bind, Option.bind_some, Bool.and_self, if_true]
    rfl

/-- A word and a content without quotes and line breaks are read back. -/
theorem prefixed?_append {word body : List Char} (hword : isQualifiedName word = true)
    (hbody : '\'' ∉ body) (hline : '\n' ∉ body) :
    prefixed? (word ++ '\'' :: (body ++ ['\''])) = some ⟨word, body⟩ := by
  refine prefixed?_eq_some_iff.mpr ⟨hword, hline, ?_⟩
  rw [doubled_of_not_mem hbody]

/-- Without a quote there is no content. -/
theorem prefixed?_eq_none {cs : List Char} (h : '\'' ∉ cs) : prefixed? cs = none := by
  have hdrop : cs.dropWhile (· != '\'') = [] := by
    have happend : (cs ++ []).dropWhile (· != '\'') = [].dropWhile (· != '\'') :=
      List.dropWhile_append_of_pos (ne_of_not_mem h)
    rwa [List.append_nil] at happend
  simp only [prefixed?, hdrop]

-- ════════════════════════════════════════════════════════════════════════
-- Members
-- ════════════════════════════════════════════════════════════════════════

/-- A name that a member of an enumeration literal can have: it has no comma, and no white space at
its ends. -/
structure IsMember (name : String) : Prop where
  comma : ',' ∉ name.toList
  trim : Text.trim name.toList = name.toList
  ne_nil : name.toList ≠ []

/-- Members with commas between them are taken apart. -/
theorem splitOn_membersText {names : List String} (hne : names ≠ [])
    (h : ∀ name ∈ names, ',' ∉ name.toList) :
    Text.splitOn ',' (Value.membersText names).toList = names.map String.toList := by
  rw [Value.membersText, String.toList_intercalate]
  exact Text.splitOn_intercalate _ (by simpa using hne) (by simpa using h)

theorem map_ofList_map_toList (names : List String) :
    (names.map String.toList).map String.ofList = names := by
  rw [List.map_map]
  exact (List.map_congr_left fun name _ => String.ofList_toList).trans (List.map_id names)

/-- Names are read where the parts between the commas are the names, apart from white space. -/
theorem members?_of_map_trim {body : List Char} {names : List String}
    (hparts : (Text.splitOn ',' body).map Text.trim = names.map String.toList)
    (h : ∀ name ∈ names, name.toList ≠ []) : members? body = some names := by
  have hnonempty : (names.map String.toList).any List.isEmpty = false := by
    rw [List.any_eq_false]
    intro cs hcs
    obtain ⟨name, hname, rfl⟩ := List.mem_map.mp hcs
    rw [List.isEmpty_iff]
    exact h name hname
  simp only [members?, hparts, hnonempty, map_ofList_map_toList]
  rfl

/-- The names of members are read back. -/
theorem members?_membersText {names : List String} (hne : names ≠ [])
    (h : ∀ name ∈ names, IsMember name) :
    members? (Value.membersText names).toList = some names := by
  refine members?_of_map_trim ?_ fun name hname => (h name hname).ne_nil
  rw [splitOn_membersText hne fun name hname => (h name hname).comma, List.map_map]
  exact List.map_congr_left fun name hname => (h name hname).trim

theorem members?_eq_some {body : List Char} {names : List String} (h : members? body = some names) :
    names.map String.toList = (Text.splitOn ',' body).map Text.trim ∧
      ∀ name ∈ names, name.toList ≠ [] := by
  simp only [members?] at h
  split at h
  · cases h
  · next hnonempty =>
    cases h
    rw [Bool.not_eq_true, List.any_eq_false] at hnonempty
    have hback : ∀ parts : List (List Char), (parts.map String.ofList).map String.toList = parts := by
      intro parts
      rw [List.map_map]
      exact (List.map_congr_left fun part _ => String.toList_ofList).trans (List.map_id parts)
    refine ⟨hback _, fun name hname => ?_⟩
    obtain ⟨part, hpart, rfl⟩ := List.mem_map.mp hname
    rw [String.toList_ofList]
    exact fun hnil => hnonempty part hpart (List.isEmpty_iff.mpr hnil)

/-- A name that is read is a part without the white space at its ends. -/
theorem exists_part_of_members? {body : List Char} {names : List String} {name : String}
    (h : members? body = some names) (hname : name ∈ names) :
    ∃ part ∈ Text.splitOn ',' body, Text.trim part = name.toList := by
  have hmem := List.mem_map_of_mem (f := String.toList) hname
  rw [(members?_eq_some h).1] at hmem
  exact List.mem_map.mp hmem

/-- The characters of the names are characters of the content. -/
theorem mem_of_members? {body : List Char} {names : List String} {name : String} {c : Char}
    (h : members? body = some names) (hname : name ∈ names) (hc : c ∈ name.toList) :
    c ∈ body ∧ c ≠ ',' := by
  obtain ⟨part, hpart, htrim⟩ := exists_part_of_members? h hname
  rw [← htrim] at hc
  exact Text.exists_mem_splitOn_iff.mp ⟨part, hpart, Text.mem_of_mem_trim hc⟩

/-- The names of members that are read. -/
theorem isMember_of_members? {body : List Char} {names : List String}
    (h : members? body = some names) : names ≠ [] ∧ ∀ name ∈ names, IsMember name := by
  obtain ⟨hparts, hnonempty⟩ := members?_eq_some h
  constructor
  · rintro rfl
    exact Text.splitOn_ne_nil ',' body (List.map_eq_nil_iff.mp hparts.symm)
  · intro name hname
    obtain ⟨part, hpart, htrim⟩ := exists_part_of_members? h hname
    refine ⟨fun hc => (mem_of_members? h hname hc).2 rfl, ?_, hnonempty name hname⟩
    rw [← htrim, Text.trim_trim]

/-- Members are written without doubling quotes, so that names with quotes are not read back. -/
theorem not_mem_of_members?_undoubled {body : List Char} {names : List String}
    (hnames : ∀ name ∈ names, IsMember name)
    (hbody : (Value.membersText names).toList = doubled body) (h : members? body = some names) :
    ∀ name ∈ names, '\'' ∉ name.toList := by
  have hparts : (Text.splitOn ',' body).map doubled = (Text.splitOn ',' body).map Text.trim := by
    rw [← splitOn_doubled (by decide), ← hbody,
      splitOn_membersText (isMember_of_members? h).1 fun name hname => (hnames name hname).comma,
      (members?_eq_some h).1]
  intro name hname hmem
  obtain ⟨part, hpart, htrim⟩ := exists_part_of_members? h hname
  rw [← htrim] at hmem
  exact not_mem_of_doubled_eq_trim (List.map_inj_left.mp hparts part hpart)
    (Text.mem_of_mem_trim hmem)

end Quoted

end ODataQuery
