import ODataQuery.Proofs.Result
import ODataQuery.Proofs.Search.Printing

/-!
# Searches are read back

Every print of a search is read as that search, if the bound on nesting allows for the negations and
parentheses of the print.

## Main definitions

- `SearchCursor.Shows` — the tokens from a cursor on
- `Search.nesting` — the levels that a search takes in a place
- `Search.Reads` — tokens are read as a search by the reader of a place, whatever follows

## Main statements

- `Search.Prints.reads` — the tokens of a print are read as the search
- `Search.ofText_of_isPrintedAs` — the prints of a search are read as the search
-/

namespace ODataQuery

-- ════════════════════════════════════════════════════════════════════════
-- Cursors
-- ════════════════════════════════════════════════════════════════════════

namespace SearchCursor

/-- The tokens from the cursor on, up to the end of the text. -/
structure Shows (c : SearchCursor) (ts : List SearchToken) : Prop where
  fault : c.rest.fault = none
  tokens : c.current :: c.rest.tokens.map Prod.fst = ts ++ [.endOfText]

namespace Shows

variable {c : SearchCursor} {t : SearchToken} {ts : List SearchToken}

theorem current_eq (h : c.Shows ts) : c.current = ts.headD .endOfText := by
  have htokens := h.tokens
  cases ts with
  | nil => exact (List.cons.inj htokens).1
  | cons t ts => exact (List.cons.inj htokens).1

/-- The tokens behind the cursor are as many as it shows, the end of the text included. -/
theorem length_rest (h : c.Shows ts) : c.rest.tokens.length = ts.length := by
  have hlength := congrArg List.length h.tokens
  rw [List.length_cons, List.length_map, List.length_append, List.length_singleton] at hlength
  exact Nat.succ.inj hlength

/-- The next cursor shows the tokens behind the first one. -/
theorem advance (h : c.Shows (t :: ts)) :
    ∃ c', SearchReading.advance c = .ok (c.offset, c') ∧ c'.Shows ts := by
  obtain ⟨hfault, htokens⟩ := h
  have hrest : c.rest.tokens.map Prod.fst = ts ++ [.endOfText] := (List.cons.inj htokens).2
  obtain ⟨current, offset, ⟨tokens, fault⟩⟩ := c
  cases hfault
  cases tokens with
  | nil => simp at hrest
  | cons next tokens => exact ⟨⟨next.1, next.2, ⟨tokens, none⟩⟩, rfl, rfl, hrest⟩

end Shows

end SearchCursor

namespace Search

open SearchReading

variable {operand : SearchReading Search} {c : SearchCursor} {ts rest : List SearchToken}
  {left right search : Search} {limit : Nat}

-- ════════════════════════════════════════════════════════════════════════
-- Chains
-- ════════════════════════════════════════════════════════════════════════

/-- The first of the tokens neither is `AND` nor starts an operand, so that conjuncts end in front of
it. -/
def EndsConjuncts (ts : List SearchToken) : Prop :=
  ts.headD .endOfText ≠ .and ∧ (ts.headD .endOfText).startsOperand = false

/-- The first of the tokens starts an operand. -/
def StartsOperand (ts : List SearchToken) : Prop :=
  ∃ t ts', ts = t :: ts' ∧ t.startsOperand = true

/-- The tokens are read as the search, whatever follows. -/
def OperandReads (operand : SearchReading Search) (search : Search) (ts : List SearchToken) : Prop :=
  ∀ ⦃c rest⦄, c.Shows (ts ++ rest) → ∃ c', operand c = .ok (search, c') ∧ c'.Shows rest

/-- At the tokens, a reader of conjunctions comes to have read the search, whatever follows, and may read
more conjuncts than there are tokens left. -/
def ConjunctionReads (operand : SearchReading Search) (search : Search) (ts : List SearchToken) : Prop :=
  ∀ ⦃c rest⦄, c.Shows (ts ++ rest) →
    ∃ limit c', conjunction operand c = conjuncts operand limit search c' ∧ c'.Shows rest ∧
      rest.length < limit

/-- The same of a reader of disjunctions in front of what is no conjunct. -/
def DisjunctionReads (operand : SearchReading Search) (search : Search) (ts : List SearchToken) : Prop :=
  ∀ ⦃c rest⦄, c.Shows (ts ++ rest) → EndsConjuncts rest →
    ∃ limit c', disjunction operand c = disjuncts operand limit search c' ∧ c'.Shows rest ∧
      rest.length < limit

theorem conjuncts_stop (h : c.Shows rest) (hends : EndsConjuncts rest) (hlimit : rest.length < limit) :
    conjuncts operand limit search c = .ok (search, c) := by
  obtain ⟨hand, hstarts⟩ := hends
  rw [← h.current_eq] at hand hstarts
  cases limit with
  | zero => omega
  | succ limit =>
    show (if c.current = .and then _ else _ : SearchReading Search) c = _
    rw [if_neg hand, hstarts]
    rfl

theorem disjuncts_stop (h : c.Shows rest) (hends : rest.headD .endOfText ≠ .or)
    (hlimit : rest.length < limit) : disjuncts operand limit search c = .ok (search, c) := by
  rw [← h.current_eq] at hends
  cases limit with
  | zero => omega
  | succ limit =>
    show (if c.current = .or then _ else _ : SearchReading Search) c = _
    rw [if_neg hends]
    rfl

theorem OperandReads.conjunction (h : OperandReads operand search ts) :
    ConjunctionReads operand search ts := by
  intro c rest hc
  obtain ⟨c', hread, hc'⟩ := h hc
  refine ⟨c'.rest.tokens.length + 1, c', ?_, hc', by rw [hc'.length_rest]; exact Nat.lt_succ_self _⟩
  rw [Search.conjunction, Result.run_bind, hread]
  rfl

theorem ConjunctionReads.disjunction (h : ConjunctionReads operand search ts) :
    DisjunctionReads operand search ts := by
  intro c rest hc hends
  obtain ⟨limit, c', hread, hc', hlimit⟩ := h hc
  refine ⟨c'.rest.tokens.length + 1, c', ?_, hc', by rw [hc'.length_rest]; exact Nat.lt_succ_self _⟩
  rw [Search.disjunction, Result.run_bind, hread, conjuncts_stop hc' hends hlimit]
  rfl

/-- A reader that has come to a chain goes on behind an operator, if the chain takes that operator and
another operand in one step. -/
theorem exists_chain_step {whole next : SearchReading Search}
    {chain : Nat → Search → SearchReading Search} {combine : Search → Search → Search}
    {t : SearchToken} {ts' : List SearchToken}
    (hleft : ∃ limit c₁, whole c = chain limit left c₁ ∧ c₁.Shows (t :: (ts' ++ rest)) ∧
      (t :: (ts' ++ rest)).length < limit)
    (hright : ∀ ⦃c₂⦄, c₂.Shows (ts' ++ rest) → ∃ c', next c₂ = .ok (right, c') ∧ c'.Shows rest)
    (hstep : ∀ ⦃limit offset c₁ c₂ c'⦄, c₁.current = t → advance c₁ = .ok (offset, c₂) →
      next c₂ = .ok (right, c') →
      chain (limit + 1) left c₁ = chain limit (combine left right) c') :
    ∃ limit c', whole c = chain limit (combine left right) c' ∧ c'.Shows rest ∧
      rest.length < limit := by
  obtain ⟨limit, c₁, hread, hc₁, hlimit⟩ := hleft
  obtain ⟨c₂, hadvance, hc₂⟩ := hc₁.advance
  obtain ⟨c', hnext, hc'⟩ := hright hc₂
  rw [List.length_cons, List.length_append] at hlimit
  cases limit with
  | zero => omega
  | succ limit =>
    exact ⟨limit, c', hread.trans (hstep hc₁.current_eq hadvance hnext), hc', by omega⟩

/-- A conjunct behind `AND`. -/
theorem ConjunctionReads.and {ts' : List SearchToken} (hleft : ConjunctionReads operand left ts)
    (hright : OperandReads operand right ts') :
    ConjunctionReads operand (.and left right) (ts ++ .and :: ts') := by
  intro c rest hc
  rw [List.append_assoc, List.cons_append] at hc
  refine exists_chain_step (hleft hc) (fun c₂ hc₂ => hright hc₂) ?_
  intro limit offset c₁ c₂ c' hcurrent hadvance hoperand
  show (if c₁.current = .and then _ else _ : SearchReading Search) c₁ = _
  rw [if_pos hcurrent, Result.run_bind, hadvance, Result.ok_bind, Result.run_bind, hoperand,
    Result.ok_bind]

/-- A conjunct next to those in front of it. -/
theorem ConjunctionReads.adjacent {ts' : List SearchToken} (hleft : ConjunctionReads operand left ts)
    (hright : OperandReads operand right ts') (hstarts : StartsOperand ts') :
    ConjunctionReads operand (.and left right) (ts ++ ts') := by
  intro c rest hc
  rw [List.append_assoc] at hc
  obtain ⟨limit, c₁, hread, hc₁, hlimit⟩ := hleft hc
  obtain ⟨c', hoperand, hc'⟩ := hright hc₁
  obtain ⟨t, ts', rfl, ht⟩ := hstarts
  have hcurrent : c₁.current = t := hc₁.current_eq
  have hand : c₁.current ≠ .and := by
    rintro hand
    rw [← hcurrent, hand] at ht
    cases ht
  rw [List.length_append, List.length_cons] at hlimit
  cases limit with
  | zero => omega
  | succ limit =>
    refine ⟨limit, c', ?_, hc', by omega⟩
    rw [hread]
    show (if c₁.current = .and then _ else _ : SearchReading Search) c₁ = _
    rw [if_neg hand, if_pos (hcurrent ▸ ht), Result.run_bind, hoperand,
      Result.ok_bind]

/-- A disjunct behind `OR`. -/
theorem DisjunctionReads.or {ts' : List SearchToken} (hleft : DisjunctionReads operand left ts)
    (hright : ConjunctionReads operand right ts') :
    DisjunctionReads operand (.or left right) (ts ++ .or :: ts') := by
  intro c rest hc hends
  rw [List.append_assoc, List.cons_append] at hc
  have hconjunct : ∀ ⦃c₂⦄, c₂.Shows (ts' ++ rest) →
      ∃ c', conjunction operand c₂ = .ok (right, c') ∧ c'.Shows rest := by
    intro c₂ hc₂
    obtain ⟨limit, c', hread, hc', hlimit⟩ := hright hc₂
    exact ⟨c', hread.trans (conjuncts_stop hc' hends hlimit), hc'⟩
  refine exists_chain_step (hleft hc ⟨SearchToken.noConfusion, rfl⟩) hconjunct ?_
  intro limit offset c₁ c₂ c' hcurrent hadvance hread
  show (if c₁.current = .or then _ else _ : SearchReading Search) c₁ = _
  rw [if_pos hcurrent, Result.run_bind, hadvance, Result.ok_bind, Result.run_bind, hread,
    Result.ok_bind]

-- ════════════════════════════════════════════════════════════════════════
-- Operands
-- ════════════════════════════════════════════════════════════════════════

section Operands

variable {text : List Char} {negated grouped deeper : SearchReading Search}

theorem run_current (c : SearchCursor) : SearchReading.current c = .ok (c.current, c) := rfl

/-- A term as a word or as a phrase. -/
theorem operandReads_term {t : SearchToken} {term : String} (ht : t = .word term ∨ t = .phrase term) :
    OperandReads (operandWith text negated grouped) (.term term) [t] := by
  intro c rest hc
  have hcurrent : c.current = t := hc.current_eq
  obtain ⟨c', hadvance, hc'⟩ := hc.advance
  refine ⟨c', ?_, hc'⟩
  rw [operandWith, Result.run_bind, run_current, Result.ok_bind, hcurrent]
  obtain rfl | rfl := ht
  all_goals
    dsimp only
    rw [Result.run_bind, hadvance]
    rfl

/-- A negation of what a deeper reader reads. -/
theorem OperandReads.not (h : OperandReads deeper search ts) :
    OperandReads (operandWith text (do let _ ← advance; deeper) grouped) (.not search) (.not :: ts) := by
  intro c rest hc
  have hcurrent : c.current = .not := hc.current_eq
  obtain ⟨c₁, hadvance, hc₁⟩ := hc.advance
  obtain ⟨c', hdeeper, hc'⟩ := h hc₁
  refine ⟨c', ?_, hc'⟩
  rw [operandWith, Result.run_bind, run_current, Result.ok_bind, hcurrent]
  dsimp only
  rw [Result.run_bind, Result.run_bind, hadvance, Result.ok_bind, hdeeper]
  rfl

theorem closing_eq_ok {opened : Nat} (hc : c.Shows (.rightParen :: rest)) :
    ∃ c', closing text opened c = .ok ((), c') ∧ c'.Shows rest := by
  have hcurrent : c.current = .rightParen := hc.current_eq
  obtain ⟨c', hadvance, hc'⟩ := hc.advance
  refine ⟨c', ?_, hc'⟩
  rw [closing, Result.run_bind, run_current, Result.ok_bind, if_pos hcurrent, Result.run_bind,
    hadvance]
  rfl

/-- A group of what a deeper reader reads. -/
theorem DisjunctionReads.group (h : DisjunctionReads deeper search ts) :
    OperandReads (operandWith text negated (Search.disjunction deeper)) search
      (.leftParen :: ts ++ [.rightParen]) := by
  intro c rest hc
  have hcurrent : c.current = .leftParen := hc.current_eq
  rw [List.cons_append, List.cons_append, List.append_assoc, List.singleton_append] at hc
  obtain ⟨c₁, hadvance, hc₁⟩ := hc.advance
  obtain ⟨limit, c₂, hread, hc₂, hlimit⟩ := h hc₁ ⟨SearchToken.noConfusion, rfl⟩
  obtain ⟨c', hclosing, hc'⟩ := closing_eq_ok hc₂
  refine ⟨c', ?_, hc'⟩
  rw [operandWith, Result.run_bind, run_current, Result.ok_bind, hcurrent]
  dsimp only
  rw [Result.run_bind, hadvance, Result.ok_bind, Result.run_bind, hread,
    disjuncts_stop hc₂ SearchToken.noConfusion hlimit, Result.ok_bind, Result.run_bind, hclosing]
  rfl

end Operands

-- ════════════════════════════════════════════════════════════════════════
-- Prints
-- ════════════════════════════════════════════════════════════════════════

/-- The levels that a search takes in a place, one for each negation and each pair of parentheses
around another part. -/
def nesting : Search → Place → Nat
  | term _, _ => 0
  | not operand, _ => operand.nesting .operand + 1
  | and left right, place =>
    max (left.nesting .conjunction) (right.nesting .operand) +
      ((and left right).isGrouped place).toNat
  | or left right, place =>
    max (left.nesting .anywhere) (right.nesting .conjunction) +
      ((or left right).isGrouped place).toNat

/-- Parentheses take a level. -/
theorem nesting_of_isGrouped {place : Place} (h : search.isGrouped place = true) :
    search.nesting place = search.nesting .anywhere + 1 := by
  cases search with
  | term | not => cases place <;> cases h
  | and | or =>
    rw [nesting, h]
    rfl

/-- The tokens are read as the search by the reader of the place. -/
def Reads (operand : SearchReading Search) : Place → Search → List SearchToken → Prop
  | .anywhere => DisjunctionReads operand
  | .conjunction => ConjunctionReads operand
  | .operand => OperandReads operand

theorem ConjunctionReads.reads {place : Place} (h : ConjunctionReads operand search ts)
    (hplace : place ≠ .operand) : Reads operand place search ts := by
  cases place with
  | anywhere => exact h.disjunction
  | conjunction => exact h
  | operand => exact absurd rfl hplace

theorem OperandReads.reads {place : Place} (h : OperandReads operand search ts) :
    Reads operand place search ts := by
  cases place with
  | anywhere | conjunction => exact h.conjunction.reads Place.noConfusion
  | operand => exact h

theorem StartsOperand.append {ts' : List SearchToken} (h : StartsOperand ts) :
    StartsOperand (ts ++ ts') := by
  obtain ⟨t, ts, rfl, ht⟩ := h
  exact ⟨t, ts ++ ts', rfl, ht⟩

theorem Prints.startsOperand {place : Place} (h : search.Prints place ts) : StartsOperand ts := by
  induction h with
  | word | phrase | not | group => exact ⟨_, _, rfl, rfl⟩
  | and _ _ _ ih | adjacent _ _ _ ih | or _ _ ih => exact ih.append

/-- The tokens of a print are read as the search by a reader with enough levels. -/
theorem Prints.reads {place : Place} (h : search.Prints place ts) (text : List Char)
    (maxDepth : Nat) {levels : Nat} (hlevels : search.nesting place ≤ levels) :
    Reads (Search.operand text maxDepth levels) place search ts := by
  induction h generalizing levels with
  | word =>
    cases levels with
    | zero => exact (operandReads_term (.inl rfl)).reads
    | succ levels => exact (operandReads_term (.inl rfl)).reads
  | phrase =>
    cases levels with
    | zero => exact (operandReads_term (.inr rfl)).reads
    | succ levels => exact (operandReads_term (.inr rfl)).reads
  | not _ ih =>
    cases levels with
    | zero => cases hlevels
    | succ levels => exact (OperandReads.not (ih (Nat.le_of_succ_le_succ hlevels))).reads
  | and hplace _ _ ihl ihr =>
    have hsides := Nat.max_le.mp (Nat.le_of_add_right_le hlevels)
    exact ((ihl hsides.1).and (ihr hsides.2)).reads hplace
  | adjacent hplace _ hright ihl ihr =>
    have hsides := Nat.max_le.mp (Nat.le_of_add_right_le hlevels)
    exact ((ihl hsides.1).adjacent (ihr hsides.2) hright.startsOperand).reads hplace
  | or _ _ ihl ihr =>
    have hsides := Nat.max_le.mp (Nat.le_of_add_right_le hlevels)
    exact (ihl hsides.1).or (ihr hsides.2)
  | group hgrouped _ ih =>
    rw [nesting_of_isGrouped hgrouped] at hlevels
    cases levels with
    | zero => cases hlevels
    | succ levels => exact (ih (Nat.le_of_succ_le_succ hlevels)).group.reads

/-- The tokens of a print are all of a complete search. -/
theorem Prints.complete_eq_ok (h : search.Prints .anywhere ts) (text : List Char) {maxDepth : Nat}
    (hdepth : search.nesting .anywhere < maxDepth) (hc : c.Shows ts) :
    ∃ c', complete text maxDepth c = .ok (search, c') := by
  obtain ⟨t, ts', hts, ht⟩ := h.startsOperand
  have hcurrent : c.current ≠ .endOfText := by
    intro hend
    have hfirst : c.current = t := by rw [hc.current_eq, hts]; rfl
    rw [← hfirst, hend] at ht
    cases ht
  cases maxDepth with
  | zero => cases hdepth
  | succ levels =>
    rw [← List.append_nil ts] at hc
    obtain ⟨limit, c', hread, hc', hlimit⟩ :=
      h.reads text (levels + 1) (Nat.le_of_lt_succ hdepth) hc ⟨SearchToken.noConfusion, rfl⟩
    have hend : c'.current = .endOfText := hc'.current_eq
    refine ⟨c', ?_⟩
    rw [complete, Result.run_bind, run_current, Result.ok_bind, if_neg hcurrent, nested,
      Result.run_bind, hread, disjuncts_stop hc' SearchToken.noConfusion hlimit, Result.ok_bind,
      Result.run_bind, run_current, Result.ok_bind, hend]
    rfl

theorem exists_ofTokens_of_layout {text : String} (h : SearchToken.Layout ts text.toList)
    (hts : ∀ t ∈ ts, t.IsPrintable) :
    ∃ c, SearchCursor.ofTokens 0 (SearchTokens.ofText text.toList) = .ok c ∧ c.Shows ts := by
  obtain ⟨hfault, htokens⟩ :=
    SearchTokens.tokens_of_layout h hts text.toList (Nat.lt_succ_self _) 0
  rw [SearchTokens.ofText]
  cases hscan : SearchTokens.scanFrom text.toList (text.toList.length + 1) 0 text.toList with
  | mk tokens fault =>
    rw [hscan] at hfault htokens
    cases tokens with
    | nil => simp at htokens
    | cons first tokens => exact ⟨⟨first.1, first.2, ⟨tokens, fault⟩⟩, rfl, hfault, htokens⟩

/-- A search has prints, and each of them is read as the search if the bound on nesting exceeds the
levels of the search. -/
theorem ofText_of_isPrintedAs (search : Search) :
    (∃ text, search.IsPrintedAs text) ∧
      ∀ text maxDepth, search.IsPrintedAs text → search.nesting .anywhere < maxDepth →
        ofText text maxDepth = .ok search := by
  refine ⟨search.exists_isPrintedAs, fun text maxDepth hprinted hdepth => ?_⟩
  obtain ⟨ts, hprints, hlayout⟩ := hprinted
  obtain ⟨c, hopen, hc⟩ := exists_ofTokens_of_layout hlayout hprints.isPrintable
  obtain ⟨c', hcomplete⟩ := hprints.complete_eq_ok text.toList hdepth hc
  rw [ofText, hopen, Result.ok_bind, hcomplete]
  rfl

theorem ofText_of_isPrintedAs_desk :
    (and (term "desk") (not (or (term "red") (term "a \"b\"")))).IsPrintedAs
        "desk NOT (red OR \"a \\\"b\\\"\")" ∧
      (and (term "desk") (not (or (term "red") (term "a \"b\"")))).nesting .anywhere < 3 ∧
        ofText "desk NOT (red OR \"a \\\"b\\\"\")" 3 =
          .ok (and (term "desk") (not (or (term "red") (term "a \"b\"")))) := by
  have hdesk : SearchToken.IsBareWord "desk" := ⟨by decide, by decide, by decide⟩
  have hred : SearchToken.IsBareWord "red" := ⟨by decide, by decide, by decide⟩
  have hnone : SearchToken.IsGap [] := List.forall_mem_nil _
  have hspace : SearchToken.IsGap [' '] := List.forall_mem_singleton.mpr (by decide)
  have hbreak {t : SearchToken} {rest : List Char} :
      t.runsOn = true → ∀ c ∈ (' ' :: rest).head?, SearchToken.endsWord c = true := by
    intro _ c hc
    cases hc
    decide
  have hprinted : (and (term "desk") (not (or (term "red") (term "a \"b\"")))).IsPrintedAs
      "desk NOT (red OR \"a \\\"b\\\"\")" := by
    refine ⟨[.word "desk", .not, .leftParen, .word "red", .or, .phrase "a \"b\"", .rightParen],
      .adjacent Place.noConfusion (.word hdesk) (.not (.group rfl (.or (.word hred) .phrase))), ?_⟩
    refine Eq.mpr (congrArg (SearchToken.Layout _) ?_) <|
      .cons hnone hbreak <| .cons hspace hbreak <| .cons hspace nofun <| .cons hnone hbreak <|
      .cons hspace hbreak <| .cons hspace nofun <| .cons hnone nofun <| .nil hnone
    decide
  exact ⟨hprinted, by decide, (ofText_of_isPrintedAs _).2 _ 3 hprinted (by decide)⟩

end Search

end ODataQuery
