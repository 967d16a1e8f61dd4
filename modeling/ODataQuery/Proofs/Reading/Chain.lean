import ODataQuery.Proofs.Expr.Spelling
import ODataQuery.Proofs.Reading.Derivation
import ODataQuery.Proofs.Reading.Progress

/-!
# Operations behind an operand

A reader that climbs over operators has, at each of them, an expression made of all it has passed. So
the operations that make an expression can be read in front of any others.

## Main definitions

- `Setting.Chains` — operations that lead from an operand to an expression, whatever follows
- `Spelling.Loose` — tokens that do not start with an operator that binds tight
- `Setting.Restores` — an operand and the operations behind it make an expression

## Main statements

- `Setting.Chains.binary`, `Setting.Chains.membership` — one more operation
- `Setting.Restores.reads` — what is made of an operand in front of loose tokens is read
-/

namespace ODataQuery

open Setting (operator PrefixAt)

-- ════════════════════════════════════════════════════════════════════════
-- Operators at shown tokens
-- ════════════════════════════════════════════════════════════════════════

namespace Cursor.Shows

variable {c : Cursor} {s : Spelling} {ls : List Spelling}

theorem isName (h : c.Shows (s :: ls)) :
    c.current.isName = (s.kind == .identifier || s.kind == .functionName) := by
  rw [Token.isName, h.kind]

theorem isWord (h : c.Shows (s :: ls)) (text : String) :
    c.current.isWord text =
      ((s.kind == .identifier || s.kind == .functionName) && s.text == text) := by
  rw [Token.isWord, h.isName, h.text]

/-- No operator starts with anything but a name. -/
theorem operator_eq_none (h : c.current.isName = false) : operator c = .ok (none, c) := by
  rw [operator, Reading.current_bind, h, Bool.false_and]
  rfl

/-- A keyword between spaces is an operator. -/
theorem operator_eq_some {text : String} {op : Operator} {next : Spelling}
    (h : c.Shows (.word text true :: next :: ls)) (hop : Operator.ofKeyword? text = some op)
    (hspace : next.leadingSpace = true) : operator c = .ok (some op, c) := by
  obtain ⟨t, hpeek, ht⟩ := h.peek
  have hleading : t.leadingSpace = true := (congrArg Spelling.leadingSpace ht).trans hspace
  have hname : (c.current.isName && c.current.leadingSpace) = true := by
    rw [h.isName, h.leadingSpace]
    rfl
  have hkind : c.current.kind = .identifier := h.kind
  have hkeyword : Operator.ofKeyword? c.current.text = some op := by rw [h.text]; exact hop
  have hnext : Reading.nextToken c = .ok (t, c) := Reading.nextToken_eq_ok.mpr ⟨hpeek, rfl⟩
  rw [operator, Reading.current_bind, if_pos hname]
  simp only [hkeyword, if_pos hkind]
  refine Reading.bind_eq_ok.mpr ⟨t, c, hnext, ?_⟩
  simp [hleading]

end Cursor.Shows

namespace Spelling

/-- The tokens do not start with an operator, or with one that binds less tight than a bound. -/
def Loose (bound : Nat) (ls : List Spelling) : Prop :=
  ∀ ⦃c : Cursor⦄, c.Shows ls → ∃ op?, operator c = .ok (op?, c) ∧ ∀ op ∈ op?, op.precedence < bound

variable {bound : Nat} {ls : List Spelling}

theorem Loose.mono {bound' : Nat} (h : Loose bound ls) (hle : bound ≤ bound') : Loose bound' ls := by
  intro c hc
  obtain ⟨op?, hop, hloose⟩ := h hc
  exact ⟨op?, hop, fun op hmem => Nat.lt_of_lt_of_le (hloose op hmem) hle⟩

theorem loose_nil : Loose bound [] := by
  intro c hc
  have hname : c.current.isName = false := by
    rw [Token.isName, hc.kind_nil]
    rfl
  exact ⟨none, Cursor.Shows.operator_eq_none hname, nofun⟩

theorem loose_closing : Loose bound (closing :: ls) := by
  intro c hc
  exact ⟨none, Cursor.Shows.operator_eq_none hc.isName, nofun⟩

theorem loose_comma : Loose bound (comma :: ls) := by
  intro c hc
  exact ⟨none, Cursor.Shows.operator_eq_none hc.isName, nofun⟩

theorem loose_keyword {text : String} {op : Operator} {next : Spelling}
    (hop : Operator.ofKeyword? text = some op) (hspace : next.leadingSpace = true)
    (hlt : op.precedence < bound) : Loose bound (word text true :: next :: ls) := by
  intro c hc
  refine ⟨some op, hc.operator_eq_some hop hspace, ?_⟩
  rintro _ ⟨⟩
  exact hlt

end Spelling

-- ════════════════════════════════════════════════════════════════════════
-- Chains
-- ════════════════════════════════════════════════════════════════════════

namespace Setting

variable {setting : Setting} {levels minimum : Nat} {scope : List Frame}

/-- The tokens behind an expression are not more than those before it. -/
theorem Reads.length_rest_le {expected : Option StaticType} {c c' : Cursor} {e : Expr}
    (h : setting.Reads levels minimum scope expected c e c') : c'.rest.length ≤ c.rest.length := by
  have hlength := h.tokens_suffix.length_le
  simp only [Cursor.tokens, List.length_cons] at hlength
  omega

theorem ReadsList.length_rest_le {type : StaticType} {c c' : Cursor} {list : List Value}
    (h : ReadsList type c list c') : c'.rest.length ≤ c.rest.length := by
  have hlength := h.tokens_suffix.length_le
  simp only [Cursor.tokens, List.length_cons] at hlength
  omega

variable (setting levels minimum scope) in
/-- The operations between two cursors lead from an operand to an expression, whatever operations
follow. Every operation takes a token, so a bound above the number of tokens suffices. -/
def Chains (left : Expr) (c : Cursor) (e : Expr) (c' : Cursor) : Prop :=
  ∀ limit, c.rest.length < limit → ∃ limit', c'.rest.length < limit' ∧
    ∀ {e₁ c₁}, setting.ReadsOperations levels minimum scope limit' e c' e₁ c₁ →
      setting.ReadsOperations levels minimum scope limit left c e₁ c₁

namespace Chains

variable {left e e' : Expr} {c c₁ c₂ c' : Cursor}

theorem refl : setting.Chains levels minimum scope e c e c := fun limit hlimit =>
  ⟨limit, hlimit, id⟩

theorem trans (h : setting.Chains levels minimum scope left c e c')
    (h' : setting.Chains levels minimum scope e c' e' c₁) :
    setting.Chains levels minimum scope left c e' c₁ := by
  intro limit hlimit
  obtain ⟨limit', hlimit', hback⟩ := h limit hlimit
  obtain ⟨limit'', hlimit'', hback'⟩ := h' limit' hlimit'
  exact ⟨limit'', hlimit'', fun hrest => hback (hback' hrest)⟩

/-- An operation that takes tokens can be read while the bound is above their number. -/
theorem of_step (hlength : c'.rest.length < c.rest.length)
    (h : ∀ {limit e₁ c₁}, setting.ReadsOperations levels minimum scope limit e c' e₁ c₁ →
      setting.ReadsOperations levels minimum scope (limit + 1) left c e₁ c₁) :
    setting.Chains levels minimum scope left c e c' := by
  intro limit hlimit
  cases limit with
  | zero => omega
  | succ limit => exact ⟨limit, by omega, h⟩

/-- One more operation with a right operand. -/
theorem binary {op : BinaryOp} {right : Expr} (hop : operator c = .ok (some (.binary op), c))
    (htight : minimum ≤ op.precedence) (hc : c.advance = .ok c₁)
    (hlength : c₁.rest.length < c.rest.length)
    (hright : setting.Reads levels (op.precedence + 1) scope
      (if op.isComparison then some left.type else none) c₁ right c')
    (he : Expr.Combines op left right e) : setting.Chains levels minimum scope left c e c' := by
  have := hright.length_rest_le
  exact of_step (by omega) fun hrest => .binary hop htight hc hright he hrest

/-- One more operation with a list. -/
theorem membership {list : List Value} (hop : operator c = .ok (some .membership, c))
    (htight : minimum ≤ Operator.membershipPrecedence) (hc : c.advance = .ok c₁)
    (hlength : c₁.rest.length < c.rest.length) (hlist : ReadsList left.type c₁ list c') :
    setting.Chains levels minimum scope left c (.membership left list) c' := by
  have := hlist.length_rest_le
  exact of_step (by omega) fun hrest => .membership hop htight hc hlist hrest

/-- Operations end in front of loose tokens. -/
theorem reads (h : setting.Chains levels minimum scope left c e c') {ls : List Spelling}
    (hls : Spelling.Loose minimum ls) (hshows : c'.Shows ls) :
    setting.ReadsOperations levels minimum scope (c.rest.length + 1) left c e c' := by
  obtain ⟨limit, hlimit, hback⟩ := h _ (Nat.lt_succ_self _)
  obtain ⟨op?, hop, hloose⟩ := hls hshows
  cases limit with
  | zero => omega
  | succ limit => exact hback (.stop hop hloose)

end Chains

-- ════════════════════════════════════════════════════════════════════════
-- Operands with operations behind them
-- ════════════════════════════════════════════════════════════════════════

variable (setting levels minimum scope) in
/-- From a cursor, an operand and the operations behind it make an expression, and the tokens are left
that follow it. -/
def Restores (expected : Option StaticType) (c : Cursor) (e : Expr) (ls : List Spelling) : Prop :=
  ∃ left c₁ c', setting.ReadsOperand levels scope expected c left c₁ ∧
    setting.Chains levels minimum scope left c₁ e c' ∧ c'.Shows ls

variable {expected : Option StaticType} {c c' : Cursor} {e : Expr} {ls : List Spelling}

theorem ReadsOperand.restores (h : setting.ReadsOperand levels scope expected c e c')
    (hls : c'.Shows ls) : setting.Restores levels minimum scope expected c e ls :=
  ⟨e, c', c', h, .refl, hls⟩

/-- In front of loose tokens the expression is read. -/
theorem Restores.reads (h : setting.Restores levels minimum scope expected c e ls)
    (hls : Spelling.Loose minimum ls) :
    ∃ c', setting.Reads (levels + 1) minimum scope expected c e c' ∧ c'.Shows ls := by
  obtain ⟨left, c₁, c', hoperand, hchain, hshows⟩ := h
  exact ⟨c', .intro hoperand (hchain.reads hls hshows), hshows⟩

-- ════════════════════════════════════════════════════════════════════════
-- Prefix operators
-- ════════════════════════════════════════════════════════════════════════

/-- No prefix operator stands at a token that is neither a minus nor spelled `not`. -/
theorem prefixAt_none (hminus : c.current.kind ≠ .minus)
    (hnot : c.current.isWord "not" = false) : PrefixAt c none := by
  refine ⟨hminus, ?_⟩
  rw [isNot, Reading.current_bind, hnot]
  rfl

/-- Nor does one stand at an identifier without white space behind it. -/
theorem prefixAt_none_of_peek (hkind : c.current.kind = .identifier) {t : Token}
    (hpeek : c.peek = .ok t) (hleading : t.leadingSpace = false) : PrefixAt c none := by
  have hminus : c.current.kind ≠ .minus := by simp [hkind]
  by_cases hnot : c.current.isWord "not" = true
  · refine ⟨hminus, ?_⟩
    rw [isNot, Reading.current_bind, if_pos hnot, if_neg (by simp [hkind])]
    refine Reading.bind_eq_ok.mpr ⟨t, c, Reading.nextToken_eq_ok.mpr ⟨hpeek, rfl⟩, ?_⟩
    simp [hleading]
  · exact prefixAt_none hminus (by simpa using hnot)

theorem prefixAt_slash {text : String} {space : Bool}
    (h : c.Shows (.word text space :: .slash :: ls)) : PrefixAt c none := by
  obtain ⟨t, hpeek, ht⟩ := h.peek
  exact prefixAt_none_of_peek h.kind hpeek (congrArg Spelling.leadingSpace ht)

theorem prefixAt_last {text : String} {space : Bool} (h : c.Shows [.word text space]) :
    PrefixAt c none := by
  obtain ⟨t, hpeek, ht⟩ := h.peek
  exact prefixAt_none_of_peek h.kind hpeek (congrArg Spelling.leadingSpace ht)

/-- The word `not` in front of a space and an operand is the operator. -/
theorem prefixAt_not {space : Bool} {next : Spelling}
    (h : c.Shows (.word "not" space :: next :: ls)) (hspace : next.leadingSpace = true)
    (hnext : next.kind ≠ .endOfText) : PrefixAt c (some .not) := by
  have hkind : c.current.kind = .identifier := h.kind
  have hnot : c.current.isWord "not" = true := by
    rw [h.isWord]
    rfl
  obtain ⟨t, hpeek, ht⟩ := h.peek
  have hleading : t.leadingSpace = true := (congrArg Spelling.leadingSpace ht).trans hspace
  have hkindNext : t.kind ≠ .endOfText := by
    rw [show t.kind = next.kind from congrArg Spelling.kind ht]
    exact hnext
  refine ⟨by simp [hkind], ?_⟩
  rw [isNot, Reading.current_bind, if_pos hnot, if_neg (by simp [hkind])]
  refine Reading.bind_eq_ok.mpr ⟨t, c, Reading.nextToken_eq_ok.mpr ⟨hpeek, rfl⟩, ?_⟩
  simp [hleading, hkindNext]

/-- Every other name than that of the prefix operator starts an operand without one. -/
theorem prefixAt_word {name : String} {space : Bool} (hshows : c.Shows (.word name space :: ls))
    (hname : name ≠ "not") : PrefixAt c none := by
  have hkind : c.current.kind = .identifier := hshows.kind
  refine prefixAt_none (by simp [hkind]) ?_
  rw [hshows.isWord]
  exact beq_eq_false_iff_ne.mpr hname

/-- A prefix operator is a minus or the word `not`. -/
theorem PrefixAt.minus_or_not {op : UnaryOp} (h : PrefixAt c (some op)) :
    c.current.kind = .minus ∨ c.current.isWord "not" = true := by
  cases op with
  | negate => exact .inl h
  | not =>
    obtain ⟨hminus, hnot⟩ := h
    cases hword : c.current.isWord "not" with
    | true => exact .inr rfl
    | false =>
      rw [(prefixAt_none hminus hword).2] at hnot
      cases hnot

/-- At most one prefix operator stands at a cursor. -/
theorem PrefixAt.unique {op? op'? : Option UnaryOp} (h : PrefixAt c op?) (h' : PrefixAt c op'?) :
    op? = op'? := by
  have hnot {b b' : Bool} (h : isNot c = .ok (b, c)) (h' : isNot c = .ok (b', c)) : b = b' := by
    cases h.symm.trans h'
    rfl
  match op?, op'? with
  | none, none => rfl
  | some .negate, some .negate => rfl
  | some .not, some .not => rfl
  | none, some .negate | some .not, some .negate => exact absurd h' h.1
  | some .negate, none | some .negate, some .not => exact absurd h h'.1
  | none, some .not | some .not, none => cases hnot h.2 h'.2

end Setting

end ODataQuery
