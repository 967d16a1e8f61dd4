import ODataQuery.Document.Query

/-!
# Literal patterns

A pattern that quotes a text, with or without anchors, finds that text only. Such patterns can be
read without knowing any other pattern.

## Main definitions

- `LiteralPattern` — a text to be found, and where
- `LiteralPattern.ofChars?` — reads a quoted text with its anchors
- `LiteralPattern.occursIn` — whether the text is found

## Main statements

- `LiteralPattern.applyTexts_of_patternOf?` — the pattern of a function finds what the function
  tests for
-/

namespace ODataQuery

/-- A text to be found. -/
structure LiteralPattern where
  text : List Char
  /-- The text has to stand at the start. -/
  atStart : Bool
  /-- The text has to stand at the end. -/
  atEnd : Bool
deriving DecidableEq

namespace LiteralPattern

/-- Reads a quoted text and tells whether an anchor ends it. -/
def readQuoted? : List Char → Option (List Char × Bool)
  | [] => some ([], false)
  | ['$'] => some ([], true)
  | '\\' :: c :: cs => (readQuoted? cs).map fun (text, atEnd) => (c :: text, atEnd)
  | c :: cs =>
    if Pattern.isMeta c then none
    else (readQuoted? cs).map fun (text, atEnd) => (c :: text, atEnd)

/-- Reads a quoted text with its anchors. -/
def ofChars? : List Char → Option LiteralPattern
  | '^' :: cs => (readQuoted? cs).map fun (text, atEnd) => ⟨text, true, atEnd⟩
  | cs => (readQuoted? cs).map fun (text, atEnd) => ⟨text, false, atEnd⟩

/-- Whether the text is found where it has to stand. -/
def occursIn (p : LiteralPattern) (s : List Char) : Bool :=
  match p.atStart, p.atEnd with
  | true, true => p.text == s
  | true, false => p.text.isPrefixOf s
  | false, true => p.text.isSuffixOf s
  | false, false => Value.occursIn p.text s

/-- A character without a meaning stands for itself. -/
theorem readQuoted?_cons {c : Char} (hc : Pattern.isMeta c = false) (cs : List Char) :
    readQuoted? (c :: cs) = (readQuoted? cs).map fun (text, atEnd) => (c :: text, atEnd) := by
  have hdollar : c ≠ '$' := by
    rintro rfl
    exact absurd hc (by decide)
  have hbackslash : c ≠ '\\' := by
    rintro rfl
    exact absurd hc (by decide)
  rw [readQuoted?, if_neg (by simp [hc])]
  · exact fun h _ => hdollar h
  · exact fun _ _ h _ => hbackslash h

/-- A quoted text is read back, whether an anchor follows or not. -/
theorem readQuoted?_quote (text : List Char) (atEnd : Bool) :
    readQuoted? (Pattern.quote text ++ if atEnd then ['$'] else []) = some (text, atEnd) := by
  induction text with
  | nil => cases atEnd <;> rfl
  | cons c cs ih =>
    have hquote : Pattern.quote (c :: cs) =
        (if Pattern.isMeta c then ['\\', c] else [c]) ++ Pattern.quote cs := List.flatMap_cons
    rw [hquote]
    cases hc : Pattern.isMeta c with
    | true =>
      simp only [if_true, List.cons_append, List.nil_append]
      rw [readQuoted?, ih]
      rfl
    | false =>
      simp only [Bool.false_eq_true, if_false, List.cons_append, List.nil_append]
      rw [readQuoted?_cons hc, ih]
      rfl

/-- A quoted text does not start with an anchor. -/
theorem ofChars?_quote (text : List Char) (atEnd : Bool) :
    ofChars? (Pattern.quote text ++ if atEnd then ['$'] else []) = some ⟨text, false, atEnd⟩ := by
  have hread := readQuoted?_quote text atEnd
  rw [ofChars?]
  · rw [hread]
    rfl
  · intro cs hcs
    rw [hcs, readQuoted?] at hread
    · exact absurd hread (by simp [show Pattern.isMeta '^' = true by decide])
    · exact fun h => absurd h (by decide)
    · exact fun _ _ h => absurd h (by decide)

theorem ofChars?_anchored_quote (text : List Char) :
    ofChars? ('^' :: Pattern.quote text) = some ⟨text, true, false⟩ := by
  have hread := readQuoted?_quote text false
  simp only [Bool.false_eq_true, if_false, List.append_nil] at hread
  rw [ofChars?, hread]
  rfl

/-- The pattern of a function finds what the function tests for. -/
theorem applyTexts_of_patternOf? {function : Function} {text pattern : List Char}
    (hfunction : function ≠ .matchesPattern)
    (h : DocumentNode.patternOf? function text = some pattern) (s : List Char) :
    Value.applyTexts function s text = .boolean ((ofChars? pattern).any (·.occursIn s)) := by
  cases function with
  | contains =>
    have hread := ofChars?_quote text false
    cases h
    rw [if_neg (by decide), List.append_nil] at hread
    rw [hread]
    rfl
  | startsWith =>
    cases h
    rw [ofChars?_anchored_quote]
    rfl
  | endsWith =>
    have hread := ofChars?_quote text true
    cases h
    rw [if_pos rfl] at hread
    rw [hread]
    rfl
  | matchesPattern => exact absurd rfl hfunction
  | _ => cases h

end LiteralPattern

end ODataQuery
