import ODataQuery.Text.Letter
import ODataQuery.Text.Split

/-!
# Quoted literals

Texts in single quotes, in which a quote is written twice, with or without a word in front.

## Main definitions

- `Quoted.undouble?` — the content of a quoted text
- `Quoted.string?` — reads `'…'`
- `Quoted.Prefixed`, `Quoted.prefixed?` — reads `word'…'`
- `Quoted.members?` — the member names of an enumeration literal

## Design notes

A text with a word in front stays on one line; a plain one need not.
-/

namespace ODataQuery.Quoted

/-- The content between the outer quotes. A quote that is not doubled ends the literal too
early, so there is no content then. -/
def undouble? : List Char → Option (List Char)
  | [] => some []
  | c :: cs =>
    if c = '\'' then
      match cs with
      | '\'' :: rest => (undouble? rest).map ('\'' :: ·)
      | _ => none
    else (undouble? cs).map (c :: ·)

/-- The characters between an opening quote, which is already taken, and a quote at the end. -/
def beforeFinalQuote? (cs : List Char) : Option (List Char) :=
  match cs.reverse with
  | '\'' :: body => some body.reverse
  | _ => none

/-- Reads a string literal. -/
def string? : List Char → Option (List Char)
  | '\'' :: cs => (beforeFinalQuote? cs).bind undouble?
  | _ => none

/-- Whether a character can open a part of a qualified name. -/
def opensName (c : Char) : Bool := Text.isAsciiLetter c || c == '_'

/-- Whether the text is one part of a qualified name: ASCII letters, digits and underscores,
not starting with a digit. -/
def isNamePart : List Char → Bool
  | [] => false
  | c :: cs => opensName c && cs.all fun c => Text.isAsciiAlphanumeric c || c == '_'

/-- Whether the text is a name whose parts are separated by points. -/
def isQualifiedName (cs : List Char) : Bool := (Text.splitOn '.' cs).all isNamePart

/-- A word and the content of the quotes after it. -/
structure Prefixed where
  word : List Char
  body : List Char
deriving DecidableEq

/-- Reads a qualified name followed by a quoted text on one line. -/
def prefixed? (cs : List Char) : Option Prefixed :=
  let word := cs.takeWhile (· != '\'')
  match cs.dropWhile (· != '\'') with
  | _ :: rest => do
    let inner ← beforeFinalQuote? rest
    if isQualifiedName word && inner.all (· != '\n') then
      let body ← undouble? inner
      return ⟨word, body⟩
    else none
  | [] => none

/-- The member names of an enumeration literal: parts between commas without white space at
their ends, none of them empty. -/
def members? (body : List Char) : Option (List String) :=
  let parts := (Text.splitOn ',' body).map Text.trim
  if parts.any List.isEmpty then none else some (parts.map String.ofList)

end ODataQuery.Quoted
