import ODataQuery.Pattern.CharSet

/-!
# Patterns

Regular expressions and the texts in which they occur.

## Main definitions

- `Pattern` — a regular expression
- `Pattern.ends` — where the occurrences that start at given places end
- `Pattern.occursIn` — whether a text has an occurrence

## Design notes

Only the existence of an occurrence matters, so a pattern maps a set of places in a text to the
set of places that it can lead to. Sets of places are lists in ascending order. A pattern that
is repeated more often than the text has places repeats somewhere without taking a character,
so further repetitions lead nowhere else.
-/

namespace ODataQuery

/-- Conditions on a place in a text. -/
inductive Assertion where
  | startOfText
  | endOfText
  | startOfLine
  | endOfLine
  | wordBoundary
  | notWordBoundary
  | wordStart
  | wordEnd
  | wordStartHalf
  | wordEndHalf
deriving DecidableEq

/-- A regular expression. -/
inductive Pattern where
  /-- The empty text. -/
  | empty
  /-- One character of a set. -/
  | one (set : CharSet)
  | assertion (a : Assertion)
  | sequence (p q : Pattern)
  | either (p q : Pattern)
  /-- At least and at most so many times; without a bound, any number of times. -/
  | repeated (p : Pattern) (least : Nat) (most : Option Nat)
deriving DecidableEq

/-- Whether a condition holds between two characters, none standing for the ends of a text. -/
def Assertion.holds (a : Assertion) (before after : Option Char) : Bool :=
  let wordBefore := before.any Text.isWordCharacter
  let wordAfter := after.any Text.isWordCharacter
  match a with
  | startOfText => before.isNone
  | endOfText => after.isNone
  | startOfLine => before.all (· == '\n')
  | endOfLine => after.all (· == '\n')
  | wordBoundary => wordBefore != wordAfter
  | notWordBoundary => wordBefore == wordAfter
  | wordStart => !wordBefore && wordAfter
  | wordEnd => wordBefore && !wordAfter
  | wordStartHalf => !wordBefore
  | wordEndHalf => !wordAfter

namespace Pattern

/-- The union of two sets of places. -/
def mergePlaces : List Nat → List Nat → List Nat
  | [], js => js
  | i :: is, js =>
    let smaller := js.takeWhile (· < i)
    let rest := (js.dropWhile (· < i))
    smaller ++ i :: mergePlaces is (if rest.head? = some i then rest.tail else rest)

/-- The character in front of a place. -/
def before? (text : Array Char) (place : Nat) : Option Char :=
  if place = 0 then none else text[place - 1]?

/-- Applies a step so many times, or until it changes nothing. -/
def iterate (step : List Nat → List Nat) : Nat → List Nat → List Nat
  | 0, places => places
  | n + 1, places =>
    let next := step places
    if next = places then places else iterate step n next

/-- The places that at most so many applications of a step lead to. -/
def closure (step : List Nat → List Nat) : Nat → List Nat → List Nat
  | 0, places => places
  | n + 1, places =>
    let next := mergePlaces places (step places)
    if next = places then places else closure step n next

/-- The places where the occurrences of a pattern end that start at given places. -/
def ends (text : Array Char) : Pattern → List Nat → List Nat
  | empty, places => places
  | one set, places =>
    places.filterMap fun i => if text[i]?.any set.contains then some (i + 1) else none
  | assertion a, places => places.filter fun i => a.holds (before? text i) text[i]?
  | sequence p q, places => ends text q (ends text p places)
  | either p q, places => mergePlaces (ends text p places) (ends text q places)
  | repeated p least most, places =>
    let bound := text.size + 1
    let start := iterate (ends text p) (min least bound) places
    let more := match most with
      | some most => min (most - least) bound
      | none => bound
    closure (ends text p) more start

/-- Whether a text has an occurrence of the pattern. -/
def occursIn (p : Pattern) (text : List Char) : Bool :=
  !(ends text.toArray p (List.range (text.length + 1))).isEmpty

/-- The number of steps that a pattern has when its repetitions are written out. -/
def size : Pattern → Nat
  | empty | one _ | assertion _ => 1
  | sequence p q | either p q => p.size + q.size
  | repeated p least most => 1 + p.size * max least (most.getD 1)

end Pattern

end ODataQuery
