import ODataQuery.Calendar.TimeOfDay
import ODataQuery.Numeric.Binary

/-!
# Durations

Exact spans of time in nanoseconds, written with days, hours, minutes and seconds.

## Main definitions

- `Duration` — a signed number of nanoseconds
- `DurationText` — the components of a written duration
- `DurationText.read?` — takes `[-]PnDTnHnMn.nS` apart
- `Duration.ofText?` — reads a duration
- `Duration.text` — the canonical text: components that are zero are left out
- `Duration.seconds` — the length as a floating point number

## Design notes

A duration is at most `2 ^ 63 - 1` milliseconds long in either direction. Each component of a text
must fit 63 bits, and so must every product and sum on the way to the total of whole seconds.
-/

namespace ODataQuery

/-- The largest number of nanoseconds of a duration. -/
def Duration.bound : Nat := (twoTo 63 - 1) * 1000000

/-- A span of time. -/
structure Duration where
  nanoseconds : Int
  nanoseconds_le : nanoseconds.natAbs ≤ Duration.bound
deriving DecidableEq

/-- The components of a written duration. A component that is left out is `none`. -/
structure DurationText where
  negative : Bool
  days : Option (List Char)
  hours : Option (List Char)
  minutes : Option (List Char)
  seconds : Option (List Char)
  fraction : Option (List Char)

namespace DurationText

/-- Digits followed by the letter of a component, if that is what comes next. -/
def component (letter : Char) (cs : List Char) : Option (List Char) × List Char :=
  match NumberText.takeDigits? cs with
  | some (ds, c :: rest) => if c = letter then (some ds, rest) else (none, cs)
  | _ => (none, cs)

/-- Seconds with an optional fraction, if they come next. -/
def secondsComponent (cs : List Char) :
    Option (List Char) × Option (List Char) × List Char :=
  match NumberText.takeDigits? cs with
  | some (ds, 'S' :: rest) => (some ds, none, rest)
  | some (ds, '.' :: more) =>
    match NumberText.takeDigits? more with
    | some (fs, 'S' :: rest) => (some ds, some fs, rest)
    | _ => (none, none, cs)
  | _ => (none, none, cs)

/-- The components after the letter `T`, which end the text. -/
def readClock? (negative : Bool) (days : Option (List Char)) (cs : List Char) :
    Option DurationText :=
  let (hours, cs) := component 'H' cs
  let (minutes, cs) := component 'M' cs
  let (seconds, fraction, cs) := secondsComponent cs
  if cs.isEmpty then some ⟨negative, days, hours, minutes, seconds, fraction⟩ else none

/-- The components after the letter `P`. The letter `T` must be followed by a component. -/
def readBody? (negative : Bool) (cs : List Char) : Option DurationText :=
  let (days, cs) := component 'D' cs
  match cs with
  | [] => if days.isSome then some ⟨negative, days, none, none, none, none⟩ else none
  | 'T' :: cs => if cs.isEmpty then none else readClock? negative days cs
  | _ => none

/-- Takes a duration apart. -/
def read? : List Char → Option DurationText
  | '-' :: 'P' :: cs => readBody? true cs
  | 'P' :: cs => readBody? false cs
  | _ => none

/-- The number, if 63 bits hold it. -/
def checked? (n : Nat) : Option Nat := if n < twoTo 63 then some n else none

/-- The value of a component; zero if it is left out, and none beyond 63 bits. -/
def componentValue? : Option (List Char) → Option Nat
  | none => some 0
  | some ds => checked? (Text.naturalOf ds)

/-- Adds a component of so many seconds each to a total. The product and the sum are checked. -/
def addComponent? (total unit : Nat) (digits : Option (List Char)) : Option Nat := do
  let n ← componentValue? digits
  let product ← checked? (n * unit)
  checked? (total + product)

/-- The whole seconds of all components, added up one after the other. -/
def wholeSeconds? (t : DurationText) : Option Nat := do
  let total ← addComponent? 0 86400 t.days
  let total ← addComponent? total 3600 t.hours
  let total ← addComponent? total 60 t.minutes
  addComponent? total 1 t.seconds

end DurationText

namespace Duration

/-- The duration of so many nanoseconds, if it is not too long. -/
def ofNanoseconds? (n : Int) : Option Duration :=
  if h : n.natAbs ≤ bound then some ⟨n, h⟩ else none

/-- The duration that the components add up to. A fraction is cut to nanoseconds. -/
def ofComponents? (t : DurationText) : Option Duration := do
  let seconds ← DurationText.wholeSeconds? t
  let total := seconds * 1000000000 + Text.nanosecondsOf (t.fraction.getD [])
  ofNanoseconds? (if t.negative then -(total : Int) else total)

/-- Reads a duration. -/
def ofText? (cs : List Char) : Option Duration := do
  let t ← DurationText.read? cs
  ofComponents? t

/-- Whole seconds, cut toward zero. -/
def wholeSeconds (d : Duration) : Int := d.nanoseconds.tdiv 1000000000

/-- The nanoseconds beyond the whole seconds, with the sign of the duration. -/
def subsecond (d : Duration) : Int := d.nanoseconds.tmod 1000000000

/-- The length in seconds, as the sum of the whole seconds and the fraction. -/
def seconds (d : Duration) : Float :=
  Double.ofInt d.wholeSeconds + Double.ofInt d.subsecond / 1e9

/-- A number and the letter of its component, nothing if the number is zero. -/
def componentChars (n : Nat) (letter : Char) : List Char :=
  if n = 0 then [] else Text.digitsOf n ++ [letter]

/-- Seconds and the fraction of a second. -/
def secondsChars (seconds subsecond : Nat) : List Char :=
  Text.digitsOf seconds ++
    (if subsecond = 0 then [] else '.' :: Text.fractionDigits subsecond) ++ ['S']

/-- The canonical form of a magnitude in nanoseconds. At least one component is written. -/
def magnitudeChars (n : Nat) : List Char :=
  let total := n / 1000000000
  let subsecond := n % 1000000000
  let days := total / 86400
  let hours := total % 86400 / 3600
  let minutes := total % 3600 / 60
  let seconds := total % 60
  let clock :=
    if total % 86400 = 0 ∧ subsecond = 0 ∧ days ≠ 0 then []
    else
      'T' :: (componentChars hours 'H' ++ componentChars minutes 'M' ++
        (if seconds ≠ 0 ∨ subsecond ≠ 0 ∨ (hours = 0 ∧ minutes = 0) then
          secondsChars seconds subsecond
        else []))
  'P' :: (componentChars days 'D' ++ clock)

/-- The characters of a duration. -/
def chars (d : Duration) : List Char :=
  if d.nanoseconds < 0 then '-' :: magnitudeChars d.nanoseconds.natAbs
  else magnitudeChars d.nanoseconds.natAbs

/-- The canonical text of a duration. -/
def text (d : Duration) : String := String.ofList d.chars

/-- The order by length, negative durations first. -/
def compare (a b : Duration) : Ordering := Ord.compare a.nanoseconds b.nanoseconds

end Duration

end ODataQuery
