import ODataQuery.Numeric.NumberText

/-!
# Calendar dates

Dates of the proleptic Gregorian calendar.

## Main definitions

- `Date` — a year, a month of that year and a day of that month
- `Date.hasForm`, `Date.ofText?` — the form `YYYY-MM-DD`, and the date it names
- `Date.text` — writes it
- `Date.next`, `Date.previous` — the neighbouring days
- `Date.compare` — the chronological order

## Design notes

Texts have four-digit years. Moving an instant to universal time can leave that range by a
day, so a date can lie in any year; a year outside `0000` to `9999` is written with its sign.
-/

namespace ODataQuery

namespace Text

/-- The two characters as digits. -/
def twoDigits? (a b : Char) : Option Nat :=
  if isAsciiDigit a && isAsciiDigit b then some (naturalOf [a, b]) else none

/-- A number below one hundred as two digits. -/
def twoDigits (n : Nat) : List Char := paddedDigits 2 n

end Text

namespace Calendar

/-- Years divisible by four have a leap day, except centuries not divisible by 400. -/
def isLeapYear (year : Int) : Bool := year % 4 == 0 && (year % 100 != 0 || year % 400 == 0)

/-- The number of days of a month. -/
def daysInMonth (year : Int) (month : Nat) : Nat :=
  if month = 2 then (if isLeapYear year then 29 else 28)
  else if month = 4 ∨ month = 6 ∨ month = 9 ∨ month = 11 then 30
  else 31

theorem one_le_daysInMonth (year : Int) (month : Nat) : 1 ≤ daysInMonth year month := by
  unfold daysInMonth
  split
  · split <;> decide
  · split <;> decide

end Calendar

open Calendar in
/-- A day of the calendar. -/
structure Date where
  year : Int
  month : Nat
  day : Nat
  month_mem : 1 ≤ month ∧ month ≤ 12
  day_mem : 1 ≤ day ∧ day ≤ daysInMonth year month
deriving DecidableEq

namespace Date

open Calendar

/-- The date with these parts, if there is such a day. -/
def ofParts? (year : Int) (month day : Nat) : Option Date :=
  if h : (1 ≤ month ∧ month ≤ 12) ∧ (1 ≤ day ∧ day ≤ daysInMonth year month) then
    some ⟨year, month, day, h.1, h.2⟩
  else none

/-- Whether a text has the form `YYYY-MM-DD`, whatever its digits say. -/
def hasForm : List Char → Bool
  | [y₁, y₂, y₃, y₄, a, m₁, m₂, b, d₁, d₂] =>
    a == '-' && b == '-' && [y₁, y₂, y₃, y₄, m₁, m₂, d₁, d₂].all Text.isAsciiDigit
  | _ => false

/-- Reads `YYYY-MM-DD`. -/
def ofText? : List Char → Option Date
  | [y₁, y₂, y₃, y₄, '-', m₁, m₂, '-', d₁, d₂] => do
    let century ← Text.twoDigits? y₁ y₂
    let year ← Text.twoDigits? y₃ y₄
    let month ← Text.twoDigits? m₁ m₂
    let day ← Text.twoDigits? d₁ d₂
    ofParts? (century * 100 + year : Nat) month day
  | _ => none

/-- The year with four digits, or with a sign and at least four digits. -/
def yearText (year : Int) : List Char :=
  if 0 ≤ year ∧ year ≤ 9999 then Text.paddedDigits 4 year.toNat
  else (if year < 0 then '-' else '+') :: Text.paddedDigits 4 year.natAbs

/-- The characters of `YYYY-MM-DD`. -/
def chars (d : Date) : List Char :=
  yearText d.year ++ '-' :: (Text.twoDigits d.month ++ '-' :: Text.twoDigits d.day)

/-- Writes `YYYY-MM-DD`. -/
def text (d : Date) : String := String.ofList d.chars

/-- The first day of a month. -/
def firstOf (year : Int) (month : Nat) (h : 1 ≤ month ∧ month ≤ 12) : Date :=
  ⟨year, month, 1, h, Nat.le_refl _, one_le_daysInMonth ..⟩

/-- The last day of a month. -/
def lastOf (year : Int) (month : Nat) (h : 1 ≤ month ∧ month ≤ 12) : Date :=
  ⟨year, month, daysInMonth year month, h, one_le_daysInMonth .., Nat.le_refl _⟩

/-- The first day of a year. -/
def newYear (year : Int) : Date := firstOf year 1 (by decide)

/-- The last day of a year. -/
def yearEnd (year : Int) : Date := lastOf year 12 (by decide)

/-- The day after. -/
def next (d : Date) : Date :=
  if h : d.day < daysInMonth d.year d.month then
    { d with day := d.day + 1, day_mem := ⟨Nat.le_add_left .., h⟩ }
  else if h : d.month < 12 then firstOf d.year (d.month + 1) ⟨Nat.le_add_left .., h⟩
  else newYear (d.year + 1)

/-- The day before. -/
def previous (d : Date) : Date :=
  if h : 1 < d.day then
    { d with
      day := d.day - 1
      day_mem := by have := d.day_mem; omega }
  else if h : 1 < d.month then
    lastOf d.year (d.month - 1) (by have := d.month_mem; omega)
  else yearEnd (d.year - 1)

/-- The chronological order. -/
def compare (a b : Date) : Ordering :=
  (Ord.compare a.year b.year).then ((Ord.compare a.month b.month).then (Ord.compare a.day b.day))

end Date

end ODataQuery
