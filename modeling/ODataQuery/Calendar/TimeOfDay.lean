import ODataQuery.Calendar.Date

/-!
# Times of day

Times of day with nanoseconds. The second `60` is a leap second: it is kept as second `59`
with a nanosecond count of one billion or more.

## Main definitions

- `TimeOfDay` — hour, minute, second and nanosecond
- `TimeOfDay.hasForm`, `TimeOfDay.ofText?` — the forms `HH:MM`, `HH:MM:SS` and
  `HH:MM:SS.fff`, and the time they name
- `TimeOfDay.text` — writes the time with as many fraction digits as it needs
- `TimeOfDay.compare` — the order within a day
-/

namespace ODataQuery

/-- A time of day. -/
structure TimeOfDay where
  hour : Nat
  minute : Nat
  second : Nat
  nanosecond : Nat
  hour_lt : hour < 24
  minute_lt : minute < 60
  second_lt : second < 60
  nanosecond_lt : nanosecond < 2000000000
  leap : 1000000000 ≤ nanosecond → second = 59
deriving DecidableEq

namespace Text

/-- The first nine digits of a fraction, zeros added, as a number of nanoseconds. -/
def nanosecondsOf (digits : List Char) : Nat :=
  naturalOf ((digits ++ List.replicate 9 '0').take 9)

/-- A nanosecond count with at least nine digits, without the zeros at its end. -/
def fractionDigits (nanoseconds : Nat) : List Char :=
  ((paddedDigits 9 nanoseconds).reverse.dropWhile (· == '0')).reverse

end Text

namespace TimeOfDay

/-- The time with these parts, if there is one; the second may be `60`. -/
def ofParts? (hour minute second nanosecond : Nat) : Option TimeOfDay :=
  if h : hour < 24 ∧ minute < 60 ∧ second < 60 ∧ nanosecond < 1000000000 then
    some ⟨hour, minute, second, nanosecond, h.1, h.2.1, h.2.2.1, by omega, by omega⟩
  else if h : hour < 24 ∧ minute < 60 ∧ second = 60 ∧ nanosecond < 1000000000 then
    some ⟨hour, minute, 59, nanosecond + 1000000000, h.1, h.2.1, by decide, by omega,
      fun _ => rfl⟩
  else none

/-- Midnight. -/
def midnight : TimeOfDay := ⟨0, 0, 0, 0, by decide, by decide, by decide, by decide, by decide⟩

/-- The last microsecond of a day. -/
def lastMicrosecond : TimeOfDay :=
  ⟨23, 59, 59, 999999000, by decide, by decide, by decide, by decide, by decide⟩

/-- A fraction of one to twelve digits after a point, or nothing. -/
def readFraction? : List Char → Option (List Char)
  | [] => some []
  | '.' :: ds =>
    if 1 ≤ ds.length ∧ ds.length ≤ 12 ∧ ds.all Text.isAsciiDigit = true then some ds else none
  | _ => none

/-- Whether a text has the form of a time of day, whatever its digits say. -/
def hasForm : List Char → Bool
  | [h₁, h₂, a, m₁, m₂] => a == ':' && [h₁, h₂, m₁, m₂].all Text.isAsciiDigit
  | h₁ :: h₂ :: a :: m₁ :: m₂ :: b :: s₁ :: s₂ :: rest =>
    a == ':' && b == ':' && [h₁, h₂, m₁, m₂, s₁, s₂].all Text.isAsciiDigit &&
      (readFraction? rest).isSome
  | _ => false

/-- Reads hours and minutes, optional seconds, and an optional fraction of them. -/
def ofText? : List Char → Option TimeOfDay
  | [h₁, h₂, ':', m₁, m₂] => do
    let hour ← Text.twoDigits? h₁ h₂
    let minute ← Text.twoDigits? m₁ m₂
    ofParts? hour minute 0 0
  | h₁ :: h₂ :: ':' :: m₁ :: m₂ :: ':' :: s₁ :: s₂ :: rest => do
    let hour ← Text.twoDigits? h₁ h₂
    let minute ← Text.twoDigits? m₁ m₂
    let second ← Text.twoDigits? s₁ s₂
    let fraction ← readFraction? rest
    ofParts? hour minute second (Text.nanosecondsOf fraction)
  | _ => none

/-- The second as it is written: `60` for a leap second. -/
def shownSecond (t : TimeOfDay) : Nat := t.second + t.nanosecond / 1000000000

/-- The nanoseconds within the written second. -/
def subsecond (t : TimeOfDay) : Nat := t.nanosecond % 1000000000

/-- The characters of `HH:MM:SS`. -/
def clockChars (t : TimeOfDay) : List Char :=
  Text.twoDigits t.hour ++ ':' :: (Text.twoDigits t.minute ++ ':' :: Text.twoDigits t.shownSecond)

/-- `HH:MM:SS` and, if the nanosecond count is not zero, a point and that count without its
trailing zeros. -/
def chars (t : TimeOfDay) : List Char :=
  if t.nanosecond = 0 then t.clockChars
  else t.clockChars ++ '.' :: Text.fractionDigits t.nanosecond

/-- The text of a time of day. -/
def text (t : TimeOfDay) : String := String.ofList t.chars

/-- `HH:MM:SS.ffffff`, cut to microseconds. -/
def microsecondChars (t : TimeOfDay) : List Char :=
  t.clockChars ++ '.' :: Text.paddedDigits 6 (t.subsecond / 1000)

/-- `HH:MM:SS.fff`, cut to milliseconds. -/
def millisecondChars (t : TimeOfDay) : List Char :=
  t.clockChars ++ '.' :: Text.paddedDigits 3 (t.subsecond / 1000000)

/-- Minutes since midnight. -/
def minuteOfDay (t : TimeOfDay) : Nat := t.hour * 60 + t.minute

/-- The order within a day. -/
def compare (a b : TimeOfDay) : Ordering :=
  (Ord.compare a.minuteOfDay b.minuteOfDay).then
    ((Ord.compare a.second b.second).then (Ord.compare a.nanosecond b.nanosecond))

/-- The time at another minute of the day, seconds kept. -/
def atMinute (t : TimeOfDay) (minuteOfDay : Nat) (h : minuteOfDay < 1440) : TimeOfDay :=
  { t with
    hour := minuteOfDay / 60
    minute := minuteOfDay % 60
    hour_lt := by omega
    minute_lt := Nat.mod_lt _ (by decide) }

end TimeOfDay

end ODataQuery
