import ODataQuery.Calendar.TimeOfDay

/-!
# Instants with an offset

A local date and time together with its distance from universal time, in whole minutes.
Instants are ordered by the universal time they stand for; the offset is kept for printing.

## Main definitions

- `Instant` — local date, local time and offset
- `Instant.ofText?` — reads `YYYY-MM-DDTHH:MM[:SS[.fff]](Z|±HH:MM)`
- `Instant.utcDate`, `Instant.utcTime` — the universal date and time
- `Instant.text` — the text, with a fraction of three, six or nine digits if there is one
- `Instant.compare` — the order of the universal times
-/

namespace ODataQuery

/-- An instant as a local time and the minutes that it is ahead of universal time. -/
structure Instant where
  date : Date
  time : TimeOfDay
  offset : Int
  offset_mem : -1440 < offset ∧ offset < 1440
deriving DecidableEq

namespace Instant

/-- Reads `Z` or a sign, hours and minutes as a number of minutes. -/
def readOffset? : List Char → Option Int
  | [c] => if c = 'Z' ∨ c = 'z' then some 0 else none
  | [s, h₁, h₂, ':', m₁, m₂] => do
    let hours ← Text.twoDigits? h₁ h₂
    let minutes ← Text.twoDigits? m₁ m₂
    if 24 ≤ hours ∨ 60 ≤ minutes then none
    else if s = '+' then some (hours * 60 + minutes : Nat)
    else if s = '-' then some (-(hours * 60 + minutes : Nat) : Int)
    else none
  | _ => none

/-- Whether a character can open the offset of an instant. -/
def opensOffset (c : Char) : Bool := c = 'Z' || c = 'z' || c = '+' || c = '-'

/-- The instant with these parts in universal time. -/
def ofUtc (date : Date) (time : TimeOfDay) : Instant := ⟨date, time, 0, by decide⟩

/-- The instant with these parts, if the offset is less than a day. -/
def ofParts? (date : Date) (time : TimeOfDay) (offset : Int) : Option Instant :=
  if h : -1440 < offset ∧ offset < 1440 then some ⟨date, time, offset, h⟩ else none

/-- Whether a text has the form of an instant, whatever its digits say. -/
def hasForm (cs : List Char) : Bool :=
  match cs with
  | y₁ :: y₂ :: y₃ :: y₄ :: a :: m₁ :: m₂ :: b :: d₁ :: d₂ :: t :: h₁ :: h₂ :: c :: n₁ :: n₂ :: rest =>
    [y₁, y₂, y₃, y₄, m₁, m₂, d₁, d₂, h₁, h₂, n₁, n₂].all Text.isAsciiDigit &&
      a == '-' && b == '-' && c == ':' && (t == 'T' || t == 't') && secondsAndOffset rest
  | _ => false
where
  /-- Optional seconds with an optional fraction, and the offset. -/
  secondsAndOffset (cs : List Char) : Bool :=
    match cs with
    | ':' :: s₁ :: s₂ :: rest =>
      Text.isAsciiDigit s₁ && Text.isAsciiDigit s₂ &&
        (TimeOfDay.readFraction? (rest.takeWhile (!opensOffset ·))).isSome &&
        offsetForm (rest.dropWhile (!opensOffset ·))
    | rest => offsetForm rest
  /-- `Z`, or a sign and two pairs of digits around a colon. -/
  offsetForm (cs : List Char) : Bool :=
    match cs with
    | [c] => c == 'Z' || c == 'z'
    | [s, h₁, h₂, c, m₁, m₂] =>
      (s == '+' || s == '-') && c == ':' && [h₁, h₂, m₁, m₂].all Text.isAsciiDigit
    | _ => false

/-- Reads an instant. Seconds that are left out are zero. -/
def ofText? (cs : List Char) : Option Instant :=
  if hasForm cs then do
    let clock := (cs.drop 11).takeWhile (!opensOffset ·)
    let date ← Date.ofText? (cs.take 10)
    let time ← TimeOfDay.ofText? clock
    let offset ← readOffset? (cs.drop (11 + clock.length))
    ofParts? date time offset
  else none

/-- The minute of the universal day, which may lie in a neighbouring day. -/
def utcMinute (i : Instant) : Int := i.time.minuteOfDay - i.offset

/-- The date in universal time. -/
def utcDate (i : Instant) : Date :=
  if i.utcMinute < 0 then i.date.previous
  else if 1440 ≤ i.utcMinute then i.date.next
  else i.date

/-- The time of day in universal time. -/
def utcTime (i : Instant) : TimeOfDay :=
  i.time.atMinute (i.utcMinute % 1440).toNat (by omega)

/-- The order of the universal times. -/
def compare (a b : Instant) : Ordering :=
  (Date.compare a.utcDate b.utcDate).then (TimeOfDay.compare a.utcTime b.utcTime)

/-- The fraction of the second with three, six or nine digits, nothing if it is zero. -/
def fractionChars (subsecond : Nat) : List Char :=
  if subsecond = 0 then []
  else if subsecond % 1000000 = 0 then '.' :: Text.paddedDigits 3 (subsecond / 1000000)
  else if subsecond % 1000 = 0 then '.' :: Text.paddedDigits 6 (subsecond / 1000)
  else '.' :: Text.paddedDigits 9 subsecond

/-- `Z`, or a sign, hours and minutes. -/
def offsetChars (offset : Int) : List Char :=
  if offset = 0 then ['Z']
  else
    (if offset < 0 then '-' else '+') ::
      (Text.twoDigits (offset.natAbs / 60) ++ ':' :: Text.twoDigits (offset.natAbs % 60))

/-- The characters of an instant. -/
def chars (i : Instant) : List Char :=
  i.date.chars ++ 'T' :: (i.time.clockChars ++ fractionChars i.time.subsecond ++ offsetChars i.offset)

/-- The text of an instant. -/
def text (i : Instant) : String := String.ofList i.chars

/-- Universal time cut to microseconds, with the letter `Z`. -/
def microsecondText (i : Instant) : String :=
  String.ofList (i.utcDate.chars ++ 'T' :: (i.utcTime.microsecondChars ++ ['Z']))

/-- Universal time cut to milliseconds, with the letter `Z`. -/
def millisecondText (i : Instant) : String :=
  String.ofList (i.utcDate.chars ++ 'T' :: (i.utcTime.millisecondChars ++ ['Z']))

/-- The start of the year 1. -/
def earliest : Instant := ofUtc (.newYear 1) .midnight

/-- The last microsecond of the year 9999. -/
def latest : Instant := ofUtc (.yearEnd 9999) .lastMicrosecond

end Instant

end ODataQuery
