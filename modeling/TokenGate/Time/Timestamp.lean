/-!
# Timestamps: instants of universal time

A timestamp is a number of seconds since 1970 and a number of nanoseconds. In the last second of a
minute the nanoseconds may run on to two seconds: that is a leap second, which compares as later
than every instant of the second it extends. The years run from `-262143` to `262142`.
-/

/-!
## Civil days: dates of the Gregorian calendar as day numbers

Day `0` is 1970-01-01. Years run from March, so that the leap day is the last one of a year; four
centuries have 146097 days, and day `-719468` is the first of March of year `0`. The rules hold for
all integers, with a year `0` and negative years before it.
-/

namespace TokenGate.Time

/-- A date of the Gregorian calendar. -/
structure Civil where
  year : Int
  month : Nat
  day : Nat
  deriving DecidableEq, Repr

namespace Civil

/-- Whether a year has a leap day. -/
def isLeap (year : Int) : Bool := year % 4 = 0 && (year % 100 ≠ 0 || year % 400 = 0)

/-- The number of days of a month. -/
def monthLength (year : Int) (month : Nat) : Nat :=
  if month = 2 then (if isLeap year then 29 else 28)
  else if month = 4 ∨ month = 6 ∨ month = 9 ∨ month = 11 then 30
  else 31

/-- Whether a date is in the calendar. -/
def isValid (d : Civil) : Bool :=
  1 ≤ d.month && d.month ≤ 12 && 1 ≤ d.day && d.day ≤ monthLength d.year d.month

/-- The number of a date. -/
def toDays (d : Civil) : Int :=
  let y := if d.month ≤ 2 then d.year - 1 else d.year
  let era := y / 400
  let yearOfEra := y % 400
  let monthFromMarch := (d.month + 9) % 12
  let dayOfYear : Int := (153 * monthFromMarch + 2) / 5 + d.day - 1
  let dayOfEra := yearOfEra * 365 + yearOfEra / 4 - yearOfEra / 100 + dayOfYear
  era * 146097 + dayOfEra - 719468

/-- The date of a number. -/
def ofDays (n : Int) : Civil :=
  let z := n + 719468
  let era := z / 146097
  let dayOfEra := z % 146097
  let yearOfEra := (dayOfEra - dayOfEra / 1460 + dayOfEra / 36524 - dayOfEra / 146096) / 365
  let dayOfYear := (dayOfEra - (365 * yearOfEra + yearOfEra / 4 - yearOfEra / 100)).toNat
  let monthFromMarch := (5 * dayOfYear + 2) / 153
  let day := dayOfYear - (153 * monthFromMarch + 2) / 5 + 1
  let month := if monthFromMarch < 10 then monthFromMarch + 3 else monthFromMarch - 9
  let year := yearOfEra + era * 400
  ⟨if month ≤ 2 then year + 1 else year, month, day⟩

end Civil

/-! ## Instants -/

/-- The first second of the first year. -/
def minSeconds : Int := -8334601228800

/-- The last second of the last year. -/
def maxSeconds : Int := 8210266876799

/-- An instant. -/
structure Timestamp where
  /-- Seconds since the start of 1970. -/
  seconds : Int
  /-- Nanoseconds within the second. -/
  nanos : Nat
  in_range : minSeconds ≤ seconds ∧ seconds ≤ maxSeconds
  nanos_lt : nanos < 1000000000 ∨ (seconds % 60 = 59 ∧ nanos < 2000000000)
  deriving DecidableEq

namespace Timestamp

/-- The start of 1970. -/
def epoch : Timestamp := ⟨0, 0, by decide, by decide⟩

instance : Inhabited Timestamp := ⟨epoch⟩

/-- The timestamp of some seconds and nanoseconds, if there is one. -/
def ofUnix? (seconds : Int) (nanos : Nat) : Option Timestamp :=
  if h : (minSeconds ≤ seconds ∧ seconds ≤ maxSeconds) ∧
      (nanos < 1000000000 ∨ (seconds % 60 = 59 ∧ nanos < 2000000000)) then
    some ⟨seconds, nanos, h.1, h.2⟩
  else none

/-- Whether a timestamp is the same as another or earlier. -/
def le (s t : Timestamp) : Bool :=
  s.seconds < t.seconds || (s.seconds = t.seconds && s.nanos ≤ t.nanos)

end Timestamp

/-!
## Printed timestamps

A timestamp is written `2030-03-17T17:46:40Z`. A fraction of a second follows in as few of three,
six or nine digits as hold it; a leap second is written as second 60. Years of four digits stand
without a sign, all others with one and with at least four digits.
-/

/-- A natural with zeros in front up to a width. -/
def padded (width n : Nat) : List Char :=
  let digits := Nat.toDigits 10 n
  List.replicate (width - digits.length) '0' ++ digits

/-- A year, with a sign unless it has four digits. -/
def yearChars (y : Int) : List Char :=
  if 0 ≤ y ∧ y ≤ 9999 then padded 4 y.toNat
  else (if y < 0 then '-' else '+') :: padded 4 y.natAbs

/-- A fraction of a second, in nanoseconds. -/
def fractionChars (nanos : Nat) : List Char :=
  if nanos = 0 then []
  else if nanos % 1000000 = 0 then '.' :: padded 3 (nanos / 1000000)
  else if nanos % 1000 = 0 then '.' :: padded 6 (nanos / 1000)
  else '.' :: padded 9 nanos

namespace Timestamp

/-- The characters of a timestamp. -/
def chars (t : Timestamp) : List Char :=
  let date := Civil.ofDays (t.seconds / 86400)
  let clock := (t.seconds % 86400).toNat
  let leap := t.nanos / 1000000000
  yearChars date.year ++ '-' :: padded 2 date.month ++ '-' :: padded 2 date.day
    ++ 'T' :: padded 2 (clock / 3600) ++ ':' :: padded 2 (clock / 60 % 60)
    ++ ':' :: padded 2 (clock % 60 + leap) ++ fractionChars (t.nanos % 1000000000) ++ ['Z']

/-- The text of a timestamp. -/
def render (t : Timestamp) : String := String.ofList t.chars

end Timestamp

end TokenGate.Time
