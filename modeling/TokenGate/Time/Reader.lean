import TokenGate.Text.Basic
import TokenGate.Time.Timestamp

/-!
# Read timestamps

A written timestamp is a date, one of `T`, `t` and a blank, a time of day and an offset from
universal time. Blanks may stand before every number and mark. The year has one to four digits, or a
sign and any number of digits; every other number has one or two. The second may be 60, and its
fraction may have any number of digits, of which nine count. The offset is `Z` or `UTC` in either
case, or a sign and two digits each for hours and minutes, with colons and blanks between them.

Four things can go wrong, and the first of them in the order of the text is reported: the text ends,
a character does not belong there, a number is out of its range, or characters are left at the end.
What the numbers say together is looked at last.
-/

namespace TokenGate.Time

open TokenGate.Text (trimStart)

/-- Why a text is not a timestamp. -/
inductive ReadFault
  | tooShort
  | invalid
  | outOfRange
  | tooLong
  | impossible
  deriving DecidableEq, Repr

/-- The wording of a fault. -/
def ReadFault.message : ReadFault → String
  | .tooShort => "premature end of input"
  | .invalid => "input contains invalid characters"
  | .outOfRange => "input is out of range"
  | .tooLong => "trailing input"
  | .impossible => "no possible date and time matching input"

namespace Reader

/-- A decimal digit. -/
def isDigit (c : Char) : Bool := '0' ≤ c && c ≤ '9'

/-- The value of a decimal digit. -/
def digit (c : Char) : Nat := c.toNat - 48

/-- The greatest integer of 64 bits with a sign. -/
def maxInteger : Nat := 9223372036854775807

/-- Goes on with a number that has at most `width` further digits. -/
def moreDigits (n : Nat) : Nat → List Char → Except ReadFault (Nat × List Char)
  | 0, cs => .ok (n, cs)
  | _ + 1, [] => .ok (n, [])
  | width + 1, c :: cs =>
    if isDigit c then
      if maxInteger < n * 10 + digit c then .error .outOfRange
      else moreDigits (n * 10 + digit c) width cs
    else .ok (n, c :: cs)

/-- A number of one to `width` digits. -/
def number (width : Nat) : List Char → Except ReadFault (Nat × List Char)
  | [] => .error .tooShort
  | c :: cs => if isDigit c then moreDigits (digit c) (width - 1) cs else .error .invalid

/-- A mark that has to stand at the front. -/
def mark (c : Char) : List Char → Except ReadFault (Unit × List Char)
  | [] => .error .tooShort
  | d :: cs => if c = d then .ok ((), cs) else .error .invalid

/-- A number between bounds, after blanks. -/
def bounded (low high : Nat) (cs : List Char) : Except ReadFault (Nat × List Char) := do
  let (n, cs) ← number 2 (trimStart cs)
  if low ≤ n ∧ n ≤ high then return (n, cs) else .error .outOfRange

/-- A year, after blanks. -/
def year (cs : List Char) : Except ReadFault (Int × List Char) := do
  match trimStart cs with
  | '-' :: cs =>
    let (n, cs) ← number cs.length cs
    if n ≤ 2147483648 then return (-(n : Int), cs) else .error .outOfRange
  | '+' :: cs =>
    let (n, cs) ← number cs.length cs
    if n < 2147483648 then return ((n : Int), cs) else .error .outOfRange
  | cs =>
    let (n, cs) ← number 4 cs
    return ((n : Int), cs)

/-- A date. -/
def date (cs : List Char) : Except ReadFault (Civil × List Char) := do
  let (y, cs) ← year cs
  let (_, cs) ← mark '-' (trimStart cs)
  let (m, cs) ← bounded 1 12 cs
  let (_, cs) ← mark '-' (trimStart cs)
  let (d, cs) ← bounded 1 31 cs
  return (⟨y, m, d⟩, cs)

/-- What separates the date from the time of day. -/
def separator : List Char → Except ReadFault (Unit × List Char)
  | [] => .error .tooShort
  | c :: cs => if c = 'T' || c = 't' || c = ' ' then .ok ((), cs) else .error .invalid

/-- The fraction of a second in nanoseconds. -/
def fraction (cs : List Char) : Except ReadFault (Nat × List Char) := do
  match cs with
  | '.' :: digits =>
    let (n, rest) ← number 9 digits
    let used := digits.length - rest.length
    return (n * Nat.pow 10 (9 - used), rest.dropWhile isDigit)
  | cs => return (0, cs)

/-- A time of day: hour, minute, second and nanosecond. -/
structure Clock where
  hour : Nat
  minute : Nat
  second : Nat
  nanos : Nat

/-- A time of day. -/
def clock (cs : List Char) : Except ReadFault (Clock × List Char) := do
  let (h, cs) ← bounded 0 23 cs
  let (_, cs) ← mark ':' (trimStart cs)
  let (m, cs) ← bounded 0 59 cs
  let (_, cs) ← mark ':' (trimStart cs)
  let (s, cs) ← bounded 0 60 cs
  let (f, cs) ← fraction cs
  return (⟨h, m, s, f⟩, cs)

/-- Two characters, counted in octets: a character of several octets makes up for two. -/
def twoDigits : List Char → Except ReadFault (Nat × List Char)
  | [] => .error .tooShort
  | [a] => if a.toNat < 0x80 then .error .tooShort else .error .invalid
  | a :: b :: cs =>
    if isDigit a && isDigit b then .ok (digit a * 10 + digit b, cs) else .error .invalid

/-- The minutes of an offset. -/
def offsetMinutes (cs : List Char) : Except ReadFault (Nat × List Char) :=
  match twoDigits cs with
  | .error f => .error f
  | .ok (m, rest) => if m < 60 then .ok (m, rest) else .error .outOfRange

/-- The sign of an offset; true is below zero. -/
def offsetSign : List Char → Except ReadFault (Bool × List Char)
  | [] => .error .tooShort
  | c :: cs =>
    if c = '+' then .ok (false, cs)
    else if c = '-' || c = '\u2212' then .ok (true, cs)
    else .error .invalid

/-- An offset from universal time in seconds. -/
def offset (cs : List Char) : Except ReadFault (Int × List Char) := do
  match cs with
  | 'Z' :: rest | 'z' :: rest => return (0, rest)
  | cs =>
    if (cs.take 3).map Char.toUpper = ['U', 'T', 'C'] then return (0, cs.drop 3)
    else
      let (below, cs) ← offsetSign cs
      let (h, cs) ← twoDigits cs
      let cs := cs.dropWhile fun c => c = ':' || TokenGate.Text.isBlank c
      let (m, cs) ← offsetMinutes cs
      let seconds : Int := h * 3600 + m * 60
      return (if below then -seconds else seconds, cs)

/-- The instant that a date, a time of day and an offset denote together. -/
def combine (d : Civil) (c : Clock) (offset : Int) : Except ReadFault Timestamp :=
  if !d.isValid || d.year < -262143 || 262142 < d.year then .error .outOfRange
  else if offset ≤ -86400 || 86400 ≤ offset then .error .outOfRange
  else
    let second := if c.second = 60 then 59 else c.second
    let leap := if c.second = 60 then 1000000000 else 0
    let wall : Int := d.toDays * 86400 + c.hour * 3600 + c.minute * 60 + second
    match Timestamp.ofUnix? (wall - offset) (leap + c.nanos) with
    | some t => .ok t
    | none => .error .impossible

end Reader

open Reader in
/-- Reads a timestamp. -/
def Timestamp.ofText (s : String) : Except ReadFault Timestamp := do
  let (d, cs) ← date s.toList
  let (_, cs) ← separator cs
  let (c, cs) ← clock cs
  let (o, cs) ← offset (trimStart cs)
  if trimStart cs ≠ [] then .error .tooLong else combine d c o

end TokenGate.Time
