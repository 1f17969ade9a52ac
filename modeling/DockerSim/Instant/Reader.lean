import DockerSim.Instant.Basic
import DockerSim.Chars.Blank
import DockerSim.Chars.LetterCase

/-!
# Reading instants

The form that is read is RFC 3339 with some freedom: the fields need not have their leading zeros,
blanks may stand around the marks between them, a year may carry a sign and then has any length, a
space may stand for the `T`, and the offset may be written without its colon. Digits of a fraction
beyond the ninth are dropped. The result is the instant in UTC.
-/

namespace DockerSim.Instant

/-- A field of one up to `width` digits, after any blanks. -/
def readField (width : Nat) (cs : List Char) : Option (Nat × List Char) :=
  let cs := Chars.trimStart cs
  let ds := (cs.take width).takeWhile Chars.isDigit
  if ds.isEmpty then none else some (Chars.digitsValue 0 ds, cs.drop ds.length)

/-- A year: four digits at most, or a sign and any number of digits. -/
def readYear (cs : List Char) : Option (Int × List Char) :=
  match Chars.trimStart cs with
  | '-' :: rest => if rest.head?.any Chars.isDigit then
      (readField rest.length rest).map fun (y, rest) => (-(y : Int), rest) else none
  | '+' :: rest => if rest.head?.any Chars.isDigit then
      (readField rest.length rest).map fun (y, rest) => ((y : Int), rest) else none
  | cs => (readField 4 cs).map fun (y, rest) => ((y : Int), rest)

/-- The mark `c`, after any blanks. -/
def readMark (c : Char) (cs : List Char) : Option (List Char) :=
  match Chars.trimStart cs with
  | d :: rest => if d = c then some rest else none
  | [] => none

/-- The nanoseconds of a fraction, zero when there is none. -/
def readFraction (cs : List Char) : Option (Nat × List Char) :=
  match cs with
  | '.' :: rest =>
    let ds := (rest.take 9).takeWhile Chars.isDigit
    if ds.isEmpty then none
    else some (Chars.digitsValue 0 ds * Nat.pow 10 (9 - ds.length),
      (rest.drop ds.length).dropWhile Chars.isDigit)
  | cs => some (0, cs)

/-- Exactly two digits. -/
def readPair (cs : List Char) : Option (Nat × List Char) :=
  match cs with
  | a :: b :: rest =>
    if Chars.isDigit a && Chars.isDigit b then
      some (10 * Chars.digitValue a + Chars.digitValue b, rest)
    else none
  | _ => none

/-- An offset from UTC in seconds: `Z`, `UTC`, or a sign, hours and minutes. -/
def readOffset (cs : List Char) : Option (Int × List Char) :=
  match cs with
  | 'Z' :: rest | 'z' :: rest => some (0, rest)
  | sign :: rest =>
    if (cs.take 3).map Chars.upperAscii = ['U', 'T', 'C'] then some (0, cs.drop 3)
    else if sign = '+' || sign = '-' || sign = '\u2212' then do
      let (hours, rest) ← readPair rest
      let (minutes, rest) ← readPair (rest.dropWhile fun c => c == ':' || Chars.isBlank c)
      if 60 ≤ minutes then none
      let size : Int := hours * 3600 + minutes * 60
      if secondsPerDay ≤ size then none
      some (if sign = '+' then size else -size, rest)
    else none
  | [] => none

/-- The dates on which an instant may lie. -/
def inRange (year : Int) : Bool := -262143 ≤ year && year ≤ 262142

/-- `2024-01-31` -/
def readDate (cs : List Char) : Option (CivilDate × List Char) := do
  let (year, cs) ← readYear cs
  let cs ← readMark '-' cs
  let (month, cs) ← readField 2 cs
  let cs ← readMark '-' cs
  let (day, cs) ← readField 2 cs
  some ({ year, month, day }, cs)

/-- What stands between the date and the time of the day. -/
def readSeparator : List Char → Option (List Char)
  | 'T' :: rest | 't' :: rest | ' ' :: rest => some rest
  | _ => none

/-- A time of the day as it is written, its second 60 inside a leap second. -/
structure ClockTime where
  hour : Nat
  minute : Nat
  second : Nat
  nanos : Nat

def ClockTime.isReal (c : ClockTime) : Bool := c.hour < 24 && c.minute < 60 && c.second < 61

/-- `23:59:59.999` -/
def readClock (cs : List Char) : Option (ClockTime × List Char) := do
  let (hour, cs) ← readField 2 cs
  let cs ← readMark ':' cs
  let (minute, cs) ← readField 2 cs
  let cs ← readMark ':' cs
  let (second, cs) ← readField 2 cs
  let (nanos, cs) ← readFraction cs
  some ({ hour, minute, second, nanos }, cs)

/-- The instant of a date and a time of the day, so many seconds ahead of UTC. The sixtieth second
of a minute is a leap second. -/
def ofWall? (date : CivilDate) (clock : ClockTime) (offset : Int) : Option Instant :=
  if date.isReal && inRange date.year && clock.isReal then
    let (second, nanos) :=
      if clock.second = 60 then (59, clock.nanos + 1000000000) else (clock.second, clock.nanos)
    let wall : Int :=
      date.toDays * secondsPerDay + (clock.hour * 3600 + clock.minute * 60 + second : Nat)
    let t : Instant := { seconds := wall - offset, nanos }
    if inRange t.date.year then some t else none
  else none

/-- The instant that a text denotes. -/
def readChars? (cs : List Char) : Option Instant := do
  let (date, cs) ← readDate cs
  let (clock, cs) ← readClock (← readSeparator cs)
  let (offset, cs) ← readOffset (Chars.trimStart cs)
  if cs.all Chars.isBlank then ofWall? date clock offset else none

/-- The instant that a text denotes. -/
def ofText? (s : String) : Option Instant := readChars? s.toList

end DockerSim.Instant
