import DockerSim.Instant.Calendar
import DockerSim.Chars.Numeral

/-!
# Instants

An instant is a number of seconds since the beginning of 1970, in UTC, and a number of nanoseconds.
The nanoseconds reach two thousand million, the second half of the range being a leap second after
the named one. Instants are written in UTC as RFC 3339 asks, with 0, 3, 6 or 9 digits of a fraction,
the fewest that are exact.
-/

namespace DockerSim

structure Instant where
  seconds : Int
  nanos : Nat
deriving DecidableEq, Repr, Inhabited

namespace Instant

def secondsPerDay : Int := 86400

def date (t : Instant) : CivilDate := .ofDays (t.seconds / secondsPerDay)

def secondOfDay (t : Instant) : Nat := (t.seconds % secondsPerDay).toNat

def hour (t : Instant) : Nat := t.secondOfDay / 3600

def minute (t : Instant) : Nat := t.secondOfDay / 60 % 60

/-- The second of the minute, 60 inside a leap second. -/
def second (t : Instant) : Nat := t.secondOfDay % 60 + t.nanos / 1000000000

/-- The instants in order, a leap second following the second it is added to. -/
def before (a b : Instant) : Bool :=
  a.seconds < b.seconds || (a.seconds == b.seconds && a.nanos < b.nanos)

def addSeconds (t : Instant) (n : Int) : Instant := { t with seconds := t.seconds + n }

/-! ## Writing -/

def twoDigits (n : Nat) : List Char := Chars.zeroPad 2 (Chars.digits 10 n)

/-- A year has four digits; one outside 0 to 9999 also has its sign. -/
def yearText (year : Int) : List Char :=
  let ds := Chars.zeroPad 4 (Chars.digits 10 year.natAbs)
  if year < 0 then '-' :: ds else if 9999 < year then '+' :: ds else ds

/-- `2024-01-31` -/
def dateText (t : Instant) : List Char :=
  let d := t.date
  yearText d.year ++ ['-'] ++ twoDigits d.month ++ ['-'] ++ twoDigits d.day

/-- `23:59` -/
def clockText (t : Instant) : List Char := twoDigits t.hour ++ [':'] ++ twoDigits t.minute

/-- `23:59:59` -/
def timeText (t : Instant) : List Char := t.clockText ++ [':'] ++ twoDigits t.second

/-- The fraction of a second with its point, in groups of three digits. -/
def fractionText (nanos : Nat) : List Char :=
  if nanos = 0 then []
  else
    let ds := Chars.zeroPad 9 (Chars.digits 10 nanos)
    if nanos % 1000000 = 0 then '.' :: ds.take 3
    else if nanos % 1000 = 0 then '.' :: ds.take 6
    else '.' :: ds

/-- The RFC 3339 text of an instant, in UTC. -/
def text (t : Instant) : String :=
  .ofList (t.dateText ++ ['T'] ++ t.timeText ++ fractionText (t.nanos % 1000000000) ++ ['Z'])

/-- `2024-01-31 23:59` -/
def minuteText (t : Instant) : String := .ofList (t.dateText ++ [' '] ++ t.clockText)

/-- `2024-01-31 23:59:59` -/
def secondText (t : Instant) : String := .ofList (t.dateText ++ [' '] ++ t.timeText)

end Instant

end DockerSim
