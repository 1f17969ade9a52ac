import DockerSim.Instant.Basic

/-!
# Supplies of ids and times

Commands draw their ids, sizes and times from a supply: a counter that makes every id, and a clock
that moves on by one second at every reading. A command is a function from the supply it is given to
the supply it leaves, so the order of the draws is part of its meaning.
-/

namespace DockerSim

structure Supply where
  /-- How many ids and numbers were drawn. -/
  drawn : Nat
  /-- What the clock showed last. -/
  clock : Instant
deriving DecidableEq

/-- A computation that draws from a supply. -/
abbrev Draw := StateM Supply

namespace Supply

/-- Nothing drawn yet; the clock stands at the beginning of 2024. -/
def fresh : Supply := { drawn := 0, clock := { seconds := 1704067200, nanos := 0 } }

/-- The next number, counted from one. -/
def next : Draw Nat := fun s => (s.drawn + 1, { s with drawn := s.drawn + 1 })

/-- A number as `len` hexadecimal digits: zeros in front, and only the last digits if there are
more. -/
def hexText (len n : Nat) : String :=
  let ds := Chars.zeroPad len (Chars.digits 16 n)
  .ofList (ds.drop (ds.length - len))

/-- An id of `len` hexadecimal digits. -/
def hex (len : Nat) : Draw String := do return hexText len (← next)

/-- An id in the form of a UUID. -/
def uuid : Draw String := do
  let ds := (hexText 32 (← next)).toList
  let part (first len : Nat) := (ds.drop first).take len
  return .ofList (part 0 8 ++ ['-'] ++ part 8 4 ++ ['-'] ++ part 12 4 ++ ['-'] ++ part 16 4 ++
    ['-'] ++ part 20 12)

/-- A number below `bound`. No number is drawn for a bound of zero. -/
def below (bound : Nat) : Draw Nat := do
  if bound = 0 then return 0
  return (← next) % bound

/-- The time, one second after the last reading. -/
def now : Draw Instant := fun s =>
  let t := s.clock.addSeconds 1
  (t, { s with clock := t })

def containerId : Draw String := hex 12

/-- A content digest. -/
def digest : Draw String := do return "sha256:" ++ (← hex 64)

/-- A size from `low` up to, but not including, `high`. -/
def sizeBetween (low high : Nat) : Draw Nat := do return low + (← below (high - low))

/-- One of some texts, the empty text when there are none. -/
def pick (items : List String) : Draw String := do return items.getD (← below items.length) ""

end Supply

end DockerSim
