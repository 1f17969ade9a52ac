import DockerSim.Binary64.Basic
import DockerSim.Chars.Numeral

/-!
# Decimals of a double

A double stands for every real number that rounds to it. `Binary64.shortest` finds the decimal with
the fewest digits among them and, of those, the one nearest to the double itself. With a given
number of places it is the exact value that is rounded, a tie going to the even last digit
(`Binary64.fixed`).
-/

namespace DockerSim.Binary64

/-! ## The shortest decimal -/

/-- Twice the distance to the neighbours below and above, in quarters of the last place, and whether
the numbers exactly half way still round to this double. -/
structure Interval where
  low : Nat
  high : Nat
  closed : Bool

/-- The rounding interval of `significand * 2 ^ exponent` is
`(4 * significand - low, 4 * significand + high) * 2 ^ (exponent - 2)`. Below the least significand
of a binade the doubles are twice as dense. -/
def interval (significand : Nat) (exponent : Int) : Interval where
  low := if significand = Nat.pow 2 52 && -1074 < exponent then 1 else 2
  high := 2
  closed := significand % 2 = 0

/-- The number of digits before the decimal point of `num / den`, zero or less when it is below
one tenth. The search starts from an estimate that is at most one too large. -/
def decimalPlace (num den : Nat) : Int :=
  let guess : Int := ((num.log2 : Int) - (den.log2 : Int) + 1) * 1233 / 4096 + 1
  let reaches (p : Int) : Bool :=
    if p < 0 then den ≤ num * Nat.pow 10 (-p).toNat else den * Nat.pow 10 p.toNat ≤ num
  if reaches guess then guess + 1
  else if reaches (guess - 1) then guess
  else if reaches (guess - 2) then guess - 1 else guess - 2

/-- The ratio `num / den` in units of `10 ^ unit`, as a ratio. -/
def inUnits (num den : Nat) (unit : Int) : Nat × Nat :=
  if unit < 0 then (num * Nat.pow 10 (-unit).toNat, den) else (num, den * Nat.pow 10 unit.toNat)

/-- The whole number of units `10 ^ unit` nearest to the double among those that round to it, if
there is one. Only the two neighbours of the double on the grid can be nearest. -/
def onGrid (tie : TieRule) (significand : Nat) (exponent unit : Int) : Option Nat :=
  let i := interval significand exponent
  let (q, d0) := ratio 1 (exponent - 2)
  let (n, d) := inUnits q d0 unit
  let quarters := 4 * significand
  let fits (k : Nat) : Bool :=
    let (lo, hi) := ((quarters - i.low) * n, (quarters + i.high) * n)
    if i.closed then lo ≤ k * d && k * d ≤ hi else lo < k * d && k * d < hi
  let below := quarters * n / d
  let nearest := roundQuotient tie (quarters * n) d
  if fits nearest then some nearest
  else if fits below then some below
  else if fits (below + 1) then some (below + 1)
  else none

/-- The digits and the place of the decimal point of the shortest decimal: the value is
`0.d₁d₂… * 10 ^ place`. -/
def shortest (tie : TieRule) (significand : Nat) (exponent : Int) : List Char × Int :=
  let (n, d) := ratio significand exponent
  let place := decimalPlace n d
  let found := (List.range 17).findSome? fun (extra : Nat) =>
    let unit : Int := place - 1 - extra
    (onGrid tie significand exponent unit).map fun k => (k, unit)
  match found with
  | some (k, unit) =>
    let ds := Chars.digits 10 k
    (Chars.dropTrailingZeros ds, unit + ds.length)
  | none => (['0'], 1)

/-- The decimal written out without an exponent: zeros are filled in on either side and a fraction
is written only when there is one. -/
def positional (digits : List Char) (place : Int) : List Char :=
  if place ≤ 0 then ['0', '.'] ++ List.replicate (-place).toNat '0' ++ digits
  else
    let whole := place.toNat
    if digits.length ≤ whole then digits ++ List.replicate (whole - digits.length) '0'
    else digits.take whole ++ ['.'] ++ digits.drop whole

/-- The text of a double: its shortest decimal, without an exponent, a tie going up. -/
def text : Binary64 → List Char
  | .infinite negative => (if negative then ['-'] else []) ++ ['i', 'n', 'f']
  | .finite negative significand exponent =>
    let body :=
      if significand = 0 then ['0']
      else
        let (ds, place) := shortest .up significand exponent
        positional ds place
    (if negative then ['-'] else []) ++ body

/-! ## A fixed number of places -/

/-- The digits of `units / 10 ^ places`, with all its places written. -/
def withPlaces (places units : Nat) : List Char :=
  let ds := Chars.zeroPad (places + 1) (Chars.digits 10 units)
  ds.take (ds.length - places) ++ ['.'] ++ ds.drop (ds.length - places)

/-- The text of a double that is not negative, with `places` decimal places. -/
def fixed (places : Nat) : Binary64 → List Char
  | .infinite _ => ['i', 'n', 'f']
  | .finite _ significand exponent =>
    let (n, d) := ratio significand exponent
    withPlaces places (roundQuotient .toEven (n * Nat.pow 10 places) d)

end DockerSim.Binary64
