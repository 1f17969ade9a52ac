import DockerSim.Chars.Numeral
import DockerSim.Json.Basic

/-!
# Numbers in JSON

A whole number that fits in 64 bits is kept exactly. Any other number is read as a double, from as
many of its first digits as fit in 64 bits and a power of ten. The double is near to the number, but
not always the nearest: the digits, the power and the result are rounded one after the other.
-/

namespace DockerSim.Json

/-- Digits taken behind those of `n` as long as the number stays below `2 ^ 64`: the number, and how
many digits were taken, `count` of them before. -/
def takeDigits (n count : Nat) : List Char → Nat × Nat
  | [] => (n, count)
  | d :: ds =>
    let m := 10 * n + Chars.digitValue d
    if m < UInt64.size then takeDigits m (count + 1) ds else (n, count)

/-- The greatest power of ten that is a double. -/
def maxPower : Nat := 308

/-- The double that `significand * 10 ^ exponent` is read as. A significand that fits in 64 bits
vanishes when it is divided by the greatest power twice. -/
def scaleByTen (negative : Bool) (significand : Nat) (exponent : Int) : Binary64 :=
  let x := Binary64.ofRatio negative significand 1
  let power (e : Nat) : Binary64 := .ofNat (Nat.pow 10 e)
  if significand = 0 || exponent < -2 * maxPower then .finite negative 0 (-1074)
  else if maxPower < exponent then .infinite negative
  else if 0 ≤ exponent then x.mul (power exponent.toNat)
  else if -maxPower ≤ exponent then x.div (power (-exponent).toNat)
  else (x.div (power maxPower)).div (power (-exponent - maxPower).toNat)

/-- The number with the given digits before and behind the point and the given exponent. -/
def ofDigits (negative : Bool) (whole fraction : List Char) (exponent : Option Int) : Json :=
  let (head, taken) := takeDigits 0 0 whole
  let (significand, places) := takeDigits head 0 fraction
  let exact := fraction.isEmpty && exponent.isNone && taken = whole.length
  if exact && !negative then .int significand
  else if exact && 0 < significand && significand ≤ Nat.pow 2 63 then .int (-significand)
  else
    let dropped : Int := whole.length - taken
    match scaleByTen negative significand (exponent.getD 0 + dropped - places) with
    | .infinite _ => .unusable
    | x => .real x

/-! ## Their form -/

/-- One or more digits. -/
def readDigits (cs : List Char) : Option (List Char × List Char) :=
  let ds := cs.takeWhile Chars.isDigit
  if ds.isEmpty then none else some (ds, cs.drop ds.length)

/-- The digits of a fraction, none when there is no point. -/
def readFraction (cs : List Char) : Option (List Char × List Char) :=
  match cs with
  | '.' :: rest => readDigits rest
  | cs => some ([], cs)

/-- An exponent with its sign, if there is one. -/
def readExponent (cs : List Char) : Option (Option Int × List Char) :=
  let signed (rest : List Char) : Option (Option Int × List Char) :=
    match rest with
    | '-' :: rest => (readDigits rest).map fun (ds, rest) => (some (-Chars.digitsValue 0 ds), rest)
    | '+' :: rest => (readDigits rest).map fun (ds, rest) => (some (Chars.digitsValue 0 ds), rest)
    | rest => (readDigits rest).map fun (ds, rest) => (some (Chars.digitsValue 0 ds), rest)
  match cs with
  | 'e' :: rest | 'E' :: rest => signed rest
  | cs => some (none, cs)

/-- A number behind its sign. A zero has no digits behind it. -/
def readMagnitude (negative : Bool) (cs : List Char) : Option (Json × List Char) := do
  let (whole, cs) ← readDigits cs
  if whole.head? = some '0' && whole.length ≠ 1 then none
  let (fraction, cs) ← readFraction cs
  let (exponent, cs) ← readExponent cs
  some (ofDigits negative whole fraction exponent, cs)

end DockerSim.Json
