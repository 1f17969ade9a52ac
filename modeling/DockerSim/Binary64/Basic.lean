/-!
# Binary floating-point numbers

Doubles as exact values: a finite one is `significand * 2 ^ exponent` with a significand below
`2 ^ 53` and an exponent from `-1074` up to `971`. Every operation takes an exact ratio of natural
numbers and rounds it once, to the nearest double, a tie going to the even significand.
-/

namespace DockerSim

inductive Binary64 where
  | finite (negative : Bool) (significand : Nat) (exponent : Int)
  | infinite (negative : Bool)
deriving DecidableEq, Repr

/-- How a quotient that lies half way between two whole numbers is rounded. -/
inductive TieRule where
  | toEven
  | up

/-- The quotient `num / den` rounded to the nearest whole number. -/
def roundQuotient (tie : TieRule) (num den : Nat) : Nat :=
  let q := num / den
  let r := num % den
  if 2 * r < den then q
  else if den < 2 * r then q + 1
  else match tie with
    | .toEven => q + q % 2
    | .up => q + 1

namespace Binary64

/-- Numerator and denominator of `num / (den * 2 ^ exponent)`. -/
def scaled (num den : Nat) (exponent : Int) : Nat × Nat :=
  if exponent < 0 then (num * Nat.pow 2 (-exponent).toNat, den)
  else (num, den * Nat.pow 2 exponent.toNat)

/-- The exponent of the last place of the double nearest to `num / den`, before rounding: the one
that leaves 53 binary digits before the point, but not below the least exponent. -/
def placeOf (num den : Nat) : Int :=
  let guess : Int := (num.log2 : Int) - (den.log2 : Int) - 52
  let (n, d) := scaled num den guess
  max (-1074) (if n < Nat.pow 2 52 * d then guess - 1 else guess)

/-- The double nearest to `num / den`, with a sign. -/
def ofRatio (negative : Bool) (num den : Nat) : Binary64 :=
  if num = 0 then .finite negative 0 (-1074)
  else
    let place := placeOf num den
    let (n, d) := scaled num den place
    let m := roundQuotient .toEven n d
    let (m, place) := if m = Nat.pow 2 53 then (Nat.pow 2 52, place + 1) else (m, place)
    if 971 < place then .infinite negative else .finite negative m place

/-- The double nearest to `significand * 10 ^ exponent`. Beyond `10 ^ 310` every number rounds to an
infinity and below `10 ^ -330` to zero, so the power of ten is formed only in between. -/
def ofDecimal (negative : Bool) (significand : Nat) (exponent : Int) : Binary64 :=
  let magnitude : Int := exponent + (Nat.toDigits 10 significand).length
  if significand = 0 || magnitude < -330 then .finite negative 0 (-1074)
  else if 310 < magnitude then .infinite negative
  else if exponent < 0 then ofRatio negative significand (Nat.pow 10 (-exponent).toNat)
  else ofRatio negative (significand * Nat.pow 10 exponent.toNat) 1

/-- The double nearest to a whole number. -/
def ofNat (n : Nat) : Binary64 := ofRatio false n 1

/-- The exact absolute value of a finite double, as a ratio. -/
def ratio (significand : Nat) (exponent : Int) : Nat × Nat :=
  if exponent < 0 then (significand, Nat.pow 2 (-exponent).toNat)
  else (significand * Nat.pow 2 exponent.toNat, 1)

def isNegative : Binary64 → Bool
  | .finite negative _ _ => negative
  | .infinite negative => negative

/-- The double nearest to a product. A product with an infinity is an infinity. -/
def mul (x y : Binary64) : Binary64 :=
  let negative := x.isNegative != y.isNegative
  match x, y with
  | .finite _ m e, .finite _ n f =>
    let (num, den) := ratio (m * n) (e + f)
    ofRatio negative num den
  | _, _ => .infinite negative

/-- The double nearest to a quotient. A quotient by zero is an infinity, and so is one of an
infinity. -/
def div (x y : Binary64) : Binary64 :=
  let negative := x.isNegative != y.isNegative
  match x, y with
  | .finite _ m e, .finite _ n f =>
    if n = 0 then .infinite negative
    else
      let (num, den) := ratio m (e - f)
      ofRatio negative num (den * n)
  | .infinite _, _ => .infinite negative
  | _, .infinite _ => .finite negative 0 (-1074)

end Binary64

end DockerSim
