/-!
# Numerals

Whole numbers in text. Only the ten ASCII digits count as digits; leading zeros are allowed. A
numeral of a bounded kind may carry a plus sign, and is no numeral at all when its value does not
fit.
-/

namespace DockerSim.Chars

def isDigit (c : Char) : Bool := '0' ≤ c && c ≤ '9'

def digitValue (c : Char) : Nat := c.toNat - '0'.toNat

/-- The value of a row of digits, read after the digits of `start`. -/
def digitsValue (start : Nat) (cs : List Char) : Nat :=
  cs.foldl (fun n c => 10 * n + digitValue c) start

/-- The value of a text that holds digits and nothing else, at least one. -/
def natural? (cs : List Char) : Option Nat :=
  if !cs.isEmpty && cs.all isDigit then some (digitsValue 0 cs) else none

/-- A numeral below `bound`, with or without a plus sign. -/
def unsigned? (bound : Nat) (cs : List Char) : Option Nat :=
  let digits := match cs with
    | '+' :: rest => rest
    | cs => cs
  (natural? digits).filter (· < bound)

/-- A numeral from `-bound` up to `bound - 1`, with or without a sign. -/
def signed? (bound : Nat) (cs : List Char) : Option Int :=
  match cs with
  | '-' :: digits => ((natural? digits).filter (· ≤ bound)).map fun n => -(n : Int)
  | cs => (unsigned? bound cs).map Int.ofNat

/-- The digits of `n` in a base up to sixteen, with lowercase letters above nine. -/
def digits (base n : Nat) : List Char := Nat.toDigits base n

/-- The text made at least `width` long by zeros in front. -/
def zeroPad (width : Nat) (cs : List Char) : List Char :=
  List.replicate (width - cs.length) '0' ++ cs

/-- The digits without the zeros at their end. -/
def dropTrailingZeros (cs : List Char) : List Char := (cs.reverse.dropWhile (· == '0')).reverse

/-- The text made at least `width` long by spaces behind; longer text is kept whole. -/
def padEnd (width : Nat) (cs : List Char) : List Char :=
  cs ++ List.replicate (width - cs.length) ' '

end DockerSim.Chars
