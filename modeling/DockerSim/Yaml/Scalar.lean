import DockerSim.Chars.Cut
import DockerSim.Yaml.Basic

/-!
# YAML scalars

The text of a scalar and the value it denotes: a truth value, null, a quoted string, a whole number
of 64 bits, a double, and otherwise the text itself.
-/

namespace DockerSim.Yaml

def isQuoteMark (c : Char) : Bool := c == '"' || c == '\''

def isQuoted (cs : List Char) : Bool := cs.head?.any isQuoteMark

/-- The text between two quotes of the same kind that begin and end a scalar. -/
def unquoted? (cs : List Char) : Option (List Char) :=
  match cs with
  | q :: rest => if isQuoteMark q && rest.getLast? = some q then some rest.dropLast else none
  | [] => none

/-- A text of digits, points, exponent letters and signs with a digit after its leading signs; words
such as `inf` are none. -/
def looksNumeric (cs : List Char) : Bool :=
  let body := cs.dropWhile fun c => c == '+' || c == '-'
  body.any Chars.isDigit &&
    body.all fun c => Chars.isDigit c || c == '.' || c == 'e' || c == 'E' || c == '+' || c == '-'

/-- An exponent after the letter that begins it. -/
def exponent? (cs : List Char) : Option Int :=
  match cs with
  | '-' :: ds => (Chars.natural? ds).map fun n => -(n : Int)
  | '+' :: ds => (Chars.natural? ds).map Int.ofNat
  | ds => (Chars.natural? ds).map Int.ofNat

/-- The double that a decimal numeral denotes: an optional sign, digits with at most one point among
them, and an optional exponent. -/
def float? (cs : List Char) : Option Binary64 := do
  let (negative, cs) := match cs with
    | '-' :: rest => (true, rest)
    | '+' :: rest => (false, rest)
    | cs => (false, cs)
  let whole := cs.takeWhile Chars.isDigit
  let cs := cs.drop whole.length
  let (fraction, cs) := match cs with
    | '.' :: rest =>
      let ds := rest.takeWhile Chars.isDigit
      (ds, rest.drop ds.length)
    | cs => ([], cs)
  if whole.isEmpty && fraction.isEmpty then none
  let exponent ← match cs with
    | [] => some 0
    | 'e' :: rest | 'E' :: rest => exponent? rest
    | _ => none
  some (.ofDecimal negative (Chars.digitsValue 0 (whole ++ fraction)) (exponent - fraction.length))

/-- The value of a scalar. -/
def ofScalar (cs : List Char) : Yaml :=
  let text : Yaml := .str (.ofList cs)
  match String.ofList cs with
  | "true" => .bool true
  | "false" => .bool false
  | "null" | "~" => .null
  | _ =>
    match unquoted? cs with
    | some inside => .str (.ofList inside)
    | none =>
      match Chars.signed? (Nat.pow 2 63) cs with
      | some n => .int n
      | none => if looksNumeric cs then ((float? cs).map .float).getD text else text

end DockerSim.Yaml
