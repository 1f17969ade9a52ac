import DockerSim.Binary64.Basic
import DockerSim.Chars.Cut
import DockerSim.Chars.Numeral
import DockerSim.Instant.Calendar
import DockerSim.Toml.Basic

/-!
# Scalars in settings documents

A text stands between double quotes, with escapes, or between single quotes, without; three quotes
let it go over several lines. Numbers, dates and times are words whose form is checked.
-/

namespace DockerSim.Toml

def isSpace (c : Char) : Bool := c == ' ' || c == '\t'

def skipSpaces (cs : List Char) : List Char := cs.dropWhile isSpace

/-- The control characters, of which only the tab may occur in texts and comments. -/
def isControl (c : Char) : Bool := (c.toNat < 0x20 && c != '\t') || c.toNat == 0x7F

/-- What follows a line end. -/
def lineEnd? : List Char → Option (List Char)
  | '\n' :: rest => some rest
  | '\r' :: '\n' :: rest => some rest
  | _ => none

/-- What follows the blanks and line ends at the front. -/
def skipBlankLines : (fuel : Nat) → List Char → List Char
  | 0, cs => cs
  | fuel + 1, cs =>
    match lineEnd? (skipSpaces cs) with
    | some rest => skipBlankLines fuel rest
    | none => skipSpaces cs

/-! ## Texts -/

def hexDigit? (c : Char) : Option Nat :=
  if Chars.isDigit c then some (Chars.digitValue c)
  else if 'a' ≤ c && c ≤ 'f' then some (c.toNat - 87)
  else if 'A' ≤ c && c ≤ 'F' then some (c.toNat - 55)
  else none

/-- The character of a code point in hexadecimal. -/
def charOfHex? (digits : List Char) : Option Char := do
  let n := (← digits.mapM hexDigit?).foldl (fun n d => 16 * n + d) 0
  if n.isValidChar then some (.ofNat n) else none

/-- The character that an escape stands for, and what follows it. -/
def readEscape : List Char → Option (Char × List Char)
  | 'u' :: a :: b :: c :: d :: rest => (charOfHex? [a, b, c, d]).map fun x => (x, rest)
  | 'U' :: a :: b :: c :: d :: e :: f :: g :: h :: rest =>
    (charOfHex? [a, b, c, d, e, f, g, h]).map fun x => (x, rest)
  | 'b' :: rest => some ('\x08', rest)
  | 't' :: rest => some ('\t', rest)
  | 'n' :: rest => some ('\n', rest)
  | 'f' :: rest => some ('\x0c', rest)
  | 'r' :: rest => some ('\r', rest)
  | '"' :: rest => some ('"', rest)
  | '\\' :: rest => some ('\\', rest)
  | _ => none

/-- The rest of a text in double quotes whose characters so far are `done`, last first, and what
follows it. -/
def readQuoted : (fuel : Nat) → (done : List Char) → List Char → Option (String × List Char)
  | 0, _, _ => none
  | fuel + 1, done, cs =>
    match cs with
    | [] => none
    | '"' :: rest => some (.ofList done.reverse, rest)
    | '\\' :: rest => do
      let (c, rest) ← readEscape rest
      readQuoted fuel (c :: done) rest
    | c :: rest => if isControl c then none else readQuoted fuel (c :: done) rest

/-- The rest of a text in single quotes, and what follows it. -/
def readLiteral (cs : List Char) : Option (String × List Char) := do
  let (s, rest) ← Chars.cut '\'' cs
  if s.any isControl then none else some (.ofList s, rest)

/-- The end of a text behind the three quotes that close it: one or two more belong to the text. -/
def closeBlock (quote : Char) (done : List Char) (cs : List Char) : String × List Char :=
  let extra := (cs.take 2).takeWhile (· == quote)
  (.ofList (done.reverse ++ extra), cs.drop extra.length)

/-- The rest of a text between three quotes whose characters so far are `done`, last first, and what
follows it. Every line end counts as a line feed. Between double quotes a backslash at the end of a
line takes away the line end and all blanks behind it. -/
def readBlock (quote : Char) :
    (fuel : Nat) → (done : List Char) → List Char → Option (String × List Char)
  | 0, _, _ => none
  | fuel + 1, done, cs =>
    match Chars.after? [quote, quote, quote] cs, lineEnd? cs, cs with
    | some rest, _, _ => some (closeBlock quote done rest)
    | none, some rest, _ => readBlock quote fuel ('\n' :: done) rest
    | none, none, [] => none
    | none, none, c :: rest =>
      if c = '\\' && quote = '"' then
        match lineEnd? (skipSpaces rest) with
        | some behind => readBlock quote fuel done (skipBlankLines behind.length behind)
        | none => do
          let (c, rest) ← readEscape rest
          readBlock quote fuel (c :: done) rest
      else if isControl c then none
      else readBlock quote fuel (c :: done) rest

/-- A text between three quotes, from behind them; a line end at its front does not count. -/
def openBlock (quote : Char) (cs : List Char) : Option (String × List Char) :=
  let cs := (lineEnd? cs).getD cs
  readBlock quote (cs.length + 1) [] cs

/-- A text, if one begins here. -/
def readText (cs : List Char) : Option (String × List Char) :=
  match cs with
  | '"' :: '"' :: '"' :: rest => openBlock '"' rest
  | '\'' :: '\'' :: '\'' :: rest => openBlock '\'' rest
  | '"' :: rest => readQuoted (rest.length + 1) [] rest
  | '\'' :: rest => readLiteral rest
  | _ => none

/-! ## Numbers -/

/-- Digits of a kind, in groups between single underscores. -/
def isDigits (isDigit : Char → Bool) (cs : List Char) : Bool :=
  (Chars.split '_' cs).all fun part => !part.isEmpty && part.all isDigit

def dropSign : List Char → List Char
  | '+' :: cs | '-' :: cs => cs
  | cs => cs

/-- A whole number without a sign; only zero itself starts with a zero. -/
def isWhole (cs : List Char) : Bool :=
  isDigits Chars.isDigit cs && (cs.length == 1 || cs.head? != some '0')

/-- The digits of a base, which must denote a number below `2 ^ 63`. -/
def isBased (base : Nat) (cs : List Char) : Bool :=
  isDigits (fun c => (hexDigit? c).any (· < base)) cs &&
    (cs.filterMap hexDigit?).foldl (fun n d => base * n + d) 0 < Nat.pow 2 63

def isInteger : List Char → Bool
  | '0' :: 'x' :: cs => isBased 16 cs
  | '0' :: 'o' :: cs => isBased 8 cs
  | '0' :: 'b' :: cs => isBased 2 cs
  | cs => isWhole (dropSign cs) && (Chars.signed? (Nat.pow 2 63) (cs.filter (· != '_'))).isSome

/-- The number does not lie above all doubles. -/
def isBounded (cs whole fraction exponent : List Char) : Bool :=
  let digits := (whole ++ fraction).filter Chars.isDigit
  let size := Chars.digitsValue 0 (exponent.filter Chars.isDigit)
  let power : Int := if exponent.head? = some '-' then -size else size
  cs.head? = some '-' ||
    match Binary64.ofDecimal false (Chars.digitsValue 0 digits)
        (power - (fraction.filter Chars.isDigit).length) with
    | .infinite _ => false
    | .finite .. => true

/-- A number with a fraction, an exponent or both, an infinity, or no number at all. -/
def isFloat (cs : List Char) : Bool :=
  if dropSign cs = ['i', 'n', 'f'] || dropSign cs = ['n', 'a', 'n'] then true
  else
    let (mantissa, exponent) := (Chars.cutWhere (fun c => c == 'e' || c == 'E') cs).getD (cs, ['0'])
    let (whole, fraction) := (Chars.cut '.' mantissa).getD (mantissa, ['0'])
    (cs != whole) && isWhole (dropSign whole) && isDigits Chars.isDigit fraction &&
      isDigits Chars.isDigit (dropSign exponent) && isBounded cs whole fraction exponent

/-! ## Dates and times -/

/-- Exactly two digits below a bound. -/
def isPair (bound : Nat) (cs : List Char) : Bool :=
  cs.length == 2 && (Chars.natural? cs).any (· < bound)

def isDate (cs : List Char) : Bool :=
  match Chars.split '-' cs with
  | [year, month, day] =>
    match Chars.natural? year, Chars.natural? month, Chars.natural? day with
    | some y, some m, some d =>
      year.length == 4 && month.length == 2 && day.length == 2 &&
        ({ year := y, month := m, day := d } : CivilDate).isReal
    | _, _, _ => false
  | _ => false

def isClock (cs : List Char) : Bool :=
  match Chars.split ':' cs with
  | [hour, minute, second] =>
    let (second, fraction) := (Chars.cut '.' second).getD (second, ['0'])
    isPair 24 hour && isPair 60 minute && isPair 61 second && (Chars.natural? fraction).isSome
  | _ => false

/-- A time of day, perhaps with its offset from UTC. -/
def isTime (cs : List Char) : Bool :=
  match Chars.cutWhere (fun c => c == '+' || c == '-') cs with
  | some (clock, offset) =>
    match Chars.split ':' offset with
    | [hours, minutes] => isClock clock && isPair 24 hours && isPair 60 minutes
    | _ => false
  | none =>
    isClock (if cs.getLast?.any fun c => c == 'Z' || c == 'z' then cs.dropLast else cs)

/-- A date with a time in one word. -/
def isMoment (cs : List Char) : Bool :=
  isDate (cs.take 10) && (cs[10]?).any (fun c => c == 'T' || c == 't') && isTime (cs.drop 11)

/-! ## Words -/

def isWordChar (c : Char) : Bool :=
  c.isAlphanum || c == '_' || c == '-' || c == '+' || c == '.' || c == ':'

/-- The word at the front and what follows it. -/
def cutWord (cs : List Char) : List Char × List Char :=
  (cs.takeWhile isWordChar, cs.dropWhile isWordChar)

/-- A scalar and what follows it. A date and its time may be two words. -/
def readScalar (cs : List Char) : Option (Toml × List Char) :=
  if cs.head?.any fun c => c == '"' || c == '\'' then
    (readText cs).map fun (s, rest) => (.text s, rest)
  else
    let (word, rest) := cutWord cs
    if word = ['t', 'r', 'u', 'e'] then some (.switch true, rest)
    else if word = ['f', 'a', 'l', 's', 'e'] then some (.switch false, rest)
    else if isDate word then
      match rest with
      | ' ' :: behind =>
        let (time, behind) := cutWord behind
        some (.plain, if isTime time then behind else rest)
      | _ => some (.plain, rest)
    else if isInteger word || isFloat word || isMoment word || isClock word then some (.plain, rest)
    else none

end DockerSim.Toml
