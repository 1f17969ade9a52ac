import DockerSim.Binary64.Decimal
import DockerSim.Json.Basic

/-!
# Printing JSON

A value is printed on one line without blanks, or over several lines, two spaces to a level. Only
the quote, the backslash and the control characters are escaped.
-/

namespace DockerSim.Json

/-! ## Scalars -/

def escapedChar (c : Char) : List Char :=
  if c == '"' || c == '\\' then ['\\', c]
  else if c == '\x08' then ['\\', 'b']
  else if c == '\x0c' then ['\\', 'f']
  else if c == '\n' then ['\\', 'n']
  else if c == '\r' then ['\\', 'r']
  else if c == '\t' then ['\\', 't']
  else if c.toNat < 0x20 then ['\\', 'u'] ++ Chars.zeroPad 4 (Chars.digits 16 c.toNat)
  else [c]

def stringText (s : String) : String :=
  .ofList ('"' :: s.toList.flatMap escapedChar ++ ['"'])

def intText (n : Int) : List Char :=
  (if n < 0 then ['-'] else []) ++ Chars.digits 10 n.natAbs

/-- A double is written with a point; from `10 ^ 16` on and below `10 ^ -5` with an exponent,
which always has a sign. -/
def realText : Binary64 → List Char
  | .infinite _ => ['n', 'u', 'l', 'l']
  | .finite negative significand exponent =>
    let body :=
      if significand = 0 then ['0', '.', '0']
      else
        let (ds, place) := Binary64.shortest .toEven significand exponent
        if -5 < place && place ≤ 16 then
          let t := Binary64.positional ds place
          if t.contains '.' then t else t ++ ['.', '0']
        else
          let fraction := ds.drop 1
          ds.take 1 ++ (if fraction.isEmpty then [] else '.' :: fraction) ++
            (if 0 < place then ['e', '+'] else ['e']) ++ intText (place - 1)
    (if negative then ['-'] else []) ++ body

/-! ## Values -/

mutual

/-- The value on one line. -/
def compact : Json → String
  | .null | .unusable => "null"
  | .bool b => if b then "true" else "false"
  | .int n => .ofList (intText n)
  | .real x => .ofList (realText x)
  | .str s => stringText s
  | .arr items => "[" ++ ",".intercalate (compactItems items) ++ "]"
  | .obj fields => "\x7b" ++ ",".intercalate (compactFields fields) ++ "\x7d"

def compactItems : List Json → List String
  | [] => []
  | j :: js => compact j :: compactItems js

def compactFields : List (String × Json) → List String
  | [] => []
  | (k, j) :: fields => (stringText k ++ ":" ++ compact j) :: compactFields fields

end

/-- The start of a line at a level. -/
def lineStart (level : Nat) : String := "\n" ++ .ofList (List.replicate (2 * level) ' ')

/-- The members of an array or object between its brackets, each on its own line. -/
def bracketed (opening closing : String) (level : Nat) : List String → String
  | [] => opening ++ closing
  | members =>
    let inner := lineStart (level + 1)
    opening ++ inner ++ ("," ++ inner).intercalate members ++ lineStart level ++ closing

mutual

/-- The value over several lines, its first line standing at a level. -/
def prettyAt (level : Nat) : Json → String
  | .arr items => bracketed "[" "]" level (prettyItems (level + 1) items)
  | .obj fields => bracketed "\x7b" "\x7d" level (prettyFields (level + 1) fields)
  | .null | .unusable => "null"
  | .bool b => if b then "true" else "false"
  | .int n => .ofList (intText n)
  | .real x => .ofList (realText x)
  | .str s => stringText s

def prettyItems (level : Nat) : List Json → List String
  | [] => []
  | j :: js => prettyAt level j :: prettyItems level js

def prettyFields (level : Nat) : List (String × Json) → List String
  | [] => []
  | (k, j) :: fields => (stringText k ++ ": " ++ prettyAt level j) :: prettyFields level fields

end

/-- The value over several lines. -/
def pretty (j : Json) : String := prettyAt 0 j

end DockerSim.Json
