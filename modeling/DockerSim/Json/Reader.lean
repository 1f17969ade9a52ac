import DockerSim.Json.Number

/-!
# Reading JSON

The grammar of RFC 8259. A text must hold one value and blanks around it; control characters in
strings must be escaped. What is well formed but no data is read as `Json.unusable`: a string whose
escaped surrogates do not come in pairs, an object with such a key, a number too large for a double,
and whatever lies inside more than 127 arrays and objects.
-/

namespace DockerSim.Json

def isSpace (c : Char) : Bool := c == ' ' || c == '\n' || c == '\t' || c == '\r'

def skipSpace (cs : List Char) : List Char := cs.dropWhile isSpace

/-! ## Strings -/

def hexValue? (c : Char) : Option Nat :=
  if '0' ≤ c && c ≤ '9' then some (c.toNat - 48)
  else if 'a' ≤ c && c ≤ 'f' then some (c.toNat - 87)
  else if 'A' ≤ c && c ≤ 'F' then some (c.toNat - 55)
  else none

def hex4? (a b c d : Char) : Option Nat := do
  some ((((← hexValue? a) * 16 + (← hexValue? b)) * 16 + (← hexValue? c)) * 16 + (← hexValue? d))

def shortEscape? (c : Char) : Option Char :=
  match c with
  | '"' | '\\' | '/' => some c
  | 'b' => some '\x08'
  | 'f' => some '\x0c'
  | 'n' => some '\n'
  | 'r' => some '\r'
  | 't' => some '\t'
  | _ => none

/-- What follows the rest of a string, of which only the form is checked. -/
def skipString : List Char → Option (List Char)
  | [] => none
  | '"' :: rest => some rest
  | '\\' :: 'u' :: a :: b :: c :: d :: rest =>
    match hex4? a b c d with
    | none => none
    | some _ => skipString rest
  | '\\' :: c :: rest =>
    match shortEscape? c with
    | some _ => skipString rest
    | none => none
  | c :: rest => if c.toNat < 0x20 then none else skipString rest

/-- The rest of a string whose characters so far are `done`, last first, and what follows it. There
is no string when half a surrogate pair is in it. -/
def readString (done : List Char) : List Char → Option (Option String × List Char)
  | [] => none
  | '"' :: rest => some (some (.ofList done.reverse), rest)
  | '\\' :: 'u' :: a :: b :: c :: d :: rest =>
    match hex4? a b c d with
    | none => none
    | some n =>
      if 0xD800 ≤ n && n < 0xDC00 then
        match rest with
        | '\\' :: 'u' :: e :: f :: g :: h :: behind =>
          match hex4? e f g h with
          | none => none
          | some m =>
            if 0xDC00 ≤ m && m < 0xE000 then
              readString (Char.ofNat (0x10000 + (n - 0xD800) * 0x400 + (m - 0xDC00)) :: done) behind
            else (skipString rest).map fun rest => (none, rest)
        | _ => (skipString rest).map fun rest => (none, rest)
      else if 0xDC00 ≤ n && n < 0xE000 then (skipString rest).map fun rest => (none, rest)
      else readString (Char.ofNat n :: done) rest
  | '\\' :: c :: rest =>
    match shortEscape? c with
    | some e => readString (e :: done) rest
    | none => none
  | c :: rest => if c.toNat < 0x20 then none else readString (c :: done) rest

/-- A value that is neither an array nor an object. -/
def readScalar : List Char → Option (Json × List Char)
  | 'n' :: 'u' :: 'l' :: 'l' :: rest => some (.null, rest)
  | 't' :: 'r' :: 'u' :: 'e' :: rest => some (.bool true, rest)
  | 'f' :: 'a' :: 'l' :: 's' :: 'e' :: rest => some (.bool false, rest)
  | '"' :: rest =>
    (readString [] rest).map fun (s, rest) => ((s.map .str).getD .unusable, rest)
  | '-' :: rest => readMagnitude true rest
  | rest => readMagnitude false rest

/-! ## Nesting too deep to be read -/

inductive Bracket where
  | square
  | curly
deriving DecidableEq

def Bracket.closing : Bracket → Char
  | square => ']'
  | curly => '\x7d'

/-- Where in an array or object a text stands. -/
inductive Place where
  /-- Behind the opening bracket. -/
  | front
  /-- Behind a comma. -/
  | member
  /-- Behind a member. -/
  | behind

/-- What follows a key and its colon. -/
def skipKey (cs : List Char) : Option (List Char) :=
  match skipSpace cs with
  | '"' :: rest => do
    match skipSpace (← skipString rest) with
    | ':' :: rest => some rest
    | _ => none
  | _ => none

/-- What follows the rest of the arrays and objects that are open, the innermost first, of which
only the form is checked. Every step takes at least one character, so the length of the text is fuel
enough. -/
def skipNested : (fuel : Nat) → Place → List Bracket → List Char → Option (List Char)
  | _, _, [], cs => some cs
  | 0, _, _, _ => none
  | fuel + 1, place, bracket :: outer, cs =>
    let member (cs : List Char) : Option (List Char) := do
      match skipSpace (← if bracket = .curly then skipKey cs else some cs) with
      | '[' :: rest => skipNested fuel .front (.square :: bracket :: outer) rest
      | '\x7b' :: rest => skipNested fuel .front (.curly :: bracket :: outer) rest
      | cs => do skipNested fuel .behind (bracket :: outer) (← readScalar cs).2
    match place, skipSpace cs with
    | _, [] => none
    | .member, cs => member cs
    | .front, c :: rest =>
      if c = bracket.closing then skipNested fuel .behind outer rest else member (c :: rest)
    | .behind, c :: rest =>
      if c = bracket.closing then skipNested fuel .behind outer rest
      else if c = ',' then skipNested fuel .member (bracket :: outer) rest
      else none

/-- An array or object that is not read. -/
def skipDeep (bracket : Bracket) (cs : List Char) : Option (Json × List Char) :=
  (skipNested (cs.length + 1) .front [bracket] cs).map fun rest => (.unusable, rest)

/-! ## Values -/

/-- How many arrays and objects may stand inside one another. -/
def maxDepth : Nat := 127

/-- The object with the given fields, if all their keys are texts. -/
def ofFields (fields : List (Option String × Json)) : Json :=
  match fields.mapM fun (k, j) => k.map fun k => (k, j) with
  | some fields => .obj fields
  | none => .unusable

mutual

/-- A value and what follows it, with room for some more levels of nesting. Every level costs at
least one character, so the length of the text is fuel enough. -/
def readValue (room : Nat) : (fuel : Nat) → List Char → Option (Json × List Char)
  | 0, _ => none
  | fuel + 1, cs =>
    match skipSpace cs, room with
    | '[' :: rest, 0 => skipDeep .square rest
    | '\x7b' :: rest, 0 => skipDeep .curly rest
    | '[' :: rest, room + 1 =>
      match skipSpace rest with
      | ']' :: rest => some (.arr [], rest)
      | rest => readItems room fuel [] rest
    | '\x7b' :: rest, room + 1 =>
      match skipSpace rest with
      | '\x7d' :: rest => some (.obj [], rest)
      | rest => readFields room fuel [] rest
    | cs, _ => readScalar cs

def readItems (room : Nat) : (fuel : Nat) → List Json → List Char → Option (Json × List Char)
  | 0, _, _ => none
  | fuel + 1, done, cs => do
    let (j, cs) ← readValue room fuel cs
    match skipSpace cs with
    | ',' :: rest => readItems room fuel (j :: done) rest
    | ']' :: rest => some (.arr (j :: done).reverse, rest)
    | _ => none

def readFields (room : Nat) :
    (fuel : Nat) → List (Option String × Json) → List Char → Option (Json × List Char)
  | 0, _, _ => none
  | fuel + 1, done, cs =>
    match skipSpace cs with
    | '"' :: rest => do
      let (k, cs) ← readString [] rest
      match skipSpace cs with
      | ':' :: rest => do
        let (j, cs) ← readValue room fuel rest
        match skipSpace cs with
        | ',' :: rest => readFields room fuel ((k, j) :: done) rest
        | '\x7d' :: rest => some (ofFields ((k, j) :: done).reverse, rest)
        | _ => none
      | _ => none
    | _ => none

end

/-- The one value that a text holds. -/
def ofText? (s : String) : Option Json := do
  let cs := s.toList
  let (j, rest) ← readValue maxDepth (cs.length + 1) cs
  if (skipSpace rest).isEmpty then some j else none

end DockerSim.Json
