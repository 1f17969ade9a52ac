import DockerSim.Toml.Scalar

/-!
# Reading settings documents

A document goes line by line: a line gives a value to a key, is the header of a table, or is empty;
`#` starts a comment that ends with its line. Only a list, and a text between three quotes, may go
over several lines.
-/

namespace DockerSim.Toml

/-- What follows the comment at the front, if there is one: nothing, or a line end. -/
def skipComment : List Char → List Char
  | '#' :: cs => cs.dropWhile fun c => !isControl c
  | cs => cs

/-- What follows the blanks, comments and line ends at the front. -/
def skipLines : (fuel : Nat) → List Char → List Char
  | 0, cs => cs
  | fuel + 1, cs =>
    let cs := skipComment (skipSpaces cs)
    match lineEnd? cs with
    | some rest => skipLines fuel rest
    | none => cs

/-- What follows the end of a line, which may hold a comment. -/
def finishLine (cs : List Char) : Option (List Char) :=
  match skipComment (skipSpaces cs) with
  | [] => some []
  | cs => lineEnd? cs

/-- Neither lists and tables inside one another nor the keys of a path reach this number. -/
def nestingBound : Nat := 80

/-! ## Keys -/

def isBareChar (c : Char) : Bool := c.isAlphanum || c == '_' || c == '-'

/-- A key, bare or quoted, and what follows it. -/
def readKey (cs : List Char) : Option (String × List Char) :=
  match cs with
  | '"' :: rest => readQuoted (rest.length + 1) [] rest
  | '\'' :: rest => readLiteral rest
  | cs =>
    let key := cs.takeWhile isBareChar
    if key.isEmpty then none else some (.ofList key, cs.drop key.length)

/-- Keys between dots, with blanks around them, behind those in `done`, and what follows them. -/
def readKeys : (fuel : Nat) → (done : List String) → List Char → Option (List String × List Char)
  | 0, _, _ => none
  | fuel + 1, done, cs => do
    let (key, rest) ← readKey (skipSpaces cs)
    match skipSpaces rest with
    | '.' :: rest => readKeys fuel (done ++ [key]) rest
    | rest => some (done ++ [key], rest)

/-- The path in front of a value or in a header: the keys before its last one, the last one, and
what follows. -/
def readPath (cs : List Char) : Option (List String × String × List Char) := do
  let (keys, rest) ← readKeys (cs.length + 1) [] cs
  if nestingBound ≤ keys.length then none
  some (keys.dropLast, ← keys.getLast?, rest)

/-! ## Values -/

mutual

/-- A value and what follows it, with room for some more levels of nesting. -/
def readValue (room : Nat) : (fuel : Nat) → List Char → Option (Toml × List Char)
  | 0, _ => none
  | fuel + 1, cs =>
    match cs, room with
    | '[' :: _, 0 | '\x7b' :: _, 0 => none
    | '[' :: rest, room + 1 => readItems room fuel [] rest
    | '\x7b' :: rest, room + 1 =>
      match skipSpaces rest with
      | '\x7d' :: rest => some (.table .inline [], rest)
      | rest => readPairs room fuel [] rest
    | cs, _ => readScalar cs

/-- The rest of a list whose items so far are `done`, last first, and what follows it. A comma may
stand behind the last item. -/
def readItems (room : Nat) : (fuel : Nat) → (done : List Toml) → List Char →
    Option (Toml × List Char)
  | 0, _, _ => none
  | fuel + 1, done, cs =>
    match skipLines cs.length cs with
    | ']' :: rest => some (.list done.reverse, rest)
    | cs => do
      let (item, rest) ← readValue room fuel cs
      match skipLines rest.length rest with
      | ',' :: rest => readItems room fuel (item :: done) rest
      | ']' :: rest => some (.list (item :: done).reverse, rest)
      | _ => none

/-- The rest of a table in braces, and what follows it. -/
def readPairs (room : Nat) : (fuel : Nat) → (done : TomlEntries) → List Char →
    Option (Toml × List Char)
  | 0, _, _ => none
  | fuel + 1, done, cs => do
    let (path, key, rest) ← readPath cs
    match rest with
    | '=' :: rest => do
      let (value, rest) ← readValue room fuel (skipSpaces rest)
      let done ← done.assign path key value
      match skipSpaces rest with
      | ',' :: rest => readPairs room fuel done rest
      | '\x7d' :: rest => some (.table .inline done, rest)
      | _ => none
    | _ => none

end

/-! ## Documents -/

/-- The document after the lines that follow, `header` being the path of the table that the last
header opened. -/
def readLines : (fuel : Nat) → (header : List String) → TomlEntries → List Char →
    Option TomlEntries
  | 0, _, _, _ => none
  | fuel + 1, header, entries, cs =>
    match skipLines cs.length cs with
    | [] => some entries
    | '[' :: '[' :: rest => do
      let (path, key, rest) ← readPath rest
      let behind ← finishLine (← Chars.after? [']', ']'] rest)
      readLines fuel (path ++ [key]) (← entries.openItem path key) behind
    | '[' :: rest => do
      let (path, key, rest) ← readPath rest
      let behind ← finishLine (← Chars.after? [']'] rest)
      readLines fuel (path ++ [key]) (← entries.openTable path key) behind
    | cs => do
      let (path, key, rest) ← readPath cs
      let rest ← Chars.after? ['='] rest
      let (value, rest) ← readValue (nestingBound - 1) (rest.length + 1) (skipSpaces rest)
      readLines fuel header (← entries.assignBelow header path key value) (← finishLine rest)

/-- The entries of a document, which may begin with a byte order mark. -/
def ofText? (s : String) : Option TomlEntries :=
  let cs := match s.toList with
    | '\uFEFF' :: cs => cs
    | cs => cs
  readLines (cs.length + 1) [] [] cs

end DockerSim.Toml
