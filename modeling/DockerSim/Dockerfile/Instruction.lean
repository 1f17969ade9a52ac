import DockerSim.Text

/-!
# Instructions of a Dockerfile

Lines that are blank or a comment do not count. A counting line that ends in a backslash goes on in
the next one that counts; an instruction is a group of lines that go on into each other, joined by
spaces without the backslashes. The file may end in the middle of a group.
-/

namespace DockerSim

structure Instruction where
  /-- The number of its first line, from 1. -/
  line : Nat
  /-- Its first word, in upper case. -/
  keyword : String
  rest : String
deriving DecidableEq, Repr

namespace Instruction

/-- The instruction that a joined text stands for. -/
def ofText (line : Nat) (text : String) : Instruction :=
  let text := Text.trim text
  match Text.cutBlank text with
  | some (keyword, rest) => { line, keyword := Text.upper keyword, rest := Text.trim rest }
  | none => { line, keyword := Text.upper text, rest := "" }

/-- The arguments are written as a JSON array. -/
def isExecForm (i : Instruction) : Bool := Text.starts "[" i.rest

/-- A line that counts. -/
structure Piece where
  line : Nat
  text : List Char
  /-- The instruction goes on in the next line. -/
  goesOn : Bool

def Piece.ofLine? (line : Nat) (raw : List Char) : Option Piece :=
  let text := Chars.trim raw
  if text.isEmpty || text.head? = some '#' then none
  else if text.getLast? = some '\\' then
    some { line, text := Chars.trim text.dropLast, goesOn := true }
  else some { line, text, goesOn := false }

/-- The lines that count, numbered from `n`. -/
def piecesFrom (n : Nat) : List (List Char) → List Piece
  | [] => []
  | raw :: raws => (Piece.ofLine? n raw).toList ++ piecesFrom (n + 1) raws

/-- The text of a started instruction, with one more piece. -/
def extend (started : Option (Nat × List Char)) (p : Piece) : Nat × List Char :=
  match started with
  | some (line, text) => (line, text ++ [' '] ++ p.text)
  | none => (p.line, p.text)

/-- The instructions that pieces form, the first piece continuing a started one. -/
def group (started : Option (Nat × List Char)) : List Piece → List Instruction
  | [] =>
    match started with
    | some (line, text) => [ofText line (.ofList text)]
    | none => []
  | p :: ps =>
    let (line, text) := extend started p
    if p.goesOn then group (some (line, text)) ps
    else ofText line (.ofList text) :: group none ps

/-- The instructions of a Dockerfile. -/
def ofContent (content : String) : List Instruction :=
  group none (piecesFrom 1 (Chars.lines content.toList))

end Instruction

end DockerSim
