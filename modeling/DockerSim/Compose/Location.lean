import DockerSim.Yaml.Line

/-!
# Locations in a stack file

Findings point at the line on which a key is written. The line is found by scanning the text: the
block of a service is the run of deeper lines below its name, and a key of the service is looked for
inside that block.
-/

namespace DockerSim.Compose

/-- A line as the scan sees it: with the blanks at its end, but without its indentation. -/
structure ScanLine where
  number : Nat
  column : Nat
  text : List Char

/-- The lines of a file that are neither blank nor a comment, numbered from `n`. -/
def scanFrom (n : Nat) : List (List Char) → List ScanLine
  | [] => []
  | raw :: raws =>
    let text := Chars.trimStart raw
    let rest := scanFrom (n + 1) raws
    if text.isEmpty || text.head? = some '#' then rest
    else
      { number := n, column := Yaml.byteSize (raw.takeWhile Chars.isBlank), text } :: rest

def scan (content : String) : List ScanLine := scanFrom 1 (Chars.lines content.toList)

/-- The text begins with a key, quoted or not, and its colon. -/
def ScanLine.hasKey (key : String) (l : ScanLine) : Bool :=
  let text := Chars.dropEndWhile Yaml.isQuoteMark (l.text.dropWhile Yaml.isQuoteMark)
  match Chars.after? key.toList text with
  | some after => (after.dropWhile Yaml.isQuoteMark).head? = some ':'
  | none => false

/-- The line of a service and the lines of its block. -/
def serviceBlock (lines : List ScanLine) (service : String) : Option (ScanLine × List ScanLine) :=
  let below := (lines.dropWhile fun l => !(l.column = 0 && l.hasKey "services")).drop 1
  match below with
  | [] => none
  | first :: _ =>
    let column := first.column
    let services := below.takeWhile fun l => column ≤ l.column
    if !services.any fun l => l.column = column && l.hasKey service then none
    else
      match below.dropWhile fun l => !(l.column = column && l.hasKey service) with
      | header :: rest => some (header, rest.takeWhile fun l => column < l.column)
      | [] => none

/-- The line of a service, the first line when it is not found. -/
def serviceLine (lines : List ScanLine) (service : String) : Nat :=
  match serviceBlock lines service with
  | some (header, _) => header.number
  | none => 1

/-- The line of a key of a service, the line of the service when the key is not found. -/
def fieldLine (lines : List ScanLine) (service key : String) : Nat :=
  match serviceBlock lines service with
  | some (header, block) =>
    match block.find? fun l => l.hasKey key with
    | some l => l.number
    | none => header.number
  | none => 1

end DockerSim.Compose
