import DockerSim.Chars.Cut
import DockerSim.Yaml.Scalar

/-!
# Lines of a YAML document

Only the lines that say something count: blank lines and comments are passed over, and so is a
document marker before the first of them. A line is known by its number, its column and its text; a
text is an item of a sequence or an entry of a mapping.
-/

namespace DockerSim.Yaml

structure Line where
  /-- The number of the line in the document, from 1. -/
  number : Nat
  /-- The size of its indentation, in bytes. -/
  column : Nat
  /-- The line without its indentation and without blanks at its end. -/
  text : List Char
deriving DecidableEq

def byteSize (cs : List Char) : Nat := cs.foldl (fun size c => size + c.utf8Size) 0

/-- The line at a number, if it says something. -/
def Line.ofChars? (number : Nat) (raw : List Char) : Option Line :=
  let body := Chars.trimStart raw
  if body.isEmpty || body.head? = some '#' then none
  else some {
    number
    column := byteSize (raw.takeWhile Chars.isBlank)
    text := Chars.trimEnd body }

/-- Numbers from `n` on are given to the raw lines. Document markers are passed over as long as no
line has counted yet. -/
def linesFrom (n : Nat) (started : Bool) : List (List Char) → List Line
  | [] => []
  | raw :: raws =>
    match Line.ofChars? n raw with
    | none => linesFrom (n + 1) started raws
    | some line =>
      if !started && Chars.trimStart raw = ['-', '-', '-'] then linesFrom (n + 1) false raws
      else line :: linesFrom (n + 1) true raws

/-- The lines of a document that say something. -/
def linesOf (content : String) : List Line := linesFrom 1 false (Chars.lines content.toList)

/-! ## Items and entries -/

/-- The text is an item of a sequence. -/
def isItem (text : List Char) : Bool :=
  match text with
  | ['-'] => true
  | '-' :: ' ' :: _ => true
  | _ => false

/-- A value without the comment behind it. A quoted value is left as it is. -/
def dropComment (value : List Char) : List Char :=
  if isQuoted value then value
  else
    let rec upTo : List Char → Option (List Char)
      | ' ' :: '#' :: _ => some []
      | c :: cs => (upTo cs).map (c :: ·)
      | [] => none
    match upTo value with
    | some before => Chars.trimEnd before
    | none => if value.head? = some '#' then [] else value

/-- What stands before and after the colon that ends a plain key: the first one before a blank or at
the end of the line. -/
def cutColon : List Char → Option (List Char × List Char)
  | [] => none
  | c :: cs =>
    if c = ':' && cs.head?.all Chars.isAsciiBlank then some ([], cs)
    else (cutColon cs).map fun (before, after) => (c :: before, after)

/-- The key and the value of an entry, the value without its comment. -/
def splitEntry (text : List Char) : Option (String × List Char) :=
  match text with
  | [] => none
  | c :: cs =>
    if isQuoteMark c then
      match Chars.cut c cs with
      | some (key, ':' :: after) =>
        if after.head?.all Chars.isBlank then
          some (.ofList key, dropComment (Chars.trim after))
        else none
      | _ => none
    else
      match cutColon text with
      | some (before, after) =>
        let key := Chars.trim before
        if key.isEmpty then none else some (.ofList key, dropComment (Chars.trim after))
      | none => none

/-- An item that is itself the first entry of a mapping. -/
def isEntryItem (item : List Char) : Bool :=
  !isQuoted item && item.head? ≠ some '\x7b' && item.head? ≠ some '[' && (splitEntry item).isSome

/-- The value announces a block of text on the lines below. -/
def isTextBlock (value : List Char) : Bool :=
  value = ['|'] || value = ['>'] || value = ['|', '-'] || value = ['>', '-'] ||
    value = ['|', '+'] || value = ['>', '+']

end DockerSim.Yaml
