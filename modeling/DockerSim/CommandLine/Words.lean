import DockerSim.Text

/-!
# Words of a line

A line is split at blanks. A quote at the beginning of a word opens a span that reaches to the next
quote of its kind, blanks included; there is no escaping, and a quote that is never closed or that
stands inside a word is an ordinary character. `join` writes words as a line, with the quotes that
splitting takes off again.
-/

namespace DockerSim.Words

def isQuote (c : Char) : Bool := c == '"' || c == '\''

/-- What is being read, and the characters read so far, last first. -/
inductive Mode where
  | between
  | word (done : List Char)
  | quoted (quote : Char) (done : List Char)

/-- The words of the rest of a line. -/
def splitFrom : Mode → List Char → List (List Char)
  | .between, [] => []
  | .word done, [] => [done.reverse]
  | .quoted _ done, [] => [done.reverse]
  | .between, c :: cs =>
    if Chars.isBlank c then splitFrom .between cs
    else if isQuote c && cs.contains c then splitFrom (.quoted c []) cs
    else splitFrom (.word [c]) cs
  | .word done, c :: cs =>
    if Chars.isBlank c then done.reverse :: splitFrom .between cs
    else splitFrom (.word (c :: done)) cs
  | .quoted q done, c :: cs =>
    if c = q then done.reverse :: splitFrom .between cs
    else splitFrom (.quoted q (c :: done)) cs

/-- The words of a line. -/
def ofLine (line : String) : List String := (splitFrom .between line.toList).map .ofList

/-- A word must be quoted when it is empty, holds a blank or starts with a quote. -/
def needsQuotes (w : List Char) : Bool :=
  w.isEmpty || w.any Chars.isBlank || w.head?.any isQuote

/-- A word as it stands in a line: in double quotes if it must be quoted, in single quotes if it
holds a double quote. A word that holds both cannot be quoted and is left as it is. -/
def quote (w : List Char) : List Char :=
  if !needsQuotes w then w
  else if !w.contains '"' then '"' :: w ++ ['"']
  else if !w.contains '\'' then '\'' :: w ++ ['\'']
  else w

/-- The line made of the words. -/
def join (words : List String) : String :=
  Text.join " " (words.map fun w => .ofList (quote w.toList))

end DockerSim.Words
