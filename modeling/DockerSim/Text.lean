import DockerSim.Chars.Cut
import DockerSim.Chars.LetterCase
import DockerSim.Chars.Quoted

/-!
# Text

The operations on characters, for strings. Each is the operation of the same name in
`DockerSim.Chars`, between `String.toList` and `String.ofList`.
-/

namespace DockerSim.Text

def trim (s : String) : String := .ofList (Chars.trim s.toList)

def isBlank (s : String) : Bool := s.toList.all Chars.isBlank

def words (s : String) : List String := (Chars.words s.toList).map .ofList

def split (sep : Char) (s : String) : List String := (Chars.split sep s.toList).map .ofList

def lines (s : String) : List String := (Chars.lines s.toList).map .ofList

def cut (sep : Char) (s : String) : Option (String × String) :=
  (Chars.cut sep s.toList).map fun (before, after) => (.ofList before, .ofList after)

/-- What stands before and after the first blank. -/
def cutBlank (s : String) : Option (String × String) :=
  (Chars.cutWhere Chars.isBlank s.toList).map fun (before, after) => (.ofList before, .ofList after)

def cutLast (sep : Char) (s : String) : Option (String × String) :=
  (Chars.cutLast sep s.toList).map fun (before, after) => (.ofList before, .ofList after)

/-- The text before the first `sep`, all of it when there is none. -/
def before (sep : Char) (s : String) : String := .ofList (s.toList.takeWhile (· ≠ sep))

/-- The text after the last `sep`, all of it when there is none. -/
def afterLast (sep : Char) (s : String) : String := ((cutLast sep s).map (·.2)).getD s

def after? (beginning s : String) : Option String :=
  (Chars.after? beginning.toList s.toList).map .ofList

def starts (beginning s : String) : Bool := (Chars.after? beginning.toList s.toList).isSome

def ends (ending s : String) : Bool :=
  (Chars.after? ending.toList.reverse s.toList.reverse).isSome

def holds (part s : String) : Bool := Chars.holds part.toList s.toList

def has (c : Char) (s : String) : Bool := s.toList.contains c

def take (n : Nat) (s : String) : String := .ofList (s.toList.take n)

def padEnd (width : Nat) (s : String) : String := .ofList (Chars.padEnd width s.toList)

def upper (s : String) : String := .ofList (Chars.upper s.toList)

def lower (s : String) : String := .ofList (Chars.lower s.toList)

def fold (s : String) : String := .ofList (Chars.fold s.toList)

def quoted (s : String) : String := .ofList (Chars.quoted s.toList)

def unsigned? (bound : Nat) (s : String) : Option Nat := Chars.unsigned? bound s.toList

/-- The decimal digits of a number. -/
def decimal (n : Nat) : String := .ofList (Chars.digits 10 n)

def join (sep : String) (parts : List String) : String := sep.intercalate parts

end DockerSim.Text
