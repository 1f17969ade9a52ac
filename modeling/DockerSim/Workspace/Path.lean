import DockerSim.Text

/-!
# Workspace paths

Files of a workspace are named by their path inside it. The same file may be written with blanks
around it, a leading `./` and a trailing slash; the normal form has none of them.
-/

namespace DockerSim.Path

/-- The path without any `./` at its front. -/
def dropHere : List Char → List Char
  | '.' :: '/' :: cs => dropHere cs
  | cs => cs

def normalizeChars (cs : List Char) : List Char :=
  Chars.dropEndWhile (· == '/') (dropHere (Chars.trim cs))

/-- The normal form of a path. -/
def normalize (path : String) : String := .ofList (normalizeChars path.toList)

/-- The directories that contain a path, the nearest last. -/
def parentsAfter (seen : List Char) : List Char → List (List Char)
  | [] => []
  | c :: cs =>
    if c = '/' then seen.reverse :: parentsAfter (c :: seen) cs
    else parentsAfter (c :: seen) cs

/-- The directories that contain a path. -/
def parents (path : String) : List String := (parentsAfter [] path.toList).map .ofList

/-- The last component of a path. -/
def lastName (path : String) : String := Text.afterLast '/' path

/-- The directory in which the file at a path is: the current one when the path names none. -/
def directory (path : String) : String :=
  match Text.cutLast '/' path with
  | none => "."
  | some ("", _) => "/"
  | some (dir, _) => dir

end DockerSim.Path
