import DockerSim.Workspace.Folder

/-!
# Folder trees

A folder and all that is in it, with the files written into it by their paths and the look-up of a
path in it.
-/

namespace DockerSim

namespace FolderEntry

def name : FolderEntry → String
  | file name _ => name
  | folder name _ => name
  | other name => name

end FolderEntry

/-- The components of a path; empty ones and `.` do not count. -/
def Path.components (path : String) : List String :=
  (Text.split '/' path).filter fun c => c ≠ "" && c ≠ "."

/-- The path can only lead to a folder: its last component does not count. -/
def Path.asksForFolder (path : String) : Bool :=
  (Text.split '/' path).getLast?.any fun c => c = "" || c = "."

/-- The entries of a folder. -/
abbrev FolderTree := List FolderEntry

namespace FolderTree

def entry? (t : FolderTree) (name : String) : Option FolderEntry := t.find? (·.name = name)

/-- The folder with an entry in the place of the one of the same name. -/
def putEntry (t : FolderTree) (e : FolderEntry) : FolderTree :=
  t.filter (·.name ≠ e.name) ++ [e]

/-- The entries of the folder inside of that name, none when there is no such folder. -/
def inside (t : FolderTree) (name : String) : FolderTree :=
  match t.entry? name with
  | some (.folder _ entries) => entries
  | _ => []

/-- The tree with a folder at a path, and the folders on the way. -/
def addFolder (t : FolderTree) : List String → FolderTree
  | [] => t
  | name :: rest => t.putEntry (.folder name (addFolder (t.inside name) rest))

/-- The tree with a file at a path, and the folders on the way. -/
def addFile (t : FolderTree) (bytes : ByteArray) : List String → FolderTree
  | [] => t
  | [name] => t.putEntry (.file name bytes)
  | name :: rest => t.putEntry (.folder name (addFile (t.inside name) bytes rest))

/-- What the components lead to from the folder `here`; `above` are the folders around it, the
nearest first. There are folders around the tree too, in which nothing is found. -/
def walk (above : List FolderTree) (here : FolderTree) : List String → PathContent
  | [] => .folder here
  | ".." :: rest =>
    match above with
    | [] => walk [] [] rest
    | outer :: above => walk above outer rest
  | name :: rest =>
    match here.entry? name with
    | some (.folder _ entries) => walk (here :: above) entries rest
    | some (.file _ bytes) => if rest.isEmpty then .file bytes else .missing
    | _ => .missing

/-- What is found at a path that starts in the folder, or above all folders when it begins with a
slash. -/
def find (t : FolderTree) (path : String) : PathContent :=
  if path = "" then .missing
  else
    match walk [] (if Text.starts "/" path then [] else t) (Path.components path) with
    | .file bytes => if Path.asksForFolder path then .missing else .file bytes
    | found => found

end FolderTree

end DockerSim
