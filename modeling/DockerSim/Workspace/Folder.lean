import DockerSim.Workspace.Basic

/-!
# Workspaces from folders

The snapshot of a folder holds its files and those of the folders directly in it. Hidden entries,
folders of dependencies, files that are too large and files that are not text are left out.
-/

namespace DockerSim

/-- An entry of a folder. -/
inductive FolderEntry where
  | file (name : String) (bytes : ByteArray)
  | folder (name : String) (entries : List FolderEntry)
  /-- Anything else, such as a link. -/
  | other (name : String)

/-- What is found at a path. -/
inductive PathContent where
  | missing
  | file (bytes : ByteArray)
  | folder (entries : List FolderEntry)

namespace Workspace

/-- Files of more bytes are left out. -/
def maxFileBytes : Nat := 1048576

def skippedFolders : List String := ["node_modules", "target", ".git"]

def isHidden (name : String) : Bool := Text.starts "." name

/-- The workspace with a file, if it is small enough and holds text. -/
def addFile (w : Workspace) (path : String) (bytes : ByteArray) : Workspace :=
  if maxFileBytes < bytes.size then w
  else
    match String.fromUTF8? bytes with
    | some content => w.write path content
    | none => w

/-- The workspace with the files of a folder, whose path is put before their names. -/
def addFiles (path : String) (w : Workspace) : List FolderEntry → Workspace
  | [] => w
  | .file name bytes :: rest =>
    addFiles path (if isHidden name then w else w.addFile (path ++ name) bytes) rest
  | _ :: rest => addFiles path w rest

/-- The snapshot of a folder. -/
def ofFolder (entries : List FolderEntry) : Workspace :=
  entries.foldl (fun w entry =>
    match entry with
    | .file name bytes => if isHidden name then w else w.addFile name bytes
    | .folder name inner =>
      if isHidden name || skippedFolders.contains name then w else addFiles (name ++ "/") w inner
    | .other _ => w) Table.empty

end Workspace

/-- Why there is no snapshot of a path. -/
inductive FolderError where
  | notFound
  | notADirectory
deriving DecidableEq, Repr

/-- The snapshot of what is found at a path. -/
def PathContent.workspace : PathContent → Except FolderError Workspace
  | missing => .error .notFound
  | file _ => .error .notADirectory
  | folder entries => .ok (.ofFolder entries)

end DockerSim
