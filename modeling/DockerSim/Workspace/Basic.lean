import DockerSim.Table
import DockerSim.Workspace.Path

/-!
# The workspace

A workspace is a snapshot of the text files that builds and stacks read, by their normal paths.
-/

namespace DockerSim

/-- The language of a file, told by its name. -/
inductive Language where
  | dockerfile
  | yaml
  | javascript
  | sh
  | text
deriving DecidableEq, Repr

namespace Language

def name : Language → String
  | .dockerfile => "dockerfile"
  | .yaml => "yaml"
  | .javascript => "javascript"
  | .sh => "sh"
  | .text => "text"

/-- A file name in lower case belongs to a Dockerfile. -/
def isDockerfileName (name : String) : Bool :=
  name = "dockerfile" || Text.starts "dockerfile." name || Text.ends ".dockerfile" name

/-- The language of the file at a path. -/
def ofPath (path : String) : Language :=
  let name := Text.lower (Path.lastName path)
  if isDockerfileName name then .dockerfile
  else
    match (Text.cutLast '.' name).map (·.2) with
    | some "yml" | some "yaml" => .yaml
    | some "js" | some "mjs" | some "cjs" | some "ts" => .javascript
    | some "sh" | some "bash" => .sh
    | _ => .text

end Language

structure WorkspaceFile where
  path : String
  content : String
  language : Language
deriving DecidableEq

/-- A file at a path, which is brought into its normal form. -/
def WorkspaceFile.ofContent (path content : String) : WorkspaceFile :=
  let path := Path.normalize path
  { path, content, language := .ofPath path }

/-- The files by their normal paths. -/
abbrev Workspace := Table WorkspaceFile

namespace Workspace

/-- The workspace with a file written, over one at the same path if there is one. -/
def write (w : Workspace) (path content : String) : Workspace :=
  let file := WorkspaceFile.ofContent path content
  w.insert file.path file

/-- The snapshot of a list of paths and contents. -/
def ofFiles (files : List (String × String)) : Workspace :=
  files.foldl (fun w (path, content) => w.write path content) Table.empty

/-- The file that a path names. -/
def file? (w : Workspace) (path : String) : Option WorkspaceFile := w.get? (Path.normalize path)

/-- The paths of the files and of the directories that contain them, in increasing order. -/
def paths (w : Workspace) : List String :=
  (Table.ofList ((w.keys.flatMap fun p => p :: Path.parents p).map fun p => (p, ()))).keys

end Workspace

end DockerSim
