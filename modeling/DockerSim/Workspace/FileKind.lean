import DockerSim.Compose.Check
import DockerSim.Dockerfile.Check
import DockerSim.Workspace.Basic

/-!
# Kinds of files

Which check a file belongs to, told by its name.
-/

namespace DockerSim

inductive FileKind where
  | dockerfile
  | compose
deriving DecidableEq, Repr

namespace FileKind

/-- The name of the file that a path leads to. Empty components and `.` do not count; a path whose
last component is `..`, or that has none, names no file. -/
def fileName? (path : String) : Option String :=
  let components := (Text.split '/' path).filter fun c => c ≠ "" && c ≠ "."
  components.getLast?.filter (· ≠ "..")

def ofPath? (path : String) : Option FileKind := do
  let name := Text.lower (← fileName? path)
  if Language.isDockerfileName name then some .dockerfile
  else if Text.ends ".yml" name || Text.ends ".yaml" name then some .compose
  else none

/-- The findings of a file of a kind, in a workspace that has certain paths. -/
def check (kind : FileKind) (content : String) (paths : List String) : List Finding :=
  match kind with
  | .dockerfile => Dockerfile.check content
  | .compose => Compose.check content paths

end FileKind

end DockerSim
