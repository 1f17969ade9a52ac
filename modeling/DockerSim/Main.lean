import DockerSim.Program.Run

/-!
# The command line program

Reads what the program finds around it, hands it over turn by turn, prints what the turns say and
keeps the session file. What is printed and what is kept is decided in `DockerSim.Program`.
-/

open DockerSim DockerSim.Program

namespace DockerSim.Main

/-! ## Files -/

/-- The entries of a folder and of the folders in it, down to a depth. Entries that no workspace
takes in are not read. -/
def readFolder (depth : Nat) (dir : String) : IO (List FolderEntry) := do
  let entries ← ((← IO.currentDir) / dir).readDir
  entries.toList.mapM fun e => do
    let name := e.fileName
    if Workspace.isHidden name then return .other name
    let about ← e.path.symlinkMetadata
    match about.type, depth with
    | .file, _ =>
      if Workspace.maxFileBytes < about.byteSize.toNat then return .other name
      try return .file name (← IO.FS.readBinFile e.path) catch _ => return .other name
    | .dir, depth + 1 =>
      if Workspace.skippedFolders.contains name then return .other name
      return .folder name (← readFolder depth e.path.toString)
    | _, _ => return .other name

def readPath (path : String) : IO PathContent := do
  if path = "" then return .missing
  let found := (← IO.currentDir) / path
  if !(← found.pathExists) then return .missing
  if ← found.isDir then return .folder (← readFolder 1 path)
  return .file (← IO.FS.readBinFile path)

/-- The text of a file, if there is one. -/
def readText? (path : String) : IO (Option String) := do
  if ← ((← IO.currentDir) / path).pathExists then return some (← IO.FS.readFile path)
  return none

/-- A directory of the user: the one named in the environment, or the usual one. -/
def userDirectory (named usual : String) : IO String := do
  match ← IO.getEnv named with
  | some dir => return dir ++ "/" ++ programName
  | none => return (← IO.getEnv "HOME").getD "" ++ "/" ++ usual ++ "/" ++ programName

def settingsPath : IO String := do
  return (← userDirectory "XDG_CONFIG_HOME" ".config") ++ "/config.toml"

def stateDirectory : IO String := userDirectory "XDG_STATE_HOME" ".local/state"

def sessionPath : IO String := do return (← stateDirectory) ++ "/session.json"

/-- The session file is replaced as a whole. -/
def changeSession : FileChange → IO Unit
  | .keep => return
  | .remove => do IO.FS.removeFile (← sessionPath)
  | .write text => do
    IO.FS.createDirAll (← stateDirectory)
    let written := (← stateDirectory) ++ "/session.json.tmp"
    IO.FS.writeFile written text
    IO.FS.rename written (← sessionPath)

/-! ## Surroundings -/

/-- The paths that a task looks at. -/
def pathsOf (i : Invocation) (settings : Settings) (directory : String) : List String :=
  let workspace := (i.workspace <|> settings.workspace).getD directory
  match i.task with
  | .shell | .run .. => [workspace]
  | .validate _ file => [file, i.workspace.getD (Path.directory file)]
  | _ => []

def surroundings (args : List String) : IO Surroundings := do
  let directory := (← IO.currentDir).toString
  let settings ← readText? (← settingsPath)
  let session ← readText? (← sessionPath)
  let paths := match Invocation.ofArguments args with
    | .ok i => pathsOf i ((settings.bind Settings.ofText?).getD {}) directory
    | .error _ => []
  let contents ← paths.mapM fun path => do return (path, ← readPath path)
  return {
    settings, session, directory
    look := fun path => (contents.lookup path).getD .missing }

/-- A supply that starts at a random number and at the time of a file written now. -/
def freshSupply : IO Supply := do
  let seed ← IO.getRandomBytes 32
  let (_, path) ← IO.FS.createTempFile
  let time := (← path.metadata).modified
  IO.FS.removeFile path
  return {
    drawn := seed.toList.foldl (fun n b => 256 * n + b.toNat) 0
    clock := { seconds := time.sec, nanos := time.nsec.toNat } }

/-! ## The run -/

/-- Prints a turn and goes on with the next, until the program ends. -/
partial def follow (args : List String) (supply : Supply) (turn : Turn) : IO UInt32 := do
  (← IO.getStdout).putStr turn.output
  (← IO.getStdout).flush
  (← IO.getStderr).putStr turn.errors
  changeSession turn.change
  match turn.next with
  | .inl code => return code.toUInt32
  | .inr waiting =>
    let line ← (← IO.getStdin).getLine
    let line := if line = "" then none else some line
    let (turn, supply) := (waiting.read (← surroundings args) line).run supply
    follow args supply turn

end DockerSim.Main

def main (args : List String) : IO UInt32 := do
  let (turn, supply) := (start (← DockerSim.Main.surroundings args) args).run
    (← DockerSim.Main.freshSupply)
  DockerSim.Main.follow args supply turn
