import DockerSim.Program.Settings
import DockerSim.Session.File
import DockerSim.Workspace.Folder

/-!
# Turns

The program answers in turns. A turn says what is printed, what becomes of the session file, and
whether the program ends or waits for a line of input. What it finds around it is given to it as a
value, so a turn is a function of it.
-/

namespace DockerSim.Program

def programName : String := "dockyard"

def programVersion : String := "0.1.0"

/-- What the program finds around it. -/
structure Surroundings where
  /-- The text of the settings file, if there is one. -/
  settings : Option String
  /-- The text of the session file, if there is one. -/
  session : Option String
  /-- The current directory. -/
  directory : String
  look : String → PathContent

/-! ## Failures -/

/-- Why a task is given up. -/
inductive Failure where
  | unreadableSettings
  | unknownKind (file : String)
  | pathNotFound (path : String)
  | notADirectory (path : String)
  | unreadableFile
  | session (error : SessionError)
deriving DecidableEq, Repr

def Failure.message : Failure → String
  | unreadableSettings => "toml parse error:"
  | unknownKind file =>
    "cannot tell which validator applies to " ++ file ++
      " (expected a Dockerfile or a compose YAML file)"
  | pathNotFound path => "path does not exist: " ++ path
  | notADirectory path => "workspace is not a directory: " ++ path
  | unreadableFile => "io error:"
  | session error => error.message

/-! ## Turns -/

/-- What becomes of the session file. -/
inductive FileChange where
  | keep
  | write (text : String)
  | remove
deriving DecidableEq, Repr

/-- The shell between two lines of input. -/
structure Shell where
  settings : Settings
  workspace : String
  session : Session

/-- What the program waits for. -/
inductive Waiting where
  /-- The answer to whether the session is to be forgotten. -/
  | confirmation
  | commandLine (shell : Shell)

structure Turn where
  output : String := ""
  errors : String := ""
  change : FileChange := .keep
  /-- The exit code when the program ends, or else what it waits for. -/
  next : Nat ⊕ Waiting

namespace Turn

def lines (ls : List String) : String := .join (ls.map (· ++ "\n"))

/-- The program ends after printing. -/
def done (code : Nat) (ls : List String) : Turn := { output := lines ls, next := .inl code }

def fail (f : Failure) : Turn := { errors := lines ["error: " ++ f.message], next := .inl 1 }

def ofExcept : Except Failure Turn → Turn
  | .ok turn => turn
  | .error f => fail f

end Turn

end DockerSim.Program
