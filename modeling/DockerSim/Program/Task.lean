import DockerSim.Program.Arguments
import DockerSim.Program.Turn
import DockerSim.Workspace.FileKind

/-!
# Tasks

The first turn of each task, and how it shows the findings of a file and the events of a session.
Tasks that need the workspace or the session are given up when it cannot be read, and then nothing
has changed.
-/

namespace DockerSim.Program

/-! ## Reports -/

def findingLines (file : String) (f : Finding) : List String :=
  [file ++ ":" ++ f.text, "    " ++ f.explanation] ++ f.fix.toList.map ("    fix: " ++ ·)

/-- The findings of a file and how many there are, or that there are none. -/
def checkReport (file : String) (fs : List Finding) : List String :=
  if fs.isEmpty then [file ++ ": no problems found"]
  else
    fs.flatMap (findingLines file) ++
      [Text.decimal (Finding.errors fs).length ++ " error(s), " ++
        Text.decimal (Finding.warnings fs).length ++ " warning(s)"]

def eventRow (time kind summary : String) : String :=
  Text.padEnd 20 time ++ " " ++ Text.padEnd 24 kind ++ " " ++ summary

/-- The events in the order in which they happened, under a head. -/
def eventReport (events : List Event) : List String :=
  if events.isEmpty then ["No events yet. Try: dockyard run docker pull nginx"]
  else
    [eventRow "TIME" "EVENT" "SUMMARY", .ofList (List.replicate 80 '-')] ++
      events.map fun e => eventRow e.time.secondText e.kind.name e.summary

/-! ## Workspace and session -/

namespace Surroundings

/-- The directory whose files are the workspace. -/
def workspacePath (w : Surroundings) (settings : Settings) (given : Option String) : String :=
  (given <|> settings.workspace).getD w.directory

def workspace (w : Surroundings) (path : String) : Except Failure Workspace :=
  (w.look path).workspace.mapError fun
    | .notFound => .pathNotFound path
    | .notADirectory => .notADirectory path

def loadSession (w : Surroundings) : Except Failure Session :=
  (Session.load w.session).mapError .session

/-- The session to work in: a new one when sessions are not kept. -/
def openSession (w : Surroundings) (settings : Settings) : Except Failure Session :=
  if settings.keepsSession then w.loadSession else .ok .new

end Surroundings

/-- A command line submitted to a session: the session after it, the outcome, and what becomes of
the session file. -/
def submitLine (settings : Settings) (session : Session) (raw : String)
    (files : Option Workspace) : Draw (Session × Outcome × FileChange) := do
  let (engine, outcome) ← session.engine.submit raw files settings.stackFiles
  let session := { session with engine }
  if settings.keepsSession then
    let session := session.saved (← Supply.now)
    return (session, outcome, .write session.encode)
  return (session, outcome, .keep)

/-- One command line. -/
def runTask (w : Surroundings) (settings : Settings) (workspace : Option String) (json : Bool)
    (words : List String) : Draw Turn := do
  let found : Except Failure (Workspace × Session) := do
    let files ← w.workspace (w.workspacePath settings workspace)
    let session ← w.openSession settings
    return (files, session)
  match found with
  | .error f => return .fail f
  | .ok (files, session) =>
    let (_, outcome, change) ← submitLine settings session (Words.join words) (some files)
    return {
      output := Turn.lines (if json then [outcome.toJson.pretty] else outcome.output)
      change
      next := .inl (if outcome.succeeded then 0 else 1) }

/-- The paths of the workspace that a file is checked against: those of its own directory, unless
the arguments name another. -/
def pathsBeside (w : Surroundings) (kind : FileKind) (workspace : Option String) (file : String) :
    Except Failure (List String) :=
  match kind with
  | .compose => do return (← w.workspace (workspace.getD (Path.directory file))).paths
  | .dockerfile => .ok []

/-- The check of a file. -/
def validateTask (w : Surroundings) (workspace : Option String) (json : Bool) (file : String) :
    Except Failure Turn := do
  let some kind := FileKind.ofPath? file | .error (.unknownKind file)
  let content ← match w.look file with
    | .missing => .error (.pathNotFound file)
    | .folder _ => .error .unreadableFile
    | .file bytes => ((String.fromUTF8? bytes).map .ok).getD (.error .unreadableFile)
  let findings := kind.check content (← pathsBeside w kind workspace file)
  let output :=
    if json then [(Json.arr (findings.map Finding.toJson)).pretty] else checkReport file findings
  return .done (if findings.any Finding.isError then 1 else 0) output

/-- The events of the session. -/
def eventsTask (w : Surroundings) (json : Bool) : Except Failure Turn := do
  let events := (← w.loadSession).engine.eventLog
  let output :=
    if json then [(Json.arr (events.map Event.toJson)).pretty] else eventReport events
  return .done 0 output

/-- The session is forgotten. -/
def forgotten : Turn := { Turn.done 0 ["Session reset"] with change := .remove }

def confirmationPrompt (s : State) : String :=
  "Forget " ++ Text.decimal s.images.size ++ " images, " ++
    Text.decimal s.activeContainers.length ++ " containers and " ++
    Text.decimal s.eventLog.length ++ " events? [y/N] "

/-- Forgetting the session, after asking unless forced. -/
def resetTask (w : Surroundings) (force : Bool) : Except Failure Turn := do
  if w.session.isNone then return .done 0 ["No saved session."]
  if force then return forgotten
  let session ← w.loadSession
  return { output := confirmationPrompt session.engine, next := .inr .confirmation }

/-- The parsed form of a command line. -/
def parseTask (words : List String) : Turn :=
  .done 0 [(CommandLine.parse (Words.join words)).toJson.pretty]

def Shell.greeting (workspace : String) : String :=
  programName ++ " " ++ programVersion ++ " - simulated docker in " ++ workspace ++
    ". Type 'exit' to leave."

/-- The shell prompts for the next line. -/
def Shell.wait (shell : Shell) : Turn :=
  { output := shell.settings.prompt, next := .inr (.commandLine shell) }

def shellTask (w : Surroundings) (settings : Settings) (workspace : Option String) :
    Except Failure Turn := do
  let workspace := w.workspacePath settings workspace
  let turn := Shell.wait { settings, workspace, session := ← w.openSession settings }
  return { turn with output := Turn.lines [Shell.greeting workspace] ++ turn.output }

/-! ## Choosing the task -/

/-- The first turn of a task. -/
def startTask (w : Surroundings) (i : Invocation) : Draw Turn :=
  match w.settings.elim (some {}) Settings.ofText? with
  | none => return .fail .unreadableSettings
  | some settings =>
    match i.task with
    | .shell => return .ofExcept (shellTask w settings i.workspace)
    | .run json words => runTask w settings i.workspace json words
    | .validate json file => return .ofExcept (validateTask w i.workspace json file)
    | .events json => return .ofExcept (eventsTask w json)
    | .reset force => return .ofExcept (resetTask w force)
    | .parse words => return parseTask words

/-- The tasks of the program, for a reader. -/
def helpLines : List String := [
  "Usage: dockyard [-w DIR] TASK",
  "",
  "Tasks:",
  "  shell                      Open the simulated terminal",
  "  run [--json] COMMAND...    Evaluate one docker command against the saved session",
  "  validate [--json] FILE     Check a Dockerfile or compose file",
  "  events [--json]            Show the events of the session",
  "  reset [--force]            Forget the saved session",
  "  parse COMMAND...           Show how a command line is parsed"]

/-- The first turn for the arguments. -/
def start (w : Surroundings) (args : List String) : Draw Turn :=
  match Invocation.ofArguments args with
  | .ok i => startTask w i
  | .error .version => return .done 0 [programName ++ " " ++ programVersion]
  | .error .help => return .done 0 helpLines
  | .error .rejected => return { errors := Turn.lines helpLines, next := .inl 2 }

end DockerSim.Program
