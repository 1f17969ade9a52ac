import DockerSim.Engine.Codec
import DockerSim.Engine.Refusal
import DockerSim.Supply
import DockerSim.Workspace.Basic

/-!
# Requests and outcomes

What a command is given and what it reports. It is given the state, the command line and, when there
is one, the workspace; it reports the tables that change, the events that happened and the lines to
print. A command that is refused changes nothing.
-/

namespace DockerSim

structure Request where
  state : State
  line : CommandLine
  files : Option Workspace
  /-- The names that a stack file may have; no names stand for the usual ones. -/
  stackFiles : List String

/-- The names of stack files that are tried unless others are configured. -/
def usualStackFiles : List String :=
  ["compose.yml", "compose.yaml", "docker-compose.yml", "docker-compose.yaml"]

/-- The names of stack files to try, in order. -/
def Request.stackFileNames (r : Request) : List String :=
  if r.stackFiles.isEmpty then usualStackFiles else r.stackFiles

structure Outcome where
  delta : Delta := {}
  events : List Event := []
  output : List String
  succeeded : Bool

/-- The work of a command: it draws from the supply and may be refused. -/
abbrev Work := ExceptT Refusal Draw

namespace Outcome

/-- Lines to print, and nothing else. -/
def print (lines : List String) : Outcome := { output := lines, succeeded := true }

/-- A failure that changes nothing. -/
def fail (lines : List String) : Outcome := { output := lines, succeeded := false }

def refuse (r : Refusal) : Outcome := fail r.lines

/-- The first line of a failure that says something. -/
def errorLine? (o : Outcome) : Option String :=
  if o.succeeded then none else o.output.find? fun l => !Text.isBlank l

/-- The outcome of work, a refusal being one too. -/
def ofWork (work : Work Outcome) : Draw Outcome := do
  match ← work.run with
  | .ok o => return o
  | .error r => return refuse r

def toJson (o : Outcome) : Json := .obj [
  ("stateDelta", o.delta.toJson),
  ("events", .arr (o.events.map Event.toJson)),
  ("outputLines", .strs o.output),
  ("succeeded", .bool o.succeeded)]

end Outcome

/-- An event that happens now. -/
def Event.draw (kind : EventKind) (payload : Json) (summary : String) : Draw Event := do
  let id ← Supply.uuid
  let time ← Supply.now
  return { id, kind, time, payload := payload.canonical, summary }

/-- The state after an outcome. -/
def State.take (s : State) (o : Outcome) : State := (s.apply o.delta).record o.events

/-- The first argument of a command, which is refused when there is none. -/
def Request.firstArg (r : Request) (form : String) : Except Refusal String :=
  match r.line.args with
  | arg :: _ => .ok arg
  | [] => .error (.usage form)

/-- A value that a command cannot do without. -/
def orRefuse (r : Refusal) : Option α → Except Refusal α
  | some a => .ok a
  | none => .error r

end DockerSim
