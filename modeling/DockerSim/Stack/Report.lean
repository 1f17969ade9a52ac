import DockerSim.Command.Inspect

/-!
# Looking at a stack

`compose ps` lists the containers of the stack and `compose logs` shows what they have printed, both
in the order in which the services were started.
-/

namespace DockerSim.Stack

/-- The active containers of the stack with their services. -/
def members (s : State) : List (String × Container) :=
  match s.stack? with
  | none => []
  | some stack =>
    stack.services.filterMap fun service =>
      (((stack.containerIds.get? service).bind s.containers.get?).filter Container.isActive).map
        fun c => (service, c)

def nothingRunning : String := "no compose services running"

def memberHeader : String :=
  Display.pad "NAME" 22 ++ Display.pad "IMAGE" 20 ++ Display.pad "SERVICE" 16 ++
    Display.pad "STATUS" 12 ++ "PORTS"

def memberRow (images : Table Image) (service : String) (c : Container) : String :=
  Display.pad c.name 22 ++
    Display.pad (Display.truncate (imageLabel images c.imageId) 18) 20 ++
    Display.pad service 16 ++
    Display.pad (if c.isRunning then "Up" else c.status.name) 12 ++
    Command.portsColumn c

def ps (r : Request) : Outcome :=
  match members r.state with
  | [] => .print [nothingRunning]
  | ms => .print (memberHeader :: ms.map fun (service, c) => memberRow r.state.images service c)

/-- The last lines of a container, each after the name of its service. -/
def memberLogs (count : Option Nat) (service : String) (c : Container) : List String :=
  (Display.tail (Command.logsOr "(no log output)" c) count).map fun line =>
    service ++ "  | " ++ line

/-- The services may be named on the command line; otherwise all are shown. -/
def logs (r : Request) : Outcome :=
  let ms := members r.state
  let wanted := r.line.args
  if ms.isEmpty then .print [nothingRunning]
  else
    match wanted.find? fun w => !ms.any fun m => m.1 = w with
    | some w => .refuse (.noSuchService w)
    | none =>
      let count := Display.tailCount (r.line.value? ["tail", "n"])
      .print ((ms.filter fun m => wanted.isEmpty || wanted.contains m.1).flatMap
        fun (service, c) => memberLogs count service c)

end DockerSim.Stack
