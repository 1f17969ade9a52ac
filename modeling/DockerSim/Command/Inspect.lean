import DockerSim.Engine.Display
import DockerSim.Engine.Lookup
import DockerSim.Engine.Outcome

/-!
# Looking at containers

`ps` lists containers, `logs` shows what one has printed, and `exec` runs one of a few programs in
it whose output is known.
-/

namespace DockerSim.Command

/-! ## Listing -/

/-- The newer container comes first, and of containers of one age the first by name. -/
def containerBefore (a b : Container) : Bool :=
  b.createdAt.before a.createdAt || (a.createdAt = b.createdAt && decide (a.name ≤ b.name))

def portsColumn (c : Container) : String := Text.join ", " (c.ports.map PortMapping.text)

def containerRow (images : Table Image) (c : Container) : String :=
  Display.pad (Display.truncate c.id 12) 14 ++
    Display.pad (Display.truncate (imageLabel images c.imageId) 18) 20 ++
    Display.pad "\"...\"" 12 ++
    Display.pad c.createdAt.minuteText 18 ++
    Display.pad c.status.name 12 ++
    Display.pad (Display.truncate (portsColumn c) 22) 24 ++
    c.name

def containerHeader : String :=
  Display.pad "CONTAINER ID" 14 ++ Display.pad "IMAGE" 20 ++ Display.pad "COMMAND" 12 ++
    Display.pad "CREATED" 18 ++ Display.pad "STATUS" 12 ++ Display.pad "PORTS" 24 ++ "NAMES"

/-- The running containers, or all active ones. -/
def ps (r : Request) : Outcome :=
  let all := r.line.anySwitch ["a", "all"]
  let shown := (r.state.activeContainers.filter fun c => all || c.isRunning).mergeSort
    containerBefore
  if r.line.anySwitch ["q", "quiet"] then .print (shown.map Container.id)
  else .print (containerHeader :: shown.map (containerRow r.state.images))

/-! ## Logs -/

/-- A container that has printed nothing says so. -/
def logsOr (placeholder : String) (c : Container) : List String :=
  if c.logs.isEmpty then [placeholder] else c.logs

def showLogs (r : Request) : Except Refusal Outcome := do
  let reference ← r.firstArg "logs [OPTIONS] CONTAINER"
  let c ← orRefuse (.noSuchContainer reference) (findContainer r.state.containers reference)
  let banner :=
    if r.line.anySwitch ["f", "follow"] then
      ["(Following logs for " ++ c.name ++ " - press Ctrl+C to stop)"]
    else []
  return .print (banner ++
    Display.tail (logsOr (c.name ++ " | (no log output)") c)
      (Display.tailCount (r.line.value? ["tail", "n"])))

/-- The outcome of work that draws nothing. -/
def settle : Except Refusal Outcome → Outcome
  | .ok o => o
  | .error refusal => .refuse refusal

def logs (r : Request) : Outcome := settle (showLogs r)

/-! ## Programs -/

def defaultPath : String := "/usr/local/sbin:/usr/local/bin:/usr/sbin:/usr/bin:/sbin:/bin"

/-- The variables that every container has unless it sets them itself. -/
def defaultEnvironment (c : Container) : List (String × String) :=
  [("PATH", defaultPath), ("HOSTNAME", c.name), ("TERM", "xterm-256color")]

/-- The environment of a container: the variables that all have, then its own. -/
def environmentLines (c : Container) : List String :=
  let defaults := defaultEnvironment c
  defaults.map (fun (key, value) => key ++ "=" ++ (c.env.get? key).getD value) ++
    (c.env.entries.filter fun (key, _) => (defaults.lookup key).isNone).map
      fun (key, value) => key ++ "=" ++ value

/-- What a program prints in a container, if it is one of those that are known. -/
def programOutput (images : Table Image) (c : Container) (command : String) :
    Option (List String) :=
  let lower := Text.lower command
  match lower with
  | "env" | "printenv" => some (environmentLines c)
  | "cat /etc/os-release" =>
    let name := Text.before ':' (imageLabel images c.imageId)
    some ["PRETTY_NAME=\"Simulated " ++ name ++ " Linux\"", "NAME=\"SimOS\"", "ID=simdocker",
      "HOME_URL=\"https://docker-yard.dev/\""]
  | "ls /app" => some ["index.js  node_modules  package.json"]
  | "sh" | "bash" =>
    some ["Welcome to " ++ c.name ++ " (" ++ lower ++ ")",
      "This is a simulated shell. Try: env, ls /app, cat /etc/os-release"]
  | _ => none

/-- The command that words stand for. A shell with `-c` runs the words after it. -/
def execCommand (words : List String) : String :=
  match words with
  | shell :: "-c" :: inner =>
    if (shell = "sh" || shell = "bash") && !inner.isEmpty then Text.join " " inner
    else Text.join " " words
  | _ => Text.join " " words

/-- The reference and the words on the command line, which must ask for an interactive run. -/
def programWords (line : CommandLine) : Except Refusal (String × List String) :=
  let usage : Refusal := .usage "exec -it CONTAINER COMMAND [ARG...]"
  let interactive := line.anySwitch ["i", "interactive"] && line.anySwitch ["t", "tty"]
  match line.args with
  | reference :: word :: words =>
    if interactive then .ok (reference, word :: words) else .error usage
  | _ => .error usage

/-- The running container, the command that is run in it, and what it prints. -/
def chooseProgram (r : Request) : Except Refusal (Container × String × List String) := do
  let (reference, words) ← programWords r.line
  let c ← orRefuse (.noSuchContainer reference) (findContainer r.state.containers reference)
  if !c.isRunning then throw (.execNotRunning c.name)
  let command := execCommand words
  let output ← orRefuse (.programNotFound ((Text.words command).headD ""))
    (programOutput r.state.images c command)
  return (c, command, output)

def runProgram (r : Request) : Work Outcome := do
  let (c, command, output) ← chooseProgram r
  let ran ← Event.draw .execCommandRun
    (.obj [("containerId", .str c.id), ("cmd", .str command)])
    ("Ran '" ++ command ++ "' in " ++ c.name)
  return { Outcome.print output with events := [ran] }

def exec (r : Request) : Draw Outcome := Outcome.ofWork (runProgram r)

end DockerSim.Command
