import DockerSim.Command.Image
import DockerSim.Command.Lifecycle
import DockerSim.Command.Inspect
import DockerSim.Command.Usage
import DockerSim.Stack.Down
import DockerSim.Stack.Report
import DockerSim.Stack.Up

/-!
# Evaluating a command line

A command line is checked, brought into its usual form and handed to the command it names.
Evaluation is total: whatever goes wrong is an outcome that failed.
-/

namespace DockerSim

namespace CommandLine

def composeSubcommands : List String := ["up", "down", "ps", "logs"]

/-- The command line as it would be with its flags before `compose` moved behind the subcommand. A
flag that is given in both places keeps the one behind. -/
def normalized (c : CommandLine) : CommandLine :=
  if c.subcommand = some compose then
    match c.args with
    | first :: rest =>
      if composeSubcommands.contains first then
        let again := parse ("docker compose " ++ first ++ " " ++ Words.join rest)
        { again with
          raw := c.raw
          flags := c.flags.entries.foldl (fun fs (name, flag) =>
            if fs.contains name then fs else fs.insert name flag) again.flags }
      else c
    | [] => c
  else c

def wantsHelp (c : CommandLine) : Bool := c.anySwitch ["help", "h"]

end CommandLine

namespace Outcome

def version : Outcome := print [Usage.version]

def help (subcommand : Option String) : Outcome :=
  match Usage.ofSubcommand subcommand with
  | some lines => print lines
  | none => refuse (.unknownCommand (subcommand.getD ""))

/-- A flag in the place of the subcommand. -/
def ofRootFlag (flag : String) : Outcome :=
  match String.ofList (flag.toList.dropWhile (· == '-')) with
  | "version" | "v" => version
  | "help" | "h" => help none
  | _ => refuse (.unknownFlag flag)

end Outcome

/-- The command of a subcommand. -/
def runSubcommand (r : Request) (sub : String) : Draw Outcome :=
  match sub with
  | "version" => return .version
  | "pull" => Command.pull r
  | "images" => return Command.images r
  | "build" => Command.build r
  | "run" => Command.run r
  | "ps" => return Command.ps r
  | "stop" => Command.stop r
  | "start" => Command.start r
  | "rm" => Command.rm r
  | "logs" => return Command.logs r
  | "exec" => Command.exec r
  | "compose up" => Stack.up r
  | "compose down" => Stack.down r
  | "compose ps" => return Stack.ps r
  | "compose logs" => return Stack.logs r
  | other => return .refuse (.unknownCommand other)

/-- A `docker` command line in its usual form. -/
def dispatch (r : Request) : Draw Outcome :=
  match r.line.subcommand with
  | none =>
    if r.line.anySwitch ["version", "v"] then return .version else return .help none
  | some sub =>
    if CommandLine.startsWithDash sub then return .ofRootFlag sub
    else if r.line.wantsHelp || sub = "help" || sub = CommandLine.compose then
      return .help (some sub)
    else runSubcommand r sub

/-- The outcome of a request. -/
def evaluate (r : Request) : Draw Outcome :=
  match r.line.fault? with
  | some fault => return .refuse (.invalidCommand fault)
  | none =>
    if r.line.command = "" then return .print []
    else if !r.line.isDocker then return .refuse (.commandNotFound r.line.command)
    else dispatch { r with line := r.line.normalized }

end DockerSim
