import DockerSim.CommandLine.Parse
import DockerSim.Engine.State

/-!
# Validity

What is checked of a command before it is run and of a state before it is trusted. Images and
containers are kept under their own names, no two active containers share a name, a bound port
belongs to an active container that publishes it, and a stack tracks containers that exist.
-/

namespace DockerSim

/-! ## Commands -/

inductive CommandFault where
  | unexpectedSubcommand (command : String)
  | malformedFlag (name : String)
  | mismatch (command input : String)
deriving DecidableEq, Repr

def CommandFault.message : CommandFault → String
  | unexpectedSubcommand command => "'" ++ command ++ "' does not take a subcommand"
  | malformedFlag name => "malformed flag name " ++ Text.quoted name
  | mismatch command input =>
    "command '" ++ command ++ "' does not match its input '" ++ input ++ "'"

/-- A flag name is a word: it is not empty and holds no blank. -/
def isFlagName (name : String) : Bool := name ≠ "" && !name.toList.any Chars.isBlank

/-- What is wrong with a command line, checked in the order of the cases. -/
def CommandLine.fault? (c : CommandLine) : Option CommandFault :=
  if !c.isDocker && c.subcommand.isSome then some (.unexpectedSubcommand c.command)
  else
    match c.flags.keys.find? fun name => !isFlagName name with
    | some name => some (.malformedFlag name)
    | none =>
      if Text.isBlank c.raw then none
      else if (CommandLine.parse c.raw).command = c.command then none
      else some (.mismatch c.command (Text.trim c.raw))

/-! ## States -/

inductive StateFault where
  | misfiledImage (key image : String)
  | misfiledContainer (key id : String)
  | sharedName (name : String)
  | strayPort (port owner : String)
  | unknownContainer (stack service id : String)
deriving DecidableEq, Repr

def StateFault.message : StateFault → String
  | misfiledImage key image => "image stored under '" ++ key ++ "' is " ++ image
  | misfiledContainer key id => "container stored under '" ++ key ++ "' has id '" ++ id ++ "'"
  | sharedName name => "container name '" ++ name ++ "' is used twice"
  | strayPort port owner =>
    "port " ++ port ++ " is bound to '" ++ owner ++ "', which does not publish it"
  | unknownContainer stack service id =>
    "stack '" ++ stack ++ "' service '" ++ service ++ "' points at unknown container '" ++ id ++ "'"

/-- The first element that occurs again before it. -/
def firstRepeated (seen : List String) : List String → Option String
  | [] => none
  | s :: rest => if seen.contains s then some s else firstRepeated (s :: seen) rest

namespace State

def imageFault (s : State) : Option StateFault :=
  (s.images.entries.find? fun (key, i) => key ≠ i.key).map fun (key, i) => .misfiledImage key i.key

def containerFault (s : State) : Option StateFault :=
  (s.containers.entries.find? fun (key, c) => key ≠ c.id).map
    fun (key, c) => .misfiledContainer key c.id

def nameFault (s : State) : Option StateFault :=
  (firstRepeated [] (s.activeContainers.map Container.name)).map .sharedName

/-- The owner of a port is an active container that publishes it. -/
def holdsPort (containers : Table Container) (port owner : String) : Bool :=
  (containers.get? owner).any fun c => c.isActive && c.ports.any fun p => p.hostKey = port

def portFault (s : State) : Option StateFault :=
  (s.boundPorts.entries.find? fun (port, owner) => !holdsPort s.containers port owner).map
    fun (port, owner) => .strayPort port owner

/-- A service of a stack whose container does not exist. -/
def lostService (containers : Table Container) (stack : Stack) : Option StateFault :=
  (stack.containerIds.entries.find? fun (_, id) => !containers.contains id).map
    fun (service, id) => .unknownContainer stack.name service id

def stackFault (s : State) : Option StateFault :=
  s.composeStacks.values.findSome? (lostService s.containers)

/-- What is wrong with a state, checked in the order of the cases. -/
def fault? (s : State) : Option StateFault :=
  s.imageFault <|> s.containerFault <|> s.nameFault <|> s.portFault <|> s.stackFault

end State

end DockerSim
