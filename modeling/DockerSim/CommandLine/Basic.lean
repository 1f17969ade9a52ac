import DockerSim.Table
import DockerSim.Text

/-!
# Command lines

A command line is split into the command, for `docker` its subcommand, the flags, and the arguments
that follow them. A flag is given bare, with one value, or several times with a value each.
-/

namespace DockerSim

inductive Flag where
  /-- Given without a value. -/
  | switch (on : Bool)
  | value (v : String)
  | values (vs : List String)
deriving DecidableEq, Repr

structure CommandLine where
  /-- The line as it was typed. -/
  raw : String
  command : String
  /-- One word, or two for the commands of a compose stack. -/
  subcommand : Option String
  args : List String
  flags : Table Flag
deriving DecidableEq

namespace Flag

/-- The values the flag was given, in order. -/
def toList : Flag → List String
  | .switch _ => []
  | .value v => [v]
  | .values vs => vs

/-- The last value the flag was given. -/
def last? : Flag → Option String
  | .switch _ => none
  | .value v => some v
  | .values vs => vs.getLast?

end Flag

namespace CommandLine

def docker : String := "docker"

def compose : String := "compose"

def isDocker (c : CommandLine) : Bool := c.command = docker

/-- The flag was given without a value. -/
def switch (c : CommandLine) (name : String) : Bool := c.flags.get? name = some (.switch true)

def anySwitch (c : CommandLine) (names : List String) : Bool := names.any c.switch

/-- The last value of the first of the flags that has one. -/
def value? (c : CommandLine) (names : List String) : Option String :=
  names.findSome? fun name => (c.flags.get? name).bind Flag.last?

/-- The values of all the flags, flag by flag. -/
def values (c : CommandLine) (names : List String) : List String :=
  names.flatMap fun name => ((c.flags.get? name).map Flag.toList).getD []

end CommandLine

end DockerSim
