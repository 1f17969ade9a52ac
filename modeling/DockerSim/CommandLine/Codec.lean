import DockerSim.CommandLine.Basic
import DockerSim.Json.Decode

/-!
# Command lines as JSON
-/

namespace DockerSim

namespace Flag

/-- A switch is a truth value, a value a text, repeated values an array of texts. -/
def toJson : Flag → Json
  | .switch on => .bool on
  | .value v => .str v
  | .values vs => .strs vs

def ofJson? : Json → Option Flag
  | .bool on => some (.switch on)
  | .str v => some (.value v)
  | .arr items => (items.mapM Json.str?).map .values
  | _ => none

end Flag

namespace CommandLine

def toJson (c : CommandLine) : Json := .obj [
  ("raw", .str c.raw),
  ("command", .str c.command),
  ("subcommand", .ofOption .str c.subcommand),
  ("args", .strs c.args),
  ("flags", .ofTable Flag.toJson c.flags)]

def ofJson? (j : Json) : Option CommandLine := do
  let r ← j.record? ["raw", "command", "subcommand", "args", "flags"] false
  some {
    raw := ← r.need "raw" Json.str?
    command := ← r.need "command" Json.str?
    subcommand := ← r.option "subcommand" Json.str?
    args := ← r.need "args" (Json.listOf? Json.str?)
    flags := ← r.need "flags" (Json.tableOf? Flag.ofJson?) }

end CommandLine

end DockerSim
