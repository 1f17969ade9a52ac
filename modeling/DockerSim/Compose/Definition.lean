import DockerSim.Yaml.Reader
import DockerSim.Text

/-!
# Definitions in a stack file

What the mapping of a service says about the service. Lists of names may be written as a sequence or
as the keys of a mapping, an environment as pairs or as `KEY=value` texts.
-/

namespace DockerSim.Compose

/-- The build context: `build` itself, or its `context`. -/
def buildContext (svc : YamlMap) : Option String :=
  match svc.get? "build" with
  | some (.map m) => (YamlMap.get? m "context").bind Yaml.text?
  | some other => other.text?
  | none => none

/-- The services that must be started first. -/
def dependsOn (svc : YamlMap) : List String :=
  match svc.get? "depends_on" with
  | some (.seq items) => items.filterMap Yaml.text?
  | some (.map m) => YamlMap.keys m
  | some other => other.text?.toList
  | none => []

/-- The networks that the service joins. -/
def networks (svc : YamlMap) : List String :=
  match svc.get? "networks" with
  | some (.seq items) => items.filterMap Yaml.text?
  | some (.map m) => YamlMap.keys m
  | _ => []

/-- The text of an environment value, empty when it has none. -/
def valueText : Yaml → String
  | .bool b => if b then "true" else "false"
  | other => other.text?.getD ""

def pairs (m : YamlMap) : List (String × String) := m.map fun (k, v) => (k, valueText v)

/-- The variables that one item of an environment list sets. -/
def itemPairs : Yaml → List (String × String)
  | .map m => pairs m
  | other =>
    let text := other.text?.getD ""
    match Text.cut '=' text with
    | some pair => [pair]
    | none => if text = "" then [] else [(text, "")]

/-- The environment of the service, in order. -/
def environment (svc : YamlMap) : List (String × String) :=
  match svc.get? "environment" with
  | some (.map m) => pairs m
  | some (.seq items) => items.flatMap itemPairs
  | _ => []

/-- The texts in a sequence under a key. -/
def texts (svc : YamlMap) (key : String) : List String :=
  match svc.get? key with
  | some (.seq items) => items.filterMap Yaml.text?
  | _ => []

end DockerSim.Compose
