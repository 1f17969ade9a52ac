import DockerSim.Compose.Definition
import DockerSim.Compose.Location
import DockerSim.Compose.Problem
import DockerSim.ImageName
import DockerSim.Port
import DockerSim.Workspace.Path

/-!
# Checking a stack file

Every service of the file is checked by itself, rule by rule, against the names that the file
declares and the paths of the workspace. A file without services has a single finding, and so has
one that cannot be read.
-/

namespace DockerSim.Compose

open ComposeProblem

/-- What a service is checked against. -/
structure Surroundings where
  services : List String
  volumes : Option YamlMap
  networks : Option YamlMap
  paths : List String

def declares (declared : Option YamlMap) (name : String) : Bool :=
  declared.any fun m => m.contains name

/-! ## Single rules -/

def checkImageOrBuild (name : String) (svc : YamlMap) : List ComposeProblem :=
  if svc.contains "image" || svc.contains "build" then [] else [noImageOrBuild name]

/-- A build context must be the workspace itself or a path in it. -/
def checkBuildContext (around : Surroundings) (name : String) (svc : YamlMap) :
    List ComposeProblem :=
  match buildContext svc with
  | none => []
  | some path =>
    let normal := Path.normalize path
    if normal = "" || normal = "." || around.paths.contains normal then []
    else [missingContext name path]

/-- `8080`, `8000-8010` and the like, before a protocol. -/
def isPortNumber (part : String) : Bool :=
  let part := Text.before '/' part
  part ≠ "" && (Text.split '-' part).all fun p => p ≠ "" && p.toList.all Chars.isDigit

def checkPort (name : String) (entry : Yaml) : List ComposeProblem :=
  match entry.text? with
  | none => [portNotText name]
  | some spec =>
    match (Text.split ':' spec).reverse with
    | container :: host :: _ =>
      if isPortNumber host && isPortNumber container then [] else [badPort name spec]
    | _ => []

def checkPorts (name : String) (svc : YamlMap) : List ComposeProblem :=
  match svc.get? "ports" with
  | some (.seq items) => items.flatMap (checkPort name)
  | _ => []

def checkDependsOn (around : Surroundings) (name : String) (svc : YamlMap) :
    List ComposeProblem :=
  ((dependsOn svc).filter fun dep => !around.services.contains dep).map (unknownDependency name)

/-- The volume that a mount names, if it is one that must be declared. -/
def namedVolume (mount : String) : Option String :=
  match MountSpec.split mount with
  | some (source, _) => if source = "" || MountSpec.isHostPath source then none else some source
  | none => none

def checkVolumes (around : Surroundings) (name : String) (svc : YamlMap) :
    List ComposeProblem :=
  match svc.get? "volumes" with
  | some (.seq items) =>
    ((items.filterMap Yaml.str?).filterMap namedVolume).filter
      (fun v => !declares around.volumes v) |>.map (undeclaredVolume name)
  | _ => []

def checkNetworks (around : Surroundings) (svc : YamlMap) : List ComposeProblem :=
  ((networks svc).filter fun net => !declares around.networks net).map undeclaredNetwork

/-- Images of databases take a while to get ready. -/
def isDatabaseImage (image : String) : Bool :=
  let folded := Text.fold image
  ["postgres", "mysql", "mariadb", "mongo"].any fun w => Text.holds w folded

def checkImage (name : String) (svc : YamlMap) : List ComposeProblem :=
  match (svc.get? "image").bind Yaml.text? with
  | none => []
  | some image =>
    let (repository, tag) := ImageName.splitTag image
    let pinned := Text.has '@' image || !ImageName.isUnpinned tag
    (if pinned then [] else [unpinnedImage name repository]) ++
      if isDatabaseImage image && !svc.has "healthcheck" then [noHealthcheck name] else []

def isSecretName (key : String) : Bool :=
  let folded := Text.fold key
  ["password", "secret", "passwd", "token", "api_key", "private_key"].any fun w =>
    Text.holds w folded

def checkMixed (name : String) (svc : YamlMap) : List ComposeProblem :=
  match svc.get? "environment" with
  | some (.seq items) =>
    if items.any (·.map?.isSome) && items.any (·.text?.isSome) then [mixedEnvironment name] else []
  | _ => []

def checkSecrets (name : String) (svc : YamlMap) : List ComposeProblem :=
  ((environment svc).filter fun (key, value) => isSecretName key && value ≠ "").map
    fun (key, _) => plainSecret name key

def checkRestart (name : String) (svc : YamlMap) : List ComposeProblem :=
  if svc.has "restart" then [] else [noRestartPolicy name]

/-! ## Services -/

/-- The findings of one service. The problems of a key are reported at the key, the others at the
name of the service. -/
def checkService (around : Surroundings) (lines : List ScanLine) (name : String) (svc : YamlMap) :
    List Finding :=
  let atService (ps : List ComposeProblem) := ps.map (·.finding (serviceLine lines name))
  let atKey (key : String) (ps : List ComposeProblem) :=
    ps.map (·.finding (fieldLine lines name key))
  atService (checkImageOrBuild name svc) ++
    atKey "build" (checkBuildContext around name svc) ++
    atKey "ports" (checkPorts name svc) ++
    atKey "depends_on" (checkDependsOn around name svc) ++
    atKey "volumes" (checkVolumes around name svc) ++
    atKey "networks" (checkNetworks around svc) ++
    atKey "image" (checkImage name svc) ++
    atKey "environment" (checkMixed name svc ++ checkSecrets name svc) ++
    atService (checkRestart name svc)

/-- The services that a file declares: what stands under `services`, if it says something. -/
def declaredServices (doc : YamlMap) : Option Yaml :=
  (doc.get? "services").filter fun v =>
    v.isSet && match v with
      | .map m => !m.isEmpty
      | _ => true

/-- The findings of a file whose mapping is `doc`. -/
def checkDocument (doc : YamlMap) (content : String) (paths : List String) : List Finding :=
  match declaredServices doc with
  | none => if doc.isEmpty then [] else [noServices.finding 1]
  | some (.map services) =>
    let around : Surroundings := {
      services := YamlMap.keys services
      volumes := (doc.get? "volumes").bind Yaml.map?
      networks := (doc.get? "networks").bind Yaml.map?
      paths := paths.map Path.normalize }
    let lines := scan content
    services.flatMap fun (name, value) =>
      match value with
      | .map svc => checkService around lines name svc
      | _ => []
  | some _ => []

/-- The findings of a stack file in a workspace that has certain paths. -/
def check (content : String) (paths : List String) : List Finding :=
  match Yaml.parse content with
  | .error e => [(unreadable e.fault).finding e.line]
  | .ok doc => checkDocument doc content paths

end DockerSim.Compose
