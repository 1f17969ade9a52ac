import DockerSim.Command.Run
import DockerSim.Compose.Check
import DockerSim.Stack.Order

/-!
# Bringing a stack up

`compose up` checks the stack file, makes the networks and volumes that it declares, and brings up
its services in the order of their dependencies: a running container is left alone, one that was
stopped is started again, and otherwise a new one is made. A service that fails leaves nothing
behind, and the others are still brought up.
-/

namespace DockerSim.Stack

/-! ## The stack file -/

/-- The stack file that a request means: the one named by a flag, or the first of the names to
try that exists. -/
def stackFile (r : Request) : Except Refusal WorkspaceFile :=
  match r.line.value? ["f", "file"] with
  | some path => orRefuse (.stackFileNotFound path) (r.files.bind fun files => files.file? path)
  | none =>
    orRefuse .noStackFile (r.files.bind fun files => r.stackFileNames.findSome? files.file?)

/-- The name under which the engine keeps a network or a volume of the stack. -/
def stackKey (name : String) : String := State.stackName ++ "_" ++ name

def driverOf (definition : Option Yaml) : NetworkDriver :=
  match (definition.bind Yaml.map?).bind fun m => (m.get? "driver").bind Yaml.str? with
  | some "overlay" => .overlay
  | some "host" => .host
  | some "none" => .none
  | _ => .bridge

/-- The networks that a file declares, the default network first. -/
def declaredNetworks (doc : YamlMap) : List (String × Option Yaml) :=
  ("default", none) ::
    (((doc.get? "networks").bind Yaml.map?).getD []).map fun (name, v) => (name, some v)

def declaredVolumes (doc : YamlMap) : List String :=
  YamlMap.keys (((doc.get? "volumes").bind Yaml.map?).getD [])

/-! ## What is done so far -/

structure Progress where
  containers : Table Container
  boundPorts : Table String
  networks : Table Network
  volumes : Table Volume
  /-- The container of each service. -/
  tracked : Table String
  lines : List String
  events : List Event
  failed : Bool

namespace Progress

def start (s : State) : Progress :=
  { containers := s.containers, boundPorts := s.boundPorts, networks := s.networks
    volumes := s.volumes, tracked := (s.stack?.map Stack.containerIds).getD ∅
    lines := [], events := [], failed := false }

def say (p : Progress) (line : String) : Progress := { p with lines := p.lines ++ [line] }

/-- A service could not be brought up. -/
def fail (p : Progress) (service : String) (reason : String) : Progress :=
  { p with lines := p.lines ++ [" ✗ Container " ++ service ++ "  Error", reason], failed := true }

/-- A declared network is made when it does not exist. -/
def addNetwork (p : Progress) (name : String) (definition : Option Yaml) : Draw Progress := do
  let key := stackKey name
  if p.networks.contains key then return p
  let id ← Supply.hex 12
  let network : Network := { id, name := key, driver := driverOf definition, containerIds := [] }
  return { p with networks := p.networks.insert key network }.say
    (" ✔ Network " ++ key ++ "  Created")

/-- A declared volume is made when it does not exist. -/
def addVolume (p : Progress) (name : String) : Draw Progress := do
  let key := stackKey name
  if p.volumes.contains key then return p
  let id ← Supply.hex 12
  let volume : Volume := { id, name := key, mountpoint := MountSpec.mountpointOf key }
  return { p with volumes := p.volumes.insert key volume }.say
    (" ✔ Volume " ++ key ++ "  Created")

/-- The networks and volumes that a file declares. -/
def addDeclared (p : Progress) (doc : YamlMap) : Draw Progress := do
  let p ← (declaredNetworks doc).foldlM (fun p (name, v) => p.addNetwork name v) p
  (declaredVolumes doc).foldlM addVolume p

/-- The active container of a service. -/
def tracked? (p : Progress) (service : String) : Option Container :=
  ((p.tracked.get? service).bind p.containers.get?).filter Container.isActive

end Progress

/-! ## Services -/

/-- Published ports of a service: specifications that are no mapping are passed over, and the first
port of the host that is taken is an error. -/
def claimServicePorts (bound : Table String) (claimed : List PortMapping) :
    List String → Except Nat (List PortMapping)
  | [] => .ok claimed
  | spec :: specs =>
    match PortMapping.ofText? spec with
    | none => claimServicePorts bound claimed specs
    | some p =>
      if bound.contains p.hostKey || claimed.any fun q => q.host = p.host then .error p.host
      else claimServicePorts bound (claimed ++ [p]) specs

def portTakenLine (port : Nat) : String :=
  "Error: Bind for 0.0.0.0:" ++ Text.decimal port ++ " failed: port is already allocated"

def nameTakenLine (name : String) : String :=
  "Error response from daemon: Conflict. The container name \"/" ++ name ++
    "\" is already in use by container."

def serviceStartedEvent (service : String) (containerId : String) (image : Image) : Draw Event :=
  Event.draw .composeServiceStarted
    (.obj [("service", .str service), ("containerId", .str containerId),
      ("imageKey", .str image.key)])
    ("Compose service '" ++ service ++ "' started (image: " ++ image.key ++ ")")

/-- The keys of the networks that a service joins. -/
def joinedNetworks (s : Service) : List String :=
  if s.networks.isEmpty then [stackKey "default"] else s.networks.map stackKey

/-- The networks after a container joined one, and the ids of those it has joined. -/
def joinOne (containerId : String) (joined : Table Network × List String) (key : String) :
    Table Network × List String :=
  match joined.1.get? key with
  | some n =>
    (joined.1.insert key { n with containerIds := n.containerIds ++ [containerId] },
      joined.2 ++ [n.id])
  | none => joined

/-- The mount that a specification asks for; a volume that does not exist is not mounted. -/
def mountOf (volumes : Table Volume) (spec : String) : Option Mount :=
  match MountSpec.split spec with
  | none => none
  | some (source, target) =>
    if MountSpec.isHostPath source then some { volumeId := source, mountPath := target }
    else (volumes.get? (stackKey source)).map fun v => { volumeId := v.id, mountPath := target }

/-- A stopped container of a service is started again. -/
def restart (p : Progress) (s : Service) (image : Image) (c : Container) : Draw Progress :=
  match Command.portConflict p.boundPorts c with
  | some port => return p.fail s.name (portTakenLine port.host)
  | none => do
    let time ← Supply.now
    let logs ← Startup.logs image.key
    let event ← serviceStartedEvent s.name c.id image
    return { p with
      boundPorts := Command.bindPorts p.boundPorts c.ports c.id
      containers := p.containers.insert c.id (c.started time logs)
      events := p.events ++ [event] }.say (" ✔ Container " ++ s.name ++ "  Started")

/-- A container is made for a service, once its ports are claimed. -/
def create (detached : Bool) (p : Progress) (s : Service) (image : Image)
    (ports : List PortMapping) : Draw Progress := do
  let id ← Supply.containerId
  let time ← Supply.now
  let (networks, networkIds) := (joinedNetworks s).foldl (joinOne id) (p.networks, [])
  let mounts := s.volumes.filterMap (mountOf p.volumes)
  let logs ← Startup.logs image.key
  let c : Container := {
    id, name := s.name, imageId := image.id, status := .running, ports
    env := .ofList s.environment, createdAt := time, startedAt := some time, stoppedAt := none
    logs, networkIds, mounts }
  let event ← serviceStartedEvent s.name id image
  let created := [" ✔ Container " ++ s.name ++ "  Created"]
  let started := if detached then [" ✔ Container " ++ s.name ++ "  Started"] else []
  return { p with
    boundPorts := Command.bindPorts p.boundPorts ports id
    networks
    containers := p.containers.insert id c
    tracked := p.tracked.insert s.name id
    events := p.events ++ [event]
    lines := p.lines ++ created ++ started }

/-- One service is brought up. -/
def bringUp (detached : Bool) (p : Progress) (s : Service) (image : Image) : Draw Progress :=
  match p.tracked? s.name with
  | some c =>
    if c.isRunning then return p.say (" ✔ Container " ++ s.name ++ "  Running")
    else restart p s image c
  | none =>
    if isNameTaken p.containers s.name then return p.fail s.name (nameTakenLine s.name)
    else
      match claimServicePorts p.boundPorts [] s.ports with
      | .error port => return p.fail s.name (portTakenLine port)
      | .ok ports => create detached p s image ports

/-- The service with a name and its image, when both exist. -/
def serviceWithImage (services : List Service) (images : Table Image) (name : String) :
    Option (Service × Image) := do
  let s ← services.find? fun s => s.name = name
  let image ← s.findImage images
  some (s, image)

/-- The services are brought up in an order. -/
def bringUpAll (detached : Bool) (services : List Service) (images : Table Image)
    (order : List String) (p : Progress) : Draw Progress :=
  order.foldlM (fun p name =>
    match serviceWithImage services images name with
    | some (s, image) => bringUp detached p s image
    | none => return p) p

/-! ## The outcome -/

/-- The running containers of the services, in their order. -/
def runningContainers (p : Progress) (order : List String) : List Container :=
  (order.filterMap fun name => (p.tracked.get? name).bind p.containers.get?).filter
    Container.isRunning

/-- An attached stack prints what its containers have printed. -/
def attachedLines (running : List Container) : List String :=
  ["", "Attaching to " ++ Text.join ", " (running.map Container.name)] ++
    running.flatMap fun c => c.logs.map fun line => c.name ++ "  | " ++ line

def upOutcome (detached : Bool) (s : State) (warnings : List String) (order : List String)
    (p : Progress) : Outcome :=
  let running := runningContainers p order
  let stack : Stack :=
    { name := State.stackName, services := order, containerIds := p.tracked }
  { delta := {
      containers := changedFrom s.containers p.containers
      boundPorts := changedFrom s.boundPorts p.boundPorts
      networks := changedFrom s.networks p.networks
      volumes := changedFrom s.volumes p.volumes
      composeStacks := changedFrom s.composeStacks (s.composeStacks.insert State.stackName stack) }
    events := p.events
    output := warnings ++
      ["[+] Running " ++ Text.decimal running.length ++ "/" ++ Text.decimal order.length] ++
      p.lines ++ (if detached then [] else attachedLines running)
    succeeded := !p.failed }

def invalidFileLine : String := "validating compose file: compose validation failed."

/-- A stack file that its check stops. -/
def rejectFile (path : String) (warnings : List String) (errors : List Finding) :
    Draw Outcome := do
  let failed ← Event.draw .composeFailed
    (.obj [("file", .str path), ("errors", .arr (errors.map Finding.toJson))])
    "Compose validation failed"
  let output := warnings ++ [invalidFileLine] ++
    errors.map fun f => "  Error [" ++ f.rule ++ "]: " ++ f.message
  return { Outcome.fail output with events := [failed] }

/-- A stack file that passed its check. -/
def upServices (r : Request) (doc : YamlMap) (warnings : List String) : Draw Outcome := do
  let detached := r.line.anySwitch ["d", "detach"]
  let services := Service.ofDocument doc
  if services.isEmpty then return .refuse .noServices
  let missing := services.filter fun s => (s.findImage r.state.images).isNone
  if !missing.isEmpty then
    return .fail (warnings ++ [invalidFileLine] ++ missing.map Service.missingImageLine)
  match Service.startOrder services with
  | none => return .refuse .circularDependency
  | some order =>
    let p ← (Progress.start r.state).addDeclared doc
    let p ← bringUpAll detached services r.state.images order p
    return upOutcome detached r.state warnings order p

def up (r : Request) : Draw Outcome :=
  match stackFile r with
  | .error refusal => return .refuse refusal
  | .ok file =>
    let findings := Compose.check file.content ((r.files.map Workspace.paths).getD [])
    let errors := Finding.errors findings
    let warned := (Finding.warnings findings).map Finding.warningLine
    let warnings := if warned.isEmpty then [] else warned ++ [""]
    if errors.isEmpty then
      upServices r ((Yaml.parse file.content).toOption.getD []) warnings
    else rejectFile file.path warnings errors

end DockerSim.Stack
