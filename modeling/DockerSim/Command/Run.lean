import DockerSim.Engine.Display
import DockerSim.Engine.Lookup
import DockerSim.Engine.Outcome

/-!
# Running a container

`run` makes a container from an image and starts it. Its name must be free, its ports of the host
must be free and published only once, and its network must exist. Volumes that do not exist are
made.
-/

namespace DockerSim.Command

/-! ## Ports -/

/-- The mappings of port specifications, each on a port of the host that is neither bound nor
claimed by one before it. -/
def claimPorts (bound : Table String) (claimed : List PortMapping) :
    List String → Except Refusal (List PortMapping)
  | [] => .ok claimed
  | spec :: specs =>
    match PortMapping.ofText? spec with
    | none => .error (.badPortSpec spec)
    | some p =>
      if bound.contains p.hostKey || claimed.any fun q => q.host = p.host then
        .error (.portTaken p.host)
      else claimPorts bound (claimed ++ [p]) specs

/-- The index of bound ports with the ports of a container in it. -/
def bindPorts (bound : Table String) (ports : List PortMapping) (owner : String) : Table String :=
  ports.foldl (fun t p => t.insert p.hostKey owner) bound

/-- The index of bound ports without the ports that a container holds. -/
def releasePorts (bound : Table String) (c : Container) : Table String :=
  c.ports.foldl (fun t p => if t.get? p.hostKey = some c.id then t.erase p.hostKey else t) bound

/-- The first port of a container that another container holds. -/
def portConflict (bound : Table String) (c : Container) : Option PortMapping :=
  c.ports.find? fun p => (bound.get? p.hostKey).any fun owner => owner ≠ c.id

def portsJson (ports : List PortMapping) : Json := .arr (ports.map PortMapping.toJson)

def portsText (ports : List PortMapping) : String :=
  Text.join ", " (ports.map PortMapping.pairText)

/-! ## Networks and volumes -/

/-- The networks that exist without a record. -/
def builtinNetworks : List String := ["bridge", "host", "none"]

/-- The ids of the networks that a flag asks for: none for a builtin one, and otherwise the first
network with that name or id. -/
def chooseNetwork (networks : Table Network) (wanted : Option String) :
    Except Refusal (List String) :=
  match wanted with
  | none => .ok []
  | some w =>
    if builtinNetworks.contains w then .ok []
    else
      match networks.find? fun n => n.name = w || n.id = w with
      | some (_, n) => .ok [n.id]
      | none => .error (.networkNotFound w)

/-- The networks with a container added to the first one that has an id. -/
def joinNetwork (networks : Table Network) (networkId containerId : String) : Table Network :=
  match networks.find? fun n => n.id = networkId with
  | some (key, n) => networks.insert key { n with containerIds := n.containerIds ++ [containerId] }
  | none => networks

/-- The source and the target of a mount. One that is not written as a pair is a target, and its
source is drawn. -/
def mountEnds (spec : String) : Draw (String × String) :=
  match MountSpec.split spec with
  | some ends => return ends
  | none => do return (← Supply.hex 12, spec)

/-- The volumes and mounts after one more mount. A named volume is made when it is missing. -/
def addMount (volumes : Table Volume) (mounts : List Mount) (spec : String) :
    Draw (Table Volume × List Mount) := do
  let (source, target) ← mountEnds spec
  if MountSpec.isHostPath source then
    return (volumes, mounts ++ [{ volumeId := source, mountPath := target }])
  match volumes.get? source with
  | some v => return (volumes, mounts ++ [{ volumeId := v.id, mountPath := target }])
  | none =>
    let v : Volume :=
      { id := ← Supply.hex 12, name := source, mountpoint := MountSpec.mountpointOf source }
    return (volumes.insert source v, mounts ++ [{ volumeId := v.id, mountPath := target }])

def addMounts (volumes : Table Volume) (specs : List String) :
    Draw (Table Volume × List Mount) :=
  specs.foldlM (fun (volumes, mounts) spec => addMount volumes mounts spec) (volumes, [])

/-! ## The container -/

/-- The variables set on the command line, the later of two settings counting. -/
def environment (pairs : List String) : Table String :=
  .ofList ((pairs.filterMap (Text.cut '=')).filter fun (key, _) => key ≠ "")

/-- What was settled about a container before it is made. -/
structure ContainerPlan where
  name : String
  image : Image
  ports : List PortMapping
  env : Table String
  networkIds : List String
  mounts : List Mount

/-- A new running container. -/
def ContainerPlan.draw (p : ContainerPlan) : Draw Container := do
  let id ← Supply.containerId
  let time ← Supply.now
  let logs ← Startup.logs p.image.key
  return {
    id, name := p.name, imageId := p.image.id, status := .running, ports := p.ports, env := p.env
    createdAt := time, startedAt := some time, stoppedAt := none, logs
    networkIds := p.networkIds, mounts := p.mounts }

def portsBoundEvent (c : Container) : Draw Event :=
  Event.draw .portBound (.obj [("ports", portsJson c.ports), ("containerId", .str c.id)])
    ("Bound ports " ++ portsText c.ports ++ " for container " ++ c.name)

def startedEvent (c : Container) : Draw Event :=
  Event.draw .containerStarted (.obj [("containerId", .str c.id), ("name", .str c.name)])
    ("Started container " ++ c.name)

/-- A new container is created, binds its ports and is started. -/
def runEvents (c : Container) : Draw (List Event) := do
  let created ← Event.draw .containerCreated (.obj [("container", c.toJson)])
    ("Created container " ++ c.name ++ " (" ++ c.id ++ ")")
  let bound ← if c.ports.isEmpty then pure [] else (do return [← portsBoundEvent c])
  let started ← startedEvent c
  return created :: bound ++ [started]

/-- A detached container prints its id only. -/
def runOutput (line : CommandLine) (c : Container) (image : Image) : List String :=
  if line.anySwitch ["d", "detach"] then [c.id]
  else ["Attaching to " ++ c.name,
    c.name ++ "  | (simulated stdout from " ++ image.key ++ ")"]

/-- The name on the command line, or a drawn one. -/
def chooseName (r : Request) : Work String :=
  match r.line.value? ["name"] with
  | some name => return name
  | none => generateName r.state.containers

/-- What is settled before a container is made: its plan, and the volumes with those it needs. -/
def prepare (r : Request) : Work (ContainerPlan × Table Volume) := do
  let s := r.state
  let reference ← r.firstArg "run [OPTIONS] IMAGE [COMMAND] [ARG...]"
  let image ← orRefuse (.imageNotFound reference) (findImage s.images reference)
  let name ← chooseName r
  if isNameTaken s.containers name then throw (.nameInUse name)
  let ports ← claimPorts s.boundPorts [] (r.line.values ["p", "publish"])
  let networkIds ← chooseNetwork s.networks (r.line.value? ["network", "net"])
  let (volumes, mounts) ← addMounts s.volumes (r.line.values ["v", "volume"])
  let env := environment (r.line.values ["e", "env"])
  return ({ name, image, ports, env, networkIds, mounts }, volumes)

/-- A container is made as it was planned. -/
def carryOut (r : Request) (plan : ContainerPlan) (volumes : Table Volume) : Draw Outcome := do
  let s := r.state
  let c ← plan.draw
  let networks := plan.networkIds.foldl (fun ns id => joinNetwork ns id c.id) s.networks
  let events ← runEvents c
  return {
    delta := {
      containers := some (s.containers.insert c.id c)
      boundPorts := some (bindPorts s.boundPorts plan.ports c.id)
      networks := changedFrom s.networks networks
      volumes := changedFrom s.volumes volumes }
    events
    output := runOutput r.line c plan.image
    succeeded := true }

def launch (r : Request) : Work Outcome := do
  let (plan, volumes) ← prepare r
  carryOut r plan volumes

def run (r : Request) : Draw Outcome := Outcome.ofWork (launch r)

end DockerSim.Command
