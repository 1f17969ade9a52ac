import DockerSim.CommandLine.Codec
import DockerSim.Engine.State
import DockerSim.Instant.Reader

/-!
# The state as JSON

Every record is written as an object with its fields in a fixed order, and read back from one. An
event carries its payload as it is; the tables of the state may be absent when it is read.
-/

namespace DockerSim

def Instant.toJson (t : Instant) : Json := .str t.text

def Instant.ofJson? (j : Json) : Option Instant := j.str?.bind Instant.ofText?

namespace Image

def toJson (i : Image) : Json := .obj [
  ("id", .str i.id),
  ("repository", .str i.repository),
  ("tag", .str i.tag),
  ("size", .nat i.size),
  ("createdAt", i.createdAt.toJson),
  ("layers", .strs i.layers)]

def ofJson? (j : Json) : Option Image := do
  let r ← j.record? ["id", "repository", "tag", "size", "createdAt", "layers"] false
  some {
    id := ← r.need "id" Json.str?
    repository := ← r.need "repository" Json.str?
    tag := ← r.need "tag" Json.str?
    size := ← r.need "size" (Json.nat? UInt64.size)
    createdAt := ← r.need "createdAt" Instant.ofJson?
    layers := ← r.need "layers" (Json.listOf? Json.str?) }

end Image

namespace PortMapping

def toJson (p : PortMapping) : Json := .obj [
  ("hostPort", .nat p.host),
  ("containerPort", .nat p.container),
  ("protocol", .str p.protocol.name)]

def ofJson? (j : Json) : Option PortMapping := do
  let r ← j.record? ["hostPort", "containerPort", "protocol"] false
  some {
    host := ← r.need "hostPort" (Json.nat? portBound)
    container := ← r.need "containerPort" (Json.nat? portBound)
    protocol := ← r.need "protocol" (Json.name? [("tcp", .tcp), ("udp", .udp)]) }

end PortMapping

namespace Mount

def toJson (m : Mount) : Json :=
  .obj [("volumeId", .str m.volumeId), ("mountPath", .str m.mountPath)]

def ofJson? (j : Json) : Option Mount := do
  let r ← j.record? ["volumeId", "mountPath"] false
  some {
    volumeId := ← r.need "volumeId" Json.str?
    mountPath := ← r.need "mountPath" Json.str? }

end Mount

def Status.ofJson? (j : Json) : Option Status :=
  j.name? ([created, running, stopped, removed].map fun s => (s.name, s))

namespace Container

def toJson (c : Container) : Json := .obj [
  ("id", .str c.id),
  ("name", .str c.name),
  ("imageId", .str c.imageId),
  ("status", .str c.status.name),
  ("ports", .arr (c.ports.map PortMapping.toJson)),
  ("env", .ofTable .str c.env),
  ("createdAt", c.createdAt.toJson),
  ("startedAt", .ofOption Instant.toJson c.startedAt),
  ("stoppedAt", .ofOption Instant.toJson c.stoppedAt),
  ("logs", .strs c.logs),
  ("networkIds", .strs c.networkIds),
  ("volumeMounts", .arr (c.mounts.map Mount.toJson))]

def ofJson? (j : Json) : Option Container := do
  let r ← j.record? ["id", "name", "imageId", "status", "ports", "env", "createdAt", "startedAt",
    "stoppedAt", "logs", "networkIds", "volumeMounts"] false
  some {
    id := ← r.need "id" Json.str?
    name := ← r.need "name" Json.str?
    imageId := ← r.need "imageId" Json.str?
    status := ← r.need "status" Status.ofJson?
    ports := ← r.need "ports" (Json.listOf? PortMapping.ofJson?)
    env := ← r.need "env" (Json.tableOf? Json.str?)
    createdAt := ← r.need "createdAt" Instant.ofJson?
    startedAt := ← r.option "startedAt" Instant.ofJson?
    stoppedAt := ← r.option "stoppedAt" Instant.ofJson?
    logs := ← r.need "logs" (Json.listOf? Json.str?)
    networkIds := ← r.need "networkIds" (Json.listOf? Json.str?)
    mounts := ← r.need "volumeMounts" (Json.listOf? Mount.ofJson?) }

end Container

namespace NetworkDriver

def name : NetworkDriver → String
  | bridge => "bridge"
  | overlay => "overlay"
  | host => "host"
  | none => "none"

def ofJson? (j : Json) : Option NetworkDriver :=
  j.name? ([bridge, overlay, host, none].map fun d => (d.name, d))

end NetworkDriver

namespace Network

def toJson (n : Network) : Json := .obj [
  ("id", .str n.id),
  ("name", .str n.name),
  ("driver", .str n.driver.name),
  ("containerIds", .strs n.containerIds)]

def ofJson? (j : Json) : Option Network := do
  let r ← j.record? ["id", "name", "driver", "containerIds"] false
  some {
    id := ← r.need "id" Json.str?
    name := ← r.need "name" Json.str?
    driver := ← r.need "driver" NetworkDriver.ofJson?
    containerIds := ← r.need "containerIds" (Json.listOf? Json.str?) }

end Network

namespace Volume

def toJson (v : Volume) : Json :=
  .obj [("id", .str v.id), ("name", .str v.name), ("mountpoint", .str v.mountpoint)]

def ofJson? (j : Json) : Option Volume := do
  let r ← j.record? ["id", "name", "mountpoint"] false
  some {
    id := ← r.need "id" Json.str?
    name := ← r.need "name" Json.str?
    mountpoint := ← r.need "mountpoint" Json.str? }

end Volume

namespace Stack

def toJson (s : Stack) : Json := .obj [
  ("name", .str s.name),
  ("serviceNames", .strs s.services),
  ("containerIds", .ofTable .str s.containerIds)]

def ofJson? (j : Json) : Option Stack := do
  let r ← j.record? ["name", "serviceNames", "containerIds"] false
  some {
    name := ← r.need "name" Json.str?
    services := ← r.need "serviceNames" (Json.listOf? Json.str?)
    containerIds := ← r.need "containerIds" (Json.tableOf? Json.str?) }

end Stack

namespace Event

def toJson (e : Event) : Json := .obj [
  ("id", .str e.id),
  ("type", .str e.kind.name),
  ("timestamp", e.time.toJson),
  ("payload", e.payload),
  ("humanSummary", .str e.summary)]

def ofJson? (j : Json) : Option Event := do
  let r ← j.record? ["id", "type", "timestamp", "payload", "humanSummary"] false
  some {
    id := ← r.need "id" Json.str?
    kind := ← r.need "type" (Json.name? EventKind.names)
    time := ← r.need "timestamp" Instant.ofJson?
    payload := ← r.need "payload" Json.any?
    summary := ← r.need "humanSummary" Json.str? }

end Event

namespace State

def toJson (s : State) : Json := .obj [
  ("images", .ofTable Image.toJson s.images),
  ("containers", .ofTable Container.toJson s.containers),
  ("networks", .ofTable Network.toJson s.networks),
  ("volumes", .ofTable Volume.toJson s.volumes),
  ("composeStacks", .ofTable Stack.toJson s.composeStacks),
  ("eventLog", .arr (s.eventLog.map Event.toJson)),
  ("boundPorts", .ofTable .str s.boundPorts),
  ("pendingCommand", .ofOption CommandLine.toJson s.pending),
  ("lastError", .ofOption .str s.lastError)]

def ofJson? (j : Json) : Option State := do
  let r ← j.record? ["images", "containers", "networks", "volumes", "composeStacks", "eventLog",
    "boundPorts", "pendingCommand", "lastError"] true
  some {
    images := ← r.withDefault "images" ∅ (Json.tableOf? Image.ofJson?)
    containers := ← r.withDefault "containers" ∅ (Json.tableOf? Container.ofJson?)
    networks := ← r.withDefault "networks" ∅ (Json.tableOf? Network.ofJson?)
    volumes := ← r.withDefault "volumes" ∅ (Json.tableOf? Volume.ofJson?)
    composeStacks := ← r.withDefault "composeStacks" ∅ (Json.tableOf? Stack.ofJson?)
    eventLog := ← r.withDefault "eventLog" [] (Json.listOf? Event.ofJson?)
    boundPorts := ← r.withDefault "boundPorts" ∅ (Json.tableOf? Json.str?)
    pending := ← r.option "pendingCommand" CommandLine.ofJson?
    lastError := ← r.option "lastError" Json.str? }

end State

/-- Only the tables that change are written. -/
def Delta.toJson (d : Delta) : Json :=
  let field {α : Type} (name : String) (f : α → Json) (t : Option (Table α)) :
      List (String × Json) :=
    t.toList.map fun t => (name, .ofTable f t)
  .obj (field "images" Image.toJson d.images ++
    field "containers" Container.toJson d.containers ++
    field "networks" Network.toJson d.networks ++
    field "volumes" Volume.toJson d.volumes ++
    field "composeStacks" Stack.toJson d.composeStacks ++
    field "boundPorts" .str d.boundPorts)

end DockerSim
