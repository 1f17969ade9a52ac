import DockerSim.Text

/-!
# Published ports and mounts

A port of a container is published on a port of the host. It is written `host:container`, with a
bind address in front or a protocol behind if need be.

A mount is written `source:target`, with options behind a second colon. Its source is a path of the
host or the name of a volume.
-/

namespace DockerSim

/-! ## Ports -/

inductive Protocol where
  | tcp
  | udp
deriving DecidableEq, Repr

def Protocol.name : Protocol → String
  | .tcp => "tcp"
  | .udp => "udp"

/-- Ports are numbers below this. -/
def portBound : Nat := 65536

structure PortMapping where
  host : Nat
  container : Nat
  protocol : Protocol
deriving DecidableEq, Repr

namespace PortMapping

/-- The ports part and the protocol of a written mapping, TCP if it names none. -/
def splitProtocol (spec : String) : Option (String × Protocol) :=
  match Text.cutLast '/' spec with
  | none => some (spec, .tcp)
  | some (ports, "tcp") => some (ports, .tcp)
  | some (ports, "udp") => some (ports, .udp)
  | some _ => none

/-- The mapping that a text stands for. -/
def ofText? (spec : String) : Option PortMapping := do
  let (ports, protocol) ← splitProtocol spec
  let (host, container) ← match Text.split ':' ports with
    | [host, container] => some (host, container)
    | [_, host, container] => some (host, container)
    | _ => none
  some {
    host := ← Text.unsigned? portBound host
    container := ← Text.unsigned? portBound container
    protocol }

/-- The key of the mapping in the index of bound ports. -/
def hostKey (p : PortMapping) : String := Text.decimal p.host

/-- `0.0.0.0:8080->80/tcp` -/
def text (p : PortMapping) : String :=
  "0.0.0.0:" ++ Text.decimal p.host ++ "->" ++ Text.decimal p.container ++ "/" ++ p.protocol.name

/-- `8080->80` -/
def pairText (p : PortMapping) : String := Text.decimal p.host ++ "->" ++ Text.decimal p.container

end PortMapping

/-! ## Mounts -/

namespace MountSpec

/-- The source and the target of a mount, without its options. -/
def split (spec : String) : Option (String × String) :=
  (Text.cut ':' spec).map fun (source, rest) => (source, Text.before ':' rest)

/-- The source is a path of the host, not the name of a volume. -/
def isHostPath (source : String) : Bool :=
  Text.starts "." source || Text.starts "/" source || Text.starts "~" source

/-- The place where the data of a volume is kept. -/
def mountpointOf (volume : String) : String := "/var/lib/docker/volumes/" ++ volume ++ "/_data"

end MountSpec

end DockerSim
