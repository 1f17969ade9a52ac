import DockerSim.ImageName
import DockerSim.Instant.Basic
import DockerSim.Port
import DockerSim.Table

/-!
# Records of the engine

What the engine keeps about an image, a container, a network, a volume and a stack.
-/

namespace DockerSim

structure Image where
  /-- The content digest, `sha256:` and hexadecimal digits. -/
  id : String
  repository : String
  tag : String
  size : Nat
  createdAt : Instant
  layers : List String
deriving DecidableEq

inductive Status where
  | created
  | running
  | stopped
  | removed
deriving DecidableEq, Repr

structure Mount where
  /-- The id of a volume, or a path of the host. -/
  volumeId : String
  mountPath : String
deriving DecidableEq

structure Container where
  id : String
  name : String
  /-- The digest of the image it runs. -/
  imageId : String
  status : Status
  ports : List PortMapping
  env : Table String
  createdAt : Instant
  startedAt : Option Instant
  stoppedAt : Option Instant
  logs : List String
  networkIds : List String
  mounts : List Mount
deriving DecidableEq

inductive NetworkDriver where
  | bridge
  | overlay
  | host
  | none
deriving DecidableEq, Repr

structure Network where
  id : String
  name : String
  driver : NetworkDriver
  containerIds : List String
deriving DecidableEq

structure Volume where
  id : String
  name : String
  mountpoint : String
deriving DecidableEq

structure Stack where
  name : String
  /-- The services in the order in which they were started. -/
  services : List String
  /-- The container of each service. -/
  containerIds : Table String
deriving DecidableEq

/-- A digest without the name of its algorithm. -/
def digestHex (digest : String) : String := (Text.after? "sha256:" digest).getD digest

/-- The first twelve digits of a digest. -/
def shortDigest (digest : String) : String := Text.take 12 (digestHex digest)

namespace Image

def name (i : Image) : ImageName := { repository := i.repository, tag := i.tag }

/-- The key under which the image is kept. -/
def key (i : Image) : String := i.name.key

def shortId (i : Image) : String := shortDigest i.id

end Image

namespace Status

def name : Status → String
  | created => "created"
  | running => "running"
  | stopped => "stopped"
  | removed => "removed"

end Status

namespace Container

def isRunning (c : Container) : Bool := c.status = .running

/-- A removed container keeps its record, but no command finds it any more. -/
def isActive (c : Container) : Bool := c.status ≠ .removed

/-- The container as it is after it was stopped. -/
def stopped (c : Container) (time : Instant) : Container :=
  { c with status := .stopped, stoppedAt := some time }

/-- The container as it is after it was started again, with the output it starts with. -/
def started (c : Container) (time : Instant) (output : List String) : Container :=
  { c with status := .running, startedAt := some time, stoppedAt := none, logs := c.logs ++ output }

/-- The container as it is after it was removed, and stopped before if it was running. -/
def removed (c : Container) (stopped : Option Instant) : Container :=
  { c with status := .removed, stoppedAt := stopped <|> c.stoppedAt }

end Container

end DockerSim
