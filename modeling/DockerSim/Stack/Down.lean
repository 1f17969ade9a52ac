import DockerSim.Command.Run

/-!
# Taking a stack down

`compose down` stops and removes the containers of the stack, the last started first, and forgets
the stack and its networks. The volumes stay.
-/

namespace DockerSim.Stack

/-- What was taken down so far. -/
structure Teardown where
  containers : Table Container
  boundPorts : Table String
  events : List Event
  lines : List String

def Teardown.start (s : State) : Teardown :=
  { containers := s.containers, boundPorts := s.boundPorts, events := [], lines := [] }

def serviceStoppedEvent (service : String) (containerId : String) : Draw Event :=
  Event.draw .composeServiceStopped
    (.obj [("service", .str service), ("containerId", .str containerId)])
    ("Compose service '" ++ service ++ "' stopped and removed")

/-- The services of a stack in the order in which they are taken down: those that are tracked but no
longer started come first. -/
def downOrder (s : Stack) : List String :=
  (s.services ++ s.containerIds.keys.filter fun name => !s.services.contains name).reverse

/-- One service is taken down, if it has an active container. -/
def takeDown (s : Stack) (t : Teardown) (service : String) : Draw Teardown :=
  match ((s.containerIds.get? service).bind t.containers.get?).filter Container.isActive with
  | none => return t
  | some c => do
    let time ← if c.isRunning then some <$> Supply.now else pure none
    let event ← serviceStoppedEvent service c.id
    let stopped := if c.isRunning then [" ✔ Container " ++ c.name ++ "  Stopped"] else []
    return {
      containers := t.containers.insert c.id (c.removed time)
      boundPorts := Command.releasePorts t.boundPorts c
      events := t.events ++ [event]
      lines := t.lines ++ stopped ++ [" ✔ Container " ++ c.name ++ "  Removed"] }

/-- The network was made for the stack. -/
def ownsNetwork (s : Stack) (key : String) : Bool := Text.starts (s.name ++ "_") key

def nothingToTakeDown : String := "no compose stack running"

def down (r : Request) : Draw Outcome :=
  match r.state.stack? with
  | none => return .print [nothingToTakeDown]
  | some s => do
    let t ← s.downOrder.foldlM s.takeDown (.start r.state)
    let removed := (r.state.networks.keys.filter s.ownsNetwork).map
      fun key => " ✔ Network " ++ key ++ "  Removed"
    let lines := t.lines ++ removed
    return {
      delta := {
        containers := some t.containers
        boundPorts := some t.boundPorts
        networks := changedFrom r.state.networks
          (r.state.networks.filter fun key _ => !s.ownsNetwork key)
        composeStacks := some (r.state.composeStacks.erase s.name) }
      events := t.events
      output := if lines.isEmpty then [nothingToTakeDown] else lines
      succeeded := true }

end DockerSim.Stack
