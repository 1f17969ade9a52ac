import DockerSim.Command.Run

/-!
# Stopping, starting and removing containers

These commands work on their targets one after the other, each on the state that the one before has
left. A target that is refused does not keep the others from being worked on; the command succeeds
when none was refused.
-/

namespace DockerSim.Command

/-- What a command on several targets has done so far. -/
structure Progress where
  containers : Table Container
  boundPorts : Table String
  events : List Event
  output : List String
  refused : Bool

namespace Progress

def start (s : State) : Progress :=
  { containers := s.containers, boundPorts := s.boundPorts, events := [], output := []
    refused := false }

def refuse (p : Progress) (r : Refusal) : Progress :=
  { p with output := p.output ++ r.lines, refused := true }

/-- The container was worked on: its new record, the ports that are bound now, and what happened. -/
def change (p : Progress) (c : Container) (boundPorts : Table String) (events : List Event) :
    Progress :=
  { p with
    containers := p.containers.insert c.id c
    boundPorts
    events := p.events ++ events
    output := p.output ++ [c.name] }

/-- Without an event nothing has changed. -/
def finish (p : Progress) : Outcome :=
  let changed := !p.events.isEmpty
  { delta := {
      containers := if changed then some p.containers else none
      boundPorts := if changed then some p.boundPorts else none }
    events := p.events
    output := p.output
    succeeded := !p.refused }

end Progress

/-- A command on several targets, of which there must be at least one. -/
def onTargets (form : String) (step : Progress → String → Draw Progress) (r : Request) :
    Draw Outcome :=
  if r.line.args.isEmpty then return .refuse (.usage form)
  else do
    let p ← r.line.args.foldlM step (.start r.state)
    return p.finish

/-! ## Events -/

def stoppedEvent (c : Container) : Draw Event :=
  Event.draw .containerStopped (.obj [("containerId", .str c.id), ("name", .str c.name)])
    ("Stopped container " ++ c.name)

def removedEvent (c : Container) : Draw Event :=
  Event.draw .containerRemoved (.obj [("containerId", .str c.id), ("name", .str c.name)])
    ("Removed container " ++ c.name)

/-- The ports of a container are released, if it has any. -/
def releaseEvents (c : Container) : Draw (List Event) :=
  if c.ports.isEmpty then return []
  else do
    return [← Event.draw .portReleased
      (.obj [("ports", portsJson c.ports), ("containerId", .str c.id)])
      ("Released ports " ++ portsText c.ports ++ " for container " ++ c.name)]

/-- The ports of a container are bound, if it has any. -/
def bindEvents (c : Container) : Draw (List Event) :=
  if c.ports.isEmpty then return [] else do return [← portsBoundEvent c]

/-! ## One target -/

def stopOne (p : Progress) (reference : String) : Draw Progress :=
  match findContainer p.containers reference with
  | none => return p.refuse (.noSuchContainer reference)
  | some c =>
    if !c.isRunning then return p.refuse (.notRunning c.name)
    else do
      let time ← Supply.now
      let stopped ← stoppedEvent c
      let released ← releaseEvents c
      return p.change (c.stopped time) (releasePorts p.boundPorts c) (stopped :: released)

/-- A container that runs already is only named again. -/
def startOne (images : Table Image) (p : Progress) (reference : String) : Draw Progress :=
  match findContainer p.containers reference with
  | none => return p.refuse (.noSuchContainer reference)
  | some c =>
    if c.isRunning then return { p with output := p.output ++ [c.name] }
    else
      match portConflict p.boundPorts c with
      | some port => return p.refuse (.cannotRestart c.name port.host)
      | none => do
        let time ← Supply.now
        let logs ← Startup.logs (imageLabel images c.imageId)
        let bound ← bindEvents c
        let started ← startedEvent c
        return p.change (c.started time logs) (bindPorts p.boundPorts c.ports c.id)
          (bound ++ [started])

/-- Only a running container holds ports and has a time of its stop to be noted. -/
def removeOne (force : Bool) (p : Progress) (reference : String) : Draw Progress :=
  match findContainer p.containers reference with
  | none => return p.refuse (.noSuchContainer reference)
  | some c =>
    if c.isRunning && !force then return p.refuse (.stillRunning c.id)
    else if c.isRunning then do
      let time ← Supply.now
      let released ← releaseEvents c
      let removed ← removedEvent c
      return p.change (c.removed (some time)) (releasePorts p.boundPorts c) (released ++ [removed])
    else do
      let removed ← removedEvent c
      return p.change (c.removed none) p.boundPorts [removed]

/-! ## The commands -/

def stop (r : Request) : Draw Outcome := onTargets "stop CONTAINER [CONTAINER...]" stopOne r

def start (r : Request) : Draw Outcome :=
  onTargets "start CONTAINER [CONTAINER...]" (startOne r.state.images) r

def rm (r : Request) : Draw Outcome :=
  onTargets "rm [OPTIONS] CONTAINER [CONTAINER...]"
    (removeOne (r.line.anySwitch ["f", "force"])) r

end DockerSim.Command
