import DockerSim.CommandLine.Basic
import DockerSim.Engine.Records
import DockerSim.Json.Basic

/-!
# The state of the engine

The state is what commands are applied to. A command does not change it: it reports which of the
tables change and which events happened, and `State.apply` and `State.record` take the report over.
-/

namespace DockerSim

inductive EventKind where
  | imagePullStarted
  | imagePullComplete
  | buildStep
  | buildComplete
  | buildFailed
  | containerCreated
  | containerStarted
  | containerStopped
  | containerRemoved
  | portBound
  | portReleased
  | execCommandRun
  | composeServiceStarted
  | composeServiceStopped
  | composeFailed
deriving DecidableEq, Repr

/-- The kinds of events with the names they are logged under. -/
def EventKind.names : List (String × EventKind) := [
  ("IMAGE_PULL_STARTED", imagePullStarted),
  ("IMAGE_PULL_COMPLETE", imagePullComplete),
  ("BUILD_STEP", buildStep),
  ("BUILD_COMPLETE", buildComplete),
  ("BUILD_FAILED", buildFailed),
  ("CONTAINER_CREATED", containerCreated),
  ("CONTAINER_STARTED", containerStarted),
  ("CONTAINER_STOPPED", containerStopped),
  ("CONTAINER_REMOVED", containerRemoved),
  ("PORT_BOUND", portBound),
  ("PORT_RELEASED", portReleased),
  ("EXEC_COMMAND_RUN", execCommandRun),
  ("COMPOSE_SERVICE_STARTED", composeServiceStarted),
  ("COMPOSE_SERVICE_STOPPED", composeServiceStopped),
  ("COMPOSE_FAILED", composeFailed)]

def EventKind.name (k : EventKind) : String :=
  ((names.find? fun e => e.2 = k).map (·.1)).getD ""

/-- An entry of the event log. -/
structure Event where
  id : String
  kind : EventKind
  time : Instant
  payload : Json
  summary : String

structure State where
  /-- By repository and tag. -/
  images : Table Image
  /-- By id. -/
  containers : Table Container
  networks : Table Network
  volumes : Table Volume
  composeStacks : Table Stack
  eventLog : List Event
  /-- The container that holds each port of the host. -/
  boundPorts : Table String
  pending : Option CommandLine
  lastError : Option String

/-- The tables that a command changes; a table that is absent stays as it is. -/
structure Delta where
  images : Option (Table Image) := none
  containers : Option (Table Container) := none
  networks : Option (Table Network) := none
  volumes : Option (Table Volume) := none
  composeStacks : Option (Table Stack) := none
  boundPorts : Option (Table String) := none

namespace State

def empty : State := {
  images := ∅, containers := ∅, networks := ∅, volumes := ∅, composeStacks := ∅, eventLog := []
  boundPorts := ∅, pending := none, lastError := none }

instance : Inhabited State := ⟨empty⟩

/-- The state with the changed tables in place. -/
def apply (s : State) (d : Delta) : State := { s with
  images := d.images.getD s.images
  containers := d.containers.getD s.containers
  networks := d.networks.getD s.networks
  volumes := d.volumes.getD s.volumes
  composeStacks := d.composeStacks.getD s.composeStacks
  boundPorts := d.boundPorts.getD s.boundPorts }

/-- The state with more events in its log. -/
def record (s : State) (events : List Event) : State := { s with eventLog := s.eventLog ++ events }

/-- The containers that are not removed, by id. -/
def activeContainers (s : State) : List Container := s.containers.values.filter Container.isActive

/-- The name of the one stack that the engine manages. -/
def stackName : String := "default"

def stack? (s : State) : Option Stack := s.composeStacks.get? stackName

end State

/-- The name of the image with a digest, or the short digest when the image is gone. -/
def imageLabel (images : Table Image) (id : String) : String :=
  match images.find? fun i => i.id = id with
  | some (_, i) => i.key
  | none => shortDigest id

/-- A table as part of a delta: absent when nothing changed. -/
def changedFrom [DecidableEq α] (before after : Table α) : Option (Table α) :=
  if after = before then none else some after

end DockerSim
