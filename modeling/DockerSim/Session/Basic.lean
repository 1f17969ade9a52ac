import DockerSim.Evaluate

/-!
# Sessions

A session keeps the state between command lines. A submitted line is parsed and evaluated, and its
outcome is taken over; a failure leaves the first line that says something as the last error.
-/

namespace DockerSim

/-- The version of the sessions that are written, and the only one that is read. -/
def sessionVersion : Nat := 1

structure Session where
  version : Nat
  savedAt : Option Instant
  engine : State

namespace Session

/-- A session in which nothing was submitted yet. -/
def new : Session := { version := sessionVersion, savedAt := none, engine := .empty }

/-- The session as it is saved: without a pending command and a last error. -/
def saved (s : Session) (time : Instant) : Session :=
  { s with savedAt := some time, engine := { s.engine with pending := none, lastError := none } }

end Session

/-- The state after a command line was submitted, and the outcome of the line. -/
def State.submit (s : State) (raw : String) (files : Option Workspace) (stackFiles : List String) :
    Draw (State × Outcome) := do
  let line := CommandLine.parse raw
  let o ← evaluate { state := { s with pending := some line }, line, files, stackFiles }
  return ({ s.take o with lastError := o.errorLine?, pending := none }, o)

end DockerSim
