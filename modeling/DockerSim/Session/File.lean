import DockerSim.Json.Printer
import DockerSim.Json.Reader
import DockerSim.Session.Basic

/-!
# Session files

A session is saved as JSON. A file is read only when it decodes, has the current version and holds a
valid state; when there is no file, the session is new.
-/

namespace DockerSim

/-- Why a session file is not read. -/
inductive SessionError where
  | undecodable
  | incompatible (found : Nat)
  | invalid (fault : StateFault)
deriving DecidableEq, Repr

/-- What is said about the error. The place at which decoding failed is not told. -/
def SessionError.message : SessionError → String
  | undecodable => "session file corrupted: invalid JSON:"
  | incompatible found =>
    "session was written by an incompatible version (found v" ++ Text.decimal found ++
      ", expected v" ++ Text.decimal sessionVersion ++ ")"
  | invalid fault => "session file corrupted: invalid engine state: " ++ fault.message

namespace Session

def toJson (s : Session) : Json := .obj (
  [("version", .nat s.version)] ++
    s.savedAt.toList.map (fun t => ("savedAt", t.toJson)) ++
    [("engine", s.engine.toJson)])

def ofJson? (j : Json) : Option Session := do
  let r ← j.record? ["version", "savedAt", "engine"] false
  some {
    version := ← r.need "version" (Json.nat? UInt32.size)
    savedAt := ← r.option "savedAt" Instant.ofJson?
    engine := ← r.need "engine" State.ofJson? }

/-- The session, if it has the current version and a valid state. -/
def checked (s : Session) : Except SessionError Session :=
  if s.version ≠ sessionVersion then .error (.incompatible s.version)
  else
    match s.engine.fault? with
    | some fault => .error (.invalid fault)
    | none => .ok s

/-- The session that a value was saved as. -/
def ofSaved (j : Json) : Except SessionError Session :=
  match ofJson? j with
  | none => .error .undecodable
  | some s => s.checked

/-- The session in a file with the given text, or a new one when there is no file. -/
def load (file : Option String) : Except SessionError Session :=
  match file with
  | none => .ok new
  | some text => ((Json.ofText? text).map ofSaved).getD (.error .undecodable)

/-- The text of the file that a session is saved in. -/
def encode (s : Session) : String := s.toJson.pretty

end Session

end DockerSim
