import DockerSim.Program.Task

/-!
# Runs

A run is the first turn of a task and one more turn for every line of input that the program waits
for. The session file that a turn leaves is what the next one finds.
-/

namespace DockerSim.Program

/-! ## The turn after a line of input -/

/-- The shell after a line of input, or after its end. -/
def Shell.read (w : Surroundings) (shell : Shell) : Option String → Draw Turn
  | none => return .done 0 [""]
  | some line => do
    let raw := Text.trim line
    match raw with
    | "" | "clear" => return shell.wait
    | "exit" | "quit" => return .done 0 []
    | _ =>
      let files := (w.look shell.workspace).workspace.toOption
      let (session, outcome, change) ← submitLine shell.settings shell.session raw files
      let turn := Shell.wait { shell with session }
      return { turn with output := Turn.lines outcome.output ++ turn.output, change }

def isYes (answer : Option String) : Bool :=
  ["y", "Y", "yes"].contains (Text.trim (answer.getD ""))

/-- The turn after a line of input, or after its end. -/
def Waiting.read (w : Surroundings) (waiting : Waiting) (line : Option String) : Draw Turn :=
  match waiting with
  | .confirmation => return if isYes line then forgotten else .done 0 ["Aborted."]
  | .commandLine shell => shell.read w line

/-! ## A whole run -/

/-- What a run of the program leaves behind. -/
structure Run where
  code : Nat
  output : String
  errors : String
  session : Option String

def FileChange.on (session : Option String) : FileChange → Option String
  | .keep => session
  | .write text => some text
  | .remove => none

/-- A run with one more turn in front of it. -/
def Run.after (turn : Turn) (r : Run) : Run :=
  { r with output := turn.output ++ r.output, errors := turn.errors ++ r.errors }

/-- The rest of a run, from a turn on, with the lines of input that are left. -/
def follow (w : Surroundings) (turn : Turn) (lines : List String) : Draw Run := do
  let session := turn.change.on w.session
  match turn.next with
  | .inl code => return { code, output := turn.output, errors := turn.errors, session }
  | .inr waiting =>
    match lines with
    | [] =>
      let last ← waiting.read { w with session } none
      let code := last.next.elim id fun _ => 0
      return .after turn {
        code, output := last.output, errors := last.errors, session := last.change.on session }
    | line :: lines =>
      let next ← waiting.read { w with session } (some line)
      return .after turn (← follow { w with session } next lines)

/-- The run of the program with all its input at hand. -/
def run (w : Surroundings) (args : List String) (input : String) : Draw Run := do
  follow w (← start w args) (Text.lines input)

end DockerSim.Program
