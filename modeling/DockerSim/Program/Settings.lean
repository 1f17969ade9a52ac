import DockerSim.Toml.Reader

/-!
# Settings of the program

Settings are read from a document in which every key may be left out. Unknown keys are passed over;
a known key with a value of the wrong kind makes the document unreadable.
-/

namespace DockerSim.Program

structure Settings where
  /-- The directory of the workspace, unless the arguments name one. -/
  workspace : Option String := none
  /-- What the shell shows before it reads a line. -/
  prompt : String := "yard:/project $ "
  /-- The state is kept from one run to the next. -/
  keepsSession : Bool := true
  /-- How much is logged. -/
  logFilter : String := "warn"
  /-- The names of stack files to try, in order; no names stand for the usual ones. -/
  stackFiles : List String := []
deriving DecidableEq, Repr

namespace Settings

def ofEntries? (entries : TomlEntries) : Option Settings := do
  some {
    workspace := ← entries.value? "workspace_dir" none fun v => v.text?.map some
    prompt := ← entries.value? "prompt" ({} : Settings).prompt Toml.text?
    keepsSession := ← entries.value? "persist_session" true Toml.switch?
    logFilter := ← entries.value? "log_filter" ({} : Settings).logFilter Toml.text?
    stackFiles := ← entries.value? "compose_files" [] Toml.texts? }

/-- The settings in a document. -/
def ofText? (s : String) : Option Settings := (Toml.ofText? s).bind ofEntries?

end Settings

end DockerSim.Program
