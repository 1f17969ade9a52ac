import DockerSim.Json.Basic
import DockerSim.Text

/-!
# Findings

What a check of a file reports: a rule, its severity, the line it is about, and the texts that
explain it. A finding always covers its whole line.
-/

namespace DockerSim

inductive Severity where
  | error
  | warning
deriving DecidableEq, Repr

def Severity.name : Severity → String
  | .error => "error"
  | .warning => "warning"

structure Finding where
  rule : String
  severity : Severity
  line : Nat
  message : String
  explanation : String
  fix : Option String
deriving DecidableEq

namespace Finding

/-- The column at which every finding starts. -/
def firstColumn : Nat := 1

/-- The column at which every finding ends, to the right of any line. -/
def lastColumn : Nat := 999

def isError (f : Finding) : Bool := f.severity = .error

/-- `12:1: error [rule] message` -/
def text (f : Finding) : String :=
  Text.decimal f.line ++ ":" ++ Text.decimal firstColumn ++ ": " ++ f.severity.name ++
    " [" ++ f.rule ++ "] " ++ f.message

def toJson (f : Finding) : Json := .obj ([
  ("ruleId", .str f.rule),
  ("severity", .str f.severity.name),
  ("line", .nat f.line),
  ("col", .nat firstColumn),
  ("endLine", .nat f.line),
  ("endCol", .nat lastColumn),
  ("message", .str f.message),
  ("explanation", .str f.explanation)] ++
  f.fix.toList.map fun fix => ("fix", .str fix))

def errors (fs : List Finding) : List Finding := fs.filter isError

def warnings (fs : List Finding) : List Finding := fs.filter (!·.isError)

/-- How a warning is shown above the output of a command. -/
def warningLine (f : Finding) : String := "WARNING: [" ++ f.rule ++ "] " ++ f.message

end Finding

end DockerSim
