import DockerSim.CommandLine.Basic
import DockerSim.CommandLine.Words

/-!
# Parsing a command line

Only the arguments of `docker` have a structure. Its second word is the subcommand, joined with the
next one after `compose`; flags follow until the first word that is not one, and all the rest are
arguments. Which flags take the next word as their value depends on the subcommand.
-/

namespace DockerSim.CommandLine

/-- The flags that take a value under a subcommand, by its first word. -/
def valueFlags (subcommand : String) : List String :=
  match subcommand with
  | "run" =>
    ["p", "e", "v", "name", "net", "network", "h", "hostname", "u", "user", "w", "workdir"]
  | "exec" => ["e", "u", "w", "workdir"]
  | "build" => ["t", "tag", "f", "file", "target"]
  | "compose" => ["f", "file", "p", "project-name", "tail", "n"]
  | "logs" => ["tail", "n"]
  | _ => []

/-- The flags that take a value under every subcommand. -/
def globalValueFlags : List String := ["H", "host", "c", "context"]

def takesValue (subcommand name : String) : Bool :=
  (valueFlags subcommand).contains name || globalValueFlags.contains name

/-- What a word of the flag part of a line is. -/
inductive FlagWord where
  /-- `--name=value` -/
  | assignment (name value : String)
  /-- `--name`, or `-x` with a single letter. -/
  | single (name : String)
  /-- `-xyz`, one switch for each letter. -/
  | cluster (names : List String)
  | argument

def FlagWord.ofWord (w : String) : FlagWord :=
  match w.toList with
  | '-' :: '-' :: long =>
    match Chars.cut '=' long with
    | some ([], _) => .argument
    | some (name, value) => .assignment (.ofList name) (.ofList value)
    | none => if long.isEmpty then .argument else .single (.ofList long)
  | ['-'] => .argument
  | ['-', c] => .single (.ofList [c])
  | '-' :: letters => .cluster (letters.map fun c => .ofList [c])
  | _ => .argument

def startsWithDash (w : String) : Bool := w.toList.head? = some '-'

/-- A flag together with what it was given before: values add up, and anything else is replaced. -/
def mergeFlag : Option Flag → Flag → Flag
  | some (.value v), .value w => .values [v, w]
  | some (.values vs), .value w => .values (vs ++ [w])
  | _, flag => flag

def addFlag (flags : Table Flag) (name : String) (flag : Flag) : Table Flag :=
  flags.insert name (mergeFlag (flags.get? name) flag)

/-- The flags at the front of a list of words, added to those before, and the words after them. -/
def readFlags (takes : String → Bool) : Table Flag → List String → Table Flag × List String
  | flags, [] => (flags, [])
  | flags, w :: ws =>
    match FlagWord.ofWord w with
    | .argument => (flags, w :: ws)
    | .assignment name value => readFlags takes (addFlag flags name (.value value)) ws
    | .cluster names =>
      readFlags takes (names.foldl (fun fs name => addFlag fs name (.switch true)) flags) ws
    | .single name =>
      match ws with
      | v :: rest =>
        if takes name && !startsWithDash v then
          readFlags takes (addFlag flags name (.value v)) rest
        else readFlags takes (addFlag flags name (.switch true)) (v :: rest)
      | [] => (addFlag flags name (.switch true), [])

/-- The subcommand at the front of the words after `docker`, and the words after it. -/
def readSubcommand : List String → Option String × List String
  | [] => (none, [])
  | sub :: ws =>
    match ws with
    | next :: rest =>
      if sub = compose && !startsWithDash next then (some (compose ++ " " ++ next), rest)
      else (some sub, ws)
    | [] => (some sub, [])

/-- The command line made of a list of words. -/
def ofWords (raw : String) : List String → CommandLine
  | [] => { raw, command := "", subcommand := none, args := [], flags := ∅ }
  | command :: ws =>
    if command = docker then
      let (subcommand, ws) := readSubcommand ws
      let base := ((subcommand.map (Text.before ' ')).getD "")
      let (flags, args) := readFlags (takesValue base) ∅ ws
      { raw, command, subcommand, args, flags }
    else { raw, command, subcommand := none, args := ws, flags := ∅ }

/-- The command line that a line of text stands for. -/
def parse (raw : String) : CommandLine := ofWords raw (Words.ofLine raw)

end DockerSim.CommandLine
