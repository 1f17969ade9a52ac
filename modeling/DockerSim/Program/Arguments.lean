import DockerSim.Chars.Cut

/-!
# Arguments of the program

The program has one subcommand for each task and one option that may stand before and behind it, the
workspace. Options may be given once. The words of a command line that is to be run or parsed are
taken as they are, from the first one that is no option of the program.
-/

namespace DockerSim.Program

/-- What the program is asked to do. -/
inductive Task where
  | shell
  | run (json : Bool) (words : List String)
  | validate (json : Bool) (file : String)
  | events (json : Bool)
  | reset (force : Bool)
  | parse (words : List String)
deriving DecidableEq, Repr

structure Invocation where
  workspace : Option String
  task : Task
deriving DecidableEq, Repr

/-- Why no task is run. -/
inductive Stop where
  /-- The arguments are not understood. -/
  | rejected
  | help
  | version
deriving DecidableEq, Repr

/-- The options of the program or of one subcommand. -/
structure Level where
  json : Bool := false
  force : Bool := false
  version : Bool := false
  /-- Words that look like unknown options are taken as they are. -/
  verbatim : Bool := false

/-- The options that were given. -/
structure Given where
  workspace : Option String := none
  json : Bool := false
  force : Bool := false

/-- How an argument looks. -/
inductive Looks where
  /-- Two dashes, which end the options. -/
  | endMark
  | long (name : List Char) (value : Option (List Char))
  | short (letters : List Char)
  | word

def Looks.ofArgument (a : String) : Looks :=
  match a.toList with
  | ['-', '-'] => .endMark
  | '-' :: '-' :: text =>
    match Chars.cut '=' text with
    | some (name, value) => .long name (some value)
    | none => .long text none
  | '-' :: c :: letters => .short (c :: letters)
  | _ => .word

inductive OptionName where
  | workspace
  | json
  | force
  | help
  | version
deriving DecidableEq

namespace Level

def has (l : Level) : OptionName → Bool
  | .workspace | .help => true
  | .json => l.json
  | .force => l.force
  | .version => l.version

def long? (l : Level) (name : List Char) : Option OptionName :=
  let option := match String.ofList name with
    | "workspace" => some OptionName.workspace
    | "json" => some .json
    | "force" => some .force
    | "help" => some .help
    | "version" => some .version
    | _ => none
  option.filter l.has

def short? (l : Level) (letter : Char) : Option OptionName :=
  let option := match letter with
    | 'w' => some OptionName.workspace
    | 'f' => some .force
    | 'h' => some .help
    | 'V' => some .version
    | _ => none
  option.filter l.has

/-- The argument is read as options of this level, well or badly. -/
def claims (l : Level) (a : String) : Bool :=
  match Looks.ofArgument a with
  | .endMark => true
  | .word => false
  | .long name _ => !l.verbatim || (l.long? name).isSome
  | .short letters => !l.verbatim || letters.all fun c => (l.short? c).isSome

end Level

namespace Given

/-- The options with the workspace, which must not be empty. -/
def setWorkspace (g : Given) (path : String) : Except Stop Given :=
  if g.workspace.isSome || path = "" then .error .rejected
  else .ok { g with workspace := some path }

/-- The options with one that has no value. -/
def setFlag (g : Given) : OptionName → Except Stop Given
  | .json => if g.json then .error .rejected else .ok { g with json := true }
  | .force => if g.force then .error .rejected else .ok { g with force := true }
  | .help => .error .help
  | .version => .error .version
  | .workspace => .error .rejected

end Given

/-- The options of a cluster of letters. What follows the letter of the workspace is its value; when
nothing follows, the value is yet to come. -/
def readCluster (l : Level) (g : Given) : List Char → Except Stop (Given × Bool)
  | [] => .ok (g, false)
  | c :: rest =>
    match l.short? c with
    | none => .error .rejected
    | some .workspace =>
      match rest with
      | [] => .ok (g, true)
      | '=' :: value => (g.setWorkspace (.ofList value)).map fun g => (g, false)
      | value => (g.setWorkspace (.ofList value)).map fun g => (g, false)
    | some option => do readCluster l (← g.setFlag option) rest

/-- The options at the front of the arguments, whether they were ended by two dashes, and the
arguments after them. -/
def readOptions (l : Level) (g : Given) : List String → Except Stop (Given × Bool × List String)
  | [] => .ok (g, false, [])
  | a :: rest =>
    if !l.claims a then .ok (g, false, a :: rest)
    else
      let step : Except Stop (Given × Bool) :=
        match Looks.ofArgument a with
        | .long name value =>
          match l.long? name, value with
          | some .workspace, some v => (g.setWorkspace (.ofList v)).map fun g => (g, false)
          | some .workspace, none => .ok (g, true)
          | some option, none => (g.setFlag option).map fun g => (g, false)
          | _, _ => .error .rejected
        | .short letters => readCluster l g letters
        | _ => .ok (g, false)
      match step with
      | .error stop => .error stop
      | .ok (g, wantsValue) =>
        if Looks.ofArgument a matches .endMark then .ok (g, true, rest)
        else if wantsValue then
          match rest with
          | v :: rest =>
            if l.claims v then .error .rejected
            else
              match g.setWorkspace v with
              | .ok g => readOptions l g rest
              | .error stop => .error stop
          | [] => .error .rejected
        else readOptions l g rest

/-- Options only. -/
def readNoWords (l : Level) (args : List String) : Except Stop Given := do
  let (g, _, rest) ← readOptions l {} args
  if rest.isEmpty then .ok g else .error .rejected

/-- Options, then the words of a command line, at least one. -/
def readWords (l : Level) (args : List String) : Except Stop (Given × List String) := do
  let (g, _, rest) ← readOptions { l with verbatim := true } {} args
  if rest.isEmpty then .error .rejected else .ok (g, rest)

/-- One file, with options on both sides. -/
def readFile (l : Level) (args : List String) : Except Stop (Given × String) := do
  let (g, ended, rest) ← readOptions l {} args
  match rest with
  | [] => .error .rejected
  | file :: rest =>
    if file = "" then .error .rejected
    else if ended then
      if rest.isEmpty then .ok (g, file) else .error .rejected
    else
      let (g, _, rest) ← readOptions l g rest
      if rest.isEmpty then .ok (g, file) else .error .rejected

def subcommandNames : List String :=
  ["shell", "repl", "run", "exec", "validate", "events", "log", "reset", "parse", "help"]

/-- Why nothing is run when help is asked for: about the program, or about one subcommand. -/
def readHelp : (topics : List String) → Stop
  | [] => .help
  | [topic] => if subcommandNames.contains topic then .help else .rejected
  | _ => .rejected

/-- The task of a subcommand and its arguments. -/
def readTask (sub : String) (args : List String) : Except Stop (Given × Task) :=
  match sub with
  | "shell" | "repl" => do
    let g ← readNoWords {} args
    .ok (g, .shell)
  | "run" | "exec" => do
    let (g, words) ← readWords { json := true } args
    .ok (g, .run g.json words)
  | "validate" => do
    let (g, file) ← readFile { json := true } args
    .ok (g, .validate g.json file)
  | "events" | "log" => do
    let g ← readNoWords { json := true } args
    .ok (g, .events g.json)
  | "reset" => do
    let g ← readNoWords { force := true } args
    .ok (g, .reset g.force)
  | "parse" => do
    let (g, words) ← readWords {} args
    .ok (g, .parse words)
  | "help" => .error (readHelp args)
  | _ => .error .rejected

/-- The task that the arguments of the program ask for. The workspace behind the subcommand counts
more than the one before it. -/
def Invocation.ofArguments (args : List String) : Except Stop Invocation := do
  let (outer, ended, rest) ← readOptions { version := true } {} args
  match rest with
  | sub :: args =>
    if ended then .error .rejected
    else
      let (g, task) ← readTask sub args
      .ok { workspace := g.workspace <|> outer.workspace, task }
  | [] => .error .rejected

end DockerSim.Program
