import DockerSim.Dockerfile.Problem
import DockerSim.Json.Decode
import DockerSim.Json.Reader

/-!
# Checking a Dockerfile

Each instruction is checked by itself, with the build stages named before it; then the file as a
whole. A file without instructions has no findings, and one without `FROM` has a single one.
-/

namespace DockerSim.Dockerfile

open DockerfileProblem

/-- The words of an instruction that are not options. -/
def operands (i : Instruction) : List String :=
  (Text.words i.rest).filter fun w => !Text.starts "--" w

/-! ## Single instructions -/

def checkOperands (i : Instruction) : Option DockerfileProblem :=
  if 2 ≤ (operands i).length then none else some (missingOperand i.keyword)

def isStringArray (text : String) : Bool :=
  ((Json.ofText? text).bind (Json.listOf? Json.str?)).isSome

def checkExecForm (i : Instruction) : Option DockerfileProblem :=
  if i.isExecForm && !isStringArray i.rest then some (badExecForm i.keyword) else none

def checkEnv (i : Instruction) : Option DockerfileProblem :=
  if Text.has '=' i.rest then none else some (legacyEnv i.rest)

/-- A number from 1 to 65535 in digits. -/
def isPort (port : String) : Bool :=
  match Chars.natural? port.toList with
  | some n => 0 < n && n < 65536
  | none => false

/-- Every word must name a port, and there must be one. -/
def checkExpose (i : Instruction) : Option DockerfileProblem :=
  let ports := (Text.words i.rest).map (Text.before '/')
  match ports.find? fun p => !isPort p with
  | some port => some (badExpose port)
  | none => if i.rest = "" then some (badExpose "") else none

def checkWorkdir (i : Instruction) : Option DockerfileProblem :=
  if (Text.split '/' i.rest).contains ".." then some escapingWorkdir else none

/-- The image of a `FROM`. -/
def baseImage (i : Instruction) : String := (operands i).headD ""

/-- The name that a `FROM` gives to its stage: the word after the first `as`. -/
def stageName : List String → Option String
  | keyword :: name :: rest =>
    if keyword.toList.map Chars.lowerAscii = ['a', 's'] then some name
    else stageName (name :: rest)
  | _ => none

/-- A base image must be pinned, unless it is empty, a digest, a variable or an earlier stage. -/
def checkBase (stages : List String) (i : Instruction) : Option DockerfileProblem :=
  let image := baseImage i
  if image = "" || image = "scratch" || Text.has '@' image || Text.has '$' image ||
      stages.contains image then none
  else
    match ImageName.splitTag image with
    | (name, some tag) => if tag = ImageName.latest then some (unpinnedBase name) else none
    | (name, none) => some (unpinnedBase name)

/-- `ADD` is for remote files and archives. -/
def checkAdd (i : Instruction) : Option DockerfileProblem :=
  let source := baseImage i
  let remote := Text.starts "http://" source || Text.starts "https://" source
  let archive := Text.holds ".tar." source || Text.ends ".tar" source || Text.ends ".tgz" source
  if remote || archive then none else some (addForCopy i.rest)

def checkApt (i : Instruction) : Option DockerfileProblem :=
  if !Text.holds "apt-get install" i.rest then none
  else if Text.holds "--no-install-recommends" i.rest || Text.holds "apt-get clean" i.rest then none
  else some aptWithoutCleanup

/-- The problems of one instruction, given the stages before it. -/
def checkInstruction (stages : List String) (i : Instruction) : List DockerfileProblem :=
  if !knownInstructions.contains i.keyword then [unknownInstruction i.keyword]
  else
    match i.keyword with
    | "FROM" => (checkBase stages i).toList
    | "COPY" => (checkOperands i).toList
    | "ADD" => (checkOperands i).toList ++ (checkAdd i).toList
    | "CMD" | "ENTRYPOINT" => (checkExecForm i).toList
    | "ENV" => (checkEnv i).toList
    | "EXPOSE" => (checkExpose i).toList
    | "WORKDIR" => (checkWorkdir i).toList
    | "RUN" => (checkApt i).toList
    | _ => []

/-- The findings of the instructions in order. -/
def checkEach (stages : List String) : List Instruction → List Finding
  | [] => []
  | i :: is =>
    let found := (checkInstruction stages i).map (·.finding i.line)
    let stages :=
      if i.keyword = "FROM" then stages ++ (stageName (Text.words i.rest)).toList else stages
    found ++ checkEach stages is

/-! ## The whole file -/

def withKeyword (keyword : String) (is : List Instruction) : List Instruction :=
  is.filter fun i => i.keyword = keyword

/-- Only `ARG` may stand before `FROM`. -/
def checkFirst (is : List Instruction) : List Finding :=
  match is.find? fun i => i.keyword ≠ "ARG" with
  | some i => if i.keyword = "FROM" then [] else [fromNotFirst.finding i.line]
  | none => []

def checkRuns (is : List Instruction) : List Finding :=
  let runs := withKeyword "RUN" is
  match runs.getLast? with
  | some last => if 3 ≤ runs.length then [manyRuns.finding last.line] else []
  | none => []

def checkShellForms (is : List Instruction) : List Finding :=
  match (withKeyword "CMD" is).getLast?, (withKeyword "ENTRYPOINT" is).getLast? with
  | some cmd, some entry =>
    if cmd.isExecForm || entry.isExecForm then []
    else [shellFormPair.finding (max cmd.line entry.line)]
  | _, _ => []

/-- Words of commands that almost always serve on a port. -/
def servingWords : List String :=
  ["nginx", "node", "apache", "httpd", "python", "flask", "express", "rails"]

def checkServing (is : List Instruction) : List Finding :=
  if !(withKeyword "EXPOSE" is).isEmpty then []
  else
    match (withKeyword "CMD" is).getLast? with
    | some cmd =>
      let text := Text.lower cmd.rest
      if servingWords.any fun w => Text.holds w text then [missingExpose.finding cmd.line] else []
    | none => []

/-- The findings of a list of instructions. -/
def checkInstructions (is : List Instruction) : List Finding :=
  match is with
  | [] => []
  | first :: _ =>
    if (withKeyword "FROM" is).isEmpty then [missingFrom.finding first.line]
    else
      checkFirst is ++ checkEach [] is ++ checkRuns is ++ checkShellForms is ++ checkServing is

/-- The findings of a Dockerfile. -/
def check (content : String) : List Finding := checkInstructions (Instruction.ofContent content)

end DockerSim.Dockerfile
