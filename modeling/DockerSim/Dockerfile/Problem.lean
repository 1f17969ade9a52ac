import DockerSim.Dockerfile.Instruction
import DockerSim.Dockerfile.Spelling
import DockerSim.Finding
import DockerSim.ImageName

/-!
# Problems of a Dockerfile

Everything that can be wrong with a Dockerfile, and what is said about it.
-/

namespace DockerSim

inductive DockerfileProblem where
  | missingFrom
  | fromNotFirst
  | unknownInstruction (keyword : String)
  | missingOperand (keyword : String)
  | badExecForm (keyword : String)
  | legacyEnv (rest : String)
  | badExpose (port : String)
  | escapingWorkdir
  | unpinnedBase (name : String)
  | manyRuns
  | addForCopy (rest : String)
  | aptWithoutCleanup
  | shellFormPair
  | missingExpose
deriving DecidableEq, Repr

namespace DockerfileProblem

def knownInstructions : List String :=
  ["FROM", "RUN", "CMD", "LABEL", "EXPOSE", "ENV", "ADD", "COPY", "ENTRYPOINT", "VOLUME", "USER",
   "WORKDIR", "ARG", "ONBUILD", "STOPSIGNAL", "HEALTHCHECK", "SHELL"]

/-- The known instruction that an unknown keyword is a misspelling of. -/
def closestInstruction (keyword : String) : Option String :=
  Spelling.closest 2 keyword knownInstructions

def rule : DockerfileProblem → String
  | missingFrom => "DF-E-001"
  | fromNotFirst => "DF-E-002"
  | unknownInstruction _ => "DF-E-003"
  | missingOperand _ => "DF-E-004"
  | badExecForm _ => "DF-E-005"
  | legacyEnv _ => "DF-E-006"
  | badExpose _ => "DF-E-007"
  | escapingWorkdir => "DF-E-008"
  | unpinnedBase _ => "DF-W-001"
  | manyRuns => "DF-W-002"
  | addForCopy _ => "DF-W-003"
  | aptWithoutCleanup => "DF-W-005"
  | shellFormPair => "DF-W-006"
  | missingExpose => "DF-W-007"

def severity : DockerfileProblem → Severity
  | unpinnedBase _ | manyRuns | addForCopy _ | aptWithoutCleanup | shellFormPair
  | missingExpose => .warning
  | _ => .error

def message : DockerfileProblem → String
  | missingFrom => "Dockerfile must begin with a FROM instruction"
  | fromNotFirst => "FROM must be the first non-ARG instruction"
  | unknownInstruction keyword => "Unknown instruction: " ++ keyword
  | missingOperand keyword => keyword ++ " requires at least two arguments: <src> <dest>"
  | badExecForm _ => "Invalid exec form: must be a proper JSON array"
  | legacyEnv _ => "ENV instruction requires KEY=VALUE format"
  | badExpose _ => "EXPOSE argument must be a valid port number"
  | escapingWorkdir =>
    "WORKDIR must be an absolute path or a valid relative path within the image"
  | unpinnedBase _ => "Avoid using :latest; pin a specific version for reproducibility"
  | manyRuns => "Consider combining RUN instructions with && to reduce image layers"
  | addForCopy _ =>
    "Prefer COPY over ADD for local file copies; ADD has implicit tar extraction behavior"
  | aptWithoutCleanup =>
    "Consider --no-install-recommends and cleaning apt cache to reduce layer size"
  | shellFormPair =>
    "When combining CMD and ENTRYPOINT, prefer exec form (JSON array) for both"
  | missingExpose => "Consider adding EXPOSE to document the port your service listens on"

def explanation : DockerfileProblem → String
  | missingFrom =>
    "Every Dockerfile must start with FROM to set the base image. Without it Docker cannot " ++
    "construct a build context."
  | fromNotFirst =>
    "ARG is the only instruction allowed before FROM. All others (RUN, COPY, LABEL, etc.) must " ++
    "come after the base image is declared."
  | unknownInstruction keyword =>
    "'" ++ keyword ++ "' is not a valid Dockerfile instruction. Check for typos such as COPPY, " ++
    "FRROM or RRUN."
  | missingOperand keyword =>
    keyword ++ " needs a source path and a destination path. A single argument is ambiguous and " ++
    "will fail at build time."
  | badExecForm keyword =>
    keyword ++ " exec form must be a valid JSON array of strings, e.g. [\"npm\",\"start\"]. " ++
    "Mixing shell and exec tokens causes a parse error."
  | legacyEnv _ =>
    "The modern ENV syntax requires `KEY=VALUE`. The legacy `ENV KEY VALUE` form only sets one " ++
    "variable and is deprecated."
  | badExpose port =>
    "'" ++ port ++ "' is not a valid port number. EXPOSE accepts integers in the range 1-65535, " ++
    "optionally followed by /tcp or /udp."
  | escapingWorkdir =>
    "A WORKDIR path containing `..` can escape the intended directory. Use an absolute path " ++
    "like `/app` instead."
  | unpinnedBase _ =>
    "The :latest tag resolves to whatever the registry considers current at build time. Pinning " ++
    "(e.g. `node:18.20-alpine`) guarantees identical builds across machines and time."
  | manyRuns =>
    "Each RUN instruction creates a new image layer. Combining them with && keeps the image " ++
    "smaller and the layer count lower."
  | addForCopy _ =>
    "ADD automatically extracts tar archives and can fetch remote URLs, which makes builds less " ++
    "predictable. COPY is explicit and safer for local files."
  | aptWithoutCleanup =>
    "Without --no-install-recommends, apt installs suggested packages that bloat the layer. " ++
    "Without apt-get clean the package cache remains in the image."
  | shellFormPair =>
    "When both CMD and ENTRYPOINT are in shell form, CMD arguments are not passed to " ++
    "ENTRYPOINT. Exec form gives proper signal propagation and argument passing."
  | missingExpose =>
    "EXPOSE is a documentation hint telling consumers which port the service binds. It does not " ++
    "publish the port but makes the Dockerfile self-describing."

def fix : DockerfileProblem → String
  | missingFrom => "Add `FROM <image>` as the first instruction."
  | fromNotFirst => "Move the FROM instruction above all non-ARG instructions."
  | unknownInstruction keyword =>
    match closestInstruction keyword with
    | some known => "Did you mean " ++ known ++ "?"
    | none => "Use one of: " ++ Text.join ", " knownInstructions
  | missingOperand _ => "Example: `COPY . /app`"
  | badExecForm _ => "Use either shell form or exec form `[\"executable\",\"param\"]`."
  | legacyEnv rest =>
    match Text.cutBlank rest with
    | some (key, value) => "Change to `ENV " ++ key ++ "=" ++ Text.trim value ++ "`"
    | none => "Change to `ENV " ++ rest ++ "=<value>`"
  | badExpose _ => "Example: `EXPOSE 8080` or `EXPOSE 80/tcp`"
  | escapingWorkdir => "Change to an absolute path, e.g. `WORKDIR /app`"
  | unpinnedBase name => "Pin a version: `FROM " ++ name ++ ":<version>`"
  | manyRuns => "Merge: `RUN apt-get update && apt-get install ...`"
  | addForCopy rest => "Replace `ADD " ++ rest ++ "` with `COPY " ++ rest ++ "`"
  | aptWithoutCleanup => "Append `--no-install-recommends && rm -rf /var/lib/apt/lists/*`"
  | shellFormPair => "Use exec form: `ENTRYPOINT [\"executable\"]` and `CMD [\"param\"]`"
  | missingExpose => "Add `EXPOSE 80` (or the appropriate port) before CMD."

/-- The finding that reports a problem at a line. -/
def finding (p : DockerfileProblem) (line : Nat) : Finding :=
  { rule := p.rule, severity := p.severity, line, message := p.message
    explanation := p.explanation, fix := some p.fix }

end DockerfileProblem

end DockerSim
