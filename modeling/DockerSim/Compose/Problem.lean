import DockerSim.Finding
import DockerSim.Yaml.Reader

/-!
# Problems of a stack file

Everything that can be wrong with a stack file, and what is said about it. `service` is the name of
the service that a problem was found in.
-/

namespace DockerSim

inductive ComposeProblem where
  | unreadable (fault : YamlFault)
  | noServices
  | noImageOrBuild (service : String)
  | portNotText (service : String)
  | badPort (service spec : String)
  | missingContext (service path : String)
  | unknownDependency (service dependency : String)
  | undeclaredVolume (service volume : String)
  | undeclaredNetwork (network : String)
  | unpinnedImage (service name : String)
  | noRestartPolicy (service : String)
  | noHealthcheck (service : String)
  | mixedEnvironment (service : String)
  | plainSecret (service key : String)
deriving DecidableEq, Repr

namespace ComposeProblem

def rule : ComposeProblem → String
  | unreadable _ => "DC-YAML"
  | noServices => "DC-E-001"
  | noImageOrBuild _ => "DC-E-002"
  | portNotText _ => "DC-E-003"
  | badPort _ _ => "DC-E-004"
  | missingContext _ _ => "DC-E-005"
  | unknownDependency _ _ => "DC-E-006"
  | undeclaredVolume _ _ => "DC-E-007"
  | undeclaredNetwork _ => "DC-E-008"
  | unpinnedImage _ _ => "DC-W-001"
  | noRestartPolicy _ => "DC-W-002"
  | noHealthcheck _ => "DC-W-003"
  | mixedEnvironment _ => "DC-W-004"
  | plainSecret _ _ => "DC-W-005"

def severity : ComposeProblem → Severity
  | unpinnedImage _ _ | noRestartPolicy _ | noHealthcheck _ | mixedEnvironment _
  | plainSecret _ _ => .warning
  | _ => .error

def message : ComposeProblem → String
  | unreadable fault => "YAML parse error: " ++ fault.message
  | noServices => "compose.yml must define a top-level 'services' key"
  | noImageOrBuild s => "Service '" ++ s ++ "': must specify either 'image' or 'build'"
  | portNotText s =>
    "Service '" ++ s ++ "': ports entries must be strings in 'host:container' format"
  | badPort s spec => "Service '" ++ s ++ "': invalid port mapping '" ++ spec ++ "'"
  | missingContext s path =>
    "Service '" ++ s ++ "': build context '" ++ path ++ "' does not exist in workspace"
  | unknownDependency s dep =>
    "Service '" ++ s ++ "': depends_on references unknown service '" ++ dep ++ "'"
  | undeclaredVolume s volume =>
    "Volume '" ++ volume ++ "' is used by service '" ++ s ++
      "' but not declared under top-level 'volumes'"
  | undeclaredNetwork net =>
    "Network '" ++ net ++ "' is used but not declared under top-level 'networks'"
  | unpinnedImage s _ =>
    "Service '" ++ s ++ "': avoid image:latest; pin a version for reproducibility"
  | noRestartPolicy s =>
    "Service '" ++ s ++ "': consider adding a restart policy (e.g., unless-stopped)"
  | noHealthcheck s =>
    "Service '" ++ s ++
      "': consider adding a healthcheck so dependent services wait for readiness"
  | mixedEnvironment s =>
    "Service '" ++ s ++
      "': mix of array and map environment syntax; prefer one form consistently"
  | plainSecret s _ =>
    "Service '" ++ s ++
      "': plain-text secret detected in environment; prefer Docker secrets or .env files"

def explanation : ComposeProblem → String
  | unreadable _ =>
    "The compose file could not be parsed as valid YAML. Check for unclosed brackets, bad " ++
    "indentation, or duplicate keys."
  | noServices =>
    "Docker Compose files must have a top-level `services` map listing the containers to run. " ++
    "Without it compose up has nothing to start."
  | noImageOrBuild _ =>
    "Every service needs to know what container to run. Use `image` to reference a pre-built " ++
    "image, or `build` to build from a Dockerfile."
  | portNotText _ =>
    "Each ports entry must be a string like \"8080:80\" or a bare number. Objects and other " ++
    "types are not valid in this position."
  | badPort _ _ =>
    "Both the host and container port in a port mapping must be numeric. Non-numeric values " ++
    "cause compose up to fail."
  | missingContext _ path =>
    "The build context path '" ++ path ++ "' was not found among workspace files. Compose " ++
    "cannot locate the Dockerfile."
  | unknownDependency _ dep =>
    "'" ++ dep ++ "' is listed in depends_on but is not defined in the services map. Compose " ++
    "will refuse to start."
  | undeclaredVolume _ _ =>
    "Named volumes referenced in service volume mounts must be declared at the top-level " ++
    "'volumes' key so Compose knows to create them."
  | undeclaredNetwork _ =>
    "Networks named in a service must be declared at the top-level 'networks' key. Otherwise " ++
    "Compose doesn't know how to create them."
  | unpinnedImage _ _ =>
    "The :latest tag resolves to whatever is current at pull time. Pinning a version guarantees " ++
    "the same image across deployments."
  | noRestartPolicy _ =>
    "Without a restart policy the container stays stopped after a crash or reboot. " ++
    "`unless-stopped` is a safe default for long-running services."
  | noHealthcheck _ =>
    "Database services often take a moment to accept connections. A healthcheck lets " ++
    "depends_on: condition: service_healthy wait properly instead of racing."
  | mixedEnvironment _ =>
    "Using both array and map forms for the same service's environment is confusing and may " ++
    "cause unexpected merge behavior."
  | plainSecret _ _ =>
    "Embedding passwords and tokens directly in compose.yml checks them into source control. " ++
    "Use a .env file or Docker secrets instead."

def fix : ComposeProblem → Option String
  | unreadable _ => none
  | noServices => some "Add `services:` at the top level with at least one service underneath."
  | noImageOrBuild s =>
    some ("Add `image: nginx:stable` or `build: .` under service '" ++ s ++ "'.")
  | portNotText _ => some "Use string format: \"8080:80\""
  | badPort _ _ => some "Correct the mapping to use integers, e.g. \"8080:80\"."
  | missingContext _ path => some ("Create the directory '" ++ path ++ "' or correct the path.")
  | unknownDependency _ dep =>
    some ("Add service '" ++ dep ++ "' to the services map or remove the dependency.")
  | undeclaredVolume _ volume =>
    some ("Add `" ++ volume ++ ":` under the top-level `volumes:` key.")
  | undeclaredNetwork net => some ("Add `" ++ net ++ ":` under the top-level `networks:` key.")
  | unpinnedImage _ name => some ("Pin the image version, e.g. `image: " ++ name ++ ":stable`")
  | noRestartPolicy s => some ("Add `restart: unless-stopped` under service '" ++ s ++ "'.")
  | noHealthcheck _ => some "Add a `healthcheck:` block with a test command like `pg_isready`."
  | mixedEnvironment _ =>
    some "Standardise on either the map form (`KEY: value`) or list form (`- KEY=value`)."
  | plainSecret _ key =>
    some ("Move the value to a `.env` file and reference it as `$\x7b" ++ key ++ "\x7d`.")

/-- The finding that reports a problem at a line. -/
def finding (p : ComposeProblem) (line : Nat) : Finding :=
  { rule := p.rule, severity := p.severity, line, message := p.message
    explanation := p.explanation, fix := p.fix }

end ComposeProblem

end DockerSim
