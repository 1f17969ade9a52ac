import DockerSim.Engine.Validity

/-!
# Refusals

Why a command does nothing, or does not do its work on one of its targets, and the lines that say
so.
-/

namespace DockerSim

inductive Refusal where
  | invalidCommand (fault : CommandFault)
  | commandNotFound (command : String)
  | unknownFlag (flag : String)
  | unknownCommand (subcommand : String)
  /-- The command was given too few arguments. -/
  | usage (form : String)
  | imageNotFound (reference : String)
  | nameInUse (name : String)
  | badPortSpec (spec : String)
  | portTaken (port : Nat)
  | networkNotFound (network : String)
  | noSuchContainer (reference : String)
  | notRunning (name : String)
  | cannotRestart (name : String) (port : Nat)
  | stillRunning (id : String)
  | execNotRunning (name : String)
  | programNotFound (program : String)
  | dockerfileNotFound (path : String)
  | stackFileNotFound (path : String)
  | noStackFile
  | noServices
  | circularDependency
  | noSuchService (name : String)
deriving DecidableEq, Repr

namespace Refusal

/-- The lines that explain a refusal. -/
def lines : Refusal → List String
  | invalidCommand fault => ["invalid command: " ++ fault.message]
  | commandNotFound command => [command ++ ": command not found"]
  | unknownFlag flag => ["unknown flag: " ++ flag, "See 'docker --help'."]
  | unknownCommand sub => [
      "docker: '" ++ sub ++ "' is not a docker command. See 'docker --help'.",
      "",
      "Usage:  docker [OPTIONS] COMMAND",
      "",
      "Run 'docker COMMAND --help' for more information on a command."]
  | usage form => ["Usage: docker " ++ form]
  | imageNotFound reference => [
      "Unable to find image '" ++ reference ++ "' locally",
      "docker: Error response from daemon: pull access denied for " ++ reference ++
        ", repository does not exist or may require 'docker login': denied: requested access " ++
        "to the resource is denied.",
      "See 'docker run --help'.",
      "",
      "Explain: Image " ++ reference ++ " does not exist locally. Try docker pull " ++ reference ++
        " first."]
  | nameInUse name => [
      "Error response from daemon: Conflict. The container name \"/" ++ name ++
        "\" is already in use by container. You have to remove (or rename) that container to be " ++
        "able to reuse that name.",
      "",
      "Explain: Container names must be unique. Remove the old one with docker rm " ++ name ++
        " or pick another --name."]
  | badPortSpec spec =>
    ["docker: invalid port specification: \"" ++ spec ++ "\". See 'docker run --help'."]
  | portTaken port => [
      "Error: failed to create endpoint on network bridge: Bind for 0.0.0.0:" ++
        Text.decimal port ++ " failed: port is already allocated.",
      "",
      "Explain: Port " ++ Text.decimal port ++
        " is held by another running container. Stop it or choose another host port."]
  | networkNotFound network =>
    ["docker: Error response from daemon: network " ++ network ++ " not found."]
  | noSuchContainer reference =>
    ["Error response from daemon: No such container: " ++ reference]
  | notRunning name => [
      "Error response from daemon: container " ++ name ++ " is not running",
      "Explain: The container is already stopped."]
  | cannotRestart name port => [
      "Error response from daemon: driver failed programming external connectivity on endpoint " ++
        name ++ ": Bind for 0.0.0.0:" ++ Text.decimal port ++
        " failed: port is already allocated.",
      "Explain: Port " ++ Text.decimal port ++ " is held by another running container."]
  | stillRunning id => [
      "Error response from daemon: You cannot remove a running container " ++ id ++
        ". Stop the container before attempting removal or force remove.",
      "Explain: Stop the container first with docker stop, or use docker rm -f."]
  | execNotRunning name => [
      "Error response from daemon: Container " ++ name ++ " is not running",
      "Explain: exec needs a running container. Start it with docker start first."]
  | programNotFound program =>
    ["OCI runtime exec failed: exec failed: unable to start container process: exec: \"" ++
      program ++ "\": executable file not found in $PATH"]
  | dockerfileNotFound path =>
    ["ERROR: failed to solve: failed to read dockerfile: open " ++ path ++
      ": no such file or directory"]
  | stackFileNotFound path => ["open " ++ path ++ ": no such file or directory"]
  | noStackFile => ["validating compose file: no compose.yml found in workspace"]
  | noServices => ["validating compose file: no services defined"]
  | circularDependency => ["error: circular dependency detected in depends_on"]
  | noSuchService name => ["no such service: " ++ name]

end Refusal

end DockerSim
