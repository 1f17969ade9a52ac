/-!
# Usage texts

The help that is printed for `docker` and for each of its commands.
-/

namespace DockerSim.Usage

def version : String := "Docker version 24.0.7, build simulated"

/-- The commands with a help text of their own, and the lines of the text. -/
def texts : List (String × List String) := [
  ("compose", [
    "",
    "Usage:  docker compose [OPTIONS] COMMAND",
    "",
    "Define and run multi-container applications with Docker",
    "",
    "Options:",
    "  -f, --file stringArray   Compose configuration files",
    "",
    "Commands:",
    "  down        Stop and remove containers, networks",
    "  logs        View output from containers",
    "  ps          List containers",
    "  up          Create and start containers",
    "",
    "Run 'docker compose COMMAND --help' for more information on a command."]),
  ("pull", [
    "",
    "Usage:  docker pull [OPTIONS] NAME[:TAG|@DIGEST]",
    "",
    "Download an image from a registry"]),
  ("images", [
    "",
    "Usage:  docker images [OPTIONS] [REPOSITORY[:TAG]]",
    "",
    "List images"]),
  ("build", [
    "",
    "Usage:  docker build [OPTIONS] PATH | URL | -",
    "",
    "Build an image from a Dockerfile",
    "",
    "Options:",
    "  -f, --file string   Name of the Dockerfile (default: \"PATH/Dockerfile\")",
    "  -t, --tag list      Name and optionally a tag in the \"name:tag\" format"]),
  ("run", [
    "",
    "Usage:  docker run [OPTIONS] IMAGE [COMMAND] [ARG...]",
    "",
    "Create and run a new container from an image",
    "",
    "Options:",
    "  -d, --detach          Run container in background and print container ID",
    "  -e, --env list        Set environment variables",
    "      --name string     Assign a name to the container",
    "  -p, --publish list    Publish a container's port(s) to the host",
    "  -v, --volume list     Bind mount a volume"]),
  ("ps", [
    "",
    "Usage:  docker ps [OPTIONS]",
    "",
    "List containers",
    "",
    "Options:",
    "  -a, --all   Show all containers (default shows just running)"]),
  ("stop", [
    "",
    "Usage:  docker stop [OPTIONS] CONTAINER [CONTAINER...]",
    "",
    "Stop one or more running containers"]),
  ("start", [
    "",
    "Usage:  docker start [OPTIONS] CONTAINER [CONTAINER...]",
    "",
    "Start one or more stopped containers"]),
  ("rm", [
    "",
    "Usage:  docker rm [OPTIONS] CONTAINER [CONTAINER...]",
    "",
    "Remove one or more containers",
    "",
    "Options:",
    "  -f, --force   Force the removal of a running container"]),
  ("logs", [
    "",
    "Usage:  docker logs [OPTIONS] CONTAINER",
    "",
    "Fetch the logs of a container",
    "",
    "Options:",
    "  -f, --follow         Follow log output",
    "  -n, --tail string    Number of lines to show from the end of the logs (default \"all\")"]),
  ("exec", [
    "",
    "Usage:  docker exec [OPTIONS] CONTAINER COMMAND [ARG...]",
    "",
    "Execute a command in a running container",
    "",
    "Options:",
    "  -i, --interactive   Keep STDIN open even if not attached",
    "  -t, --tty           Allocate a pseudo-TTY"]),
  ("compose up", [
    "",
    "Usage:  docker compose up [OPTIONS] [SERVICE...]",
    "",
    "Create and start containers",
    "",
    "Options:",
    "  -d, --detach   Detached mode: Run containers in the background"]),
  ("compose down", [
    "",
    "Usage:  docker compose down [OPTIONS] [SERVICES]",
    "",
    "Stop and remove containers, networks"]),
  ("compose ps", [
    "",
    "Usage:  docker compose ps [OPTIONS] [SERVICE...]",
    "",
    "List containers"]),
  ("compose logs", [
    "",
    "Usage:  docker compose logs [OPTIONS] [SERVICE...]",
    "",
    "View output from containers",
    "",
    "Options:",
    "  -n, --tail string   Number of lines to show from the end of the logs for each container " ++
      "(default \"all\")"])]

/-- The help for `docker` itself. -/
def root : List String := [
  "",
  "Usage:  docker [OPTIONS] COMMAND",
  "",
  "A self-sufficient runtime for containers (simulated)",
  "",
  "Common Commands:",
  "  run         Create and run a new container from an image",
  "  exec        Execute a command in a running container",
  "  ps          List containers",
  "  build       Build an image from a Dockerfile",
  "  pull        Download an image from a registry",
  "  images      List images",
  "",
  "Management Commands:",
  "  compose*    Docker Compose",
  "",
  "Container Commands:",
  "  logs        Fetch the logs of a container",
  "  rm          Remove one or more containers",
  "  start       Start one or more stopped containers",
  "  stop        Stop one or more running containers",
  "",
  "Run 'docker COMMAND --help' for more information on a command."]

/-- The help for a subcommand; there is none for an unknown one. -/
def ofSubcommand : Option String → Option (List String)
  | none | some "help" => some root
  | some sub => texts.lookup sub

end DockerSim.Usage
