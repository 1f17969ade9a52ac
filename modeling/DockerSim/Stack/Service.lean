import DockerSim.Compose.Definition
import DockerSim.Engine.Lookup

/-!
# Services of a stack

The parts of a service definition that the engine acts on, and the image that the service runs.
-/

namespace DockerSim

structure Service where
  name : String
  image : Option String
  /-- The build context, when the service is built. -/
  build : Option String
  ports : List String
  environment : List (String × String)
  dependsOn : List String
  networks : List String
  volumes : List String

namespace Service

/-- The service that a mapping defines. -/
def ofMap (name : String) (svc : YamlMap) : Service where
  name
  image := (svc.get? "image").bind Yaml.text?
  build := if svc.has "build" then some ((Compose.buildContext svc).getD ".") else none
  ports := Compose.texts svc "ports"
  environment := Compose.environment svc
  dependsOn := Compose.dependsOn svc
  networks := Compose.networks svc
  volumes := Compose.texts svc "volumes"

/-- The services of a file, in its order. -/
def ofDocument (doc : YamlMap) : List Service :=
  match doc.get? "services" with
  | some (.map services) => services.filterMap fun (name, value) => value.map?.map (ofMap name)
  | _ => []

/-- The image that a service runs: the one it names, or the one that was built under its own
name. -/
def imageReference (s : Service) : Option String :=
  match s.image, s.build with
  | some image, _ => some image
  | none, some _ => some s.name
  | none, none => none

def findImage (images : Table Image) (s : Service) : Option Image :=
  s.imageReference.bind (DockerSim.findImage images)

/-- The line that says why a service has no image. -/
def missingImageLine (s : Service) : String :=
  "  Service '" ++ s.name ++ "': " ++
    match s.image, s.build with
    | some image, _ =>
      "image '" ++ image ++ "' not found locally. Run 'docker pull " ++ image ++ "' first."
    | none, some context =>
      "no built image found for build context '" ++ context ++ "'. Run 'docker build -t " ++
        s.name ++ " " ++ context ++ "' first."
    | none, none => "no image or build specified"

end Service

end DockerSim
