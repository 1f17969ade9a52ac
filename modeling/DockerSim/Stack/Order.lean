import DockerSim.Stack.Service

/-!
# The order of services

Services are started after the services they depend on: depth first along the dependencies, in the
order of the file among siblings. There is no order when the dependencies form a cycle.
-/

namespace DockerSim.Service

/-- The dependencies of a service that the file defines. -/
def localDependencies (services : List Service) (s : Service) : List String :=
  s.dependsOn.filter fun dep => services.any fun t => t.name = dep

/-- Why a service is not placed. -/
inductive Obstacle where
  /-- The service is one of those that wait for it. -/
  | cycle
  /-- The search goes no deeper. -/
  | depth
deriving DecidableEq

/-- The order after a service and all it depends on were placed, `path` being the services that wait
for it. -/
def place (services : List Service) : (depth : Nat) → (path : List String) →
    (order : List String) → (name : String) → Except Obstacle (List String)
  | 0, _, _, _ => .error .depth
  | depth + 1, path, order, name =>
    if order.contains name then .ok order
    else if path.contains name then .error .cycle
    else
      match services.find? fun s => s.name = name with
      | none => .ok order
      | some s => do
        let order ←
          (localDependencies services s).foldlM (place services depth (name :: path)) order
        .ok (order ++ [name])

/-- The order after all services of the file were placed. -/
def placeAll (services : List Service) (depth : Nat) : Except Obstacle (List String) :=
  (services.map Service.name).foldlM (place services depth []) []

/-- The names of the services, each after those it depends on, if no cycle is met. A path never
repeats a service, so the search does not come to its end at this depth. -/
def startOrder (services : List Service) : Option (List String) :=
  (placeAll services (services.length + 1)).toOption

end DockerSim.Service
