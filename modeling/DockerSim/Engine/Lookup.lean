import DockerSim.Engine.State
import DockerSim.Supply

/-!
# Finding images and containers

How a reference on the command line finds its image or container, and how a container without a name
gets one.
-/

namespace DockerSim

/-- The image that a reference names, or the one kept under the reference itself. -/
def findImage (images : Table Image) (reference : String) : Option Image :=
  images.get? (ImageName.ofReference reference).key <|> images.get? reference

/-- The active container with an id, with a name, or whose id begins like the reference; the first
by id if there are several. -/
def findContainer (containers : Table Container) (reference : String) : Option Container :=
  if reference = "" then none
  else
    let active := containers.values.filter Container.isActive
    (active.find? fun c => c.id = reference) <|>
      (active.find? fun c => c.name = reference) <|>
      active.find? fun c => Text.starts reference c.id

/-- An active container has the name. -/
def isNameTaken (containers : Table Container) (name : String) : Bool :=
  containers.values.any fun c => c.isActive && c.name = name

def adjectives : List String := [
  "admiring", "agitated", "brave", "clever", "dreamy", "eager", "focused", "gallant", "happy",
  "jolly", "keen", "lucid", "nifty", "quirky", "serene", "upbeat", "vibrant", "zealous"]

def surnames : List String := [
  "babbage", "curie", "darwin", "einstein", "feynman", "galileo", "hopper", "kepler", "lovelace",
  "meitner", "newton", "noether", "pasteur", "ritchie", "shannon", "tesla", "turing", "wozniak"]

def drawName : Draw String := do
  let adjective ← Supply.pick adjectives
  let surname ← Supply.pick surnames
  return adjective ++ "_" ++ surname

/-- A name for a container: the first of `tries` drawn names that is not taken, or one more with a
drawn suffix. -/
def drawFreeName (containers : Table Container) : (tries : Nat) → Draw String
  | 0 => do
    let name ← drawName
    return name ++ "_" ++ (← Supply.hex 4)
  | tries + 1 => do
    let name ← drawName
    if isNameTaken containers name then drawFreeName containers tries else return name

/-- How many names are drawn before one gets a suffix. -/
def nameTries : Nat := 8

def generateName (containers : Table Container) : Draw String :=
  drawFreeName containers nameTries

end DockerSim
