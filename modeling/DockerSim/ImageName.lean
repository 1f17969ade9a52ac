import DockerSim.Text

/-!
# Image names

An image is named by a repository and a tag. A written reference leaves the tag out or sets it off
by its last colon; a colon with a slash after it belongs to the port of a registry instead. A
missing or empty tag stands for `latest`.
-/

namespace DockerSim

structure ImageName where
  repository : String
  tag : String
deriving DecidableEq, Repr

namespace ImageName

def latest : String := "latest"

/-- The repository and the tag as they are written. -/
def splitTag (reference : String) : String × Option String :=
  match Text.cutLast ':' reference with
  | some (name, tag) => if Text.has '/' tag then (reference, none) else (name, some tag)
  | none => (reference, none)

/-- The image that a reference names. -/
def ofReference (reference : String) : ImageName :=
  match splitTag reference with
  | (repository, some tag) => { repository, tag := if tag = "" then latest else tag }
  | (repository, none) => { repository, tag := latest }

/-- The full name, `repository:tag`. -/
def key (n : ImageName) : String := n.repository ++ ":" ++ n.tag

/-- The reference pins no version: it has no tag, or an empty one, or `latest`. -/
def isUnpinned (tag : Option String) : Bool :=
  match tag with
  | none => true
  | some t => t = "" || t = latest

end ImageName

end DockerSim
