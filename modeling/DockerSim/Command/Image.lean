import DockerSim.Dockerfile.Check
import DockerSim.Engine.Display
import DockerSim.Engine.Outcome

/-!
# Image commands

`pull` and `build` make images, `images` lists them. An image that is already there is not pulled
again; a build always makes a new one, after the Dockerfile was checked.
-/

namespace DockerSim.Command

/-- The state's images with one more. -/
def withImage (r : Request) (i : Image) : Delta :=
  { images := some (r.state.images.insert i.key i) }

/-! ## Pulling -/

/-- A reference that is longer than its repository names a tag, if only an empty one. -/
def namesTag (reference : String) (name : ImageName) : Bool :=
  name.repository.utf8ByteSize < reference.utf8ByteSize

def drawDigests (count : Nat) : Draw (List String) :=
  (List.range count).mapM fun _ => Supply.digest

/-- A new image, with two or three layers. -/
def drawPulled (name : ImageName) : Draw Image := do
  let layers ← drawDigests (2 + (← Supply.below 2))
  let id ← Supply.digest
  let size ← Supply.sizeBetween 10000000 210000000
  let createdAt ← Supply.now
  return { id, repository := name.repository, tag := name.tag, size, createdAt, layers }

def pullEvents (i : Image) : Draw (List Event) := do
  let started ← Event.draw .imagePullStarted
    (.obj [("repository", .str i.repository), ("tag", .str i.tag)])
    ("Started pulling image " ++ i.key)
  let complete ← Event.draw .imagePullComplete (.obj [("image", i.toJson)])
    ("Pulled image " ++ i.key)
  return [started, complete]

def pull (r : Request) : Draw Outcome :=
  match r.line.args with
  | [] => return .refuse (.usage "pull <image[:tag]>")
  | reference :: _ => do
    let name := ImageName.ofReference reference
    let greeting :=
      (if namesTag reference name then [] else ["Using default tag: " ++ name.tag]) ++
        [name.tag ++ ": Pulling from library/" ++ name.repository]
    match r.state.images.get? name.key with
    | some i =>
      return .print (greeting ++
        ["Digest: " ++ i.id, "Status: Image is up to date for " ++ name.key])
    | none =>
      let i ← drawPulled name
      let events ← pullEvents i
      return {
        delta := withImage r i
        events
        output := greeting ++
          i.layers.map (fun l => shortDigest l ++ ": Pull complete") ++
          ["Digest: " ++ i.id, "Status: Downloaded newer image for " ++ name.key,
            "docker.io/library/" ++ name.key]
        succeeded := true }

/-! ## Listing -/

/-- The image is one that a reference asks for: any tag will do when it names none. -/
def matchesReference (reference : String) (i : Image) : Bool :=
  match ImageName.splitTag reference with
  | (repository, some tag) => i.repository = repository && i.tag = tag
  | (repository, none) => i.repository = repository

/-- The newer image comes first, and of images of one age the first by name. -/
def imageBefore (a b : Image) : Bool :=
  b.createdAt.before a.createdAt || (a.createdAt = b.createdAt && decide (a.key ≤ b.key))

def imageRow (i : Image) : String :=
  Display.pad i.repository 20 ++ Display.pad i.tag 12 ++ Display.pad i.shortId 14 ++
    Display.pad i.createdAt.secondText 22 ++ Display.size i.size

def images (r : Request) : Outcome :=
  let wanted := match r.line.args with
    | reference :: _ => r.state.images.values.filter (matchesReference reference)
    | [] => r.state.images.values
  let header := Display.pad "REPOSITORY" 20 ++ Display.pad "TAG" 12 ++ Display.pad "IMAGE ID" 14 ++
    Display.pad "CREATED" 22 ++ "SIZE"
  .print (header :: (wanted.mergeSort imageBefore).map imageRow)

/-! ## Building -/

/-- The Dockerfile that a build reads: the one named by a flag, or the one in the build context. -/
def dockerfilePath (line : CommandLine) : String :=
  match line.value? ["f", "file"] with
  | some file => Path.normalize file
  | none =>
    let context := Path.normalize (line.args.headD ".")
    if context = "" || context = "." then "Dockerfile" else context ++ "/Dockerfile"

/-- The lines that a build prints for its instructions, each with the id of a layer. -/
def buildSteps (total : Nat) : Nat → List Instruction → Draw (List String)
  | _, [] => return []
  | n, i :: is => do
    let title := "Step " ++ Text.decimal n ++ "/" ++ Text.decimal total ++ " : " ++
      i.keyword ++ " " ++ i.rest
    let running ← if i.keyword = "RUN" then
        (do return [" ---> Running in " ++ (← Supply.hex 12)])
      else pure []
    let layer ← Supply.hex 12
    let rest ← buildSteps total (n + 1) is
    return title :: running ++ [" ---> " ++ layer] ++ rest

/-- The instructions that add a layer to an image. -/
def addsLayer (i : Instruction) : Bool :=
  i.keyword = "RUN" || i.keyword = "COPY" || i.keyword = "ADD"

def drawBuilt (name : ImageName) (instructions : List Instruction) : Draw Image := do
  let id ← Supply.digest
  let size ← Supply.sizeBetween 20000000 170000000
  let createdAt ← Supply.now
  let layers ← drawDigests (max 1 (instructions.filter addsLayer).length)
  return { id, repository := name.repository, tag := name.tag, size, createdAt, layers }

/-- The lines for the errors of a Dockerfile, numbered from `n`. -/
def buildErrorLines : Nat → List Finding → List String
  | _, [] => []
  | n, f :: fs =>
    ("#" ++ Text.decimal n ++ " ERROR [" ++ f.rule ++ "] " ++ f.message) ::
      ("    line " ++ Text.decimal f.line ++ ": " ++ f.explanation) :: buildErrorLines (n + 1) fs

/-- A build that the check of the Dockerfile stops. -/
def rejectBuild (name : ImageName) (errors : List Finding) (warnings : List String) :
    Draw Outcome := do
  let failed ← Event.draw .buildFailed
    (.obj [("tag", .str name.key), ("errors", .arr (errors.map Finding.toJson))])
    ("Build failed for " ++ name.key)
  let output := warnings ++ buildErrorLines 1 errors ++
    ["", "failed to solve: Dockerfile validation failed."]
  return { Outcome.fail output with events := [failed] }

/-- A build of instructions that passed the check. -/
def finishBuild (r : Request) (name : ImageName) (instructions : List Instruction)
    (warnings : List String) : Draw Outcome := do
  let total := instructions.length
  let steps ← buildSteps total 1 instructions
  let i ← drawBuilt name instructions
  let step ← Event.draw .buildStep (.obj [("tag", .str name.key), ("steps", .nat total)])
    ("Build step executed for " ++ name.key)
  let complete ← Event.draw .buildComplete (.obj [("image", i.toJson)])
    ("Built image " ++ name.key ++ " successfully")
  return {
    delta := withImage r i
    events := [step, complete]
    output := warnings ++ steps ++
      ["Successfully built " ++ i.shortId, "Successfully tagged " ++ name.key]
    succeeded := true }

def build (r : Request) : Draw Outcome :=
  let name := ImageName.ofReference ((r.line.value? ["t", "tag"]).getD "unnamed:latest")
  match r.files with
  | none => finishBuild r name [] []
  | some files =>
    let path := dockerfilePath r.line
    match files.file? path with
    | none => return .refuse (.dockerfileNotFound path)
    | some file =>
      let findings := Dockerfile.check file.content
      let errors := Finding.errors findings
      let warnings := (Finding.warnings findings).map Finding.warningLine
      if errors.isEmpty then
        finishBuild r name (Instruction.ofContent file.content)
          (if warnings.isEmpty then [] else warnings ++ [""])
      else rejectBuild name errors warnings

end DockerSim.Command
