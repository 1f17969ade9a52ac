import DockerSim.Command.Inspect
import DockerSim.Engine.Display
import DockerSim.Proofs.Digits
import DockerSim.Proofs.Indices.Checks
import DockerSim.Proofs.Stack.Up
import DockerSim.Proofs.Yaml.Slices

/-!
# The commands index inside their lists

The parts of the commands that work with indices, with the indices written out where one can be out
of range (`Indexed`): the words of `exec`, the last lines of a log, the digits of an id, and the
images that `compose up` has found for its services. No index is out of range, and what is found is
the same; with the reader of stack files and the checks this is everything that is indexed or cut
(`indices_in_range`).
-/

namespace DockerSim

open Chars Yaml

/-! ## The last lines of a log -/

namespace Display

def Indexed.tail {α : Type} (lines : List α) (count : Option Nat) : Option (List α) :=
  match count with
  | some n => fromIndex? lines (lines.length - n)
  | none => some lines

theorem tail_indexed {α : Type} (lines : List α) (count : Option Nat) :
    Indexed.tail lines count = some (tail lines count) := by
  cases count with
  | none => rfl
  | some n => exact if_pos (Nat.sub_le _ _)

end Display

/-! ## The words of a program -/

namespace Command

def Indexed.programWords (line : CommandLine) : Option (Except Refusal (String × List String)) :=
  let usage : Refusal := .usage "exec -it CONTAINER COMMAND [ARG...]"
  let interactive := line.anySwitch ["i", "interactive"] && line.anySwitch ["t", "tty"]
  if !interactive || line.args.length < 2 then some (.error usage)
  else do
    let reference ← line.args[0]?
    let words ← fromIndex? line.args 1
    some (.ok (reference, words))

theorem programWords_indexed (line : CommandLine) :
    Indexed.programWords line = some (programWords line) := by
  unfold Indexed.programWords programWords
  dsimp only
  generalize (line.anySwitch ["i", "interactive"] && line.anySwitch ["t", "tty"]) = interactive
  cases line.args with
  | nil => simp
  | cons reference words =>
    cases words with
    | nil => simp
    | cons word words => cases interactive <;> simp [fromIndex?]

end Command

/-! ## Digits -/

namespace Chars

/-- The offsets of the characters of a text. -/
def offsets : List Char → List Nat
  | [] => []
  | c :: cs => 0 :: (offsets cs).map (c.utf8Size + ·)

/-- The offset of a character is the size of what stands before it. -/
theorem offsets_getD : ∀ (cs : List Char) (n : Nat),
    ((offsets cs)[n]?).getD (byteSize cs) = byteSize (cs.take n)
  | [], n => by simp [offsets]
  | c :: cs, 0 => rfl
  | c :: cs, n + 1 => by
    have ih := offsets_getD cs n
    rw [offsets, List.getElem?_cons_succ, List.getElem?_map, byteSize_cons, List.take_succ_cons,
      byteSize_cons, ← ih]
    cases (offsets cs)[n]? <;> rfl

end Chars

def Indexed.shortDigest (digest : String) : Option String :=
  let hex := (digestHex digest).toList
  let stop := ((offsets hex)[12]?).getD (byteSize hex)
  (upToByte? hex stop).map String.ofList

/-- A digest is cut between two of its characters, whatever it is made of. -/
theorem shortDigest_indexed (digest : String) :
    Indexed.shortDigest digest = some (shortDigest digest) := by
  have hcut : ∀ (cs : List Char) (n : Nat),
      upToByte? cs (byteSize (cs.take n)) = some (cs.take n) := by
    intro cs n
    have hcut := upToByte?_append (cs.take n) (cs.drop n)
    rwa [List.take_append_drop] at hcut
  unfold Indexed.shortDigest
  dsimp only
  rw [offsets_getD, hcut]
  rfl

namespace Supply

def Indexed.hexText (len n : Nat) : Option String :=
  let ds := zeroPad len (digits 16 n)
  if len ≤ byteSize ds then (fromByte? ds (byteSize ds - len)).map String.ofList else none

/-- The digits are padded to the length at least, and each of them is one byte. -/
theorem hexText_indexed (len n : Nat) : Indexed.hexText len n = some (hexText len n) := by
  have hascii : ∀ c ∈ zeroPad len (digits 16 n), c.utf8Size = 1 := by
    intro c hc
    rcases List.mem_append.1 hc with hc | hc
    · rw [List.eq_of_mem_replicate hc]
      rfl
    · obtain ⟨d, hd, rfl⟩ := digit_of_mem_digits (by decide) hc
      have hdigits : ∀ d < 16, d.digitChar.utf8Size = 1 := by decide
      exact hdigits d hd
  have hpadded : len ≤ (zeroPad len (digits 16 n)).length := by
    unfold zeroPad
    rw [List.length_append, List.length_replicate]
    omega
  unfold Indexed.hexText hexText
  dsimp only
  rw [byteSize_ascii hascii, if_pos hpadded]
  generalize zeroPad len (digits 16 n) = ds at hascii
  have hsize : byteSize (ds.take (ds.length - len)) = ds.length - len := by
    rw [byteSize_ascii fun c hc => hascii c (List.mem_of_mem_take hc), List.length_take]
    omega
  have hcut := fromByte?_append (ds.take (ds.length - len)) (ds.drop (ds.length - len))
  rw [List.take_append_drop, hsize] at hcut
  rw [hcut]
  rfl

end Supply

/-! ## The images of a stack -/

/-- A draw that cannot fail. -/
def Draw.total {α : Type} (d : Draw α) : StateT Supply Option α := fun u => some (d u)

/-- One draw after the other, neither of which fails. -/
theorem Draw.bind_total {α β : Type} {x : StateT Supply Option α} {d : Draw α}
    {f : α → StateT Supply Option β} {g : α → Draw β} {u : Supply} (hx : x u = some (d u))
    (hf : ∀ a v, f a v = some (g a v)) : (x >>= f) u = some ((d >>= g) u) := by
  show (x u).bind (fun (a, v) => f a v) = some (g (d u).1 (d u).2)
  rw [hx]
  exact hf _ _

namespace Stack

namespace Indexed

/-- The images of the services by their names. -/
def imagesByName (services : List Service) (images : Table Image) : Table Image :=
  services.foldl (fun found s =>
    match s.findImage images with
    | some image => found.insert s.name image
    | none => found) ∅

/-- The services are brought up in an order, with images that were found before. -/
def bringUpAll (detached : Bool) (services : List Service) (found : Table Image)
    (order : List String) (p : Progress) : StateT Supply Option Progress :=
  order.foldlM (fun p name =>
    match services.find? fun s => s.name = name with
    | none => pure p
    | some s =>
      match found.get? name with
      | some image => (bringUp detached p s image).total
      | none => failure) p

def upServices (r : Request) (doc : YamlMap) (warnings : List String) :
    StateT Supply Option Outcome :=
  let detached := r.line.anySwitch ["d", "detach"]
  let services := Service.ofDocument doc
  let missing := services.filter fun s => (s.findImage r.state.images).isNone
  if services.isEmpty then pure (.refuse .noServices)
  else if !missing.isEmpty then
    pure (.fail (warnings ++ [invalidFileLine] ++ missing.map Service.missingImageLine))
  else
    match Service.startOrder services with
    | none => pure (.refuse .circularDependency)
    | some order => do
      let p ← ((Progress.start r.state).addDeclared doc).total
      let p ← bringUpAll detached services (imagesByName services r.state.images) order p
      pure (upOutcome detached r.state warnings order p)

def up (r : Request) : StateT Supply Option Outcome :=
  match stackFile r with
  | .error refusal => pure (.refuse refusal)
  | .ok file =>
    let findings := Compose.check file.content ((r.files.map Workspace.paths).getD [])
    let errors := Finding.errors findings
    let warned := (Finding.warnings findings).map Finding.warningLine
    let warnings := if warned.isEmpty then [] else warned ++ [""]
    if errors.isEmpty then
      upServices r ((Yaml.parse file.content).toOption.getD []) warnings
    else (rejectFile file.path warnings errors).total

end Indexed

variable {services : List Service} {images : Table Image} {r : Request} {u : Supply}

/-- Services with different names are found with their own images. -/
theorem get?_foldl_images : ∀ {services : List Service} (found : Table Image),
    (services.map Service.name).Nodup →
    (∀ s ∈ services, (s.findImage images).isSome = true) → ∀ name,
    (services.foldl (fun found s =>
      match s.findImage images with
      | some image => found.insert s.name image
      | none => found) found).get? name =
      match services.find? fun s => s.name = name with
      | some s => s.findImage images
      | none => found.get? name
  | [], _, _, _, _ => rfl
  | s :: services, found, hnames, hfound, name => by
    obtain ⟨hnew, hnames⟩ := List.nodup_cons.1 hnames
    obtain ⟨hs, hfound⟩ := List.forall_mem_cons.1 hfound
    obtain ⟨image, himage⟩ := Option.isSome_iff_exists.1 hs
    rw [List.foldl_cons, himage]
    dsimp only
    rw [get?_foldl_images _ hnames hfound, List.find?_cons]
    by_cases hname : s.name = name
    · have hnone : services.find? (fun s => s.name = name) = none := by
        refine List.find?_eq_none.2 fun t ht he => hnew ?_
        rw [decide_eq_true_iff] at he
        rw [hname, ← he]
        exact List.mem_map_of_mem ht
      rw [hnone, decide_eq_true hname]
      dsimp only
      rw [← hname, Table.get?_insert_self, himage]
    · rw [decide_eq_false hname]
      dsimp only
      rw [Table.get?_insert_of_ne _ _ (Ne.symm hname)]

theorem bringUpAll_indexed (detached : Bool) (hnames : (services.map Service.name).Nodup)
    (hfound : ∀ s ∈ services, (s.findImage images).isSome = true) :
    ∀ (order : List String) (p : Progress) (u : Supply),
      Indexed.bringUpAll detached services (Indexed.imagesByName services images) order p u =
        some (bringUpAll detached services images order p u)
  | [], _, _ => rfl
  | name :: order, p, u => by
    unfold Indexed.bringUpAll bringUpAll
    rw [List.foldlM_cons, List.foldlM_cons]
    refine Draw.bind_total ?_ (bringUpAll_indexed detached hnames hfound order)
    have himage : (Indexed.imagesByName services images).get? name = _ :=
      get?_foldl_images ∅ hnames hfound name
    unfold serviceWithImage
    rw [himage]
    cases hfind : services.find? fun s => s.name = name with
    | none => rfl
    | some s =>
      obtain ⟨image, hs⟩ := Option.isSome_iff_exists.1 (hfound s (List.mem_of_find?_eq_some hfind))
      simp only [Option.bind_eq_bind, Option.bind_some, hs]
      rfl

theorem upServices_indexed {doc : YamlMap} (h : doc.Proper) (r : Request) (warnings : List String)
    (u : Supply) : Indexed.upServices r doc warnings u = some (upServices r doc warnings u) := by
  unfold Indexed.upServices upServices
  dsimp only
  split
  · rfl
  · split
    · rfl
    · next hmissing =>
      have hfound : ∀ s ∈ Service.ofDocument doc, (s.findImage r.state.images).isSome = true := by
        rw [isEmpty_missing, Bool.not_eq_true', Bool.not_eq_false, List.all_eq_true] at hmissing
        exact hmissing
      cases Service.startOrder (Service.ofDocument doc) with
      | none => rfl
      | some order =>
        refine Draw.bind_total rfl fun p v => Draw.bind_total ?_ fun p v => rfl
        exact bringUpAll_indexed _ (Service.nodup_names_ofDocument h) hfound order p v

/-- **Every service that is brought up has an image that was found before.** -/
theorem up_indexed (r : Request) (u : Supply) : Indexed.up r u = some (up r u) := by
  unfold Indexed.up up
  cases stackFile r with
  | error refusal => rfl
  | ok file =>
    dsimp only
    split
    · refine upServices_indexed ?_ r _ u
      cases hdoc : Yaml.parse file.content with
      | error e => exact YamlMap.proper_nil
      | ok doc => exact Yaml.parse_proper hdoc
    · rfl

end Stack

/-! ## Everything that is indexed or cut -/

/-- **No index is out of range, and no text is cut inside a character**: with the indices written
out each of these functions gives a result, on every input, and it is the one of the function that
runs. They are the reader of stack files; the lines of services and keys, and the parts of a port
mapping, in the check of a stack file; the edit distance, the name of a stage and the first
instruction in the check of a Dockerfile; the words of `exec`, the last lines of a log, the short
form of a digest, the digits of an id, and the images of `compose up`. -/
theorem indices_in_range :
    (∀ content, Yaml.Indexed.parse content = some (Yaml.parse content)) ∧
    (∀ lines service, Compose.Indexed.serviceLine lines service =
      some (Compose.serviceLine lines service)) ∧
    (∀ lines service key, Compose.Indexed.fieldLine lines service key =
      some (Compose.fieldLine lines service key)) ∧
    (∀ name entry, Compose.Indexed.checkPort name entry = some (Compose.checkPort name entry)) ∧
    (∀ as bs, Spelling.Indexed.distance as bs = some (Spelling.distance as bs)) ∧
    (∀ words, Dockerfile.Indexed.stageName words = some (Dockerfile.stageName words)) ∧
    (∀ is, Dockerfile.Indexed.checkInstructions is = some (Dockerfile.checkInstructions is)) ∧
    (∀ line, Command.Indexed.programWords line = some (Command.programWords line)) ∧
    (∀ (lines : List String) count, Display.Indexed.tail lines count =
      some (Display.tail lines count)) ∧
    (∀ digest, Indexed.shortDigest digest = some (shortDigest digest)) ∧
    (∀ len n, Supply.Indexed.hexText len n = some (Supply.hexText len n)) ∧
    ∀ r u, Stack.Indexed.up r u = some (Stack.up r u) :=
  ⟨Yaml.Indexed.parse_eq, Compose.serviceLine_indexed, Compose.fieldLine_indexed,
    Compose.checkPort_indexed, Spelling.distance_indexed, Dockerfile.stageName_indexed,
    Dockerfile.checkInstructions_indexed, Command.programWords_indexed, Display.tail_indexed,
    shortDigest_indexed, Supply.hexText_indexed, Stack.up_indexed⟩

end DockerSim
