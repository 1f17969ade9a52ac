import DockerSim.Proofs.FindingLines
import DockerSim.Proofs.ImageNames
import DockerSim.Proofs.LineGroups
import DockerSim.Proofs.YamlKeys

/-!
# Unpinned images

A base image and the image of a service are warned of when nothing pins their version, that is, when
the reference is resolved to `latest`. The checks of the two kinds of files agree on the references
that this is said of, but for one form: a colon with an empty tag behind it. It is resolved to
`latest`, and in a stack file it is warned of, but a Dockerfile takes it for pinned.
-/

namespace DockerSim

/-- A reference as it stands in a file: a word that is no option, and neither a digest nor a
variable nor the empty image. -/
structure ImageName.Plain (reference : String) : Prop where
  nonempty : reference ≠ ""
  word : ∀ c ∈ reference.toList, Chars.isBlank c = false
  noOption : Text.starts "--" reference = false
  noDigest : Text.has '@' reference = false
  noVariable : Text.has '$' reference = false
  notScratch : reference ≠ "scratch"

open ImageName

variable {reference : String}

instance (reference : String) : Decidable (Plain reference) :=
  decidable_of_iff (reference ≠ "" ∧ (reference.toList.all fun c => !Chars.isBlank c) = true ∧
      Text.starts "--" reference = false ∧ Text.has '@' reference = false ∧
      Text.has '$' reference = false ∧ reference ≠ "scratch")
    ⟨fun ⟨hnonempty, hword, hoption, hdigest, hvariable, hscratch⟩ =>
        ⟨hnonempty, by simpa using hword, hoption, hdigest, hvariable, hscratch⟩,
      fun h => ⟨h.nonempty, by simpa using h.word, h.noOption, h.noDigest, h.noVariable,
        h.notScratch⟩⟩

/-! ## Base images -/

namespace Dockerfile

/-- The stages that instructions name. -/
def stagesNamed (is : List Instruction) : List String :=
  (withKeyword "FROM" is).filterMap fun i => stageName (Text.words i.rest)

/-- An instruction starts a stage from a reference, which does not name an earlier stage. -/
structure StartsFrom (content : String) (i : Instruction) (reference : String) : Prop where
  keyword : i.keyword = "FROM"
  base : ∃ options more, (∀ o ∈ options, Text.starts "--" o = true) ∧
    Text.words i.rest = options ++ reference :: more
  fresh : ∃ before after, Instruction.ofContent content = before ++ i :: after ∧
    reference ∉ stagesNamed before

/-- It is said of the instruction that its base image is not pinned. -/
def WarnsUnpinned (content : String) (i : Instruction) : Prop :=
  ∃ f ∈ check content, f.rule = "DF-W-001" ∧ f.line = i.line

/-- What is checked behind some instructions, is checked with the stages that they name. -/
theorem checkEach_append (stages : List String) (is js : List Instruction) :
    checkEach stages (is ++ js) =
      checkEach stages is ++ checkEach (stages ++ stagesNamed is) js := by
  induction is generalizing stages with
  | nil => simp [checkEach, stagesNamed, withKeyword]
  | cons i is ih =>
    rw [List.cons_append, checkEach, checkEach, ih, List.append_assoc]
    congr 3
    by_cases hk : i.keyword = "FROM"
    · rw [if_pos hk]
      cases hs : stageName (Text.words i.rest) <;> simp [stagesNamed, withKeyword, hk, hs]
    · simp [stagesNamed, withKeyword, hk]

/-- Base images are looked at one by one: the checks of the whole file are about other things. -/
theorem mem_checkInstructions_iff {is : List Instruction} {f : Finding}
    (hfrom : ∃ i ∈ is, i.keyword = "FROM") (hrule : f.rule = "DF-W-001") :
    f ∈ checkInstructions is ↔ f ∈ checkEach [] is := by
  obtain ⟨i, hi, hk⟩ := hfrom
  have hsome : (withKeyword "FROM" is).isEmpty = false := by
    rw [List.isEmpty_eq_false_iff_exists_mem]
    exact ⟨i, List.mem_filter.2 ⟨hi, decide_eq_true hk⟩⟩
  have hother : ∀ {p : DockerfileProblem} {line : Nat}, p.rule ≠ "DF-W-001" →
      f ∉ [p.finding line] := by
    intro p line hp hf
    rw [List.mem_singleton.1 hf] at hrule
    exact hp hrule
  have hfirst : f ∉ checkFirst is := by
    unfold checkFirst
    split
    · split
      · exact List.not_mem_nil
      · exact hother (by decide)
    · exact List.not_mem_nil
  have hruns : f ∉ checkRuns is := by
    unfold checkRuns
    dsimp only
    split
    · split
      · exact hother (by decide)
      · exact List.not_mem_nil
    · exact List.not_mem_nil
  have hshell : f ∉ checkShellForms is := by
    unfold checkShellForms
    split
    · split
      · exact List.not_mem_nil
      · exact hother (by decide)
    · exact List.not_mem_nil
  have hserving : f ∉ checkServing is := by
    unfold checkServing
    dsimp only
    split
    · exact List.not_mem_nil
    · split
      · split
        · exact hother (by decide)
        · exact List.not_mem_nil
      · exact List.not_mem_nil
  cases is with
  | nil => cases hi
  | cons first rest =>
    unfold checkInstructions
    dsimp only
    rw [hsome, if_neg Bool.false_ne_true]
    simp only [List.mem_append, hfirst, hruns, hshell, hserving, false_or, or_false]

/-- A plain reference may be all that a `FROM` says. -/
theorem startsFrom_of_rest {content : String} {i : Instruction} {before after : List Instruction}
    (hplain : Plain reference) (hkeyword : i.keyword = "FROM") (hrest : i.rest = reference)
    (hcontent : Instruction.ofContent content = before ++ i :: after)
    (hfresh : reference ∉ stagesNamed before) : StartsFrom content i reference := by
  have hne : reference.toList ≠ [] := fun h => hplain.nonempty (String.toList_inj.1 h)
  have hwords : Text.words reference = [reference] := by
    rw [Text.words, Chars.words_eq_singleton hne hplain.word]
    simp
  refine ⟨hkeyword, ⟨[], [], ?_, ?_⟩, before, after, hcontent, hfresh⟩
  · exact fun _ ho => absurd ho List.not_mem_nil
  · rw [hrest, hwords]
    rfl

/-- The words of a `FROM` that are no options begin with the reference. -/
theorem StartsFrom.baseImage_eq {content : String} {i : Instruction}
    (h : StartsFrom content i reference) (hplain : Plain reference) :
    baseImage i = reference := by
  obtain ⟨options, more, hoptions, hwords⟩ := h.base
  have hnone : options.filter (fun w => !Text.starts "--" w) = [] := by
    rw [List.filter_eq_nil_iff]
    intro o ho
    rw [hoptions o ho]
    exact Bool.false_ne_true
  rw [baseImage, operands, hwords, List.filter_append, hnone, List.nil_append,
    List.filter_cons_of_pos (by rw [hplain.noOption]; rfl)]
  rfl

/-- A base image is said to be unpinned when it has no tag, or `latest`. -/
theorem checkBase_isSome_iff {stages : List String} {i : Instruction} (hplain : Plain reference)
    (hbase : baseImage i = reference) (hfresh : reference ∉ stages) :
    (checkBase stages i).isSome = true ↔
      (splitTag reference).2 = none ∨ (splitTag reference).2 = some latest := by
  have hchecked : (reference = "" || reference = "scratch" || Text.has '@' reference ||
      Text.has '$' reference || stages.contains reference) = false := by
    simp [hplain.nonempty, hplain.notScratch, hplain.noDigest, hplain.noVariable, hfresh]
  unfold checkBase
  dsimp only
  rw [hbase, hchecked, if_neg Bool.false_ne_true]
  obtain ⟨name, tag⟩ := splitTag reference
  cases tag with
  | none => simp
  | some tag => by_cases ht : tag = latest <;> simp [ht]

/-- An instruction is warned of when what is said of its base image, is said. -/
theorem warnsUnpinned_iff_checkBase {content : String} {i : Instruction}
    {before after : List Instruction} (hfrom : i.keyword = "FROM")
    (hcontent : Instruction.ofContent content = before ++ i :: after) :
    WarnsUnpinned content i ↔ (checkBase (stagesNamed before) i).isSome = true := by
  have hone : checkInstruction (stagesNamed before) i =
      (checkBase (stagesNamed before) i).toList := by
    simp [checkInstruction, hfrom, DockerfileProblem.knownInstructions]
  have hlines := Instruction.increasing_ofContent content
  rw [hcontent, List.map_append, List.map_cons, List.pairwise_append, List.pairwise_cons] at hlines
  obtain ⟨-, ⟨hafter, -⟩, hbefore⟩ := hlines
  have hmem : ∀ f, f.rule = "DF-W-001" → (f ∈ check content ↔
      f ∈ checkEach [] before ++ ((checkBase (stagesNamed before) i).toList.map
        (·.finding i.line) ++ checkEach (stagesNamed before ++
          (stageName (Text.words i.rest)).toList) after)) := by
    intro f hrule
    have hi : i ∈ before ++ i :: after := List.mem_append_right _ List.mem_cons_self
    rw [check, hcontent, mem_checkInstructions_iff ⟨i, hi, hfrom⟩ hrule, checkEach_append,
      List.nil_append, checkEach, hone, if_pos hfrom]
  constructor
  · rintro ⟨f, hf, hrule, hline⟩
    rw [hmem f hrule, List.mem_append, List.mem_append] at hf
    rcases hf with hf | hf | hf
    · have hlt : f.line < i.line := by
        refine line_of_mem_checkEach (P := (· < i.line)) (fun j hj => ?_) f hf
        exact hbefore _ (List.mem_map_of_mem hj) _ List.mem_cons_self
      exact absurd hline (Nat.ne_of_lt hlt)
    · obtain ⟨p, hp, -⟩ := List.mem_map.1 hf
      exact Option.isSome_iff_exists.2 ⟨p, Option.mem_toList.1 hp⟩
    · have hlt : i.line < f.line := by
        refine line_of_mem_checkEach (P := (i.line < ·)) (fun j hj => ?_) f hf
        exact hafter _ (List.mem_map_of_mem hj)
      exact absurd hline (Nat.ne_of_gt hlt)
  · intro hsome
    obtain ⟨p, hp⟩ := Option.isSome_iff_exists.1 hsome
    have hrule : (p.finding i.line).rule = "DF-W-001" := by
      unfold checkBase at hp
      dsimp only at hp
      split at hp
      · cases hp
      · split at hp
        · split at hp
          · cases hp
            rfl
          · cases hp
        · cases hp
          rfl
    refine ⟨p.finding i.line, (hmem _ hrule).2 ?_, hrule, rfl⟩
    rw [hp]
    exact List.mem_append_right _ (List.mem_append_left _ List.mem_cons_self)

/-- **The base images that are warned of** are those that are resolved to `latest`, but for the ones
with an empty tag. -/
theorem warnsUnpinned_iff {content : String} {i : Instruction}
    (h : StartsFrom content i reference) (hplain : Plain reference) :
    WarnsUnpinned content i ↔
      (ofReference reference).tag = latest ∧ reference.toList.getLast? ≠ some ':' := by
  obtain ⟨before, after, hcontent, hfresh⟩ := h.fresh
  rw [warnsUnpinned_iff_checkBase h.keyword hcontent,
    checkBase_isSome_iff hplain (h.baseImage_eq hplain) hfresh, tag_eq_latest_iff, ne_eq,
    ← splitTag_eq_some_empty_iff]
  cases (splitTag reference).2 with
  | none => simp [isUnpinned]
  | some tag =>
    by_cases ht : tag = ""
    · simp [ht, isUnpinned, latest]
    · simp [ht, isUnpinned]

end Dockerfile

/-! ## Images of services -/

namespace Compose

open ComposeProblem

/-- A service of a stack file runs the image of a reference. -/
structure RunsImage (content name reference : String) : Prop where
  read : ∃ doc services svc, Yaml.parse content = .ok doc ∧
    doc.get? "services" = some (.map services) ∧
    YamlMap.get? services name = some (.map svc) ∧
    (YamlMap.get? svc "image").bind Yaml.text? = some reference

/-- It is said of the service that its image is not pinned. -/
def WarnsUnpinned (content : String) (paths : List String) (name : String) : Prop :=
  ∃ f ∈ check content paths, f.rule = "DC-W-001" ∧
    ∃ repository, f.message = (unpinnedImage name repository).message

theorem eq_unpinnedImage_of_rule {p : ComposeProblem} (h : p.rule = "DC-W-001") :
    ∃ name repository, p = unpinnedImage name repository := by
  cases p with
  | unpinnedImage name repository => exact ⟨name, repository, rfl⟩
  | _ => exact absurd h (by simp [rule])

/-- What is said of an image names its service. -/
theorem message_unpinnedImage_inj {a b x y : String}
    (h : (unpinnedImage a x).message = (unpinnedImage b y).message) : a = b := by
  have hname := (String.append_left_inj _).1 h
  exact (String.append_right_inj _).1 hname

variable {around : Surroundings} {lines : List ScanLine} {name service repository : String}
  {svc : YamlMap}

theorem unpinnedImage_not_mem_ports :
    unpinnedImage service repository ∉ checkPorts name svc := by
  have hport : ∀ entry, unpinnedImage service repository ∉ checkPort name entry := by
    intro entry
    unfold checkPort
    split
    · simp
    · split
      · split <;> simp
      · simp
  unfold checkPorts
  split
  · simpa using fun entry _ => hport entry
  · simp

/-- Images are looked at by one rule: the others are about other things. -/
theorem mem_checkService_iff {f : Finding} (hrule : f.rule = "DC-W-001") :
    f ∈ checkService around lines name svc ↔
      f ∈ (checkImage name svc).map (·.finding (fieldLine lines name "image")) := by
  have hother : ∀ {ps : List ComposeProblem} {line : Nat},
      (∀ service repository, unpinnedImage service repository ∉ ps) →
        f ∉ ps.map (·.finding line) := by
    intro ps line hps hf
    obtain ⟨p, hp, rfl⟩ := List.mem_map.1 hf
    obtain ⟨service, repository, rfl⟩ := eq_unpinnedImage_of_rule hrule
    exact hps service repository hp
  unfold checkService
  simp only [List.mem_append]
  have hsource : ∀ s r, unpinnedImage s r ∉ checkImageOrBuild name svc := by
    intro s r
    unfold checkImageOrBuild
    split <;> simp
  have hcontext : ∀ s r, unpinnedImage s r ∉ checkBuildContext around name svc := by
    intro s r
    unfold checkBuildContext
    split
    · simp
    · dsimp only
      split <;> simp
  have hports : ∀ s r, unpinnedImage s r ∉ checkPorts name svc :=
    fun _ _ => unpinnedImage_not_mem_ports
  have hdepends : ∀ s r, unpinnedImage s r ∉ checkDependsOn around name svc := by
    simp [checkDependsOn]
  have hvolumes : ∀ s r, unpinnedImage s r ∉ checkVolumes around name svc := by
    intro s r
    unfold checkVolumes
    split <;> simp
  have hnetworks : ∀ s r, unpinnedImage s r ∉ checkNetworks around svc := by
    simp [checkNetworks]
  have henvironment : ∀ s r, unpinnedImage s r ∉ checkMixed name svc ++ checkSecrets name svc := by
    intro s r
    unfold checkMixed checkSecrets
    split
    · split <;> simp
    · simp
  have hrestart : ∀ s r, unpinnedImage s r ∉ checkRestart name svc := by
    intro s r
    unfold checkRestart
    split <;> simp
  simp only [hother hsource, hother hcontext, hother hports, hother hdepends, hother hvolumes,
    hother hnetworks, hother henvironment, hother hrestart, false_or, or_false]

/-- An image is said to be unpinned when it has no tag, an empty one, or `latest`. -/
theorem unpinnedImage_mem_checkImage_iff : unpinnedImage service repository ∈ checkImage name svc ↔
    service = name ∧ ∃ image, (svc.get? "image").bind Yaml.text? = some image ∧
      Text.has '@' image = false ∧ isUnpinned (splitTag image).2 = true ∧
        repository = (splitTag image).1 := by
  unfold checkImage
  cases (svc.get? "image").bind Yaml.text? with
  | none => simp
  | some image =>
    have hhealth : ∀ b : Bool, unpinnedImage service repository ∉
        if b then [noHealthcheck name] else [] := by
      intro b
      cases b <;> simp
    dsimp only
    rw [List.mem_append, or_iff_left (hhealth _)]
    cases hdigest : Text.has '@' image <;>
      cases hunpinned : isUnpinned (splitTag image).2 <;> simp [hdigest, hunpinned]

/-- **The images of services that are warned of** are those that are resolved to `latest`. -/
theorem warnsUnpinned_iff {content : String} {paths : List String}
    (h : RunsImage content name reference) (hplain : Plain reference) :
    WarnsUnpinned content paths name ↔ (ofReference reference).tag = latest := by
  obtain ⟨doc, services, svc, hdoc, hservices, hsvc, himage⟩ := h.read
  have hproper := Yaml.parse_proper hdoc
  have hkeys : (YamlMap.keys services).Nodup :=
    hproper.values _ ((YamlMap.get?_eq_some_iff hproper.keys).1 hservices) rfl
  have hmem := (YamlMap.get?_eq_some_iff hkeys).1 hsvc
  have hdeclared : declaredServices doc = some (.map services) := by
    have hsome : services.isEmpty = false := List.isEmpty_eq_false_iff_exists_mem.2 ⟨_, hmem⟩
    simp [declaredServices, hservices, Yaml.isSet, hsome]
  rw [tag_eq_latest_iff]
  unfold WarnsUnpinned check
  rw [hdoc]
  dsimp only [checkDocument]
  rw [hdeclared]
  dsimp only
  constructor
  · rintro ⟨f, hf, hrule, repository, hmessage⟩
    obtain ⟨⟨name', value⟩, hentry, hf⟩ := List.mem_flatMap.1 hf
    dsimp only at hf
    split at hf
    · next svc' =>
      rw [mem_checkService_iff hrule] at hf
      obtain ⟨p, hp, rfl⟩ := List.mem_map.1 hf
      obtain ⟨service, repository', rfl⟩ := eq_unpinnedImage_of_rule hrule
      obtain ⟨hname', image', himage', -, hunpinned, -⟩ := unpinnedImage_mem_checkImage_iff.1 hp
      -- The service that is warned of is the one with this name, as no other has it.
      have hservice : service = name :=
        message_unpinnedImage_inj (x := repository') (y := repository) hmessage
      have hsame := (YamlMap.get?_eq_some_iff hkeys).2 hentry
      rw [← hname', hservice, hsvc] at hsame
      cases hsame
      rw [himage] at himage'
      cases himage'
      exact hunpinned
    · cases hf
  · intro hunpinned
    have hp : unpinnedImage name (splitTag reference).1 ∈ checkImage name svc :=
      unpinnedImage_mem_checkImage_iff.2 ⟨rfl, reference, himage, hplain.noDigest, hunpinned, rfl⟩
    exact ⟨_, List.mem_flatMap.2 ⟨_, hmem, (mem_checkService_iff rfl).2 (List.mem_map_of_mem hp)⟩,
      rfl, (splitTag reference).1, rfl⟩

end Compose

/-! ## Both kinds of files -/

/-- **What an unpinned image is.** A plain reference is warned of as the image of a service if and
only if it is resolved to `latest`, and as a base image if and only if, in addition, no colon ends
it: an empty tag passes as a pinned version in a Dockerfile. -/
theorem warnsUnpinned_iff_latest (reference : String) (hplain : Plain reference) :
    (∀ content i, Dockerfile.StartsFrom content i reference →
      (Dockerfile.WarnsUnpinned content i ↔
        (ofReference reference).tag = latest ∧ reference.toList.getLast? ≠ some ':')) ∧
    ∀ content paths name, Compose.RunsImage content name reference →
      (Compose.WarnsUnpinned content paths name ↔ (ofReference reference).tag = latest) :=
  ⟨fun _ _ h => Dockerfile.warnsUnpinned_iff h hplain,
    fun _ _ _ h => Compose.warnsUnpinned_iff h hplain⟩

/-- The port of a registry pins nothing: an image behind it is warned of in both kinds of files. -/
theorem warnsUnpinned_registry :
    Plain "localhost:5000/app" ∧
      Dockerfile.WarnsUnpinned "FROM golang:1.22 AS build\nFROM localhost:5000/app\n"
        { line := 2, keyword := "FROM", rest := "localhost:5000/app" } ∧
      Compose.WarnsUnpinned "services:\n  web:\n    image: localhost:5000/app\n" [] "web" := by
  have hplain : Plain "localhost:5000/app" := by decide
  have hlatest : (ofReference "localhost:5000/app").tag = latest := by decide
  have hcontent :
      Instruction.ofContent "FROM golang:1.22 AS build\nFROM localhost:5000/app\n" =
        [{ line := 1, keyword := "FROM", rest := "golang:1.22 AS build" }] ++
          [{ line := 2, keyword := "FROM", rest := "localhost:5000/app" }] := by decide +kernel
  refine ⟨hplain, ((warnsUnpinned_iff_latest _ hplain).1 _ _ ?_).2 ⟨hlatest, by decide⟩,
    ((warnsUnpinned_iff_latest _ hplain).2 _ _ _ ?_).2 hlatest⟩
  · exact Dockerfile.startsFrom_of_rest hplain rfl rfl hcontent (by decide +kernel)
  · exact ⟨_, _, _, Yaml.parse_of_outlineOf (by rfl), by rfl, by rfl, by rfl⟩

/-- An empty tag is resolved to `latest`, and is warned of in a stack file only. -/
theorem empty_tag_pinned :
    Plain "nginx:" ∧ (ofReference "nginx:").tag = latest ∧
      Dockerfile.StartsFrom "FROM nginx:\n" { line := 1, keyword := "FROM", rest := "nginx:" }
        "nginx:" ∧
      ¬ Dockerfile.WarnsUnpinned "FROM nginx:\n"
        { line := 1, keyword := "FROM", rest := "nginx:" } ∧
      Compose.RunsImage "services:\n  web:\n    image: nginx:\n" "web" "nginx:" ∧
      Compose.WarnsUnpinned "services:\n  web:\n    image: nginx:\n" [] "web" := by
  have hplain : Plain "nginx:" := by decide
  have hcontent : Instruction.ofContent "FROM nginx:\n" =
      [] ++ [{ line := 1, keyword := "FROM", rest := "nginx:" }] := by decide +kernel
  have hnone : Dockerfile.check "FROM nginx:\n" = [] := by decide +kernel
  refine ⟨hplain, by decide,
    Dockerfile.startsFrom_of_rest hplain rfl rfl hcontent (by decide +kernel), ?_,
    ⟨_, _, _, Yaml.parse_of_outlineOf (by rfl), by rfl, by rfl, by rfl⟩,
    (ComposeProblem.unpinnedImage "web" "nginx").finding 3, by decide +kernel, rfl, "nginx",
    rfl⟩
  rintro ⟨f, hf, -⟩
  rw [hnone] at hf
  cases hf

end DockerSim
