import DockerSim.Compose.Check

/-!
# Findings of a service

Most rules about a service are about one of its keys: their findings are reported at that key
(`mem_checkService_of_key`), for a service of the file that has it (`foundIn_of_mem_check`,
`contains_of_mem`).
-/

namespace DockerSim.Compose

open ComposeProblem

/-- The rules that are about a key of a service, each with its key. -/
def ruleKeys : List (String × String) := [
  ("DC-E-005", "build"), ("DC-E-003", "ports"), ("DC-E-004", "ports"),
  ("DC-E-006", "depends_on"), ("DC-E-007", "volumes"), ("DC-E-008", "networks"),
  ("DC-W-001", "image"), ("DC-W-003", "image"),
  ("DC-W-004", "environment"), ("DC-W-005", "environment")]

/-- The key of a service that a rule is about. -/
def ruleKey? (rule : String) : Option String := ruleKeys.lookup rule

/-- What the document around its services says. -/
def Surroundings.ofDocument (doc services : YamlMap) (paths : List String) : Surroundings where
  services := YamlMap.keys services
  volumes := (doc.get? "volumes").bind Yaml.map?
  networks := (doc.get? "networks").bind Yaml.map?
  paths := paths.map Path.normalize

/-- The problems of a service that are about its keys. -/
def keyedProblems (around : Surroundings) (name : String) (svc : YamlMap) :
    List (String × List ComposeProblem) := [
  ("build", checkBuildContext around name svc),
  ("ports", checkPorts name svc),
  ("depends_on", checkDependsOn around name svc),
  ("volumes", checkVolumes around name svc),
  ("networks", checkNetworks around svc),
  ("image", checkImage name svc),
  ("environment", checkMixed name svc ++ checkSecrets name svc)]

variable {around : Surroundings} {lines : List ScanLine} {name key : String} {svc : YamlMap}
  {f : Finding} {p : ComposeProblem} {ps : List ComposeProblem}

theorem checkService_eq : checkService around lines name svc =
    (checkImageOrBuild name svc).map (·.finding (serviceLine lines name)) ++
      (keyedProblems around name svc).flatMap
        (fun e => e.2.map (·.finding (fieldLine lines name e.1))) ++
      (checkRestart name svc).map (·.finding (serviceLine lines name)) := by
  simp [checkService, keyedProblems]

/-! ## Rules and keys -/

/-- The problems are about a key, and the service has it. -/
def About (key : String) (svc : YamlMap) (ps : List ComposeProblem) : Prop :=
  ∀ p ∈ ps, ruleKey? p.rule = some key ∧ svc.contains key = true

theorem contains_of_get? {v : Yaml} (h : svc.get? key = some v) : svc.contains key = true := by
  unfold YamlMap.contains
  rw [h]
  rfl

/-- What is read from a key is read from nothing when the service does not have it. -/
theorem contains_of_ne_none (h : svc.get? key ≠ none) : svc.contains key = true := by
  obtain ⟨v, hv⟩ := Option.ne_none_iff_exists'.1 h
  exact contains_of_get? hv

theorem About.append {qs : List ComposeProblem} (h : About key svc ps) (h' : About key svc qs) :
    About key svc (ps ++ qs) := fun p hp => (List.mem_append.1 hp).elim (h p) (h' p)

theorem about_nil : About key svc [] := fun _ hp => absurd hp List.not_mem_nil

theorem about_buildContext : About "build" svc (checkBuildContext around name svc) := by
  unfold checkBuildContext
  split
  · exact about_nil
  · next path hpath =>
    dsimp only
    split
    · exact about_nil
    · intro p hp
      rw [List.mem_singleton.1 hp]
      refine ⟨rfl, contains_of_ne_none fun hnone => ?_⟩
      rw [buildContext, hnone] at hpath
      cases hpath

theorem about_ports : About "ports" svc (checkPorts name svc) := by
  unfold checkPorts
  split
  · next items hports =>
    intro p hp
    refine ⟨?_, contains_of_get? hports⟩
    obtain ⟨entry, -, hp⟩ := List.mem_flatMap.1 hp
    unfold checkPort at hp
    split at hp
    · rw [List.mem_singleton.1 hp]
      rfl
    · split at hp
      · split at hp
        · cases hp
        · rw [List.mem_singleton.1 hp]
          rfl
      · cases hp
  · exact about_nil

theorem about_dependsOn : About "depends_on" svc (checkDependsOn around name svc) := by
  intro p hp
  obtain ⟨dep, hdep, rfl⟩ := List.mem_map.1 hp
  have hdep := (List.mem_filter.1 hdep).1
  refine ⟨rfl, contains_of_ne_none fun hnone => ?_⟩
  rw [dependsOn, hnone] at hdep
  cases hdep

theorem about_volumes : About "volumes" svc (checkVolumes around name svc) := by
  unfold checkVolumes
  split
  · next items hvolumes =>
    intro p hp
    obtain ⟨volume, -, rfl⟩ := List.mem_map.1 hp
    exact ⟨rfl, contains_of_get? hvolumes⟩
  · exact about_nil

theorem about_networks : About "networks" svc (checkNetworks around svc) := by
  intro p hp
  obtain ⟨net, hnet, rfl⟩ := List.mem_map.1 hp
  have hnet := (List.mem_filter.1 hnet).1
  refine ⟨rfl, contains_of_ne_none fun hnone => ?_⟩
  rw [networks, hnone] at hnet
  cases hnet

theorem about_image : About "image" svc (checkImage name svc) := by
  unfold checkImage
  split
  · exact about_nil
  · next image himage =>
    have hkey : svc.contains "image" = true := by
      refine contains_of_ne_none fun hnone => ?_
      rw [hnone] at himage
      cases himage
    dsimp only
    refine About.append ?_ ?_
    · split
      · exact about_nil
      · exact fun p hp => by rw [List.mem_singleton.1 hp]; exact ⟨rfl, hkey⟩
    · split
      · exact fun p hp => by rw [List.mem_singleton.1 hp]; exact ⟨rfl, hkey⟩
      · exact about_nil

theorem about_environment :
    About "environment" svc (checkMixed name svc ++ checkSecrets name svc) := by
  refine About.append ?_ ?_
  · unfold checkMixed
    split
    · next items henv =>
      split
      · exact fun p hp => by rw [List.mem_singleton.1 hp]; exact ⟨rfl, contains_of_get? henv⟩
      · exact about_nil
    · exact about_nil
  · intro p hp
    obtain ⟨pair, hpair, rfl⟩ := List.mem_map.1 hp
    have hpair := (List.mem_filter.1 hpair).1
    refine ⟨rfl, contains_of_ne_none fun hnone => ?_⟩
    rw [environment, hnone] at hpair
    cases hpair

theorem about_of_mem (h : (key, ps) ∈ keyedProblems around name svc) : About key svc ps := by
  simp only [keyedProblems, List.mem_cons, List.not_mem_nil, or_false, Prod.mk.injEq] at h
  rcases h with ⟨rfl, rfl⟩ | ⟨rfl, rfl⟩ | ⟨rfl, rfl⟩ | ⟨rfl, rfl⟩ | ⟨rfl, rfl⟩ | ⟨rfl, rfl⟩ |
    ⟨rfl, rfl⟩
  · exact about_buildContext
  · exact about_ports
  · exact about_dependsOn
  · exact about_volumes
  · exact about_networks
  · exact about_image
  · exact about_environment

/-- **A rule that is about a key reports at the key.** -/
theorem mem_checkService_of_key (h : f ∈ checkService around lines name svc)
    (hkey : ruleKey? f.rule = some key) :
    ∃ ps p, (key, ps) ∈ keyedProblems around name svc ∧ p ∈ ps ∧
      f = p.finding (fieldLine lines name key) := by
  rw [checkService_eq, List.mem_append, List.mem_append] at h
  rcases h with (h | h) | h
  · obtain ⟨p, hp, rfl⟩ := List.mem_map.1 h
    unfold checkImageOrBuild at hp
    split at hp
    · cases hp
    · rw [List.mem_singleton.1 hp] at hkey
      cases hkey
  · obtain ⟨⟨key', ps⟩, hps, hf⟩ := List.mem_flatMap.1 h
    obtain ⟨p, hp, rfl⟩ := List.mem_map.1 hf
    have hsame : some key' = some key := (about_of_mem hps p hp).1.symm.trans hkey
    cases hsame
    exact ⟨ps, p, hps, hp, rfl⟩
  · obtain ⟨p, hp, rfl⟩ := List.mem_map.1 h
    unfold checkRestart at hp
    split at hp
    · cases hp
    · rw [List.mem_singleton.1 hp] at hkey
      cases hkey

/-- A rule reports only for a service that has the key that it is about. -/
theorem contains_of_mem (h : f ∈ checkService around lines name svc)
    (hkey : ruleKey? f.rule = some key) : svc.contains key = true := by
  obtain ⟨ps, p, hps, hp, -⟩ := mem_checkService_of_key h hkey
  exact (about_of_mem hps p hp).2

/-! ## Whole files -/

/-- A finding is about a service that a file declares. -/
def FoundIn (content : String) (paths : List String) (name : String) (svc : YamlMap)
    (f : Finding) : Prop :=
  ∃ doc services, Yaml.parse content = .ok doc ∧
    doc.get? "services" = some (.map services) ∧ (name, Yaml.map svc) ∈ services ∧
    f ∈ checkService (.ofDocument doc services paths) (scan content) name svc

/-- What is found by a rule that is about a key, is found in a service. -/
theorem foundIn_of_mem_check {content : String} {paths : List String}
    (h : f ∈ check content paths) (hkey : ruleKey? f.rule = some key) :
    ∃ name svc, FoundIn content paths name svc f := by
  unfold check at h
  split at h
  · rw [List.mem_singleton.1 h] at hkey
    cases hkey
  · next doc hdoc =>
    unfold checkDocument at h
    split at h
    · split at h
      · cases h
      · rw [List.mem_singleton.1 h] at hkey
        cases hkey
    · next services hservices =>
      obtain ⟨⟨name, value⟩, hmem, hf⟩ := List.mem_flatMap.1 h
      dsimp only at hf
      split at hf
      · next svc =>
        exact ⟨name, svc, doc, services, hdoc, (Option.filter_eq_some_iff.1 hservices).1, hmem, hf⟩
      · cases hf
    · cases h

end DockerSim.Compose
