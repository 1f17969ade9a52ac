import DockerSim.Proofs.Spellings
import DockerSim.Proofs.Stack.Again
import DockerSim.Proofs.Stack.Made

/-!
# The entries of a service and its container

A stack file that passes its check is brought up, and a container that is made for one of its
services has what the entries of the service ask for (`Stack.Fulfils`, `Stack.up_fulfils`): it joins
all the networks that the service names, and it mounts what the service mounts, but for a mount
without a source. Its ports are those that the entries spell. So an entry that the check lets pass
and that spells no mapping, for instance one with an IPv6 address in front, is lost
(`Stack.up_loses_entry`).
-/

namespace DockerSim

open Command Stack

/-! ## What the check lets pass -/

namespace Compose

variable {doc definition : YamlMap} {name : String} {around : Surroundings}

/-- The item stands in the sequence under a key. -/
def Lists (definition : YamlMap) (key : String) (item : Yaml) : Prop :=
  ∃ items, definition.get? key = some (.seq items) ∧ item ∈ items

theorem mem_texts {key spec : String} :
    spec ∈ texts definition key ↔ ∃ item, Lists definition key item ∧ item.text? = some spec := by
  unfold texts Lists
  split
  · next items hitems => simp [hitems]
  · next hnone =>
    refine ⟨fun h => (nomatch h), ?_⟩
    rintro ⟨item, ⟨items, hitems, -⟩, -⟩
    exact absurd hitems (hnone items)

/-- The entries of a service pass the check. -/
structure Passes (declaredVolumes declaredNetworks : Option YamlMap) (name : String)
    (definition : YamlMap) : Prop where
  ports : ∀ item, Lists definition "ports" item → checkPort name item = []
  volumes : ∀ spec source, Lists definition "volumes" (.str spec) →
    namedVolume spec = some source → declares declaredVolumes source = true
  networks : ∀ net ∈ networks definition, declares declaredNetworks net = true

/-- Problems that are reported as errors are no problems when there are no errors. -/
theorem eq_nil_of_errors {ps : List ComposeProblem} {line : Nat}
    (hsevere : ∀ p ∈ ps, p.severity = .error)
    (h : Finding.errors (ps.map (·.finding line)) = []) : ps = [] := by
  refine List.eq_nil_iff_forall_not_mem.2 fun p hp => ?_
  have hfinding := List.filter_eq_nil_iff.1 h _ (List.mem_map_of_mem hp)
  exact hfinding (decide_eq_true (hsevere p hp))

theorem severity_of_mem_checkPort {item : Yaml} {p : ComposeProblem} (h : p ∈ checkPort name item) :
    p.severity = .error := by
  unfold checkPort at h
  split at h
  · rw [List.mem_singleton.1 h]
    rfl
  · split at h
    · split at h
      · cases h
      · rw [List.mem_singleton.1 h]
        rfl
    · cases h

theorem exists_text_of_checkPort {item : Yaml} (h : checkPort name item = []) :
    ∃ spec, item.text? = some spec := by
  unfold checkPort at h
  split at h
  · cases h
  · next spec hspec => exact ⟨spec, hspec⟩

theorem passes_of_checkService {lines : List ScanLine}
    (h : Finding.errors (checkService around lines name definition) = []) :
    Passes around.volumes around.networks name definition := by
  unfold checkService Finding.errors at h
  simp only [List.filter_append, List.append_eq_nil_iff] at h
  -- of the rules, those for ports, volumes and networks
  obtain ⟨⟨⟨⟨⟨⟨⟨⟨-, -⟩, hports⟩, -⟩, hvolumes⟩, hnetworks⟩, -⟩, -⟩, -⟩ := h
  constructor
  · rintro item ⟨items, hitems, hmem⟩
    have hnil : checkPorts name definition = [] := by
      refine eq_nil_of_errors (fun p hp => ?_) hports
      unfold checkPorts at hp
      rw [hitems] at hp
      obtain ⟨item, -, hp⟩ := List.mem_flatMap.1 hp
      exact severity_of_mem_checkPort hp
    unfold checkPorts at hnil
    rw [hitems] at hnil
    exact List.flatMap_eq_nil_iff.1 hnil item hmem
  · rintro spec source ⟨items, hitems, hmem⟩ hsource
    have hnil : checkVolumes around name definition = [] := by
      refine eq_nil_of_errors (fun p hp => ?_) hvolumes
      unfold checkVolumes at hp
      rw [hitems] at hp
      obtain ⟨volume, -, rfl⟩ := List.mem_map.1 hp
      rfl
    unfold checkVolumes at hnil
    rw [hitems] at hnil
    have hnamed : source ∈ (items.filterMap Yaml.str?).filterMap namedVolume :=
      List.mem_filterMap.2 ⟨spec, List.mem_filterMap.2 ⟨_, hmem, rfl⟩, hsource⟩
    simpa using List.filter_eq_nil_iff.1 (List.map_eq_nil_iff.1 hnil) source hnamed
  · intro net hnet
    have hnil : checkNetworks around definition = [] := by
      refine eq_nil_of_errors (fun p hp => ?_) hnetworks
      obtain ⟨volume, -, rfl⟩ := List.mem_map.1 hp
      rfl
    simpa using List.filter_eq_nil_iff.1 (List.map_eq_nil_iff.1 hnil) net hnet

/-- **The services of a file without errors** pass the check. -/
theorem passes_of_check {content : String} {paths : List String} {services : YamlMap}
    (hparse : Yaml.parse content = .ok doc) (hservices : doc.get? "services" = some (.map services))
    (h : Finding.errors (check content paths) = []) (hmem : (name, .map definition) ∈ services) :
    Passes ((doc.get? "volumes").bind Yaml.map?) ((doc.get? "networks").bind Yaml.map?) name
      definition := by
  have hdeclared : declaredServices doc = some (.map services) := by
    unfold declaredServices
    rw [hservices]
    cases services with
    | nil => cases hmem
    | cons first rest => rfl
  unfold check at h
  simp only [hparse] at h
  unfold checkDocument Finding.errors at h
  simp only [hdeclared, List.filter_flatMap] at h
  exact passes_of_checkService (List.flatMap_eq_nil_iff.1 h _ hmem)

theorem mem_keys_of_declares {declared : Option YamlMap} (h : declares declared name = true) :
    name ∈ YamlMap.keys (declared.getD []) := by
  cases declared with
  | none => cases h
  | some m =>
    obtain ⟨entry, hmem, hname⟩ := List.lookup_isSome_iff.1 h
    exact List.mem_map.2 ⟨entry, hmem, (beq_iff_eq.1 hname).symm⟩

end Compose

/-! ## Mounts -/

/-- The mount puts what the source names at the target: a path of the host, or the data of a volume
of the stack. -/
def Mount.Puts (volumes : Table Volume) (source target : String) (m : Mount) : Prop :=
  m.mountPath = target ∧
    if MountSpec.isHostPath source then m.volumeId = source
    else ∃ volume, volumes.get? (stackKey source) = some volume ∧ volume.id = m.volumeId

theorem mountOf_eq_some_iff {volumes : Table Volume} {spec : String} {m : Mount} :
    mountOf volumes spec = some m ↔
      ∃ source target, MountSpec.Spells source target spec ∧ m.Puts volumes source target := by
  simp only [← MountSpec.split_eq_some_iff]
  unfold mountOf Mount.Puts
  cases hs : MountSpec.split spec with
  | none => simp
  | some parts =>
    obtain ⟨source, target⟩ := parts
    obtain ⟨volumeId, mountPath⟩ := m
    simp only [Option.some.injEq, Prod.mk.injEq, ↓existsAndEq, true_and]
    split
    · simp [and_comm, eq_comm]
    · simp only [Option.map_eq_some_iff, Mount.mk.injEq]
      constructor
      · rintro ⟨volume, hvolume, hid, rfl⟩
        exact ⟨rfl, volume, hvolume, hid⟩
      · rintro ⟨rfl, volume, hvolume, hid⟩
        exact ⟨volume, hvolume, hid, rfl⟩

namespace Stack

/-! ## Definitions and containers -/

/-- The stack file of a request defines a service by a mapping. -/
def Defines (r : Request) (name : String) (definition : YamlMap) : Prop :=
  ∃ file doc services, stackFile r = .ok file ∧ Yaml.parse file.content = .ok doc ∧
    doc.get? "services" = some (.map services) ∧ (name, .map definition) ∈ services

/-- A container is made for a service when the stack of a request is brought up. -/
def Makes (r : Request) (u : Supply) (name : String) (c : Container) : Prop :=
  ∃ plan p v, plan? r = some plan ∧ (Progress.start r.state).addDeclared plan.doc u = (p, v) ∧
    Made (r.line.anySwitch ["d", "detach"]) plan.services r.state.images plan.order p v name c

/-- A container has what the definition of its service asks for. -/
structure Fulfils (name : String) (definition : YamlMap) (s : State) (c : Container) : Prop where
  name : c.name = name
  /-- Every entry for a port has a text. -/
  entries : ∀ item, Compose.Lists definition "ports" item → ∃ spec, item.text? = some spec
  /-- The ports are the mappings that the entries spell. -/
  ports : ∀ m, m ∈ c.ports ↔ ∃ item spec, Compose.Lists definition "ports" item ∧
    item.text? = some spec ∧ m.Spells spec
  /-- The mounts are those that the texts spell. -/
  mounts : ∀ m, m ∈ c.mounts ↔ ∃ item spec source target,
    Compose.Lists definition "volumes" item ∧ item.text? = some spec ∧
    MountSpec.Spells source target spec ∧ m.Puts s.volumes source target
  /-- A text with a colon is mounted, if it has a source or the volume without a name exists. -/
  volumes : ∀ spec, Compose.Lists definition "volumes" (.str spec) → ':' ∈ spec.toList →
    ∃ source target, MountSpec.Spells source target spec ∧
      ((∃ m ∈ c.mounts, m.Puts s.volumes source target) ↔
        source ≠ "" ∨ s.volumes.contains (stackKey "") = true)
  /-- Every network that is named is there, and the container is one of its members. -/
  networks : ∀ net ∈ Compose.networks definition, ∃ n, s.networks.get? (stackKey net) = some n ∧
    n.id ∈ c.networkIds ∧ c.id ∈ n.containerIds

variable {r : Request} {plan : Plan} {u v : Supply} {o : Outcome} {name : String}
  {definition doc : YamlMap} {s : State} {c : Container}

/-- The named source of a mount is declared. -/
theorem exists_puts {spec source target : String} (hpasses : Compose.Passes
      ((doc.get? "volumes").bind Yaml.map?) ((doc.get? "networks").bind Yaml.map?) name definition)
    (hvolumes : ∀ volume ∈ declaredVolumes doc, s.volumes.contains (stackKey volume) = true)
    (hlists : Compose.Lists definition "volumes" (.str spec))
    (hspells : MountSpec.Spells source target spec) :
    (∃ m : Mount, m.Puts s.volumes source target) ↔
      source ≠ "" ∨ s.volumes.contains (stackKey "") = true := by
  have hnamed : MountSpec.isHostPath source = false → source ≠ "" →
      s.volumes.contains (stackKey source) = true := by
    intro hpath hne
    refine hvolumes source (Compose.mem_keys_of_declares (hpasses.volumes spec source hlists ?_))
    simp [Compose.namedVolume, MountSpec.split_eq_some_iff.2 hspells, hpath, hne]
  unfold Mount.Puts
  cases hpath : MountSpec.isHostPath source with
  | true =>
    refine iff_of_true ⟨⟨source, target⟩, rfl, rfl⟩ (.inl ?_)
    rintro rfl
    cases hpath
  | false =>
    have hfound : (∃ m : Mount, m.mountPath = target ∧ ∃ volume,
        s.volumes.get? (stackKey source) = some volume ∧ volume.id = m.volumeId) ↔
        s.volumes.contains (stackKey source) = true := by
      rw [Table.contains_iff]
      constructor
      · rintro ⟨m, -, volume, hvolume, -⟩
        exact ⟨volume, hvolume⟩
      · rintro ⟨volume, hvolume⟩
        exact ⟨⟨volume.id, target⟩, rfl, volume, hvolume, rfl⟩
    simp only [Bool.false_eq_true, if_false, hfound]
    by_cases hsource : source = ""
    · simp [hsource]
    · exact iff_of_true (hnamed hpath hsource) (.inl hsource)

/-- **A container that has what a checked service asks for** has what its definition asks for. -/
theorem Equipped.fulfils (h : Equipped (.ofMap name definition) s.volumes s.networks c)
    (hpasses : Compose.Passes ((doc.get? "volumes").bind Yaml.map?)
      ((doc.get? "networks").bind Yaml.map?) name definition)
    (hvolumes : ∀ volume ∈ declaredVolumes doc, s.volumes.contains (stackKey volume) = true)
    (hnetworks : ∀ d ∈ declaredNetworks doc, s.networks.contains (stackKey d.1) = true) :
    Fulfils name definition s c := by
  refine ⟨h.name, fun item hitem => Compose.exists_text_of_checkPort (hpasses.ports item hitem),
    fun m => ?ports, fun m => ?mounts, fun spec hlists hcolon => ?volumes, fun net hnet => ?nets⟩
  case ports =>
    rw [h.ports, List.mem_filterMap]
    constructor
    · rintro ⟨spec, hspec, hm⟩
      obtain ⟨item, hlists, ht⟩ := Compose.mem_texts.1 hspec
      exact ⟨item, spec, hlists, ht,
        (PortMapping.ofText?_eq_some_iff ht (hpasses.ports item hlists)).1 hm⟩
    · rintro ⟨item, spec, hlists, ht, hm⟩
      exact ⟨spec, Compose.mem_texts.2 ⟨item, hlists, ht⟩, hm.ofText?_eq⟩
  case mounts =>
    rw [h.mounts, List.mem_filterMap]
    constructor
    · rintro ⟨spec, hspec, hm⟩
      obtain ⟨item, hlists, ht⟩ := Compose.mem_texts.1 hspec
      obtain ⟨source, target, hspells, hputs⟩ := mountOf_eq_some_iff.1 hm
      exact ⟨item, spec, source, target, hlists, ht, hspells, hputs⟩
    · rintro ⟨item, spec, source, target, hlists, ht, hspells, hputs⟩
      exact ⟨spec, Compose.mem_texts.2 ⟨item, hlists, ht⟩,
        mountOf_eq_some_iff.2 ⟨source, target, hspells, hputs⟩⟩
  case volumes =>
    obtain ⟨source, target, hspells⟩ := MountSpec.exists_spells hcolon
    refine ⟨source, target, hspells, ?_⟩
    rw [← exists_puts hpasses hvolumes hlists hspells]
    constructor
    · rintro ⟨m, -, hputs⟩
      exact ⟨m, hputs⟩
    · rintro ⟨m, hputs⟩
      refine ⟨m, ?_, hputs⟩
      rw [h.mounts]
      exact List.mem_filterMap.2 ⟨spec, Compose.mem_texts.2 ⟨_, hlists, rfl⟩,
        mountOf_eq_some_iff.2 ⟨source, target, hspells, hputs⟩⟩
  case nets =>
    have hdeclared : ∃ d ∈ declaredNetworks doc, d.1 = net := by
      obtain ⟨entry, hentry, rfl⟩ :=
        List.mem_map.1 (Compose.mem_keys_of_declares (hpasses.networks net hnet))
      exact ⟨_, List.mem_cons_of_mem _ (List.mem_map_of_mem hentry), rfl⟩
    obtain ⟨d, hd, rfl⟩ := hdeclared
    obtain ⟨n, hn⟩ := Table.contains_iff.1 (hnetworks d hd)
    have hkey : stackKey d.1 ∈ joinedNetworks (.ofMap name definition) := by
      unfold joinedNetworks
      rw [if_neg (fun hnone => ?_)]
      · exact List.mem_map_of_mem hnet
      · have hnil : Compose.networks definition = [] := List.isEmpty_iff.1 hnone
        rw [hnil] at hnet
        cases hnet
    exact ⟨n, hn, h.joined _ hkey n hn⟩

/-! ## The stack file of a plan -/

/-- The services of a file are what its mappings define. -/
theorem exists_definition {svc : Service} (h : svc ∈ Service.ofDocument doc) :
    ∃ services definition, doc.get? "services" = some (.map services) ∧
      (svc.name, .map definition) ∈ services ∧ svc = .ofMap svc.name definition := by
  unfold Service.ofDocument at h
  split at h
  · next services hservices =>
    obtain ⟨⟨name, value⟩, hmem, hvalue⟩ := List.mem_filterMap.1 h
    obtain ⟨definition, hmap, rfl⟩ := Option.map_eq_some_iff.1 hvalue
    cases value <;> cases hmap
    exact ⟨services, definition, hservices, hmem, rfl⟩
  · cases h

/-- The file of a plan has no errors. -/
theorem file_of_plan? (h : plan? r = some plan) :
    ∃ file, stackFile r = .ok file ∧ Yaml.parse file.content = .ok plan.doc ∧
      Finding.errors (Compose.check file.content ((r.files.map Workspace.paths).getD [])) = [] := by
  unfold plan? at h
  split at h
  · cases h
  · next file hfile =>
    dsimp only at h
    split at h
    · next hpass =>
      simp only [Bool.and_eq_true, List.isEmpty_iff] at hpass
      obtain ⟨order, -, rfl⟩ := Option.map_eq_some_iff.1 h
      refine ⟨file, hfile, ?_, hpass.1.1⟩
      cases hdoc : Yaml.parse file.content with
      | error e =>
        have herrors := hpass.1.1
        unfold Compose.check at herrors
        rw [hdoc] at herrors
        cases herrors
      | ok doc => rfl
    · cases h

/-- Every service of a plan is defined by a mapping whose entries pass the check. -/
theorem defines_of_plan? (h : plan? r = some plan) {svc : Service} (hsvc : svc ∈ plan.services) :
    ∃ definition, Defines r svc.name definition ∧ svc = .ofMap svc.name definition ∧
      Compose.Passes ((plan.doc.get? "volumes").bind Yaml.map?)
        ((plan.doc.get? "networks").bind Yaml.map?) svc.name definition := by
  obtain ⟨file, hfile, hparse, herrors⟩ := file_of_plan? h
  obtain ⟨services, definition, hservices, hmem, heq⟩ := exists_definition hsvc
  exact ⟨definition, ⟨file, plan.doc, services, hfile, hparse, hservices, hmem⟩, heq,
    Compose.passes_of_check hparse hservices herrors hmem⟩

/-! ## The outcome -/

/-- **A container that is made fulfils the definition of its service** in the state that is left. -/
theorem Makes.fulfils (h : Makes r u name c) (hup : up r u = (o, v)) :
    ∃ definition, Defines r name definition ∧
      Fulfils name definition (r.state.apply o.delta) c := by
  obtain ⟨plan, p, w, hplan, hdeclared, hmade⟩ := h
  rw [up_eq_carryOut hplan] at hup
  obtain ⟨p', w', q, hp, hq, rfl⟩ := plan.carryOut_spec hup
  obtain ⟨rfl, rfl⟩ := Prod.mk.inj (hdeclared.symm.trans hp)
  obtain ⟨svc, image, hsvc, hequipped⟩ := hmade.equipped hq
  obtain ⟨rfl, hmem⟩ := name_of_serviceWithImage hsvc
  obtain ⟨definition, hdefines, heq, hpasses⟩ := defines_of_plan? hplan hmem
  obtain ⟨hvolumes, hjoined⟩ := bringUpAll_joined hq
  have hhas := Progress.addDeclared_has hp
  refine ⟨definition, hdefines, ?_⟩
  rw [apply_upOutcome]
  have hnetworks' : ∀ d ∈ declaredNetworks plan.doc, q.networks.contains (stackKey d.1) = true :=
    fun d hd => hjoined.contains (hhas.networks d hd)
  have hvolumes' : ∀ volume ∈ declaredVolumes plan.doc,
      q.volumes.contains (stackKey volume) = true := by
    rw [hvolumes]
    exact hhas.volumes
  exact Equipped.fulfils (heq ▸ hequipped) hpasses hvolumes' hnetworks'

/-- **The containers that are new** are the ones that were made. -/
theorem up_new_iff (hup : up r u = (o, v)) (hkept : r.state.TrackedByIds) (hs : r.state.Spares u v)
    {id : String} (hnew : r.state.containers.get? id = none) :
    (r.state.apply o.delta).containers.get? id = some c ↔ c.id = id ∧ ∃ name, Makes r u name c := by
  cases hplan : plan? r with
  | none =>
    obtain ⟨-, hdelta, -⟩ := up_stops hplan hup
    have hsame : r.state.apply o.delta = r.state := by
      rw [hdelta]
      rfl
    rw [hsame, hnew]
    refine iff_of_false (fun hsome => (nomatch hsome)) ?_
    rintro ⟨-, name, plan, p, w, hplan', -⟩
    rw [hplan] at hplan'
    cases hplan'
  | some plan =>
    have hchecked := checked_of_plan? hplan
    rw [up_eq_carryOut hplan] at hup
    obtain ⟨p, w, q, hp, hq, rfl⟩ := plan.carryOut_spec hup
    have hdeclares := Progress.addDeclared_declares hp
    obtain ⟨-, hplaced⟩ := Service.startOrder_spec hchecked.names hchecked.order
    have hnew' : p.containers.get? id = none := by
      rw [hdeclares.same.containers]
      exact hnew
    have hiff : (q.containers.get? id = some c ∧ p.containers.get? id = none) ↔ c.id = id ∧
        ∃ name, Made (r.line.anySwitch ["d", "detach"]) plan.services r.state.images plan.order p w
          name c :=
      bringUpAll_new_iff hplaced.nodup hchecked.found hq (hdeclares.ready hkept hs)
        (Nat.le_trans hs.few (Nat.add_le_add_right hdeclares.le.drawn _)) (Nat.le_refl _)
    rw [apply_upOutcome]
    refine (and_iff_left hnew').symm.trans (hiff.trans (and_congr_right fun _ => ?_))
    constructor
    · rintro ⟨name, hmade⟩
      exact ⟨name, plan, p, w, hplan, hp, hmade⟩
    · rintro ⟨name, plan', p', w', hplan', hp', hmade⟩
      obtain rfl := Option.some.inj (hplan.symm.trans hplan')
      obtain ⟨rfl, rfl⟩ := Prod.mk.inj (hp.symm.trans hp')
      exact ⟨name, hmade⟩

/-- **Entries of a checked file are kept** in the containers that are made for its services, as far
as they spell a mapping or a mount with a source. -/
theorem up_fulfils (hc : r.line.carried? = some "compose up") (h : evaluate r u = (o, v)) :
    (∀ name c, Makes r.normalized u name c → ∃ definition,
      Defines r.normalized name definition ∧
        Fulfils name definition (r.state.apply o.delta) c) ∧
    (r.state.TrackedByIds → r.state.Spares u v → ∀ id c, r.state.containers.get? id = none →
      ((r.state.apply o.delta).containers.get? id = some c ↔
        c.id = id ∧ ∃ name, Makes r.normalized u name c)) := by
  rw [evaluate_eq_up hc] at h
  exact ⟨fun name c hmade => hmade.fulfils (r := r.normalized) h,
    fun hkept hs id c hnew => up_new_iff (r := r.normalized) h hkept hs hnew⟩

/-- A stack of one service with two ports, a mount and a network, where nothing exists but an
image. -/
def listedUp : Request where
  state :=
    let image : Image := {
      id := "sha256:0", repository := "nginx", tag := "1.25", size := 1
      createdAt := ⟨1704067200, 0⟩, layers := [] }
    { State.empty with images := Table.empty.insert image.key image }
  line := CommandLine.parse "docker compose up -d"
  files := some (.ofFiles [("compose.yml",
    "services:\n  web:\n    image: nginx:1.25\n    ports:\n      - \"127.0.0.1:8080:80\"\n" ++
    "      - \"[::1]:9090:90\"\n    volumes:\n      - data:/var:ro\n    networks:\n" ++
    "      - front\nvolumes:\n  data:\nnetworks:\n  front:\n")])
  stackFiles := []

/-- What becomes of it, computed. -/
theorem listed_up :
    let e := evaluate listedUp .fresh
    (listedUp.line.carried? = some "compose up" ∧ e.2.drawn ≤ 9) ∧
    (rejectsFile listedUp.normalized = false ∧
      (plan? listedUp.normalized).map (fun plan => plan.services.map fun s => (s.name, s.ports)) =
        some [("web", ["127.0.0.1:8080:80", "[::1]:9090:90"])]) ∧
    ((listedUp.state.apply e.1.delta).containers.get? "000000000004").map
      (fun c => (c.id, c.ports, c.mounts.map Mount.mountPath, c.networkIds)) =
      some ("000000000004", [⟨8080, 80, .tcp⟩], ["/var"], ["000000000002"]) := by
  decide +kernel

/-- Its container is new, and has the port with an IPv4 address in front. -/
theorem up_fulfils_listed :
    let e := evaluate listedUp .fresh
    ∃ name definition c, Makes listedUp.normalized .fresh name c ∧
      Defines listedUp.normalized name definition ∧
      (listedUp.state.apply e.1.delta).containers.get? "000000000004" = some c ∧
      Fulfils name definition (listedUp.state.apply e.1.delta) c ∧
      c.ports = [⟨8080, 80, .tcp⟩] := by
  intro e
  obtain ⟨⟨hc, hdrawn⟩, -, hfound⟩ := listed_up
  have he : evaluate listedUp .fresh = e := rfl
  rw [he] at hdrawn hfound
  clear_value e
  obtain ⟨c, hget, hseen⟩ := Option.map_eq_some_iff.1 hfound
  have hports : c.ports = [⟨8080, 80, .tcp⟩] := (Prod.mk.inj (Prod.mk.inj hseen).2).1
  have hspares : listedUp.state.Spares .fresh e.2 :=
    ⟨fun _ _ _ => rfl, Nat.le_trans hdrawn (by decide)⟩
  have hkept : listedUp.state.TrackedByIds := fun _ _ _ hid => nomatch hid
  obtain ⟨hfulfils, hnew⟩ := up_fulfils hc he
  obtain ⟨-, name, hmade⟩ := (hnew hkept hspares "000000000004" c rfl).1 hget
  obtain ⟨definition, hdefines, hkeeps⟩ := hfulfils name c hmade
  exact ⟨name, definition, c, hmade, hdefines, hget, hkeeps, hports⟩

/-- The file has no errors, but the container that is made has no mapping for the second port. -/
theorem up_loses_entry :
    let e := evaluate listedUp .fresh
    (rejectsFile listedUp.normalized = false ∧
      (plan? listedUp.normalized).map (fun plan => plan.services.map fun s => (s.name, s.ports)) =
        some [("web", ["127.0.0.1:8080:80", "[::1]:9090:90"])]) ∧
    ∃ c, (listedUp.state.apply e.1.delta).containers.get? "000000000004" = some c ∧
      ∀ m ∈ c.ports, m.host ≠ 9090 ∧ m.container ≠ 90 := by
  intro e
  obtain ⟨-, hfile, hfound⟩ := listed_up
  have he : evaluate listedUp .fresh = e := rfl
  rw [he] at hfound
  clear_value e
  obtain ⟨c, hget, hseen⟩ := Option.map_eq_some_iff.1 hfound
  have hports : c.ports = [⟨8080, 80, .tcp⟩] := (Prod.mk.inj (Prod.mk.inj hseen).2).1
  refine ⟨hfile, c, hget, ?_⟩
  rw [hports]
  decide

end Stack

end DockerSim
