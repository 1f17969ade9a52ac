import DockerSim.Proofs.Links.Basic
import DockerSim.Proofs.Stack.Tries

/-!
# Containers that are made

A service gets a new container when no active one is tracked for it and one is tracked after its
turn (`Made`). The container then has the ports, the mounts and the networks of its service
(`Made.equipped`), and it stays: as long as ids are left, the containers that are new in the end are
the ones that were made (`bringUpAll_new_iff`).
-/

namespace DockerSim

open Command Stack

namespace Stack

/-! ## Services that get a container -/

/-- A service of the order gets a new container when it is its turn. -/
inductive Made (detached : Bool) (services : List Service) (images : Table Image) :
    List String → Progress → Supply → String → Container → Prop
  | now {name : String} {order : List String} {p q : Progress} {u v : Supply} {c : Container}
      (raised : bringUpAll detached services images [name] p u = (q, v))
      (absent : p.tracked? name = none) (tracked : q.tracked? name = some c) :
    Made detached services images (name :: order) p u name c
  | later {other name : String} {order : List String} {p q : Progress} {u v : Supply}
      {c : Container} (raised : bringUpAll detached services images [other] p u = (q, v))
      (made : Made detached services images order q v name c) :
    Made detached services images (other :: order) p u name c

/-- The container has what its service asks for, as far as it can be had. -/
structure Equipped (svc : Service) (volumes : Table Volume) (networks : Table Network)
    (c : Container) : Prop where
  name : c.name = svc.name
  ports : c.ports = svc.ports.filterMap PortMapping.ofText?
  mounts : c.mounts = svc.volumes.filterMap (mountOf volumes)
  joined : ∀ key ∈ joinedNetworks svc, ∀ n, networks.get? key = some n →
    n.id ∈ c.networkIds ∧ c.id ∈ n.containerIds

end Stack

open Stack.Progress (Ready tracked?_eq_some)

variable {p q t : Stack.Progress} {svc : Service} {image : Image} {detached : Bool} {u v w : Supply}
  {limit : Nat} {services : List Service} {images : Table Image} {order : List String}
  {name id : String} {c : Container}

/-! ## One service -/

/-- The ports that are claimed are the mappings among the texts, in their order. -/
theorem claimServicePorts_ok {bound : Table String} : ∀ {specs : List String}
    {claimed ports : List PortMapping}, claimServicePorts bound claimed specs = .ok ports →
      ports = claimed ++ specs.filterMap PortMapping.ofText?
  | [], claimed, ports, h => by
    cases h
    exact (List.append_nil _).symm
  | spec :: specs, claimed, ports, h => by
    unfold claimServicePorts at h
    cases hm : PortMapping.ofText? spec with
    | none =>
      simp only [hm] at h
      rw [claimServicePorts_ok h, List.filterMap_cons_none hm]
    | some m =>
      simp only [hm] at h
      split at h
      · cases h
      · rw [claimServicePorts_ok h, List.filterMap_cons_some hm, List.append_assoc,
          List.singleton_append]

/-- The container that is made for a service, and what becomes of the tables. -/
theorem create_made {ports : List PortMapping}
    (h : create detached p svc image ports u = (q, v)) :
    ∃ c, q.tracked? svc.name = some c ∧ c.name = svc.name ∧ c.ports = ports ∧
      c.mounts = svc.volumes.filterMap (mountOf p.volumes) ∧ Supply.Hands u c.id v ∧
      q.containers = p.containers.insert c.id c ∧ q.volumes = p.volumes ∧
      Attached c.id (joinedNetworks svc) p.networks q.networks c.networkIds := by
  obtain ⟨id, time, logs, started, event, u1, u2, u3, h1, h2, h3, told, rfl⟩ := create_draws h
  have le : u1 ≤ v := Supply.le_trans (Supply.now_advances h2)
    (Supply.le_trans (startupLogs_advances _ h3) told.le)
  refine ⟨serviceContainer p svc image ports id time logs, tracked?_eq_some.2 ⟨⟨id, ?_, ?_⟩, rfl⟩,
    rfl, rfl, rfl, (Supply.hands_of_containerId h1).mono (Supply.le_refl _) le, rfl, rfl,
    attached_serviceContainer p svc image ports id time logs⟩
  · exact Table.get?_insert_self _ _ _
  · exact Table.get?_insert_self _ _ _

namespace BringsUp

/-- A container that is made for a service has what the service asks for. -/
theorem equipped (h : BringsUp detached p svc image u q v) (absent : p.tracked? svc.name = none)
    (tracked : q.tracked? svc.name = some c) : Equipped svc q.volumes q.networks c := by
  cases h with
  | already found _ => rw [absent] at found; cases found
  | held found _ _ => rw [absent] at found; cases found
  | restarted found _ _ _ => rw [absent] at found; cases found
  | nameTaken _ _ => exact absurd (absent.symm.trans tracked) (Option.some_ne_none c).symm
  | portTaken _ _ _ => exact absurd (absent.symm.trans tracked) (Option.some_ne_none c).symm
  | created _ _ claimed made =>
    obtain ⟨c', htracked, hname, hports, hmounts, -, -, hvolumes, hattached⟩ := create_made made
    obtain rfl : c' = c := Option.some.inj (htracked.symm.trans tracked)
    refine ⟨hname, ?_, by rw [hmounts, hvolumes], fun key hkey n hn => ?_⟩
    · rw [hports, claimServicePorts_ok claimed, List.nil_append]
    · obtain ⟨n', hn', hid, hmember⟩ := hattached.of_some hn
      exact ⟨hattached.mem_ids.2 ⟨key, hkey, n', hn', hid.symm⟩,
        (hmember c'.id).2 (.inr ⟨hkey, rfl⟩)⟩

/-- A container is new exactly if the service had none and has it now. -/
theorem new_iff (h : BringsUp detached p svc image u q v) (hp : p.Ready limit u)
    (hv : v.drawn ≤ limit) :
    (q.containers.get? id = some c ∧ p.containers.get? id = none) ↔
      p.tracked? svc.name = none ∧ q.tracked? svc.name = some c ∧ c.id = id := by
  have same : q.containers = p.containers → q.tracked? svc.name = p.tracked? svc.name →
      ((q.containers.get? id = some c ∧ p.containers.get? id = none) ↔
        p.tracked? svc.name = none ∧ q.tracked? svc.name = some c ∧ c.id = id) := by
    intro hcontainers htracked
    rw [hcontainers, htracked]
    constructor
    · rintro ⟨hsome, hnone⟩
      rw [hnone] at hsome
      cases hsome
    · rintro ⟨hnone, hsome, -⟩
      rw [hnone] at hsome
      cases hsome
  cases h with
  | @restarted d _ _ found idle unheld made =>
    obtain ⟨⟨key, hkey, hget⟩, -⟩ := tracked?_eq_some.1 found
    obtain rfl : d.id = key := hp.keyed hkey hget
    obtain ⟨time, logs, event, u1, -, -, rfl⟩ := restart_spec unheld made
    refine ⟨fun ⟨hsome, hnone⟩ => ?_, fun ⟨hnone, _⟩ => ?_⟩
    · replace hsome : (p.containers.insert d.id (d.started time logs)).get? id = some c := hsome
      rw [Table.get?_insert_of_ne _ _ (fun he => ?_), hnone] at hsome
      · cases hsome
      · rw [he, hget] at hnone
        cases hnone
    · rw [hnone] at found
      cases found
  | created absent _ _ made =>
    obtain ⟨d, htracked, -, -, -, hid, hcontainers, -, -⟩ := create_made made
    have hfree := hp.fresh hid hv
    rw [hcontainers, Table.get?_insert, htracked]
    constructor
    · rintro ⟨hsome, hnone⟩
      split at hsome
      · next he =>
        cases hsome
        exact ⟨absent, rfl, he.symm⟩
      · rw [hnone] at hsome
        cases hsome
    · rintro ⟨-, hd, rfl⟩
      cases hd
      exact ⟨if_pos rfl, hfree⟩
  | _ => exact same rfl rfl

/-- Networks are only joined, and the volumes are the same. -/
theorem joined (h : BringsUp detached p svc image u q v) :
    q.volumes = p.volumes ∧ Joined (fun _ => True) p.networks q.networks := by
  cases h with
  | restarted _ _ unheld made =>
    obtain ⟨time, logs, event, u1, -, -, rfl⟩ := restart_spec unheld made
    exact ⟨rfl, .refl _⟩
  | created _ _ _ made =>
    obtain ⟨c, started, event, u1, -, -, -, -, rfl⟩ := create_spec made
    exact ⟨rfl, (joined_foldl c.id (joinedNetworks svc) (p.networks, [])).mono fun _ _ => trivial⟩
  | _ => exact ⟨rfl, .refl _⟩

end BringsUp

/-! ## All services -/

/-- The first service of an order is tried, and then the others. -/
theorem bringUpAll_cons_iff :
    bringUpAll detached services images (name :: order) p u = (t, w) ↔
      ∃ q v, bringUpAll detached services images [name] p u = (q, v) ∧
        bringUpAll detached services images order q v = (t, w) := by
  rw [← List.singleton_append, bringUpAll, List.foldlM_append, Draw.bind_eq_iff]
  rfl

/-- One service is brought up, if the file has it and its image is there. -/
theorem bringUpAll_one (h : bringUpAll detached services images [name] p u = (q, v)) :
    serviceWithImage services images name = none ∧ q = p ∨
      ∃ svc image, serviceWithImage services images name = some (svc, image) ∧
        BringsUp detached p svc image u q v := by
  obtain ⟨q', v', hnil, hsome, hnone⟩ := bringUpAll_cons h
  obtain ⟨rfl, rfl⟩ := Draw.pure_eq_iff.1 hnil
  cases hs : serviceWithImage services images name with
  | none => exact .inl ⟨rfl, hnone hs⟩
  | some found => exact .inr ⟨found.1, found.2, rfl, bringUp_cases (hsome _ _ hs)⟩

theorem name_of_serviceWithImage (h : serviceWithImage services images name = some (svc, image)) :
    svc.name = name ∧ svc ∈ services := by
  unfold serviceWithImage at h
  obtain ⟨svc', hfind, h⟩ := Option.bind_eq_some_iff.1 h
  obtain ⟨image', -, h⟩ := Option.bind_eq_some_iff.1 h
  cases h
  exact ⟨by simpa using List.find?_some hfind, List.mem_of_find?_eq_some hfind⟩

theorem bringUpAll_joined (h : bringUpAll detached services images order p u = (q, v)) :
    q.volumes = p.volumes ∧ Joined (fun _ => True) p.networks q.networks := by
  refine bringUpAll_keeps
    (R := fun p _ q _ => q.volumes = p.volumes ∧ Joined (fun _ => True) p.networks q.networks)
    (fun _ _ => ⟨rfl, .refl _⟩) ?_ BringsUp.joined h
  rintro p q t u v w ⟨hvolumes, hjoined⟩ ⟨hvolumes', hjoined'⟩
  exact ⟨hvolumes'.trans hvolumes, hjoined.trans hjoined'⟩

namespace Stack

/-- A container goes on to have what its service asks for. -/
theorem Equipped.later (h : Equipped svc p.volumes p.networks c) (hvolumes : q.volumes = p.volumes)
    (hjoined : Joined (fun _ => True) p.networks q.networks) :
    Equipped svc q.volumes q.networks c := by
  refine ⟨h.name, h.ports, hvolumes ▸ h.mounts, fun key hkey n hn => ?_⟩
  cases hn' : p.networks.get? key with
  | none =>
    rw [hjoined.none hn'] at hn
    cases hn
  | some n' =>
    obtain ⟨ids, hids, -⟩ := hjoined.some hn'
    obtain rfl := Option.some.inj (hids.symm.trans hn)
    obtain ⟨hid, hmember⟩ := h.joined key hkey n' hn'
    exact ⟨hid, List.mem_append_left _ hmember⟩

/-- **A container that is made has what its service asks for**, also in the end. -/
theorem Made.equipped (h : Made detached services images order p u name c)
    (hrun : bringUpAll detached services images order p u = (t, w)) :
    ∃ svc image, serviceWithImage services images name = some (svc, image) ∧
      Equipped svc t.volumes t.networks c := by
  induction h with
  | now raised absent tracked =>
    obtain ⟨q, v, hone, hrest⟩ := bringUpAll_cons_iff.1 hrun
    obtain ⟨rfl, rfl⟩ := Prod.mk.inj (hone.symm.trans raised)
    rcases bringUpAll_one raised with ⟨-, rfl⟩ | ⟨svc, image, hsvc, hup⟩
    · rw [absent] at tracked
      cases tracked
    · obtain ⟨rfl, -⟩ := name_of_serviceWithImage hsvc
      obtain ⟨hvolumes, hjoined⟩ := bringUpAll_joined hrest
      exact ⟨svc, image, hsvc, (hup.equipped absent tracked).later hvolumes hjoined⟩
  | later raised _ ih =>
    obtain ⟨q, v, hone, hrest⟩ := bringUpAll_cons_iff.1 hrun
    obtain ⟨rfl, rfl⟩ := Prod.mk.inj (hone.symm.trans raised)
    exact ih hrest

/-- A new container runs, so that bringing up other services leaves it as it is. -/
theorem Progress.Adds.keeps_new {raised others : List String} (h : p.Adds raised q)
    (h' : q.Adds others t) (hnone : p.containers.get? id = none)
    (hsome : q.containers.get? id = some c) : t.containers.get? id = some c := by
  obtain ⟨running, -⟩ := h.newContainers hnone hsome
  rcases h'.containers hsome with hsame | ⟨-, idle, -⟩
  · exact hsame
  · rw [running] at idle
    cases idle

/-- **The containers that are new in the end** are the ones that were made. -/
theorem bringUpAll_new_iff : ∀ {order : List String} {p t : Progress} {u w : Supply},
    order.Nodup → (∀ name ∈ order, ∃ svc image,
      serviceWithImage services images name = some (svc, image) ∧ svc.name = name) →
    bringUpAll detached services images order p u = (t, w) → p.Ready limit u →
    limit ≤ u.drawn + idLimit → w.drawn ≤ limit → ∀ {id : String} {c : Container},
      (t.containers.get? id = some c ∧ p.containers.get? id = none) ↔
        c.id = id ∧ ∃ name, Made detached services images order p u name c
  | [], p, t, u, w, _, _, h, _, _, _, id, c => by
    obtain ⟨rfl, -⟩ := Draw.pure_eq_iff.1 h
    constructor
    · rintro ⟨hsome, hnone⟩
      rw [hnone] at hsome
      cases hsome
    · rintro ⟨-, name, hmade⟩
      cases hmade
  | name :: order, p, t, u, w, hnodup, found, h, hp, hl, hw, id, c => by
    -- the first service makes the container or a later one does, and what the first makes stays
    obtain ⟨-, hrest⟩ := List.nodup_cons.1 hnodup
    obtain ⟨⟨svc, image, hsvc, rfl⟩, hfound⟩ := List.forall_mem_cons.1 found
    obtain ⟨q, v, hone, hothers⟩ := bringUpAll_cons_iff.1 h
    have hv := Nat.le_trans (bringUpAll_le hothers).drawn hw
    have hup : BringsUp detached p svc image u q v := by
      rcases bringUpAll_one hone with ⟨hnone, -⟩ | ⟨svc', image', hsvc', hup⟩
      · rw [hsvc] at hnone
        cases hnone
      · cases hsvc.symm.trans hsvc'
        exact hup
    have hadds := (hup.tries hp hv).1.adds
    have hq := hup.ready hp hl hv
    have hl' := Nat.le_trans hl (Nat.add_le_add_right hup.le.drawn _)
    have hkeeps := (bringUpAll_tries hrest hfound hothers hq hl' hw).1.adds
    have ih : (t.containers.get? id = some c ∧ q.containers.get? id = none) ↔
        c.id = id ∧ ∃ other, Made detached services images order q v other c :=
      bringUpAll_new_iff hrest hfound hothers hq hl' hw
    constructor
    · rintro ⟨hsome, hnone⟩
      cases hq' : q.containers.get? id with
      | none =>
        obtain ⟨hid, other, hmade⟩ := ih.1 ⟨hsome, hq'⟩
        exact ⟨hid, other, .later hone hmade⟩
      | some d =>
        obtain ⟨absent, tracked, hid⟩ := (hup.new_iff hp hv).1 ⟨hq', hnone⟩
        have hstays := hadds.keeps_new hkeeps hnone hq'
        obtain rfl := Option.some.inj (hstays.symm.trans hsome)
        exact ⟨hid, svc.name, .now hone absent tracked⟩
    · rintro ⟨hid, other, hmade⟩
      cases hmade with
      | now raised absent tracked =>
        obtain ⟨rfl, rfl⟩ := Prod.mk.inj (hone.symm.trans raised)
        obtain ⟨hq', hnone⟩ := (hup.new_iff hp hv).2 ⟨absent, tracked, hid⟩
        exact ⟨hadds.keeps_new hkeeps hnone hq', hnone⟩
      | later raised made =>
        obtain ⟨rfl, rfl⟩ := Prod.mk.inj (hone.symm.trans raised)
        obtain ⟨hsome, hnone⟩ := ih.2 ⟨hid, other, made⟩
        exact ⟨hsome, hadds.absent hnone⟩

end Stack

end DockerSim
