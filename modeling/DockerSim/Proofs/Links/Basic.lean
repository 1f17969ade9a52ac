import DockerSim.Proofs.History

/-!
# Links between the records

A container names the networks that it joined and the volumes that it mounts, and a network names
its members. What a line does to these names comes in three steps (`Fabric.Step`): containers go on
with the links they have, a network without members is made, and a container is made that joins some
networks. Such steps keep the two sides of a membership together and every volume that is mounted in
place (`Fabric.Sound`), because ids that are handed out name nothing yet. They also keep the
networks in place that containers name (`Fabric.Anchored`).

Networks are lost in one more step, which keeps the two sides together as well (`Sound.forget`), but
leaves names behind for which there is no network any more.
-/

namespace DockerSim

open Command Stack

/-! ## Ids that were handed out -/

namespace Supply

/-- The id was handed out before. -/
def Issued (u : Supply) (id : String) : Prop := ∃ n ≤ u.drawn, id = hexText 12 n

variable {u v : Supply} {id : String}

theorem Issued.mono (h : u.Issued id) (hle : u ≤ v) : v.Issued id := by
  obtain ⟨n, hn, rfl⟩ := h
  exact ⟨n, Nat.le_trans hn hle.drawn, rfl⟩

theorem Hands.issued (h : Hands u id v) : v.Issued id := by
  obtain ⟨n, -, hn, rfl⟩ := h
  exact ⟨n, hn, rfl⟩

/-- An id that is handed out was not handed out before, as long as there are enough of them. -/
theorem Hands.not_issued (h : Hands u id v) (hv : v.drawn < idLimit) : ¬u.Issued id := by
  rintro ⟨m, hm, he⟩
  obtain ⟨n, hn, hnv, rfl⟩ := h
  refine hexText_ne (Nat.lt_of_le_of_lt hm hn) ?_ he.symm
  unfold idLimit at hv
  omega

theorem hands_of_hex {u v : Supply} {id : String} (h : hex 12 u = (id, v)) : Hands u id v :=
  hands_of_containerId h

end Supply

/-! ## Containers and mounts -/

/-- The second record is a later one of the same container, with the links of the first. -/
structure Container.Carries (c d : Container) : Prop where
  id : d.id = c.id
  networkIds : d.networkIds = c.networkIds
  mounts : d.mounts = c.mounts
  logs : c.logs <+: d.logs
  active : d.isActive = true → c.isActive = true

theorem Container.Carries.refl (c : Container) : c.Carries c :=
  ⟨rfl, rfl, rfl, List.prefix_refl _, fun h => h⟩

theorem Container.Continues.carries {c d : Container} (h : c.Continues d) : c.Carries d := by
  refine ⟨h.id, h.networkIds, h.mounts, h.logs, fun hd => ?_⟩
  by_contra hc
  have hremoved : c.status = .removed := by simpa [Container.isActive] using hc
  rw [h.final hremoved] at hd
  exact hc hd

/-- A mount is of a path of the host or of a volume that exists. -/
def Mount.Backed (volumes : Table Volume) (m : Mount) : Prop :=
  MountSpec.isHostPath m.volumeId = true ∨
    ∃ key volume, volumes.get? key = some volume ∧ volume.id = m.volumeId

theorem Mount.Backed.mono {volumes volumes' : Table Volume} {m : Mount} (h : m.Backed volumes)
    (hle : volumes.Within volumes') : m.Backed volumes' := by
  rcases h with hpath | ⟨key, volume, hvolume, hid⟩
  · exact .inl hpath
  · exact .inr ⟨key, volume, hle hvolume, hid⟩

/-! ## Joining networks -/

/-- A container joined the networks under some keys, as often as each occurs, and these have the
ids. -/
structure Attached (id : String) (keys : List String) (before after : Table Network)
    (ids : List String) : Prop where
  ids : ids = keys.filterMap fun key => (before.get? key).map Network.id
  networks : ∀ key, after.get? key = (before.get? key).map fun n =>
    { n with containerIds := n.containerIds ++ List.replicate (keys.count key) id }

namespace Attached

variable {id : String} {keys keys' ids ids' : List String} {a b c : Table Network}

theorem nil (id : String) (networks : Table Network) : Attached id [] networks networks [] := by
  refine ⟨rfl, fun key => ?_⟩
  cases networks.get? key <;> simp

/-- A container joins one network. -/
theorem insert {key : String} {n : Network} (h : a.get? key = some n) :
    Attached id [key] a (a.insert key { n with containerIds := n.containerIds ++ [id] })
      [n.id] := by
  refine ⟨by simp [h], fun k => ?_⟩
  rw [Table.get?_insert]
  by_cases hk : k = key
  · subst hk
    simp [h]
  · rw [if_neg hk, List.count_cons_of_ne (Ne.symm hk)]
    cases a.get? k <;> simp

/-- There is nothing to join under a key without a network. -/
theorem absent {key : String} (h : a.get? key = none) : Attached id [key] a a [] := by
  refine ⟨by simp [h], fun k => ?_⟩
  by_cases hk : k = key
  · subst hk
    simp [h]
  · rw [List.count_cons_of_ne (Ne.symm hk)]
    cases a.get? k <;> simp

/-- Some networks are joined, and then others. -/
theorem append (h : Attached id keys a b ids) (h' : Attached id keys' b c ids') :
    Attached id (keys ++ keys') a c (ids ++ ids') where
  ids := by
    have hsame : ∀ key, (b.get? key).map Network.id = (a.get? key).map Network.id := by
      intro key
      rw [h.networks, Option.map_map]
      rfl
    rw [List.filterMap_append, h.ids, h'.ids]
    simp only [hsame]
  networks key := by
    rw [h'.networks, h.networks, Option.map_map, List.count_append]
    simp [Function.comp_def, List.replicate_append_replicate]

/-- A network that was joined or not goes on with its id. -/
theorem of_some (h : Attached id keys a b ids) {key : String} {m : Network}
    (hm : b.get? key = some m) : ∃ n, a.get? key = some n ∧ m.id = n.id ∧
      ∀ i, i ∈ m.containerIds ↔ i ∈ n.containerIds ∨ key ∈ keys ∧ i = id := by
  rw [h.networks, Option.map_eq_some_iff] at hm
  obtain ⟨n, hn, rfl⟩ := hm
  refine ⟨n, hn, rfl, fun i => ?_⟩
  rw [List.mem_append, List.mem_replicate, ← Nat.pos_iff_ne_zero, List.count_pos_iff]

theorem mem_ids (h : Attached id keys a b ids) {i : String} :
    i ∈ ids ↔ ∃ key ∈ keys, ∃ n, a.get? key = some n ∧ n.id = i := by
  rw [h.ids]
  simp only [List.mem_filterMap, Option.map_eq_some_iff]

end Attached

theorem attached_joinOne (id : String) (joined : Table Network × List String) (key : String) :
    ∃ ids, (joinOne id joined key).2 = joined.2 ++ ids ∧
      Attached id [key] joined.1 (joinOne id joined key).1 ids := by
  unfold joinOne
  cases h : joined.1.get? key with
  | none => exact ⟨[], (List.append_nil _).symm, .absent h⟩
  | some n => exact ⟨[n.id], rfl, .insert h⟩

/-- **A container joins the networks of its service**, one after the other. -/
theorem attached_foldl (id : String) :
    ∀ (keys : List String) (joined : Table Network × List String),
      ∃ ids, (keys.foldl (joinOne id) joined).2 = joined.2 ++ ids ∧
        Attached id keys joined.1 (keys.foldl (joinOne id) joined).1 ids
  | [], joined => ⟨[], (List.append_nil _).symm, .nil id joined.1⟩
  | key :: keys, joined => by
    obtain ⟨ids, hids, hone⟩ := attached_joinOne id joined key
    obtain ⟨more, hmore, hrest⟩ := attached_foldl id keys (joinOne id joined key)
    exact ⟨ids ++ more, by rw [List.foldl_cons, hmore, hids, List.append_assoc],
      hone.append hrest⟩

/-- A container that is made for a service has joined its networks. -/
theorem attached_serviceContainer (p : Stack.Progress) (svc : Service) (image : Image)
    (ports : List PortMapping) (id : String) (time : Instant) (logs : List String) :
    Attached id (joinedNetworks svc) p.networks
      ((joinedNetworks svc).foldl (joinOne id) (p.networks, [])).1
      (serviceContainer p svc image ports id time logs).networkIds := by
  obtain ⟨ids, hids, hattached⟩ := attached_foldl id (joinedNetworks svc) (p.networks, [])
  rw [List.nil_append] at hids
  rwa [← hids] at hattached

/-- **A container joins the network that a flag asks for**, if it asks for one that is not
builtin. -/
theorem attached_chooseNetwork {networks : Table Network} {wanted : Option String}
    {ids : List String} (h : chooseNetwork networks wanted = .ok ids) (id : String) :
    ∃ keys, Attached id keys networks (ids.foldl (fun ns nid => joinNetwork ns nid id) networks)
      ids := by
  have none : ids = [] → ∃ keys, Attached id keys networks
      (ids.foldl (fun ns nid => joinNetwork ns nid id) networks) ids := by
    rintro rfl
    exact ⟨[], .nil id networks⟩
  unfold chooseNetwork at h
  cases wanted with
  | none => exact none (Except.ok.inj h).symm
  | some w =>
    simp only at h
    split at h
    · exact none (Except.ok.inj h).symm
    · split at h
      · next key n hfound =>
        obtain rfl := Except.ok.inj h
        -- the network that is joined is the first with the id of the one that was found
        have hsome : (networks.find? fun m => m.id = n.id).isSome = true := by
          unfold Table.find? at *
          rw [List.find?_isSome]
          exact ⟨(key, n), List.mem_of_find?_eq_some hfound, by simp⟩
        obtain ⟨⟨key', n'⟩, hfirst⟩ := Option.isSome_iff_exists.1 hsome
        have hid : n'.id = n.id := by simpa using List.find?_some hfirst
        have hget : networks.get? key' = some n' :=
          Table.get?_eq_some_iff.2 (List.mem_of_find?_eq_some hfirst)
        refine ⟨[key'], ?_⟩
        rw [List.foldl_cons, List.foldl_nil, joinNetwork, hfirst, ← hid]
        exact .insert hget
      · cases h

/-! ## The fabric -/

/-- The records that are linked, with the supply. -/
structure Fabric where
  containers : Table Container
  networks : Table Network
  volumes : Table Volume
  supply : Supply

/-- The fabric of a state. -/
def Fabric.of (s : State) (u : Supply) : Fabric :=
  { containers := s.containers, networks := s.networks, volumes := s.volumes, supply := u }

namespace Fabric

/-- What happens to the fabric at one go. -/
inductive Step : Fabric → Fabric → Prop
  /-- The containers go on with their links, and no volume is lost. -/
  | carry {x : Fabric} {containers : Table Container} {volumes : Table Volume} {v : Supply}
      (old : ∀ ⦃key d⦄, containers.get? key = some d →
        ∃ c, x.containers.get? key = some c ∧ c.Carries d)
      (kept : ∀ ⦃key⦄, x.containers.contains key = true → containers.contains key = true)
      (within : x.volumes.Within volumes) (le : x.supply ≤ v) :
      Step x { x with containers, volumes, supply := v }
  /-- A network is made, and nobody has joined it. -/
  | declare {x : Fabric} {key : String} {n : Network} {v : Supply}
      (free : x.networks.get? key = none) (id : Supply.Hands x.supply n.id v)
      (empty : n.containerIds = []) (le : x.supply ≤ v) :
      Step x { x with networks := x.networks.insert key n, supply := v }
  /-- A container is made, and it joins networks. -/
  | attach {x : Fabric} {c : Container} {keys : List String} {networks : Table Network}
      {v : Supply} (id : Supply.Hands x.supply c.id v)
      (attached : Attached c.id keys x.networks networks c.networkIds)
      (backed : ∀ m ∈ c.mounts, m.Backed x.volumes) (logs : c.logs ≠ []) (le : x.supply ≤ v) :
      Step x { x with containers := x.containers.insert c.id c, networks, supply := v }

/-- Some steps, one after the other. -/
abbrev Steps : Fabric → Fabric → Prop := Relation.ReflTransGen Step

/-- The links hold on both sides. All ids were handed out, and no two networks have the same. -/
structure Sound (x : Fabric) : Prop where
  keyed : ∀ ⦃key c⦄, x.containers.get? key = some c → c.id = key
  issued : ∀ ⦃key c⦄, x.containers.get? key = some c → x.supply.Issued key
  networks : ∀ ⦃key n⦄, x.networks.get? key = some n → x.supply.Issued n.id
  distinct : ∀ ⦃key key' n n'⦄, x.networks.get? key = some n → x.networks.get? key' = some n' →
    n.id = n'.id → key = key'
  joined : ∀ ⦃key c⦄, x.containers.get? key = some c → ∀ id ∈ c.networkIds, x.supply.Issued id
  members : ∀ ⦃key n⦄, x.networks.get? key = some n →
    ∀ id ∈ n.containerIds, x.containers.contains id = true
  /-- A network is named by its members. -/
  linked : ∀ ⦃key c key' n⦄, x.containers.get? key = some c → x.networks.get? key' = some n →
    (n.id ∈ c.networkIds ↔ c.id ∈ n.containerIds)
  backed : ∀ ⦃key c⦄, x.containers.get? key = some c → ∀ m ∈ c.mounts, m.Backed x.volumes
  logs : ∀ ⦃key c⦄, x.containers.get? key = some c → c.logs ≠ []

variable {x y z : Fabric}

theorem sound_empty (u : Supply) : (Fabric.of .empty u).Sound where
  keyed _ _ h := nomatch h
  issued _ _ h := nomatch h
  networks _ _ h := nomatch h
  distinct _ _ _ _ h := nomatch h
  joined _ _ h := nomatch h
  members _ _ h := nomatch h
  linked _ _ _ _ h := nomatch h
  backed _ _ h := nomatch h
  logs _ _ h := nomatch h

theorem Step.le (h : Step x y) : x.supply ≤ y.supply := by
  cases h with
  | carry _ _ _ le => exact le
  | declare _ _ _ le => exact le
  | attach _ _ _ _ le => exact le

/-! ### Both sides of a link -/

namespace Sound

/-- An id that is handed out now is not the id of a container. -/
theorem fresh (hx : x.Sound) {id : String} {v : Supply} (h : Supply.Hands x.supply id v)
    (hv : v.drawn < idLimit) : x.containers.get? id = none := by
  cases hc : x.containers.get? id with
  | none => rfl
  | some c => exact absurd (hx.issued hc) (h.not_issued hv)

theorem carry (hx : x.Sound) {containers : Table Container} {volumes : Table Volume} {v : Supply}
    (old : ∀ ⦃key d⦄, containers.get? key = some d →
      ∃ c, x.containers.get? key = some c ∧ c.Carries d)
    (kept : ∀ ⦃key⦄, x.containers.contains key = true → containers.contains key = true)
    (within : x.volumes.Within volumes) (le : x.supply ≤ v) :
    Sound { x with containers, volumes, supply := v } where
  keyed key d hd := by
    obtain ⟨c, hc, hcd⟩ := old hd
    exact hcd.id.trans (hx.keyed hc)
  issued key d hd := by
    obtain ⟨c, hc, -⟩ := old hd
    exact (hx.issued hc).mono le
  networks key n hn := (hx.networks hn).mono le
  distinct := hx.distinct
  joined key d hd id hid := by
    obtain ⟨c, hc, hcd⟩ := old hd
    exact (hx.joined hc id (hcd.networkIds ▸ hid)).mono le
  members key n hn id hid := kept (hx.members hn id hid)
  linked key d key' n hd hn := by
    obtain ⟨c, hc, hcd⟩ := old hd
    rw [hcd.networkIds, hcd.id]
    exact hx.linked hc hn
  backed key d hd m hm := by
    obtain ⟨c, hc, hcd⟩ := old hd
    exact (hx.backed hc m (hcd.mounts ▸ hm)).mono within
  logs key d hd hnil := by
    obtain ⟨c, hc, hcd⟩ := old hd
    have hprefix := hcd.logs
    rw [hnil] at hprefix
    exact hx.logs hc (List.prefix_nil.1 hprefix)

theorem declare (hx : x.Sound) {key : String} {n : Network} {v : Supply}
    (id : Supply.Hands x.supply n.id v) (empty : n.containerIds = []) (le : x.supply ≤ v)
    (hv : v.drawn < idLimit) :
    Sound { x with networks := x.networks.insert key n, supply := v } := by
  have hnew : ¬x.supply.Issued n.id := id.not_issued hv
  refine ⟨hx.keyed, fun _ _ hc => (hx.issued hc).mono le, ?_, ?_,
    fun _ _ hc i hi => (hx.joined hc i hi).mono le, ?_, ?_, hx.backed, hx.logs⟩
  · exact Table.forall_get?_insert id.issued fun _ _ hm => (hx.networks hm).mono le
  · intro k k' m m' hm hm' he
    rw [Table.get?_insert] at hm hm'
    split at hm <;> split at hm'
    · next hk hk' => rw [hk, hk']
    · cases hm
      exact absurd (he ▸ hx.networks hm') hnew
    · cases hm'
      exact absurd (he ▸ hx.networks hm) hnew
    · exact hx.distinct hm hm' he
  · refine Table.forall_get?_insert ?_ hx.members
    rw [empty]
    exact fun _ h => nomatch h
  · intro k c k' m hc hm
    rw [Table.get?_insert] at hm
    split at hm
    · cases hm
      rw [empty]
      exact ⟨fun h => absurd (hx.joined hc _ h) hnew, fun h => nomatch h⟩
    · exact hx.linked hc hm

theorem attach (hx : x.Sound) {c : Container} {keys : List String} {networks : Table Network}
    {v : Supply} (id : Supply.Hands x.supply c.id v)
    (attached : Attached c.id keys x.networks networks c.networkIds)
    (backed : ∀ m ∈ c.mounts, m.Backed x.volumes) (logs : c.logs ≠ []) (le : x.supply ≤ v)
    (hv : v.drawn < idLimit) :
    Sound { x with containers := x.containers.insert c.id c, networks, supply := v } := by
  have hfree := hx.fresh id hv
  refine ⟨?_, ?_, ?_, ?_, ?_, ?_, ?_, ?_, Table.forall_get?_insert logs hx.logs⟩
  · intro key d hd
    rw [Table.get?_insert] at hd
    split at hd
    · next hk =>
      cases hd
      exact hk.symm
    · exact hx.keyed hd
  · intro key d hd
    rw [Table.get?_insert] at hd
    split at hd
    · next hk => exact hk ▸ id.issued
    · exact (hx.issued hd).mono le
  · intro key m hm
    obtain ⟨n, hn, hid, -⟩ := attached.of_some hm
    exact hid ▸ (hx.networks hn).mono le
  · intro key key' m m' hm hm' he
    obtain ⟨n, hn, hid, -⟩ := attached.of_some hm
    obtain ⟨n', hn', hid', -⟩ := attached.of_some hm'
    exact hx.distinct hn hn' (hid.symm.trans (he.trans hid'))
  · refine Table.forall_get?_insert (fun i hi => ?_) fun _ _ hd i hi => (hx.joined hd i hi).mono le
    obtain ⟨key, -, n, hn, rfl⟩ := attached.mem_ids.1 hi
    exact (hx.networks hn).mono le
  · intro key m hm i hi
    obtain ⟨n, hn, -, hmembers⟩ := attached.of_some hm
    rcases (hmembers i).1 hi with hold | ⟨-, rfl⟩
    · exact contains_insert_of_contains (hx.members hn i hold)
    · exact Table.contains_iff.2 ⟨c, Table.get?_insert_self _ _ _⟩
  · intro key d key' m hd hm
    obtain ⟨n, hn, hid, hmembers⟩ := attached.of_some hm
    rw [hid, hmembers]
    rw [Table.get?_insert] at hd
    split at hd
    · -- the new container is a member where it joined, and was none before
      cases hd
      rw [attached.mem_ids]
      constructor
      · rintro ⟨k, hk, n', hn', he⟩
        exact .inr ⟨hx.distinct hn' hn he ▸ hk, rfl⟩
      · rintro (hmem | ⟨hk, -⟩)
        · obtain ⟨e, he⟩ := Table.contains_iff.1 (hx.members hn _ hmem)
          rw [hfree] at he
          cases he
        · exact ⟨key', hk, n, hn, rfl⟩
    · next hk =>
      rw [hx.linked hd hn]
      refine ⟨.inl, fun h => h.resolve_right fun hnew => hk ?_⟩
      exact (hx.keyed hd).symm.trans hnew.2
  · exact Table.forall_get?_insert backed hx.backed

/-- Networks are lost, and the links to the others hold on both sides. -/
theorem forget (hx : x.Sound) {networks : Table Network} (h : networks.Within x.networks) :
    Sound { x with networks } where
  keyed := hx.keyed
  issued := hx.issued
  networks _ _ hn := hx.networks (h hn)
  distinct _ _ _ _ hn hn' := hx.distinct (h hn) (h hn')
  joined := hx.joined
  members _ _ hn := hx.members (h hn)
  linked _ _ _ _ hc hn := hx.linked hc (h hn)
  backed := hx.backed
  logs := hx.logs

end Sound

/-- **A step keeps both sides of every link together.** -/
theorem Step.sound (h : Step x y) (hx : x.Sound) (hy : y.supply.drawn < idLimit) : y.Sound := by
  cases h with
  | carry old kept within le => exact hx.carry old kept within le
  | declare _ id empty le => exact hx.declare id empty le hy
  | attach id attached backed logs le => exact hx.attach id attached backed logs le hy

theorem Steps.sound (h : Steps x y) (hx : x.Sound) (hy : y.supply.drawn < idLimit) : y.Sound := by
  induction h with
  | refl => exact hx
  | tail _ h ih => exact h.sound (ih (Nat.lt_of_le_of_lt h.le.drawn hy)) hy

/-! ### Networks that are named -/

/-- The networks that active containers name exist, unless they are gone for the container. -/
def Anchored (gone : String → String → Prop) (x : Fabric) : Prop :=
  ∀ ⦃key c⦄, x.containers.get? key = some c → c.isActive = true → ∀ id ∈ c.networkIds,
    (∃ key n, x.networks.get? key = some n ∧ n.id = id) ∨ gone c.id id

theorem Anchored.mono {gone gone' : String → String → Prop} (h : x.Anchored gone)
    (hle : ∀ id networkId, gone id networkId → gone' id networkId) : x.Anchored gone' :=
  fun _ _ hc ha id hid => (h hc ha id hid).imp_right (hle _ _)

/-- A network is there for ever, under its key. -/
theorem Step.network (h : Step x y) {key : String} {n : Network}
    (hn : x.networks.get? key = some n) : ∃ m, y.networks.get? key = some m ∧ m.id = n.id := by
  cases h with
  | carry _ _ _ _ => exact ⟨n, hn, rfl⟩
  | declare free _ _ _ => exact ⟨n, Table.within_insert free _ hn, rfl⟩
  | attach _ attached _ _ _ =>
    refine ⟨_, (attached.networks key).trans (congrArg _ hn), rfl⟩

/-- **A step keeps the networks that are named**, and a container that is made names existing
ones. -/
theorem Step.anchored {gone : String → String → Prop} (h : Step x y) (hx : x.Anchored gone) :
    y.Anchored gone := by
  have later : ∀ {id : String}, (∃ key n, x.networks.get? key = some n ∧ n.id = id) →
      ∃ key n, y.networks.get? key = some n ∧ n.id = id := by
    rintro id ⟨key, n, hn, rfl⟩
    obtain ⟨m, hm, hid⟩ := h.network hn
    exact ⟨key, m, hm, hid⟩
  intro key d hd ha id hid
  cases h with
  | carry old _ _ _ =>
    obtain ⟨c, hc, hcd⟩ := old hd
    rw [hcd.id]
    exact hx hc (hcd.active ha) id (hcd.networkIds ▸ hid)
  | declare _ _ _ _ => exact (hx hd ha id hid).imp_left later
  | attach _ attached _ _ _ =>
    rw [Table.get?_insert] at hd
    split at hd
    · cases hd
      obtain ⟨k, -, n, hn, rfl⟩ := attached.mem_ids.1 hid
      exact .inl (later ⟨k, n, hn, rfl⟩)
    · exact (hx hd ha id hid).imp_left later

theorem Steps.anchored {gone : String → String → Prop} (h : Steps x y) (hx : x.Anchored gone) :
    y.Anchored gone := by
  induction h with
  | refl => exact hx
  | tail _ h ih => exact h.anchored ih

end Fabric

end DockerSim
