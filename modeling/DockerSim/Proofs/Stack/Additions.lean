import DockerSim.Proofs.Moves.Agree
import DockerSim.Proofs.Moves.Stack

/-!
# What bringing up services adds

New containers, ports and memberships of networks belong to the services that are brought up, and
what was there stays, except that a container that is tracked for one of those is started again
(`Adds`). So an obstacle that keeps a service from being brought up (`Progress.obstacle?`) is not
removed by bringing up others: a service that is settled stays settled (`Adds.settled`).
-/

namespace DockerSim

open Command Stack

/-! ## Networks that are joined -/

/-- The networks are the same, but that containers with certain ids may have joined them. -/
structure Joined (new : String → Prop) (before after : Table Network) : Prop where
  none : ∀ ⦃key⦄, before.get? key = none → after.get? key = none
  some : ∀ ⦃key n⦄, before.get? key = some n → ∃ ids : List String,
    after.get? key = some { n with containerIds := n.containerIds ++ ids } ∧ ∀ id ∈ ids, new id

namespace Joined

variable {new new' : String → Prop} {ns ns' ns'' : Table Network}

theorem refl (ns : Table Network) : Joined new ns ns := by
  refine ⟨fun _ h => h, fun key n h => ⟨[], ?_, fun id hid => nomatch hid⟩⟩
  rw [List.append_nil]
  exact h

theorem trans (h : Joined new ns ns') (h' : Joined new ns' ns'') : Joined new ns ns'' := by
  refine ⟨fun _ hkey => h'.none (h.none hkey), fun key n hkey => ?_⟩
  obtain ⟨ids, hids, hnew⟩ := h.some hkey
  obtain ⟨more, hmore, hnew'⟩ := h'.some hids
  refine ⟨ids ++ more, by rw [hmore, List.append_assoc], fun id hid => ?_⟩
  exact (List.mem_append.1 hid).elim (hnew id) (hnew' id)

theorem mono (h : Joined new ns ns') (hle : ∀ id, new id → new' id) : Joined new' ns ns' := by
  refine ⟨h.none, fun key n hkey => ?_⟩
  obtain ⟨ids, hids, hnew⟩ := h.some hkey
  exact ⟨ids, hids, fun id hid => hle id (hnew id hid)⟩

theorem contains (h : Joined new ns ns') {key : String} (hkey : ns.contains key = true) :
    ns'.contains key = true := by
  obtain ⟨n, hn⟩ := Table.contains_iff.1 hkey
  obtain ⟨ids, hids, -⟩ := h.some hn
  exact Table.contains_iff.2 ⟨_, hids⟩

/-- The members of a network are those it had before, and new ones. -/
theorem member (h : Joined new ns ns') {key id : String} {n : Network}
    (hn : ns'.get? key = Option.some n) (hid : id ∈ n.containerIds) :
    (∃ n', ns.get? key = Option.some n' ∧ id ∈ n'.containerIds) ∨ new id := by
  cases hkey : ns.get? key with
  | none =>
    rw [h.none hkey] at hn
    cases hn
  | some n' =>
    obtain ⟨ids, hids, hnew⟩ := h.some hkey
    rw [hids, Option.some.injEq] at hn
    rw [← hn, List.mem_append] at hid
    exact hid.imp (fun hold => ⟨n', rfl, hold⟩) (hnew id)

end Joined

theorem joined_joinOne (id : String) (joined : Table Network × List String) (key : String) :
    Joined (· = id) joined.1 (joinOne id joined key).1 := by
  unfold joinOne
  cases hkey : joined.1.get? key with
  | none => exact .refl _
  | some n =>
    constructor
    · intro k hk
      rw [Table.get?_insert_of_ne _ _ (by rintro rfl; rw [hkey] at hk; cases hk)]
      exact hk
    · intro k m hm
      by_cases he : k = key
      · subst he
        rw [hkey, Option.some.injEq] at hm
        exact ⟨[id], by rw [Table.get?_insert_self, hm], fun _ h => List.mem_singleton.1 h⟩
      · refine ⟨[], ?_, fun _ h => nomatch h⟩
        rw [Table.get?_insert_of_ne _ _ he, List.append_nil]
        exact hm

/-- A container joins networks one after the other. -/
theorem joined_foldl (id : String) : ∀ (keys : List String) (joined : Table Network × List String),
    Joined (· = id) joined.1 (keys.foldl (joinOne id) joined).1
  | [], joined => .refl joined.1
  | key :: keys, joined => (joined_joinOne id joined key).trans (joined_foldl id keys _)

/-! ## Services that are stuck -/

namespace Stack

/-- Why a service cannot be brought up. -/
def Progress.obstacle? (p : Progress) (s : Service) : Option String :=
  match p.tracked? s.name with
  | some c =>
    if c.isRunning then none
    else (portConflict p.boundPorts c).map fun port => portTakenLine port.host
  | none =>
    if isNameTaken p.containers s.name then some (nameTakenLine s.name)
    else
      match claimServicePorts p.boundPorts [] s.ports with
      | .error port => some (portTakenLine port)
      | .ok _ => none

/-- The container that is tracked for a service runs. -/
def Progress.Runs (p : Progress) (service : String) : Prop :=
  ∃ c, p.tracked? service = some c ∧ c.isRunning = true

/-- A service runs or cannot be brought up. -/
def Progress.Settled (p : Progress) (s : Service) : Prop :=
  p.Runs s.name ∨ (p.obstacle? s).isSome = true

namespace Progress

/-- What bringing up some services adds. -/
structure Adds (p : Progress) (raised : List String) (q : Progress) : Prop where
  /-- Each of them runs. -/
  runs : ∀ ⦃name⦄, name ∈ raised → q.Runs name
  tracked : ∀ ⦃name⦄, name ∉ raised → q.tracked.get? name = p.tracked.get? name
  /-- A container that is tracked now was tracked before or is new. -/
  newTracked : ∀ ⦃name id⦄, q.tracked.get? name = some id →
    p.tracked.get? name = some id ∨ p.containers.get? id = none
  /-- The containers stay, and some of those tracked for the services are started again. -/
  containers : ∀ ⦃id c⦄, p.containers.get? id = some c → q.containers.get? id = some c ∨
    c.isActive = true ∧ c.isRunning = false ∧ (∃ name ∈ raised, p.tracked.get? name = some id) ∧
      ∃ time logs, q.containers.get? id = some (c.started time logs)
  newContainers : ∀ ⦃id d⦄, p.containers.get? id = none → q.containers.get? id = some d →
    d.isRunning = true ∧ d.name ∈ raised ∧ q.tracked.get? d.name = some id
  ports : p.boundPorts.Within q.boundPorts
  newPorts : ∀ ⦃port id⦄, p.boundPorts.get? port = none → q.boundPorts.get? port = some id →
    ∃ name ∈ raised, q.tracked.get? name = some id
  networks : Joined (fun id => p.containers.get? id = none ∧
    ∃ name ∈ raised, q.tracked.get? name = some id) p.networks q.networks
  volumes : q.volumes = p.volumes

variable {p q t : Progress} {raised others : List String} {service : String}

/-- What is tracked for a service, if it is active. -/
theorem tracked?_eq_some {c : Container} : p.tracked? service = some c ↔
    (∃ id, p.tracked.get? service = some id ∧ p.containers.get? id = some c) ∧
      c.isActive = true := by
  unfold tracked?
  rw [Option.filter_eq_some_iff, Option.bind_eq_some_iff]

theorem adds_of_same (hcontainers : q.containers = p.containers)
    (hports : q.boundPorts = p.boundPorts) (hnetworks : q.networks = p.networks)
    (hvolumes : q.volumes = p.volumes) (htracked : q.tracked = p.tracked)
    (hruns : ∀ ⦃name⦄, name ∈ raised → p.Runs name) : p.Adds raised q where
  runs name hname := by
    unfold Runs tracked?
    rw [htracked, hcontainers]
    exact hruns hname
  tracked name _ := by rw [htracked]
  newTracked name id hid := .inl (htracked ▸ hid)
  containers id c hc := .inl (hcontainers ▸ hc)
  newContainers id d hp hd := by
    rw [hcontainers, hp] at hd
    cases hd
  ports := hports ▸ .refl _
  newPorts port id hp hid := by
    rw [hports, hp] at hid
    cases hid
  networks := hnetworks ▸ .refl _
  volumes := hvolumes

namespace Adds

/-- A container that was there is there, and as active as it was. -/
theorem kept (h : p.Adds raised q) {id : String} {c : Container}
    (hc : p.containers.get? id = some c) :
    ∃ d, q.containers.get? id = some d ∧ d.name = c.name ∧ d.isActive = c.isActive := by
  rcases h.containers hc with hq | ⟨ha, -, -, time, logs, hq⟩
  · exact ⟨c, hq, rfl, rfl⟩
  · exact ⟨c.started time logs, hq, rfl, ha.symm ▸ rfl⟩

theorem absent (h : p.Adds raised q) {id : String} (hq : q.containers.get? id = none) :
    p.containers.get? id = none := by
  cases hc : p.containers.get? id with
  | none => rfl
  | some c =>
    obtain ⟨d, hd, -⟩ := h.kept hc
    rw [hq] at hd
    cases hd

/-- A service goes on to run. -/
theorem runs_of_runs (h : p.Adds raised q) (hr : p.Runs service) : q.Runs service := by
  by_cases hmem : service ∈ raised
  · exact h.runs hmem
  · obtain ⟨c, hc, hrun⟩ := hr
    obtain ⟨⟨id, hid, hget⟩, ha⟩ := tracked?_eq_some.1 hc
    rw [← h.tracked hmem] at hid
    rcases h.containers hget with hq | ⟨-, hidle, -⟩
    · exact ⟨c, tracked?_eq_some.2 ⟨⟨id, hid, hq⟩, ha⟩, hrun⟩
    · rw [hidle] at hrun
      cases hrun

/-- Some services are brought up, and then others. -/
theorem append (h : p.Adds raised q) (h' : q.Adds others t)
    (hdisjoint : ∀ name ∈ raised, name ∉ others) : p.Adds (raised ++ others) t where
  runs name hname := by
    rcases List.mem_append.1 hname with hmem | hmem
    · exact h'.runs_of_runs (h.runs hmem)
    · exact h'.runs hmem
  tracked name hname := by
    rw [List.mem_append, not_or] at hname
    rw [h'.tracked hname.2, h.tracked hname.1]
  newTracked name id hid := by
    rcases h'.newTracked hid with hq | hnone
    · exact h.newTracked hq
    · exact .inr (h.absent hnone)
  containers id c hc := by
    rcases h.containers hc with hq | ⟨ha, hidle, ⟨name, hname, hid⟩, time, logs, hq⟩
    · rcases h'.containers hq with ht | ⟨ha, hidle, ⟨name, hname, hid⟩, time, logs, ht⟩
      · exact .inl ht
      · refine .inr ⟨ha, hidle, ⟨name, List.mem_append_right _ hname, ?_⟩, time, logs, ht⟩
        rwa [h.tracked fun hmem => hdisjoint name hmem hname] at hid
    · rcases h'.containers hq with ht | ⟨-, hrun, -⟩
      · exact .inr ⟨ha, hidle, ⟨name, List.mem_append_left _ hname, hid⟩, time, logs, ht⟩
      · cases hrun
  newContainers id d hp ht := by
    cases hq : q.containers.get? id with
    | none =>
      obtain ⟨hrun, hmem, hid⟩ := h'.newContainers hq ht
      exact ⟨hrun, List.mem_append_right _ hmem, hid⟩
    | some c =>
      obtain ⟨hrun, hmem, hid⟩ := h.newContainers hp hq
      rcases h'.containers hq with hsame | ⟨-, hidle, -⟩
      · rw [hsame, Option.some.injEq] at ht
        subst ht
        exact ⟨hrun, List.mem_append_left _ hmem, (h'.tracked (hdisjoint _ hmem)).trans hid⟩
      · rw [hidle] at hrun
        cases hrun
  ports := h.ports.trans h'.ports
  newPorts port id hp ht := by
    cases hq : q.boundPorts.get? port with
    | none =>
      obtain ⟨name, hmem, hid⟩ := h'.newPorts hq ht
      exact ⟨name, List.mem_append_right _ hmem, hid⟩
    | some owner =>
      rw [h'.ports hq, Option.some.injEq] at ht
      subst ht
      obtain ⟨name, hmem, hid⟩ := h.newPorts hp hq
      exact ⟨name, List.mem_append_left _ hmem, (h'.tracked (hdisjoint _ hmem)).trans hid⟩
  networks := by
    refine (h.networks.mono ?_).trans (h'.networks.mono ?_)
    · rintro id ⟨hnone, name, hmem, hid⟩
      exact ⟨hnone, name, List.mem_append_left _ hmem,
        (h'.tracked (hdisjoint _ hmem)).trans hid⟩
    · rintro id ⟨hnone, name, hmem, hid⟩
      exact ⟨h.absent hnone, name, List.mem_append_right _ hmem, hid⟩
  volumes := h'.volumes.trans h.volumes

end Adds

end Progress

end Stack

/-! ## Obstacles stay -/

/-- Ports that cannot be claimed cannot be claimed where more ports are bound. -/
theorem claimServicePorts_error {bound bound' : Table String} (h : bound.Within bound') :
    ∀ {specs : List String} {claimed : List PortMapping} {port : Nat},
      claimServicePorts bound claimed specs = .error port →
        ∃ port', claimServicePorts bound' claimed specs = .error port'
  | [], claimed, port, he => by cases he
  | spec :: specs, claimed, port, he => by
    unfold claimServicePorts at he ⊢
    cases hp : PortMapping.ofText? spec with
    | none =>
      simp only [hp] at he ⊢
      exact claimServicePorts_error h he
    | some p =>
      simp only [hp] at he ⊢
      by_cases ht : (bound'.contains p.hostKey || claimed.any fun q => q.host = p.host) = true
      · exact ⟨p.host, by rw [if_pos ht]⟩
      · have hfree :
            ¬(bound.contains p.hostKey || claimed.any fun q => q.host = p.host) = true := by
          simp only [Bool.or_eq_true, not_or] at ht ⊢
          refine ⟨fun hc => ht.1 ?_, ht.2⟩
          obtain ⟨owner, howner⟩ := Table.contains_iff.1 hc
          exact Table.contains_iff.2 ⟨owner, h howner⟩
        rw [if_neg ht]
        rw [if_neg hfree] at he
        exact claimServicePorts_error h he

/-- A port that another container holds is held where more ports are bound. -/
theorem portConflict_isSome {bound bound' : Table String} {c : Container} (h : bound.Within bound')
    (hc : (portConflict bound c).isSome = true) : (portConflict bound' c).isSome = true := by
  unfold portConflict at *
  rw [List.find?_isSome] at *
  obtain ⟨p, hp, howner⟩ := hc
  obtain ⟨owner, hget, hne⟩ := (Option.any_eq_true _ _).1 howner
  exact ⟨p, hp, by rw [h hget]; exact hne⟩

namespace Stack.Progress

variable {p q : Stack.Progress} {raised : List String} {svc : Service}

theorem obstacle?_of_tracked? {c : Container} (ht : p.tracked? svc.name = some c)
    (hr : c.isRunning = false) :
    (p.obstacle? svc).isSome = (portConflict p.boundPorts c).isSome := by
  unfold obstacle?
  simp [ht, hr]

theorem obstacle?_of_absent (ht : p.tracked? svc.name = none) :
    (p.obstacle? svc).isSome = true ↔ isNameTaken p.containers svc.name = true ∨
      ∃ port, claimServicePorts p.boundPorts [] svc.ports = .error port := by
  unfold obstacle?
  cases hn : isNameTaken p.containers svc.name with
  | true => simp [ht]
  | false => cases hc : claimServicePorts p.boundPorts [] svc.ports <;> simp [ht]

theorem runs_or_idle (p : Stack.Progress) (service : String) :
    p.Runs service ∨ p.tracked? service = none ∨
      ∃ c, p.tracked? service = some c ∧ c.isRunning = false := by
  cases ht : p.tracked? service with
  | none => exact .inr (.inl rfl)
  | some c =>
    cases hr : c.isRunning with
    | true => exact .inl ⟨c, ht, hr⟩
    | false => exact .inr (.inr ⟨c, rfl, hr⟩)

/-- **A settled service stays settled**, whatever is brought up after it. -/
theorem Adds.settled (h : p.Adds raised q) (hs : p.Settled svc) : q.Settled svc := by
  rcases hs with hr | ho
  · exact .inl (h.runs_of_runs hr)
  · by_cases hmem : svc.name ∈ raised
    · exact .inl (h.runs hmem)
    have htracked := h.tracked hmem
    rcases q.runs_or_idle svc.name with hq | hq | ⟨d, hq, hidle⟩
    · exact .inl hq
    · -- no active container is tracked now, so that none was before
      have hp : p.tracked? svc.name = none := by
        cases hc : p.tracked? svc.name with
        | none => rfl
        | some c =>
          obtain ⟨⟨id, hid, hget⟩, ha⟩ := tracked?_eq_some.1 hc
          obtain ⟨d, hd, -, hda⟩ := h.kept hget
          have : q.tracked? svc.name = some d :=
            tracked?_eq_some.2 ⟨⟨id, htracked.trans hid, hd⟩, hda.trans ha⟩
          rw [hq] at this
          cases this
      refine .inr ((obstacle?_of_absent hq).2 (((obstacle?_of_absent hp).1 ho).imp ?_ ?_))
      · intro hn
        obtain ⟨key, c, hkey, hactive, hname⟩ := isNameTaken_iff.1 hn
        obtain ⟨d, hd, hdname, hda⟩ := h.kept hkey
        exact isNameTaken_iff.2 ⟨key, d, hd, hda.trans hactive, hdname.trans hname⟩
      · rintro ⟨port, hport⟩
        exact claimServicePorts_error h.ports hport
    · -- a container that does not run was there before, as it is
      obtain ⟨⟨id, hid, hget⟩, ha⟩ := tracked?_eq_some.1 hq
      rw [htracked] at hid
      have hp : p.containers.get? id = some d := by
        cases hc : p.containers.get? id with
        | none =>
          obtain ⟨hrun, -⟩ := h.newContainers hc hget
          rw [hidle] at hrun
          cases hrun
        | some c =>
          rcases h.containers hc with hsame | ⟨-, -, -, time, logs, hstarted⟩
          · rw [hsame] at hget
            exact hget
          · rw [hstarted, Option.some.injEq] at hget
            rw [← hget] at hidle
            cases hidle
      have hp' : p.tracked? svc.name = some d := tracked?_eq_some.2 ⟨⟨id, hid, hp⟩, ha⟩
      refine .inr ?_
      rw [obstacle?_of_tracked? hp' hidle] at ho
      rw [obstacle?_of_tracked? hq hidle]
      exact portConflict_isSome h.ports ho

/-! ## What one service adds -/

variable {service : String} {c : Container} {lines : List String} {events : List Event}

/-- The container of a service is started again. -/
theorem adds_started {time : Instant} {logs : List String}
    (tracked : p.tracked.get? service = some c.id) (found : p.containers.get? c.id = some c)
    (active : c.isActive = true) (idle : c.isRunning = false)
    (unheld : portConflict p.boundPorts c = none) :
    p.Adds [service] { p with
      boundPorts := bindPorts p.boundPorts c.ports c.id
      containers := p.containers.insert c.id (c.started time logs)
      lines, events } where
  runs name hname := by
    rw [List.mem_singleton.1 hname]
    exact ⟨c.started time logs,
      tracked?_eq_some.2 ⟨⟨c.id, tracked, Table.get?_insert_self _ _ _⟩, rfl⟩, rfl⟩
  tracked _ _ := rfl
  newTracked _ _ hid := .inl hid
  containers id d hd := by
    by_cases he : id = c.id
    · subst he
      rw [found, Option.some.injEq] at hd
      subst hd
      exact .inr ⟨active, idle, ⟨service, List.mem_singleton_self _, tracked⟩, time, logs,
        Table.get?_insert_self _ _ _⟩
    · exact .inl ((Table.get?_insert_of_ne _ _ he).trans hd)
  newContainers id d hp hd := by
    replace hd : (p.containers.insert c.id (c.started time logs)).get? id = some d := hd
    rw [Table.get?_insert] at hd
    split at hd
    · next he =>
      rw [he, found] at hp
      cases hp
    · rw [hp] at hd
      cases hd
  ports port owner hport := by
    refine bindPorts_eq_some.2 ?_
    by_cases hpub : c.Publishes port
    · exact .inl ⟨hpub, (portConflict_eq_none unheld hpub hport).symm⟩
    · exact .inr ⟨hpub, hport⟩
  newPorts port id hp hid := by
    rcases bindPorts_eq_some.1 hid with ⟨-, rfl⟩ | ⟨-, hold⟩
    · exact ⟨service, List.mem_singleton_self _, tracked⟩
    · rw [hp] at hold
      cases hold
  networks := .refl _
  volumes := rfl

/-- A container is made for a service. -/
theorem adds_created {networks : Table Network} (named : c.name = service)
    (running : c.isRunning = true) (fresh : p.containers.get? c.id = none)
    (claimed : Claimed p.boundPorts c.ports) (joined : Joined (· = c.id) p.networks networks) :
    p.Adds [service] { p with
      boundPorts := bindPorts p.boundPorts c.ports c.id
      networks
      containers := p.containers.insert c.id c
      tracked := p.tracked.insert service c.id
      events
      lines } where
  runs name hname := by
    rw [List.mem_singleton.1 hname]
    exact ⟨c, tracked?_eq_some.2 ⟨⟨c.id, Table.get?_insert_self _ _ _,
      Table.get?_insert_self _ _ _⟩, Container.isActive_of_isRunning running⟩, running⟩
  tracked name hname := Table.get?_insert_of_ne _ _ (by simpa using hname)
  newTracked name id hid := by
    replace hid : (p.tracked.insert service c.id).get? name = some id := hid
    rw [Table.get?_insert] at hid
    split at hid
    · cases hid
      exact .inr fresh
    · exact .inl hid
  containers id d hd := .inl (Table.within_insert fresh c hd)
  newContainers id d hp hd := by
    replace hd : (p.containers.insert c.id c).get? id = some d := hd
    rw [Table.get?_insert] at hd
    split at hd
    · next he =>
      cases hd
      rw [named, he]
      exact ⟨running, List.mem_singleton_self _, Table.get?_insert_self _ _ _⟩
    · rw [hp] at hd
      cases hd
  ports port owner hport := by
    refine bindPorts_eq_some.2 (.inr ⟨?_, hport⟩)
    rintro ⟨mapping, hmem, rfl⟩
    rw [claimed.free mapping hmem] at hport
    cases hport
  newPorts port id hp hid := by
    rcases bindPorts_eq_some.1 hid with ⟨-, rfl⟩ | ⟨-, hold⟩
    · exact ⟨service, List.mem_singleton_self _, Table.get?_insert_self _ _ _⟩
    · rw [hp] at hold
      cases hold
  networks := joined.mono fun id he =>
    ⟨he ▸ fresh, service, List.mem_singleton_self _, he ▸ Table.get?_insert_self _ _ _⟩
  volumes := rfl

end Stack.Progress

end DockerSim
