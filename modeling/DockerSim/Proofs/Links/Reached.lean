import DockerSim.Proofs.Links.Commands
import DockerSim.Proofs.Stack.Down

/-!
# Links of reached states

In every reached state the links hold on both sides (`Reached.sound`). A network that a container
names exists, unless it was forgotten: `compose down` removes the networks of the stack, also those
that a container has joined which the stack does not track, and takes no name back (`Forgotten`).
-/

namespace DockerSim

open Command Stack Fabric

variable {s t : State} {u v : Supply} {a : Submission} {o : Outcome}

/-- A `compose down` has removed a network since, although a container was a member of it that the
stack did not track. -/
def Forgotten (s : State) (u : Supply) (id networkId : String) : Prop :=
  ∃ (before after : State) (w w' : Supply) (a : Submission) (o : Outcome)
    (later : List Submission) (os : List Outcome),
    Reached before w ∧ a.carried? = some "compose down" ∧ a.run before w = ((after, o), w') ∧
    after.submitAll later w' = ((s, os), u) ∧
    (∀ service, before.tracked.get? service ≠ some id) ∧
    (∃ key n, before.networks.get? key = some n ∧ n.id = networkId ∧ id ∈ n.containerIds) ∧
    ∀ key n, after.networks.get? key = some n → n.id ≠ networkId

/-- What was forgotten is forgotten after more lines. -/
theorem Forgotten.run {id networkId : String} (h : Forgotten s u id networkId)
    (ha : a.run s u = ((t, o), v)) : Forgotten t v id networkId := by
  obtain ⟨before, after, w, w', b, o', later, os, hreached, hdown, hrun, hlater, hrest⟩ := h
  refine ⟨before, after, w, w', b, o', later ++ [a], os ++ [o], hreached, hdown, hrun, ?_, hrest⟩
  exact State.submitAll_append hlater (State.submitAll_cons_iff.2 ⟨t, o, v, [], ha, rfl, rfl⟩)

namespace Reached

/-- Where no container is made, those that are there go on with their links. -/
theorem carries (h : Reached s u) (ha : a.run s u = ((t, o), v)) (hv : v.drawn < idLimit)
    (hrun : a.carried? ≠ some "run") (hup : a.carried? ≠ some "compose up") :
    ∀ ⦃key d⦄, t.containers.get? key = some d →
      ∃ c, s.containers.get? key = some c ∧ c.Carries d := by
  intro key d hd
  obtain ⟨hcontainers, -, hnew, -⟩ := h.keeps ha hv
  rcases hnew hd with hold | ⟨hcreates, -⟩
  · obtain ⟨c, hc⟩ := Table.contains_iff.1 hold
    obtain ⟨d', hd', hcd⟩ := hcontainers hc
    replace hd' : t.containers.get? key = some d' := hd'
    rw [hd, Option.some.injEq] at hd'
    exact ⟨c, hc, hd' ▸ hcd.carries⟩
  · exact (hcreates.elim hrun hup).elim

/-- A line that makes no container is a step, behind which networks may be lost. -/
theorem carries_step (h : Reached s u) (ha : a.run s u = ((t, o), v)) (hv : v.drawn < idLimit)
    (hrun : a.carried? ≠ some "run") (hup : a.carried? ≠ some "compose up") :
    Fabric.Step (.of s u) { Fabric.of t v with networks := s.networks } := by
  have hl := a.leads_anyway ha
  exact .carry (x := .of s u) (h.carries ha hv hrun hup) (fun _ hk => hl.moves.contains hk)
    hl.volumes hl.moves.supply_le

/-- **A line is a row of steps**, unless it takes the stack down. -/
theorem steps (h : Reached s u) (ha : a.run s u = ((t, o), v)) (hv : v.drawn < idLimit)
    (hx : (Fabric.of s u).Sound) (hdown : a.carried? ≠ some "compose down") :
    Steps (.of s u) (.of t v) := by
  by_cases hup : a.carried? = some "compose up"
  · obtain ⟨hrun, rfl⟩ := a.up_of_run hup ha
    cases hplan : plan? (a.commandRequest s) with
    | none =>
      obtain ⟨-, hdelta, -⟩ := up_stops hplan hrun
      have le := (a.leads_anyway ha).moves.supply_le
      have hsame :
          Fabric.of ((a.request s).state.take o) v = { Fabric.of s u with supply := v } := by
        unfold State.take
        rw [hdelta]
        rfl
      show Steps _ (Fabric.of ((a.request s).state.take o) v)
      rw [hsame]
      exact .idle (x := .of s u) le
    | some plan =>
      rw [up_eq_carryOut hplan] at hrun
      exact carryOut_steps (r := a.commandRequest s) hrun hv hx
  by_cases hrun : a.carried? = some "run"
  · obtain ⟨hrun, rfl⟩ := a.subcommand_of_run hrun ha
    exact run_steps (r := a.commandRequest s) hrun
  have hstep := h.carries_step ha hv hrun hup
  have helsewhere : o.Elsewhere := by
    obtain ⟨he, -⟩ := a.run_eq_iff.1 ha
    rcases evaluate_cases he with ⟨-, hp, -⟩ | ⟨sub, hsub, hdone⟩
    · exact hp.silent.elsewhere
    · replace hsub : a.carried? = some sub := hsub
      have hother : sub ∉ ["run", "compose up", "compose down"] := by
        simp only [hsub, ne_eq, Option.some.injEq] at hdown hup hrun
        simp [hdown, hup, hrun]
      exact runSubcommand_elsewhere hother hdone
  have hnetworks : t.networks = s.networks := by
    obtain ⟨-, rfl⟩ := a.run_eq_iff.1 ha
    simp only [State.take, State.apply, State.record, helsewhere.networks]
    rfl
  rw [← hnetworks] at hstep
  exact .single hstep

/-- `compose down` forgets networks, and the containers go on with their links. -/
theorem down_step (h : Reached s u) (ha : a.run s u = ((t, o), v)) (hv : v.drawn < idLimit)
    (hdown : a.carried? = some "compose down") :
    Fabric.Step (.of s u) { Fabric.of t v with networks := s.networks } ∧
      t.networks.Within s.networks := by
  refine ⟨h.carries_step ha hv (by simp [hdown]) (by simp [hdown]), ?_⟩
  have hu := Nat.lt_of_le_of_lt (a.leads_anyway ha).moves.supply_le.drawn hv
  obtain ⟨hrun, rfl⟩ := a.down_of_run hdown ha
  intro key n hn
  obtain ⟨-, hempty⟩ := down_forgets (r := a.commandRequest s) hrun ((h.managed hu).request a)
  replace hn : ((a.commandRequest s).state.apply o.delta).networks.get? key = some n := hn
  rw [hempty] at hn
  cases hn

/-- **In a reached state the links hold on both sides.** -/
theorem sound (h : Reached s u) (hu : u.drawn < idLimit) : (Fabric.of s u).Sound := by
  obtain ⟨as, os, h⟩ := h
  have kept := State.submitAll_keeps
    (P := fun s u => Reached s u ∧ (u.drawn < idLimit → (Fabric.of s u).Sound)) ?_ h
    ⟨⟨[], [], rfl⟩, fun _ => sound_empty _⟩
  · exact kept.2 hu
  rintro a s t o u v ha ⟨hs, hsound⟩
  refine ⟨hs.run ha, fun hv => ?_⟩
  have hx := hsound (Nat.lt_of_le_of_lt (a.leads_anyway ha).moves.supply_le.drawn hv)
  by_cases hdown : a.carried? = some "compose down"
  · obtain ⟨hstep, hwithin⟩ := hs.down_step ha hv hdown
    exact (hstep.sound hx hv).forget hwithin
  · exact (hs.steps ha hv hx hdown).sound hx hv

/-- Where a stack is taken down, the networks are gone that untracked containers name. -/
theorem down_anchored (h : Reached s u) (ha : a.run s u = ((t, o), v)) (hv : v.drawn < idLimit)
    (hdown : a.carried? = some "compose down")
    (hx : (Fabric.of s u).Anchored (Forgotten s u)) :
    (Fabric.of t v).Anchored (Forgotten t v) := by
  have hu := Nat.lt_of_le_of_lt (a.leads_anyway ha).moves.supply_le.drawn hv
  intro key d hd hactive networkId hid
  obtain ⟨c, hc, hcd⟩ := h.carries ha hv (by simp [hdown]) (by simp [hdown]) hd
  rw [hcd.networkIds] at hid
  rw [hcd.id]
  rcases hx hc (hcd.active hactive) networkId hid with ⟨k, n, hn, rfl⟩ | hgone
  · by_cases hleft : ∃ k n', t.networks.get? k = some n' ∧ n'.id = n.id
    · exact .inl hleft
    refine .inr ⟨s, t, u, v, a, o, [], [], h, hdown, ha, rfl, fun service htracked => ?_,
      ⟨k, n, hn, rfl, ((h.sound hu).linked hc hn).1 hid⟩,
      fun k n' hn' he => hleft ⟨k, n', hn', he⟩⟩
    -- a container that the stack tracks is removed by now
    unfold State.tracked at htracked
    cases hstack : s.stack? with
    | none => simp [hstack] at htracked
    | some stack =>
      rw [hstack, Option.map_some, Option.getD_some] at htracked
      obtain ⟨e, he, hremoved⟩ := (h.takesDown hu hdown ha hstack).removed htracked
      have hkey : c.id = key := (h.sound hu).keyed hc
      rw [hkey] at he
      replace hd : t.containers.get? key = some d := hd
      rw [hd, Option.some.injEq] at he
      rw [he] at hactive
      simp [Container.isActive, hremoved] at hactive
  · exact .inr (hgone.run ha)

/-- The networks that active containers name exist, or they were forgotten. -/
theorem anchored (h : Reached s u) (hu : u.drawn < idLimit) :
    (Fabric.of s u).Anchored (Forgotten s u) := by
  obtain ⟨as, os, h⟩ := h
  have kept := State.submitAll_keeps
    (P := fun s u => Reached s u ∧ (u.drawn < idLimit → (Fabric.of s u).Anchored (Forgotten s u)))
    ?_ h ⟨⟨[], [], rfl⟩, fun _ _ _ hc => nomatch hc⟩
  · exact kept.2 hu
  rintro a s t o u v ha ⟨hs, hanchored⟩
  refine ⟨hs.run ha, fun hv => ?_⟩
  have hu := Nat.lt_of_le_of_lt (a.leads_anyway ha).moves.supply_le.drawn hv
  by_cases hdown : a.carried? = some "compose down"
  · exact hs.down_anchored ha hv hdown (hanchored hu)
  · have hstays := (hs.steps ha hv (hs.sound hu) hdown).anchored (hanchored hu)
    exact hstays.mono fun _ _ hgone => hgone.run ha

/-- **No link of a reached state dangles, but those that `compose down` has cut.** A network that an
active container names exists and lists it, unless the network was forgotten while the stack did not
track the container. A network that lists an active container is named by it. And what an active
container mounts is a path of the host or a volume that exists. -/
theorem links_hold (h : Reached s u) (hu : u.drawn < idLimit) :
    ∀ key c, s.containers.get? key = some c → c.status ≠ .removed →
      (∀ id ∈ c.networkIds,
        (∃ k n, s.networks.get? k = some n ∧ n.id = id ∧ c.id ∈ n.containerIds) ∨
          Forgotten s u c.id id) ∧
      (∀ k n, s.networks.get? k = some n → c.id ∈ n.containerIds → n.id ∈ c.networkIds) ∧
      (∀ m ∈ c.mounts, MountSpec.isHostPath m.volumeId = false →
        ∃ k volume, s.volumes.get? k = some volume ∧ volume.id = m.volumeId) := by
  intro key c hc hstatus
  have hsound := h.sound hu
  have hactive : c.isActive = true := by simpa [Container.isActive] using hstatus
  refine ⟨fun id hid => ?_, fun k n hn hmem => (hsound.linked hc hn).2 hmem, fun m hm hpath => ?_⟩
  · rcases h.anchored hu hc hactive id hid with ⟨k, n, hn, rfl⟩ | hgone
    · exact .inl ⟨k, n, hn, rfl, (hsound.linked hc hn).1 hid⟩
    · exact .inr hgone
  · rcases hsound.backed hc m hm with hhost | hvolume
    · rw [hhost] at hpath
      cases hpath
    · exact hvolume

/-- A stack of one service, and a container that is not of the stack and joins its network. -/
def guestLines : List Submission := [
  .ofLine "docker pull nginx:1.25",
  { raw := "docker compose up -d"
    files := some (.ofFiles [("compose.yml", "services:\n  web:\n    image: nginx:1.25\n")])
    stackFiles := ["compose.yml"] },
  .ofLine "docker run -d --network default_default -v data:/var --name guest nginx:1.25"]

/-- The links of the container, before and after the stack is taken down. -/
theorem guest_links :
    let r := State.empty.submitAll guestLines .fresh
    let r' := (Submission.ofLine "docker compose down").run r.1.1 r.2
    let links (c : Container) := (c.status, c.networkIds, c.mounts.map Mount.volumeId)
    (r.2.drawn < idLimit ∧ (r.1.1.containers.get? "00000000000d").map links =
      some (.running, ["000000000009"], ["00000000000c"])) ∧
    r'.2.drawn < idLimit ∧ r'.1.1.networks = ∅ ∧
      (r'.1.1.containers.get? "00000000000d").map links =
        some (.running, ["000000000009"], ["00000000000c"]) := by
  decide +kernel

/-- The container names a network that lists it, or one that was forgotten, and it mounts a
volume. -/
theorem links_hold_guest :
    let r := State.empty.submitAll guestLines .fresh
    r.2.drawn < idLimit ∧ ∃ c, r.1.1.containers.get? "00000000000d" = some c ∧
      c.status = .running ∧ "000000000009" ∈ c.networkIds ∧
      ((∃ k n, r.1.1.networks.get? k = some n ∧ n.id = "000000000009" ∧
          c.id ∈ n.containerIds) ∨ Forgotten r.1.1 r.2 c.id "000000000009") ∧
      ∃ m ∈ c.mounts, ∃ k volume, r.1.1.volumes.get? k = some volume ∧
        volume.id = m.volumeId := by
  intro r
  obtain ⟨⟨hu, hguest⟩, -⟩ := guest_links
  have hr : State.empty.submitAll guestLines .fresh = r := rfl
  rw [hr] at hu hguest
  clear_value r
  obtain ⟨c, hc, hlinks⟩ := Option.map_eq_some_iff.1 hguest
  obtain ⟨hstatus, hids, hmounts⟩ : c.status = .running ∧ c.networkIds = ["000000000009"] ∧
      c.mounts.map Mount.volumeId = ["00000000000c"] := by
    simpa only [Prod.mk.injEq] using hlinks
  obtain ⟨hnamed, -, hmounted⟩ := links_hold (hr ▸ reached_submitAll guestLines) hu _ c hc
    (by simp [hstatus])
  obtain ⟨m, hm, hvolume⟩ : ∃ m ∈ c.mounts, m.volumeId = "00000000000c" := by
    rw [← List.mem_map, hmounts]
    exact List.mem_singleton_self _
  have hid : "000000000009" ∈ c.networkIds := by simp [hids]
  exact ⟨hu, c, hc, hstatus, hid, hnamed _ hid, m, hm,
    hmounted m hm (by rw [hvolume]; decide)⟩

/-- When the stack is taken down, the container goes on to run and names a network that is gone. -/
theorem links_cut_guest :
    let r := State.empty.submitAll guestLines .fresh
    let r' := (Submission.ofLine "docker compose down").run r.1.1 r.2
    Reached r'.1.1 r'.2 ∧ r'.2.drawn < idLimit ∧
      ∃ c, r'.1.1.containers.get? "00000000000d" = some c ∧ c.status = .running ∧
        "000000000009" ∈ c.networkIds ∧
        ∀ k n, r'.1.1.networks.get? k = some n → n.id ≠ "000000000009" := by
  intro r r'
  obtain ⟨-, hu, hnetworks, hguest⟩ := guest_links
  have hr : State.empty.submitAll guestLines .fresh = r := rfl
  have hr' : (Submission.ofLine "docker compose down").run r.1.1 r.2 = r' := rfl
  rw [hr, hr'] at hu hnetworks hguest
  clear_value r'
  clear_value r
  obtain ⟨c, hc, hlinks⟩ := Option.map_eq_some_iff.1 hguest
  simp only [Prod.mk.injEq] at hlinks
  have hreached : Reached r.1.1 r.2 := hr ▸ reached_submitAll guestLines
  refine ⟨hreached.run hr', hu, c, hc, hlinks.1, by simp [hlinks.2.1], fun k n hn => ?_⟩
  rw [hnetworks] at hn
  cases hn

end Reached

end DockerSim
