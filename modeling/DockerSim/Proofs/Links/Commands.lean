import DockerSim.Proofs.Links.Basic
import DockerSim.Proofs.Stack.Managed

/-!
# What commands do to the links

Containers are made by `run` and by `compose up`, and networks by `compose up` only. All other
commands let the containers go on, except that `compose down` forgets networks. So every command is
a row of steps of the fabric, behind which networks may be forgotten.
-/

namespace DockerSim

open Command Stack Fabric

variable {r : Request} {o : Outcome} {u v w : Supply}

/-- Draws alone are a step. -/
theorem Fabric.Steps.idle {x : Fabric} {v : Supply} (le : x.supply ≤ v) :
    Steps x { x with supply := v } :=
  .single (.carry (fun _ d hd => ⟨d, hd, .refl d⟩) (fun _ hk => hk) (.refl _) le)

/-! ## Running a container -/

namespace Command

theorem addMount_backed {volumes volumes' : Table Volume} {mounts mounts' : List Mount}
    {spec : String} (h : addMount volumes mounts spec u = ((volumes', mounts'), v))
    (hm : ∀ m ∈ mounts, m.Backed volumes) : ∀ m ∈ mounts', m.Backed volumes' := by
  have hwithin := addMount_within h
  have old : ∀ m ∈ mounts, m.Backed volumes' := fun m hmem => (hm m hmem).mono hwithin
  have added : ∀ {m : Mount}, mounts' = mounts ++ [m] → m.Backed volumes' →
      ∀ m ∈ mounts', m.Backed volumes' := by
    rintro m rfl hbacked m' hmem
    rcases List.mem_append.1 hmem with hmem | hmem
    · exact old m' hmem
    · exact List.mem_singleton.1 hmem ▸ hbacked
  unfold addMount at h
  obtain ⟨⟨source, target⟩, u1, -, h⟩ := Draw.bind_eq_iff.1 h
  dsimp only at h
  split at h
  · next hpath =>
    obtain ⟨he, -⟩ := Draw.pure_eq_iff.1 h
    obtain ⟨rfl, rfl⟩ := Prod.mk.inj he
    exact added rfl (.inl hpath)
  · cases hs : volumes.get? source with
    | some found =>
      simp only [hs, Draw.pure_eq_iff, Prod.mk.injEq] at h
      obtain ⟨⟨rfl, rfl⟩, -⟩ := h
      exact added rfl (.inr ⟨source, found, hs, rfl⟩)
    | none =>
      simp only [hs, Draw.bind_eq_iff, Draw.pure_eq_iff, Prod.mk.injEq] at h
      obtain ⟨id, u2, -, ⟨rfl, rfl⟩, -⟩ := h
      exact added rfl (.inr ⟨source, _, Table.get?_insert_self _ _ _, rfl⟩)

/-- The volumes that are mounted exist, or are made. -/
theorem addMounts_backed {specs : List String} {volumes volumes' : Table Volume}
    {mounts : List Mount} (h : addMounts volumes specs u = ((volumes', mounts), v)) :
    ∀ m ∈ mounts, m.Backed volumes' := by
  let AllBacked (made : Table Volume × List Mount) : Prop := ∀ m ∈ made.2, m.Backed made.1
  have kept : AllBacked (volumes, []) → AllBacked (volumes', mounts) := by
    refine Draw.foldlM_keeps (R := fun before _ after _ => AllBacked before → AllBacked after)
      (fun _ _ hm => hm) (fun h h' hm => h' (h hm)) ?_ h
    exact addMount_backed
  exact kept fun _ hm => nomatch hm

theorem run_steps (h : run r u = (o, v)) : Steps (.of r.state u) (.of (r.state.take o) v) := by
  rcases Work.ofWork_cases h with ⟨refusal, hrefused, rfl⟩ | h
  · refine .idle (x := .of r.state u) (Work.Advances.bind (prepare_advances r) (fun x => ?_)
      hrefused)
    exact .draw fun _ _ _ h => by
      obtain ⟨c, w, events, hc, he, -⟩ := carryOut_spec h
      exact Supply.le_trans (planDraw_advances _ hc) (runEvents_advances _ he)
  · obtain ⟨plan, volumes, w, hprepared, h⟩ := launch_eq_ok_iff.1 h
    obtain ⟨-, -, -, hnetwork, -, w', -, hmounts⟩ := prepare_eq_ok_iff.1 hprepared
    obtain ⟨c, v', events, hc, he, rfl⟩ := carryOut_spec h
    obtain ⟨hmade, -⟩ := made_of_draw hc
    obtain ⟨hids, hbacked, hlogs⟩ := links_of_draw hc
    obtain ⟨keys, hattached⟩ := attached_chooseNetwork hnetwork c.id
    have hattached' : Attached c.id keys r.state.networks
        (plan.networkIds.foldl (fun ns id => joinNetwork ns id c.id) r.state.networks)
        c.networkIds := by rwa [hids]
    have hevents := runEvents_advances _ he
    let x : Fabric := { Fabric.of r.state u with volumes, supply := w }
    have volumesMade : Fabric.Step (.of r.state u) x :=
      .carry (fun _ d hd => ⟨d, hd, .refl d⟩) (fun _ hk => hk) (addMounts_within hmounts)
        (prepare_advances r hprepared)
    have containerMade : Fabric.Step x { x with
        containers := r.state.containers.insert c.id c
        networks := plan.networkIds.foldl (fun ns id => joinNetwork ns id c.id) r.state.networks
        supply := v } :=
      .attach (x := x) (hmade.id.mono (Supply.le_refl _) hevents) hattached'
        (hbacked ▸ addMounts_backed hmounts) hlogs
        (Supply.le_trans (planDraw_advances _ hc) hevents)
    simpa only [Fabric.of, State.take, State.apply, State.record, getD_changedFrom,
      Option.getD_some] using (Relation.ReflTransGen.single volumesMade).tail containerMade

end Command

/-! ## Bringing up a stack -/

namespace Stack.Progress

variable {p q t : Stack.Progress}

/-- The fabric of what was done so far. -/
def fabric (p : Stack.Progress) (u : Supply) : Fabric :=
  { containers := p.containers, networks := p.networks, volumes := p.volumes, supply := u }

/-- Some steps were made, as long as ids are left. -/
structure Weaves (p : Stack.Progress) (u : Supply) (q : Stack.Progress) (v : Supply) : Prop where
  le : u ≤ v
  steps : v.drawn < idLimit → (p.fabric u).Sound → Steps (p.fabric u) (q.fabric v)

theorem Weaves.refl (p : Stack.Progress) (u : Supply) : p.Weaves u p u :=
  ⟨Supply.le_refl u, fun _ _ => .refl⟩

theorem Weaves.trans (h : p.Weaves u q v) (h' : q.Weaves v t w) : p.Weaves u t w := by
  refine ⟨Supply.le_trans h.le h'.le, fun hw hp => ?_⟩
  have hv := Nat.lt_of_le_of_lt h'.le.drawn hw
  have hsteps := h.steps hv hp
  exact hsteps.trans (h'.steps hw (hsteps.sound hp hv))

/-- Containers, networks and volumes are as they were. -/
theorem weaves_of_same (hcontainers : q.containers = p.containers)
    (hnetworks : q.networks = p.networks) (hvolumes : q.volumes = p.volumes) (le : u ≤ v) :
    p.Weaves u q v := by
  refine ⟨le, fun _ _ => ?_⟩
  unfold fabric
  rw [hcontainers, hnetworks, hvolumes]
  exact .idle (x := p.fabric u) le

theorem addNetwork_weaves {name : String} {definition : Option Yaml}
    (h : p.addNetwork name definition u = (q, v)) : p.Weaves u q v := by
  unfold addNetwork at h
  dsimp only at h
  split at h
  · obtain ⟨rfl, rfl⟩ := Draw.pure_eq_iff.1 h
    exact .refl p u
  · next hk =>
    obtain ⟨id, w, hid, h⟩ := Draw.bind_eq_iff.1 h
    obtain ⟨rfl, rfl⟩ := Draw.pure_eq_iff.1 h
    have hfree : p.networks.get? (stackKey name) = none := by simpa [Table.contains] using hk
    have le := Supply.hex_advances 12 hid
    exact ⟨le, fun _ _ => .single
      (.declare (x := p.fabric u) hfree (Supply.hands_of_hex hid) rfl le)⟩

theorem addVolume_weaves {name : String} (h : p.addVolume name u = (q, v)) : p.Weaves u q v := by
  unfold addVolume at h
  dsimp only at h
  split at h
  · obtain ⟨rfl, rfl⟩ := Draw.pure_eq_iff.1 h
    exact .refl p u
  · next hk =>
    obtain ⟨id, w, hid, h⟩ := Draw.bind_eq_iff.1 h
    obtain ⟨rfl, rfl⟩ := Draw.pure_eq_iff.1 h
    have hfree : p.volumes.get? (stackKey name) = none := by simpa [Table.contains] using hk
    have le := Supply.hex_advances 12 hid
    exact ⟨le, fun _ _ => .single (.carry (x := p.fabric u) (fun _ d hd => ⟨d, hd, .refl d⟩)
      (fun _ hk => hk) (Table.within_insert hfree _) le)⟩

theorem addDeclared_weaves {doc : YamlMap} (h : p.addDeclared doc u = (q, v)) :
    p.Weaves u q v := by
  obtain ⟨p', w, h1, h2⟩ := Draw.bind_eq_iff.1 h
  have hnetworks : p.Weaves u p' w :=
    Draw.foldlM_keeps (R := Weaves) .refl .trans addNetwork_weaves h1
  have hvolumes : p'.Weaves w q v :=
    Draw.foldlM_keeps (R := Weaves) .refl .trans addVolume_weaves h2
  exact hnetworks.trans hvolumes

end Stack.Progress

open Stack.Progress (Weaves weaves_of_same tracked?_eq_some)

variable {p q : Stack.Progress} {svc : Service} {image : Image} {detached : Bool}

theorem mountOf_backed {volumes : Table Volume} {spec : String} {m : Mount}
    (h : mountOf volumes spec = some m) : m.Backed volumes := by
  unfold mountOf at h
  split at h
  · cases h
  · split at h
    · next hpath =>
      cases h
      exact .inl hpath
    · obtain ⟨volume, hvolume, rfl⟩ := Option.map_eq_some_iff.1 h
      exact .inr ⟨_, volume, hvolume, rfl⟩

/-- A container that is started again goes on with its links. -/
theorem restarted_weaves {c : Container} (found : p.tracked? svc.name = some c)
    (unheld : portConflict p.boundPorts c = none) (made : restart p svc image c u = (q, v)) :
    p.Weaves u q v := by
  obtain ⟨time, logs, event, w, shown, told, rfl⟩ := restart_spec unheld made
  obtain ⟨⟨id, -, hget⟩, ha⟩ := tracked?_eq_some.1 found
  have le := Supply.le_trans shown.le told.le
  refine ⟨le, fun _ hp => ?_⟩
  obtain rfl : c.id = id := hp.keyed hget
  refine .single (.carry (x := p.fabric u) (fun key d hd => ?_)
    (fun _ hk => contains_insert_of_contains hk) (.refl _) le)
  rw [Table.get?_insert] at hd
  split at hd
  · next hk =>
    cases hd
    exact ⟨c, hk ▸ hget, rfl, rfl, rfl, List.prefix_append _ _, fun _ => ha⟩
  · exact ⟨d, hd, .refl d⟩

/-- A container that is made joins the networks of its service. -/
theorem created_weaves {ports : List PortMapping}
    (made : create detached p svc image ports u = (q, v)) : p.Weaves u q v := by
  obtain ⟨id, time, logs, started, event, u1, u2, u3, h1, h2, h3, told, rfl⟩ := create_draws made
  have le : u1 ≤ v := Supply.le_trans (Supply.now_advances h2)
    (Supply.le_trans (startupLogs_advances _ h3) told.le)
  have le' := Supply.le_trans (Supply.containerId_advances h1) le
  refine ⟨le', fun _ _ => ?_⟩
  let c := serviceContainer p svc image ports id time logs
  have hjoined := attached_serviceContainer p svc image ports id time logs
  have hbacked : ∀ m ∈ c.mounts, m.Backed p.volumes := by
    intro m hm
    obtain ⟨spec, -, hspec⟩ := List.mem_filterMap.1 hm
    exact mountOf_backed hspec
  have hid : Supply.Hands u c.id v :=
    (Supply.hands_of_containerId h1).mono (Supply.le_refl _) le
  exact .single (.attach (x := p.fabric u) hid hjoined hbacked (startupLogs_ne_nil h3) le')

theorem BringsUp.weaves (h : BringsUp detached p svc image u q v) : p.Weaves u q v := by
  cases h with
  | restarted found _ unheld made => exact restarted_weaves found unheld made
  | created _ _ _ made => exact created_weaves made
  | _ => exact weaves_of_same rfl rfl rfl (Supply.le_refl u)

theorem bringUpAll_weaves {services : List Service} {images : Table Image} {order : List String}
    (h : bringUpAll detached services images order p u = (q, v)) : p.Weaves u q v :=
  bringUpAll_keeps (R := Weaves) .refl .trans BringsUp.weaves h

namespace Stack

theorem carryOut_steps {plan : Plan} (h : plan.carryOut r u = (o, v)) (hv : v.drawn < idLimit)
    (hx : (Fabric.of r.state u).Sound) : Steps (.of r.state u) (.of (r.state.take o) v) := by
  obtain ⟨p, w, q, hp, hq, rfl⟩ := plan.carryOut_spec h
  have hweaves := (Progress.addDeclared_weaves hp).trans (bringUpAll_weaves hq)
  have hfinal : Fabric.of (r.state.take (upOutcome (r.line.anySwitch ["d", "detach"]) r.state
      plan.warnings plan.order q)) v = q.fabric v := by
    unfold State.take
    rw [apply_upOutcome]
    rfl
  rw [hfinal]
  exact hweaves.steps hv hx

end Stack

end DockerSim
