import DockerSim.Proofs.Reached
import DockerSim.Proofs.Refusals

/-!
# When `run` succeeds

`run` has many ways to be refused: without an image, with a name that is taken, with ports that are
not written as they should be or not free, on a network that does not exist. `Request.Runnable` is
that none of them is met; then, and only then, the line succeeds, and what it does is one container
more, running, with its ports in the index (`Request.Launched`). Everything else that the command
line may hold cannot make it fail.
-/

namespace DockerSim

open Command

variable {r : Request} {u v : Supply} {o : Outcome}

/-! ## The checks, one by one -/

theorem Request.firstArg_eq_ok_iff {form reference : String} :
    r.firstArg form = .ok reference ↔ r.line.args.head? = some reference := by
  unfold Request.firstArg
  cases r.line.args <;> simp

namespace Command

/-- A wanted network is there: it is builtin, or a record has its name or id. -/
def NetworkExists (networks : Table Network) (wanted : String) : Prop :=
  wanted ∈ builtinNetworks ∨
    ∃ key n, networks.get? key = some n ∧ (n.name = wanted ∨ n.id = wanted)

theorem chooseNetwork_isOk_iff {networks : Table Network} {wanted : Option String} :
    (∃ ids, chooseNetwork networks wanted = .ok ids) ↔
      ∀ w, wanted = some w → NetworkExists networks w := by
  unfold chooseNetwork NetworkExists
  cases wanted with
  | none => simp
  | some w =>
    simp only [Option.some.injEq, forall_eq', List.contains_iff_mem]
    by_cases hb : w ∈ builtinNetworks
    · simp [hb]
    · simp only [hb, if_false, false_or]
      cases hf : networks.find? fun n => n.name = w || n.id = w with
      | none =>
        have hnone := Table.find?_entries_eq_none_iff.1 hf
        simp only [Bool.or_eq_false_iff, decide_eq_false_iff_not] at hnone
        refine iff_of_false (by rintro ⟨ids, ⟨⟩⟩) ?_
        rintro ⟨key, n, hn, hname | hid⟩
        · exact (hnone hn).1 hname
        · exact (hnone hn).2 hid
      | some found =>
        obtain ⟨key, n⟩ := found
        have hmatch : n.name = w ∨ n.id = w := by simpa using List.find?_some hf
        have hn : networks.get? key = some n :=
          Table.get?_eq_some_iff.2 (List.mem_of_find?_eq_some hf)
        exact ⟨fun _ => ⟨key, n, hn, hmatch⟩, fun _ => ⟨[n.id], rfl⟩⟩

end Command

/-- Ports are claimed when all can be read, and they are different from each other and free. -/
theorem claimPorts_eq_ok_iff {bound : Table String} {specs : List String}
    {ports : List PortMapping} :
    claimPorts bound [] specs = .ok ports ↔
      specs.map PortMapping.ofText? = ports.map some ∧
        ports.Pairwise (fun p q => p.host ≠ q.host) ∧
        ∀ p ∈ ports, bound.get? p.hostKey = none := by
  rw [Claimed.claimPorts_eq_ok_iff .nil]
  constructor
  · rintro ⟨_, read, rfl, claimed⟩
    exact ⟨read, claimed.distinct, claimed.free⟩
  · rintro ⟨read, distinct, free⟩
    refine ⟨ports, read, rfl, free, distinct, fun p hp => ?_⟩
    -- what was read is in the range of ports
    have hmem : some p ∈ specs.map PortMapping.ofText? := read ▸ List.mem_map_of_mem hp
    obtain ⟨spec, -, hspec⟩ := List.mem_map.1 hmem
    exact ofText?_inRange hspec

namespace Request

/-- The name of the container: the one on the command line, or the one that is drawn. -/
def containerName (r : Request) (u : Supply) : String :=
  (r.line.value? ["name"]).getD (generateName r.state.containers u).1

theorem chooseName_containerName (r : Request) (u : Supply) :
    ∃ w, (chooseName r).run u = (.ok (r.containerName u), w) := by
  unfold chooseName containerName
  cases r.line.value? ["name"] with
  | some name => exact ⟨u, rfl⟩
  | none => exact ⟨_, Work.run_draw_ok_iff.2 rfl⟩

theorem name_of_prepares {plan : ContainerPlan} {volumes : Table Volume}
    (h : Prepares r u plan volumes v) : plan.name = r.containerName u := by
  obtain ⟨w, hchosen, -⟩ := h.drawn
  obtain ⟨w', hname⟩ := r.chooseName_containerName u
  rw [hname, Prod.mk.injEq, Except.ok.injEq] at hchosen
  exact hchosen.1.symm

/-- Nothing stands in the way of running a container. -/
structure Runnable (r : Request) (u : Supply) : Prop where
  image : ∃ reference i, r.line.args.head? = some reference ∧
    findImage r.state.images reference = some i
  name : ∀ ⦃key c⦄, r.state.containers.get? key = some c → c.isActive = true →
    c.name ≠ r.containerName u
  ports : ∃ ports : List PortMapping,
    (r.line.values ["p", "publish"]).map PortMapping.ofText? = ports.map some ∧
    ports.Pairwise (fun p q => p.host ≠ q.host) ∧
    ∀ p ∈ ports, r.state.boundPorts.get? p.hostKey = none
  network : ∀ wanted, r.line.value? ["network", "net"] = some wanted →
    NetworkExists r.state.networks wanted

/-- **The plan of a container is settled exactly when nothing stands in the way of it.** -/
theorem prepare_isOk_iff :
    (∃ plan volumes v, (prepare r).run u = (.ok (plan, volumes), v)) ↔ r.Runnable u := by
  constructor
  · rintro ⟨plan, volumes, v, h⟩
    have hprepares := prepare_eq_ok_iff.1 h
    obtain ⟨reference, hreference, himage⟩ := hprepares.image
    refine ⟨⟨reference, plan.image, firstArg_eq_ok_iff.1 hreference, himage⟩, ?_,
      ⟨plan.ports, claimPorts_eq_ok_iff.1 hprepares.ports⟩,
      chooseNetwork_isOk_iff.1 ⟨_, hprepares.networks⟩⟩
    rw [← name_of_prepares hprepares]
    exact isNameTaken_eq_false_iff.1 hprepares.free
  · rintro ⟨⟨reference, image, hreference, himage⟩, hfree, ⟨ports, hports⟩, hnetwork⟩
    obtain ⟨w, hname⟩ := r.chooseName_containerName u
    obtain ⟨networkIds, hnetwork⟩ := chooseNetwork_isOk_iff.2 hnetwork
    obtain ⟨⟨volumes, mounts⟩, v, hmounts⟩ :
        ∃ made v, addMounts r.state.volumes (r.line.values ["v", "volume"]) w = (made, v) :=
      ⟨_, _, rfl⟩
    refine ⟨{ name := r.containerName u, image, ports, networkIds, mounts
              env := environment (r.line.values ["e", "env"]) }, volumes, v, ?_⟩
    exact prepare_eq_ok_iff.2 ⟨⟨reference, firstArg_eq_ok_iff.2 hreference, himage⟩,
      isNameTaken_eq_false_iff.2 hfree, claimPorts_eq_ok_iff.2 hports, hnetwork, rfl,
      w, hname, hmounts⟩

/-! ## What a success leaves -/

/-- One container more, that was launched for the request: no other record changes, and its ports,
which were free, are the only ones that are new in the index. -/
structure Launched (r : Request) (u : Supply) (o : Outcome) (c : Container) : Prop where
  running : c.status = .running
  name : c.name = r.containerName u
  ports : (r.line.values ["p", "publish"]).map PortMapping.ofText? = c.ports.map some
  containers : (r.state.take o).containers = r.state.containers.insert c.id c
  free : ∀ ⦃port⦄, c.Publishes port → r.state.boundPorts.get? port = none
  bound : ∀ port owner, (r.state.take o).boundPorts.get? port = some owner ↔
    r.state.boundPorts.get? port = some owner ∨ c.Publishes port ∧ c.id = owner
  events : o.events.map Event.kind =
    .containerCreated :: (if c.ports = [] then [] else [.portBound]) ++ [.containerStarted]

theorem kinds_of_runEvents {c : Container} {es : List Event} (h : runEvents c u = (es, v)) :
    es.map Event.kind =
      .containerCreated :: (if c.ports = [] then [] else [.portBound]) ++ [.containerStarted] := by
  rw [(drawn_of_runEvents h).kinds]
  unfold Notice.ifPorts
  by_cases hp : c.ports = []
  · simp [hp, Notice.kind]
  · simp [hp, Notice.kind]

/-- A request that is not refused launches a container, under an id that was handed out for it. -/
theorem launched_of_launch (h : (launch r).run u = (.ok o, v)) :
    o.succeeded = true ∧ ∃ c, Supply.Hands u c.id v ∧ r.Launched u o c := by
  obtain ⟨plan, volumes, w, hprepared, hdone⟩ := launch_eq_ok_iff.1 h
  have hprepares := prepare_eq_ok_iff.1 hprepared
  obtain ⟨c, w', events, hc, he, rfl⟩ := carryOut_spec hdone
  obtain ⟨hmade, hname, hpublished⟩ := made_of_draw hc
  obtain ⟨hread, -, hunbound⟩ := claimPorts_eq_ok_iff.1 (hpublished ▸ hprepares.ports)
  have hfree : ∀ ⦃port⦄, c.Publishes port → r.state.boundPorts.get? port = none := by
    rintro _ ⟨p, hp, rfl⟩
    exact hunbound p hp
  have hid : Supply.Hands u c.id v :=
    hmade.id.mono (prepare_advances r hprepared) (runEvents_advances c he)
  have hbound : ∀ port owner, (bindPorts r.state.boundPorts plan.ports c.id).get? port =
      some owner ↔ r.state.boundPorts.get? port = some owner ∨
        c.Publishes port ∧ c.id = owner := by
    intro port owner
    rw [← hpublished, bindPorts_eq_some]
    by_cases hp : c.Publishes port
    · simp [hp, hfree hp]
    · simp [hp]
  exact ⟨rfl, c, hid, hmade.status, hname.trans (name_of_prepares hprepares), hread, rfl, hfree,
    hbound, kinds_of_runEvents he⟩

end Request

/-! ## The line -/

/-- **`run` succeeds exactly when nothing stands in the way.** An accepted `run` that does not ask
for help succeeds if its first argument names an image, its name is free, its ports can be read, are
different from each other and not bound, and its network exists, and in no other case. Then there is
one container more, which is running, and its ports are the only ones that are new in the index; it
is told that the container was created, that its ports were bound if it has any, and that it was
started. Otherwise no table changes and nothing is told. -/
theorem run_succeeds_iff (accepted : r.line.fault? = none) (hrun : r.line.subcommand = some "run")
    (hhelp : r.line.wantsHelp = false) (h : evaluate r u = (o, v))
    (fresh : ∀ ⦃id⦄, Supply.Hands u id v → r.state.containers.get? id = none) :
    (o.succeeded = true ↔ r.Runnable u) ∧
      (o.succeeded = true → ∃ c, r.state.containers.get? c.id = none ∧ r.Launched u o c) ∧
      (o.succeeded = false → o.delta = {} ∧ o.events = []) := by
  have hcarried : r.line.carried? = some "run" :=
    CommandLine.carried?_of_accepted accepted hrun hhelp (by decide)
  have hself : r.line.normalized = r.line :=
    CommandLine.normalized_eq_self (by rw [hrun]; decide)
  rw [evaluate_eq_runSubcommand hcarried, hself] at h
  replace h : Outcome.ofWork (launch r) u = (o, v) := h
  rcases Work.ofWork_cases h with ⟨refusal, hrefused, rfl⟩ | hdone
  · refine ⟨iff_of_false Bool.false_ne_true ?_, fun hs => ?_, fun _ => ⟨rfl, rfl⟩⟩
    · -- what can be prepared is carried out, and carrying out is never refused
      intro hrunnable
      obtain ⟨plan, volumes, w, hprepared⟩ := Request.prepare_isOk_iff.2 hrunnable
      obtain ⟨o, v', hdone⟩ : ∃ o v', carryOut r plan volumes w = (o, v') := ⟨_, _, rfl⟩
      rw [launch_eq_ok_iff.2 ⟨plan, volumes, w, hprepared, hdone⟩] at hrefused
      cases hrefused
    · cases hs
  · obtain ⟨hs, c, hid, hlaunched⟩ := Request.launched_of_launch hdone
    obtain ⟨plan, volumes, w, hprepared, -⟩ := launch_eq_ok_iff.1 hdone
    refine ⟨iff_of_true hs (Request.prepare_isOk_iff.1 ⟨plan, volumes, w, hprepared⟩),
      fun _ => ⟨c, fresh hid, hlaunched⟩, fun hf => ?_⟩
    rw [hs] at hf
    cases hf

/-- Beside a container that publishes port 8080, one with another port is run, and one with the
same port is not. -/
theorem run_succeeds_iff_beside_web :
    let r := State.empty.submitAll Reached.webLines .fresh
    let fits :=
      (Submission.ofLine "docker run -d -p 8081:80 --name shop --network host nginx").request r.1.1
    let clashes := (Submission.ofLine "docker run -d -p 8080:80 nginx").request r.1.1
    let e := evaluate fits r.2
    let e' := evaluate clashes r.2
    (fits.Runnable r.2 ∧
      ∃ c, fits.state.containers.get? c.id = none ∧ fits.Launched r.2 e.1 c) ∧
      ¬clashes.Runnable r.2 ∧ e'.1.delta = {} ∧ e'.1.events = [] := by
  intro r fits clashes e e'
  have computed :
      (fits.line.fault? = none ∧ fits.line.subcommand = some "run" ∧
        fits.line.wantsHelp = false ∧ e.1.succeeded = true ∧ e.2.drawn < idLimit) ∧
      clashes.line.fault? = none ∧ clashes.line.subcommand = some "run" ∧
        clashes.line.wantsHelp = false ∧ e'.1.succeeded = false ∧ e'.2.drawn < idLimit := by
    decide +kernel
  obtain ⟨⟨hf, hsub, hhelp, hs, hdrawn⟩, hf', hsub', hhelp', hs', hdrawn'⟩ := computed
  have he : evaluate fits r.2 = e := rfl
  have he' : evaluate clashes r.2 = e' := rfl
  have hr : State.empty.submitAll Reached.webLines .fresh = r := rfl
  clear_value e e' r
  have hreached : Reached r.1.1 r.2 := hr ▸ reached_submitAll Reached.webLines
  obtain ⟨hiff, hsuccess, -⟩ := run_succeeds_iff hf hsub hhelp he fun id hid =>
    hreached.unused hid hdrawn
  obtain ⟨hiff', -, hfailure⟩ := run_succeeds_iff hf' hsub' hhelp' he' fun id hid =>
    hreached.unused hid hdrawn'
  refine ⟨⟨hiff.1 hs, hsuccess hs⟩, fun hrunnable => ?_, hfailure hs'⟩
  rw [hiff'.2 hrunnable] at hs'
  cases hs'

end DockerSim
