import DockerSim.Proofs.Stack.Managed

/-!
# What `compose down` undoes

The services of a stack are taken down one after the other (`Lowers`): what is active of their
containers is removed, and its ports are released. Each service has a container of its own, so that
taking down one leaves the others to be taken down, and what the stack does not track stays as it is
(`TakenDown`).

With that a stack that was brought up where there was none leaves nothing behind in the index of
bound ports, the networks and the stacks (`Reached.down_undoes`).
-/

namespace DockerSim

open Command Stack

/-- The events tell that containers of services were stopped, one after the other. -/
def TellStops (es : List Event) (stopped : List (String × String)) : Prop :=
  es.map (fun e => (e.kind, e.payload.text? "service", e.payload.text? "containerId")) =
    stopped.map fun (service, id) => (.composeServiceStopped, some service, some id)

theorem tellStops_of_drawn {u v : Supply} {es : List Event} {service id : String}
    (h : Drawn u [.serviceStopped service id] es v) : TellStops es [(service, id)] := by
  obtain ⟨e, rfl, hk, hp⟩ := h.eq_one
  unfold TellStops
  rw [List.map_singleton, List.map_singleton, hk, hp]
  simp [Notice.kind, Notice.payload, Json.text?, Json.field?_canonical, Json.canonicalFields,
    Table.ofList, Table.get?_insert, Json.str?]

theorem TellStops.append {es fs : List Event} {stopped others : List (String × String)}
    (h : TellStops es stopped) (h' : TellStops fs others) :
    TellStops (es ++ fs) (stopped ++ others) := by
  unfold TellStops at *
  rw [List.map_append, List.map_append, h, h']

namespace Stack

/-- The stack tracks containers that are kept under their ids, one for each service. -/
structure Apart (stack : Stack) (containers : Table Container) : Prop where
  keyed : ∀ ⦃service id c⦄, stack.containerIds.get? service = some id →
    containers.get? id = some c → c.id = id
  distinct : ∀ ⦃service service' id⦄, stack.containerIds.get? service = some id →
    stack.containerIds.get? service' = some id → service = service'

variable {stack : Stack} {containers : Table Container} {t t' : Teardown} {service : String}
  {services : List String} {c : Container} {u v : Supply}

theorem active?_eq_some (h : stack.Apart containers) :
    stack.active? containers service = some c ↔
      stack.containerIds.get? service = some c.id ∧ containers.get? c.id = some c ∧
        c.isActive = true := by
  unfold active?
  rw [Option.filter_eq_some_iff, Option.bind_eq_some_iff]
  constructor
  · rintro ⟨⟨id, hid, hc⟩, ha⟩
    obtain rfl : c.id = id := h.keyed hid hc
    exact ⟨hid, hc, ha⟩
  · rintro ⟨hid, hc, ha⟩
    exact ⟨⟨c.id, hid, hc⟩, ha⟩

/-- The services of an order that have an active container, with the ids of these. -/
def stopped (stack : Stack) (containers : Table Container) (services : List String) :
    List (String × String) :=
  services.filterMap fun service =>
    (stack.active? containers service).map fun c => (service, c.id)

theorem mem_stopped {id : String} (h : stack.Apart containers) :
    (service, id) ∈ stack.stopped containers services ↔ service ∈ services ∧
      stack.containerIds.get? service = some id ∧
        ∃ c, containers.get? id = some c ∧ c.status ≠ .removed := by
  have hactive : ∀ c : Container, c.isActive = true ↔ c.status ≠ .removed :=
    fun _ => decide_eq_true_iff
  simp only [stopped, List.mem_filterMap, Option.map_eq_some_iff, Prod.mk.injEq]
  constructor
  · rintro ⟨_, hmem, c, hc, rfl, rfl⟩
    obtain ⟨hid, hget, ha⟩ := (active?_eq_some h).1 hc
    exact ⟨hmem, hid, c, hget, (hactive c).1 ha⟩
  · rintro ⟨hmem, hid, c, hget, ha⟩
    obtain rfl : c.id = id := h.keyed hid hget
    exact ⟨service, hmem, c, (active?_eq_some h).2 ⟨hid, hget, (hactive c).2 ha⟩, rfl, rfl⟩

theorem stopped_cons_of_none (h : stack.active? containers service = none) :
    stack.stopped containers (service :: services) = stack.stopped containers services :=
  List.filterMap_cons_none (congrArg _ h)

theorem stopped_cons_of_some (h : stack.active? containers service = some c) :
    stack.stopped containers (service :: services) =
      (service, c.id) :: stack.stopped containers services :=
  List.filterMap_cons_some (congrArg _ h)

theorem sublist_stopped (stack : Stack) (containers : Table Container) :
    ∀ services, ((stack.stopped containers services).map Prod.fst).Sublist services
  | [] => .slnil
  | service :: services => by
    have hrest := sublist_stopped stack containers services
    cases ha : stack.active? containers service with
    | none =>
      rw [stopped_cons_of_none ha]
      exact hrest.cons service
    | some c =>
      rw [stopped_cons_of_some ha]
      exact hrest.cons_cons service

/-- No container is stopped twice. -/
theorem nodup_stopped (h : stack.Apart containers) (hservices : services.Nodup) :
    ((stack.stopped containers services).map Prod.snd).Nodup := by
  have hpairs : (stack.stopped containers services).Nodup :=
    .of_map Prod.fst (hservices.sublist (sublist_stopped stack containers services))
  refine hpairs.map_on ?_
  rintro ⟨service, id⟩ hmem ⟨service', id'⟩ hmem' (rfl : id = id')
  rw [h.distinct ((mem_stopped h).1 hmem).2.1 ((mem_stopped h).1 hmem').2.1]

/-! ## Taking down services -/

/-- What taking down some services of a stack does. -/
structure Lowers (stack : Stack) (t : Teardown) (services : List String) (t' : Teardown) :
    Prop where
  removed : ∀ ⦃service c⦄, service ∈ services → stack.active? t.containers service = some c →
    ∃ time, t'.containers.get? c.id = some (c.removed time)
  others : ∀ ⦃id⦄, (∀ service ∈ services, ∀ c, stack.active? t.containers service = some c →
    c.id ≠ id) → t'.containers.get? id = t.containers.get? id
  ports : ∀ ⦃port id⦄, t'.boundPorts.get? port = some id ↔ t.boundPorts.get? port = some id ∧
    ∀ service ∈ services, ∀ c, stack.active? t.containers service = some c →
      ¬(c.id = id ∧ c.Publishes port)
  told : ∃ es, t'.events = t.events ++ es ∧ TellStops es (stack.stopped t.containers services)

theorem Apart.insert (h : stack.Apart containers) (c : Container) :
    stack.Apart (containers.insert c.id c) := by
  refine ⟨fun service id d hservice hd => ?_, h.distinct⟩
  rw [Table.get?_insert] at hd
  split at hd
  · next he =>
    cases hd
    exact he.symm
  · exact h.keyed hservice hd

theorem active?_insert {id : String} (h : stack.containerIds.get? service ≠ some id)
    (c : Container) :
    stack.active? (containers.insert id c) service = stack.active? containers service := by
  unfold active?
  cases hs : stack.containerIds.get? service with
  | none => rfl
  | some id' =>
    have hne : id' ≠ id := fun he => h (hs.trans (congrArg some he))
    rw [Option.bind_some, Option.bind_some, Table.get?_insert_of_ne _ _ hne]

namespace Lowers

theorem nil (stack : Stack) (t : Teardown) : stack.Lowers t [] t :=
  ⟨fun _ _ hmem => (nomatch hmem), fun _ _ => rfl, by simp, [], by simp, rfl⟩

/-- Nothing is taken down for a service, and then others are. -/
theorem pass (hnone : stack.active? t.containers service = none)
    (h : stack.Lowers t services t') : stack.Lowers t (service :: services) t' := by
  have absent : ∀ {c : Container}, stack.active? t.containers service ≠ some c := by
    intro c hc
    rw [hnone] at hc
    cases hc
  obtain ⟨es, hes, htold⟩ := h.told
  refine ⟨fun s c hmem hc => ?_, fun id hid => ?_, fun port id => ?_, es, hes, ?_⟩
  · rcases List.mem_cons.1 hmem with rfl | hmem
    · exact absurd hc absent
    · exact h.removed hmem hc
  · exact h.others fun s hmem => hid s (List.mem_cons_of_mem _ hmem)
  · rw [h.ports, List.forall_mem_cons]
    exact ⟨fun ⟨hold, hall⟩ => ⟨hold, fun c hc => absurd hc absent, hall⟩,
      fun ⟨hold, _, hall⟩ => ⟨hold, hall⟩⟩
  · rwa [stopped_cons_of_none hnone]

/-- The container of a service is taken down, and then those of others. -/
theorem take {time : Option Instant} {event : Event} {lines : List String}
    (hapart : stack.Apart t.containers) (hnew : service ∉ services)
    (hsome : stack.active? t.containers service = some c)
    (htold : TellStops [event] [(service, c.id)])
    (h : stack.Lowers
      { containers := t.containers.insert c.id (c.removed time)
        boundPorts := releasePorts t.boundPorts c
        events := t.events ++ [event], lines } services t') :
    stack.Lowers t (service :: services) t' := by
  obtain ⟨hid, -, -⟩ := (active?_eq_some hapart).1 hsome
  -- the other services are tracked by other ids
  have hother : ∀ s ∈ services, stack.containerIds.get? s ≠ some c.id :=
    fun s hmem hs => hnew (hapart.distinct hs hid ▸ hmem)
  have hsame : ∀ s ∈ services, stack.active? (t.containers.insert c.id (c.removed time)) s =
      stack.active? t.containers s := fun s hmem => active?_insert (hother s hmem) _
  have hne : ∀ s ∈ services, ∀ d,
      stack.active? (t.containers.insert c.id (c.removed time)) s = some d → d.id ≠ c.id := by
    intro s hmem d hd he
    rw [hsame s hmem] at hd
    exact hother s hmem (he ▸ ((active?_eq_some hapart).1 hd).1)
  have hlist : stack.stopped (t.containers.insert c.id (c.removed time)) services =
      stack.stopped t.containers services :=
    List.filterMap_congr fun s hmem => by rw [hsame s hmem]
  obtain ⟨es, hes, hrest⟩ := h.told
  refine ⟨fun s d hmem hd => ?_, fun id hall => ?_, fun port id => ?_, event :: es, ?_, ?_⟩
  · rcases List.mem_cons.1 hmem with rfl | hmem
    · rw [hsome, Option.some.injEq] at hd
      subst hd
      exact ⟨time, (h.others hne).trans (Table.get?_insert_self _ _ _)⟩
    · exact h.removed hmem ((hsame s hmem).trans hd)
  · obtain ⟨hfirst, hall⟩ := List.forall_mem_cons.1 hall
    rw [h.others fun s hmem d hd => hall s hmem d ((hsame s hmem).symm.trans hd),
      Table.get?_insert_of_ne _ _ (hfirst c hsome).symm]
  · rw [h.ports, releasePorts_eq_some, List.forall_mem_cons, and_assoc]
    refine and_congr_right fun _ => and_congr ?_ ?_
    · constructor
      · intro hfirst d hd
        rw [hsome, Option.some.injEq] at hd
        exact hd ▸ hfirst
      · exact fun hfirst => hfirst c hsome
    · refine forall_congr' fun s => forall_congr' fun hmem => ?_
      rw [hsame s hmem]
  · rw [hes, List.append_assoc, List.singleton_append]
  · rw [stopped_cons_of_some hsome, ← hlist]
    exact htold.append hrest

end Lowers

/-- **Services that are taken down in turn** are those that were active at first. -/
theorem takeDownAll_lowers :
    ∀ {services : List String} {t : Teardown} {u : Supply}, services.Nodup →
      stack.Apart t.containers → services.foldlM stack.takeDown t u = (t', v) →
      stack.Lowers t services t'
  | [], t, u, _, _, h => by
    obtain ⟨rfl, -⟩ := Draw.pure_eq_iff.1 h
    exact .nil stack t
  | service :: services, t, u, hnodup, hapart, h => by
    obtain ⟨hnew, hrest⟩ := List.nodup_cons.1 hnodup
    rw [List.foldlM_cons, Draw.bind_eq_iff] at h
    obtain ⟨t1, u1, h1, h2⟩ := h
    cases takeDown_cases h1 with
    | nothing absent => exact .pass absent (takeDownAll_lowers hrest hapart h2)
    | @removed c time _ _ _ found _ told _ =>
      exact .take hapart hnew found (tellStops_of_drawn told)
        (takeDownAll_lowers hrest (hapart.insert (c.removed time)) h2)

/-! ## The order in which services are taken down -/

/-- The services that are tracked but not started any more. -/
def stale (stack : Stack) : List String :=
  stack.containerIds.keys.filter fun name => !stack.services.contains name

theorem downOrder_eq (stack : Stack) :
    stack.downOrder = stack.stale.reverse ++ stack.services.reverse := List.reverse_append

theorem nodup_downOrder (h : stack.services.Nodup) : stack.downOrder.Nodup := by
  unfold downOrder
  rw [List.nodup_reverse, List.nodup_append]
  refine ⟨h, stack.containerIds.nodup_keys.filter _, fun name hname other hother he => ?_⟩
  have hfree := (List.mem_filter.1 hother).2
  rw [← he] at hfree
  simp [hname] at hfree

/-- Every service that is tracked has its turn. -/
theorem mem_downOrder {id : String} (h : stack.containerIds.get? service = some id) :
    service ∈ stack.downOrder := by
  unfold downOrder
  rw [List.mem_reverse, List.mem_append]
  by_cases hmem : service ∈ stack.services
  · exact .inl hmem
  · refine .inr (List.mem_filter.2 ⟨Table.mem_keys_iff.2 (Table.contains_iff.2 ⟨id, h⟩), ?_⟩)
    simp [hmem]

end Stack

/-! ## Stacks that are taken down -/

/-- A stack was taken down between two states, which the events tell, and nothing else changed. -/
structure TakenDown (stack : Stack) (s t : State) (es : List Event) : Prop where
  removed : ∀ ⦃service id⦄, stack.containerIds.get? service = some id →
    ∃ c, t.containers.get? id = some c ∧ c.status = .removed
  unbound : ∀ ⦃service id⦄, stack.containerIds.get? service = some id →
    ∀ port, t.boundPorts.get? port ≠ some id
  forgotten : t.composeStacks = s.composeStacks.erase State.stackName
  networks : t.networks = ∅
  /-- For each container that was not removed yet it is told that it was stopped, the services that
  were started last coming first, but behind those that are not started any more. -/
  told : ∃ stopped, TellStops es stopped ∧
    (stopped.map Prod.fst).Sublist (stack.stale.reverse ++ stack.services.reverse) ∧
    (stopped.map Prod.snd).Nodup ∧
    ∀ service id, (service, id) ∈ stopped ↔ stack.containerIds.get? service = some id ∧
      ∃ c, s.containers.get? id = some c ∧ c.status ≠ .removed
  containers : ∀ ⦃id⦄, (∀ service, stack.containerIds.get? service ≠ some id) →
    t.containers.get? id = s.containers.get? id
  ports : ∀ ⦃id⦄, (∀ service, stack.containerIds.get? service ≠ some id) →
    ∀ port, t.boundPorts.get? port = some id ↔ s.boundPorts.get? port = some id
  images : t.images = s.images
  volumes : t.volumes = s.volumes

namespace Stack

variable {r : Request} {o : Outcome}

/-- **A stack is taken down, and nothing else changes.** -/
theorem down_takesDown (h : down r u = (o, v)) (hstack : r.state.stack? = some stack)
    (hmanaged : r.state.Managed) (hapart : stack.Apart r.state.containers)
    (hindex : ExactIndex r.state.containers r.state.boundPorts)
    (htracks : ∀ ⦃service id⦄, stack.containerIds.get? service = some id →
      r.state.containers.contains id = true) :
    TakenDown stack r.state (r.state.apply o.delta) o.events := by
  obtain ⟨-, hempty⟩ := down_forgets h hmanaged
  obtain ⟨hname, hservices⟩ := hmanaged.stack hstack
  rcases down_cases h with ⟨hnone, -⟩ | ⟨stack', t, lines, hstack', h1, rfl⟩
  · cases hstack.symm.trans hnone
  obtain rfl : stack = stack' := Option.some.inj (hstack.symm.trans hstack')
  have hlowers := takeDownAll_lowers (nodup_downOrder hservices) hapart h1
  have hactive : ∀ {service : String} {c : Container},
      stack.active? r.state.containers service = some c ↔
        stack.containerIds.get? service = some c.id ∧
          r.state.containers.get? c.id = some c ∧ c.isActive = true := active?_eq_some hapart
  constructor
  case removed =>
    intro service id hid
    obtain ⟨c, hc⟩ := Table.contains_iff.1 (htracks hid)
    obtain rfl : c.id = id := hapart.keyed hid hc
    cases ha : c.isActive with
    | true =>
      obtain ⟨time, hremoved⟩ := hlowers.removed (mem_downOrder hid) (hactive.2 ⟨hid, hc, ha⟩)
      exact ⟨c.removed time, hremoved, rfl⟩
    | false =>
      have hremoved : c.status = .removed := by simpa [Container.isActive] using ha
      -- a container that was removed before is not the active one of any service
      refine ⟨c, (hlowers.others fun s _ d hd he => ?_).trans hc, hremoved⟩
      obtain ⟨-, hget, hda⟩ := hactive.1 hd
      rw [he, hc, Option.some.injEq] at hget
      rw [hget, hda] at ha
      cases ha
  case unbound =>
    intro service id hid port hport
    obtain ⟨hold, hfree⟩ := hlowers.ports.1 hport
    obtain ⟨c, hc, hr, hpub⟩ := (hindex port id).1 hold
    obtain rfl : c.id = id := hapart.keyed hid hc
    exact hfree service (mem_downOrder hid) c
      (hactive.2 ⟨hid, hc, Container.isActive_of_isRunning hr⟩) ⟨rfl, hpub⟩
  case forgotten =>
    show r.state.composeStacks.erase stack.name = _
    rw [hname]
  case networks => exact hempty
  case told =>
    obtain ⟨es, hes, htold⟩ := hlowers.told
    replace hes : t.events = es := hes
    rw [← hes] at htold
    refine ⟨_, htold, ?_, ?_, fun service id => ?_⟩
    · rw [← downOrder_eq]
      exact sublist_stopped stack r.state.containers stack.downOrder
    · exact nodup_stopped hapart (nodup_downOrder hservices)
    · refine (mem_stopped hapart).trans ⟨And.right, fun h => ⟨mem_downOrder h.1, h⟩⟩
  case containers =>
    intro id hid
    refine hlowers.others fun s _ c hc he => hid s ?_
    rw [← he]
    exact (hactive.1 hc).1
  case ports =>
    intro id hid port
    refine hlowers.ports.trans ⟨And.left, fun hold => ⟨hold, ?_⟩⟩
    rintro s - c hc ⟨rfl, -⟩
    exact hid s (hactive.1 hc).1
  case images => rfl
  case volumes => rfl

/-- Without a stack nothing is taken down. -/
theorem down_of_none (h : down r u = (o, v)) (hnone : r.state.stack? = none) : o.delta = {} := by
  rcases down_cases h with ⟨-, -, lines, rfl⟩ | ⟨stack, t, lines, hstack, -⟩
  · rfl
  · cases hnone.symm.trans hstack

end Stack

/-! ## Stacks that were brought up -/

/-- A stack was brought up between two states, and the ports of others stayed as they were. -/
structure BroughtUp (s : State) (stack : Stack) (t : State) : Prop where
  entered : t.composeStacks = s.composeStacks.insert State.stackName stack
  ports : ∀ ⦃port id⦄, s.boundPorts.get? port = some id ↔
    t.boundPorts.get? port = some id ∧ ∀ service, stack.containerIds.get? service ≠ some id

namespace Stack

/-- Where no stack was, one is brought up with new containers only. -/
theorem Plan.Checked.broughtUp {plan : Plan} (hplan : plan.Checked r.state.images)
    (h : plan.carryOut r u = (o, v)) (hnone : r.state.stack? = none)
    (hindex : ExactIndex r.state.containers r.state.boundPorts) (hs : r.state.Spares u v) :
    ∃ stack, BroughtUp r.state stack (r.state.apply o.delta) := by
  have hempty : r.state.tracked = ∅ := by
    unfold State.tracked
    rw [hnone]
    rfl
  have hkept : r.state.TrackedByIds := by
    unfold State.TrackedByIds
    rw [hempty]
    exact fun _ _ _ hid => nomatch hid
  obtain ⟨p, u1, q, hp, rfl, htries, -⟩ := hplan.carryOut_tries h hkept hs
  have hsame := (Progress.addDeclared_declares hp).same
  have htracked : p.tracked = ∅ := hsame.tracked.trans hempty
  have hcontainers : p.containers = r.state.containers := hsame.containers
  have hports : p.boundPorts = r.state.boundPorts := hsame.boundPorts
  rw [apply_upOutcome]
  refine ⟨_, rfl, fun port id =>
    ⟨fun hold => ⟨?_, fun service hid => ?_⟩, fun ⟨hnew, hother⟩ => ?_⟩⟩
  · exact htries.adds.ports (hports ▸ hold)
  · obtain ⟨c, hc, -⟩ := (hindex port id).1 hold
    rcases htries.adds.newTracked hid with htold | hfree
    · rw [htracked] at htold
      cases htold
    · rw [hcontainers, hc] at hfree
      cases hfree
  · rw [← hports]
    cases hbound : p.boundPorts.get? port with
    | none =>
      obtain ⟨name, -, hid⟩ := htries.adds.newPorts hbound hnew
      exact absurd hid (hother name)
    | some owner => rw [← htries.adds.ports hbound, ← hnew]

end Stack

/-- What was bound before a stack was brought up is bound when it is taken down. -/
theorem BroughtUp.boundPorts_restored {before s t : State} {stack : Stack} {es : List Event}
    (hup : BroughtUp before stack s) (hdown : TakenDown stack s t es) :
    t.boundPorts = before.boundPorts := by
  refine Table.ext_get? fun port => Option.ext fun id => ?_
  rw [hup.ports]
  constructor
  · intro hport
    have hother : ∀ service, stack.containerIds.get? service ≠ some id :=
      fun service hid => hdown.unbound hid port hport
    exact ⟨(hdown.ports hother port).1 hport, hother⟩
  · exact fun ⟨hport, hother⟩ => (hdown.ports hother port).2 hport

/-! ## Reached states -/

variable {s t : State} {u v : Supply} {a : Submission} {o : Outcome}

theorem Submission.down_of_run (hc : a.carried? = some "compose down")
    (h : a.run s u = ((t, o), v)) :
    down (a.commandRequest s) u = (o, v) ∧
      t = { (a.request s).state.take o with lastError := o.errorLine?, pending := none } :=
  a.subcommand_of_run hc h

/-- A line that comes to nothing leaves ports and stacks. -/
theorem Submission.run_unchanged (h : a.run s u = ((t, o), v)) (hdelta : o.delta = {}) :
    t.boundPorts = s.boundPorts ∧ t.composeStacks = s.composeStacks := by
  obtain ⟨-, rfl⟩ := run_eq_iff.1 h
  unfold State.take
  rw [hdelta]
  exact ⟨rfl, rfl⟩

namespace Reached

/-- The containers of a stack are kept under their ids, one for each service. -/
theorem apart (h : Reached s u) (hu : u.drawn < idLimit) {stack : Stack}
    (hstack : s.stack? = some stack) : stack.Apart s.containers := by
  refine ⟨fun _ _ _ _ hc => (h.ordered hu).agrees.containers hc,
    fun service service' id hid hid' => ?_⟩
  obtain ⟨c, hc, hname⟩ := h.stacks_named hu hstack hid
  obtain ⟨c', hc', hname'⟩ := h.stacks_named hu hstack hid'
  rw [hc, Option.some.injEq] at hc'
  rw [← hname, hc', hname']

/-- The stack of a reached state is taken down. -/
theorem takesDown (h : Reached s u) (hu : u.drawn < idLimit) (hc : a.carried? = some "compose down")
    (ha : a.run s u = ((t, o), v)) {stack : Stack} (hstack : s.stack? = some stack) :
    TakenDown stack s t o.events := by
  obtain ⟨hdown, rfl⟩ := a.down_of_run hc ha
  have hordered := h.ordered hu
  have hdone := down_takesDown (r := a.commandRequest s) hdown hstack ((h.managed hu).request a)
    (h.apart hu hstack) hordered.index (hordered.tracked hstack)
  exact ⟨hdone.removed, hdone.unbound, hdone.forgotten, hdone.networks, hdone.told,
    hdone.containers, hdone.ports, hdone.images, hdone.volumes⟩

/-- `compose up` leaves a stack that it brought up, or all is as it was. -/
theorem broughtUp (h : Reached s u) (hv : v.drawn < idLimit) (hnone : s.stack? = none)
    (hup : (CommandLine.parse a.raw).normalized.subcommand = some "compose up")
    (ha : a.run s u = ((t, o), v)) :
    (∃ stack, BroughtUp s stack t) ∨
      t.boundPorts = s.boundPorts ∧ t.composeStacks = s.composeStacks := by
  have hu := Nat.lt_of_le_of_lt (a.leads_anyway ha).moves.supply_le.drawn hv
  cases hc : a.carried? with
  | none =>
    obtain ⟨he, -⟩ := a.run_eq_iff.1 ha
    rcases evaluate_cases he with ⟨-, hp, -⟩ | ⟨sub, hsub, -⟩
    · exact .inr (a.run_unchanged ha hp.silent.delta)
    · cases hc.symm.trans hsub
  | some sub =>
    obtain rfl : sub = "compose up" :=
      Option.some.inj ((CommandLine.subcommand_of_carried? hc).1.symm.trans hup)
    obtain ⟨hrun, ht⟩ := a.up_of_run hc ha
    cases hplan : plan? (a.commandRequest s) with
    | none => exact .inr (a.run_unchanged ha (up_stops hplan hrun).2.1)
    | some plan =>
      rw [up_eq_carryOut hplan] at hrun
      have hspares := (h.ordered hu).spares hv
      obtain ⟨stack, hbrought⟩ := (checked_of_plan? hplan).broughtUp hrun hnone
        (h.ordered hu).index ⟨hspares.unused, hspares.few⟩
      rw [ht]
      exact .inl ⟨stack, hbrought.entered, hbrought.ports⟩

/-- **`compose down` undoes the stack and nothing else.** The containers that the stack of a reached
state tracks are removed and hold no port, as is told, and the stack and its networks are gone. So
when the stack was brought up where there was none, ports, networks and stacks are as they were
before that. -/
theorem down_undoes (hc : a.carried? = some "compose down") (ha : a.run s u = ((t, o), v))
    (hu : u.drawn < idLimit) :
    (Reached s u → ∀ stack, s.stack? = some stack → TakenDown stack s t o.events) ∧
    ∀ (before : State) (w : Supply) (b : Submission) (o' : Outcome),
      Reached before w → before.stack? = none →
      (CommandLine.parse b.raw).normalized.subcommand = some "compose up" →
      b.run before w = ((s, o'), u) →
        t.boundPorts = before.boundPorts ∧ t.networks = before.networks ∧
          t.composeStacks = before.composeStacks := by
  refine ⟨fun h stack hstack => h.takesDown hu hc ha hstack, fun before w b o' h hnone hup hb => ?_⟩
  have hw := Nat.lt_of_le_of_lt (b.leads_anyway hb).moves.supply_le.drawn hu
  have hs := h.run hb
  have hnetworks : t.networks = before.networks := by
    rw [(h.managed hw).networks_eq_empty hnone]
    obtain ⟨hdown, rfl⟩ := a.down_of_run hc ha
    exact (down_forgets (r := a.commandRequest s) hdown ((hs.managed hu).request a)).2
  rcases h.broughtUp hu hnone hup hb with ⟨stack, hbrought⟩ | ⟨hports, hstacks⟩
  · have hstack : s.stack? = some stack := by
      unfold State.stack?
      rw [hbrought.entered, Table.get?_insert_self]
    have hdone := hs.takesDown hu hc ha hstack
    refine ⟨hbrought.boundPorts_restored hdone, hnetworks, ?_⟩
    rw [hdone.forgotten, hbrought.entered, Table.erase_insert hnone]
  · have hstack : s.stack? = none := by
      unfold State.stack?
      rw [hstacks]
      exact hnone
    obtain ⟨hdown, -⟩ := a.down_of_run hc ha
    obtain ⟨hports', hstacks'⟩ := a.run_unchanged ha (down_of_none hdown hstack)
    exact ⟨hports'.trans hports, hnetworks, hstacks'.trans hstacks⟩

/-- A stack with a network and a port of the host. -/
def siteUp : Submission where
  raw := "docker compose up -d"
  files := some (.ofFiles [("compose.yml",
    "services:\n  web:\n    image: nginx:1.25\n    ports:\n      - \"8080:80\"\n" ++
    "    networks:\n      - front\nnetworks:\n  front:\n    driver: bridge\n")])
  stackFiles := ["compose.yml"]

/-- What was brought up is taken down, and a container that is not of the stack keeps its port. -/
theorem down_undoes_site :
    let lines : List Submission := [.ofLine "docker pull nginx:1.25",
      .ofLine "docker run -d -p 9090:80 --name other nginx:1.25"]
    let r := State.empty.submitAll lines .fresh
    let r' := siteUp.run r.1.1 r.2
    let r'' := (Submission.ofLine "docker compose down").run r'.1.1 r'.2
    (r'.1.1.boundPorts.keys = ["8080", "9090"] ∧
      r'.1.1.networks.keys = ["default_default", "default_front"]) ∧
    (∃ stack, r'.1.1.stack? = some stack ∧ TakenDown stack r'.1.1 r''.1.1 r''.1.2.events) ∧
    r''.1.1.boundPorts = r.1.1.boundPorts ∧ r''.1.1.networks = r.1.1.networks ∧
    r''.1.1.composeStacks = r.1.1.composeStacks := by
  intro lines r r' r''
  have computed : (r'.1.1.boundPorts.keys = ["8080", "9090"] ∧
      r'.1.1.networks.keys = ["default_default", "default_front"]) ∧
      r.1.1.stack?.isNone = true ∧ r'.1.1.stack?.isSome = true ∧ r'.2.drawn < idLimit ∧
      (Submission.ofLine "docker compose down").carried? = some "compose down" ∧
      (CommandLine.parse siteUp.raw).normalized.subcommand = some "compose up" := by
    decide +kernel
  obtain ⟨hup, hnone, hsome, hu, hdown, hraises⟩ := computed
  have hr'' : (Submission.ofLine "docker compose down").run r'.1.1 r'.2 = r'' := rfl
  have hr' : siteUp.run r.1.1 r.2 = r' := rfl
  have hr : State.empty.submitAll lines .fresh = r := rfl
  clear_value r''
  clear_value r'
  clear_value r
  have hreached : Reached r.1.1 r.2 := hr ▸ reached_submitAll lines
  obtain ⟨stack, hstack⟩ := Option.isSome_iff_exists.1 hsome
  obtain ⟨hundone, hrestored⟩ := down_undoes hdown hr'' hu
  exact ⟨hup, ⟨stack, hstack, hundone (hreached.run hr') stack hstack⟩,
    hrestored _ _ _ _ hreached (Option.isNone_iff_eq_none.1 hnone) hraises hr'⟩

end Reached

end DockerSim
