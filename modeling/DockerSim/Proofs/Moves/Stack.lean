import DockerSim.Proofs.FindingLines
import DockerSim.Proofs.Moves.Targets

/-!
# Moves of `compose up` and `compose down`

Every service is at most one move: `bringUp` creates its container or starts it again, and
`takeDown` removes it. Along `compose up` the stack tracks only containers that it tracked before or
that exist (`Tracking`).
-/

namespace DockerSim

open Command Stack

variable {terms : Terms} {u v w : Supply} {r : Request} {o : Outcome} {s : State}

/-- A container found through the stack is active and stands in the table. -/
theorem trackedContainer_spec {ids : Table String} {containers : Table Container} {service : String}
    {c : Container}
    (h : ((ids.get? service).bind containers.get?).filter Container.isActive = some c) :
    c.isActive = true ∧ ∃ id, ids.get? service = some id ∧ containers.get? id = some c := by
  obtain ⟨h, ha⟩ := Option.filter_eq_some_iff.1 h
  obtain ⟨id, hi, hc⟩ := Option.bind_eq_some_iff.1 h
  exact ⟨ha, id, hi, hc⟩

/-! ## Bringing up -/

namespace Stack.Progress

/-- What was done so far, as a scene of the state it began with. -/
def scene (s : State) (p : Stack.Progress) (u : Supply) : Scene :=
  { images := s.images, containers := p.containers, boundPorts := p.boundPorts
    log := s.eventLog ++ p.events, supply := u }

theorem scene_next {p : Stack.Progress} {containers : Table Container}
    {boundPorts tracked : Table String} {networks : Table Network} {lines : List String}
    {es : List Event} :
    Stack.Progress.scene s { p with
      containers, boundPorts, networks, tracked, lines, events := p.events ++ es } v =
      { p.scene s u with
        containers, boundPorts, log := (p.scene s u).log ++ es, supply := v } := by
  simp [scene]

/-- The stack tracks what it tracked before, and containers that exist. -/
def Tracking (s : State) (p : Stack.Progress) : Prop :=
  ∀ ⦃service id⦄, p.tracked.get? service = some id →
    p.containers.contains id = true ∨
      ∃ old, s.stack? = some old ∧ old.containerIds.get? service = some id

theorem tracking_start (s : State) : (Stack.Progress.start s).Tracking s := by
  intro service id h
  unfold Stack.Progress.start at h
  cases hs : s.stack? with
  | none => simp [hs] at h
  | some old => exact .inr ⟨old, rfl, by simpa [hs] using h⟩

/-- The containers, the ports, the events and what is tracked are the same, and no volume is
lost. -/
structure Same (p q : Stack.Progress) : Prop where
  containers : q.containers = p.containers
  boundPorts : q.boundPorts = p.boundPorts
  events : q.events = p.events
  tracked : q.tracked = p.tracked
  volumes : p.volumes.Within q.volumes

theorem Same.rfl {p : Stack.Progress} : p.Same p := ⟨.refl _, .refl _, .refl _, .refl _, .refl _⟩

theorem Same.trans {p q t : Stack.Progress} (h : p.Same q) (h' : q.Same t) : p.Same t :=
  ⟨h'.containers.trans h.containers, h'.boundPorts.trans h.boundPorts,
    h'.events.trans h.events, h'.tracked.trans h.tracked, h.volumes.trans h'.volumes⟩

/-- One step of the work: some moves, after which the stack still tracks what exists and has its
volumes. -/
structure Works (terms : Terms) (s : State) (p : Stack.Progress) (u : Supply) (q : Stack.Progress)
    (v : Supply) : Prop where
  moves : Moves terms (p.scene s u) (q.scene s v)
  tracking : p.Tracking s → q.Tracking s
  volumes : p.volumes.Within q.volumes

theorem Works.of_same {p q : Stack.Progress} (h : p.Same q) (hle : u ≤ v) :
    Works terms s p u q v := by
  refine ⟨?_, ?_, h.volumes⟩
  · have : q.scene s v = { p.scene s u with supply := v } := by
      simp [scene, h.containers, h.boundPorts, h.events]
    rw [this]
    exact .idle hle
  · intro ht service id hi
    rw [h.tracked] at hi
    rw [h.containers]
    exact ht hi

theorem Works.trans {p q t : Stack.Progress} (h : Works terms s p u q v)
    (h' : Works terms s q v t w) : Works terms s p u t w :=
  ⟨h.moves.trans h'.moves, fun ht => h'.tracking (h.tracking ht), h.volumes.trans h'.volumes⟩

/-- Networks or volumes were made, and nothing else. The networks are those of the stack, and no
container has joined them. -/
structure Declares (p : Stack.Progress) (u : Supply) (q : Stack.Progress) (v : Supply) : Prop where
  same : p.Same q
  networks : p.networks.Within q.networks
  declared : ∀ ⦃key n⦄, p.networks.get? key = none → q.networks.get? key = some n →
    (∃ name, key = stackKey name) ∧ n.containerIds = []
  failed : q.failed = p.failed
  le : u ≤ v

theorem Declares.refl (p : Stack.Progress) (u : Supply) : p.Declares u p u := by
  refine ⟨.rfl, .refl _, fun key n hp hn => ?_, rfl, Supply.le_refl u⟩
  rw [hp] at hn
  cases hn

theorem Declares.trans {p q t : Stack.Progress} (h : p.Declares u q v) (h' : q.Declares v t w) :
    p.Declares u t w where
  same := h.same.trans h'.same
  networks := h.networks.trans h'.networks
  declared key n hp hn := by
    cases hq : q.networks.get? key with
    | none => exact h'.declared hq hn
    | some n' =>
      rw [h'.networks hq] at hn
      cases hn
      exact h.declared hp hq
  failed := h'.failed.trans h.failed
  le := Supply.le_trans h.le h'.le

theorem addNetwork_declares {p q : Stack.Progress} {name : String} {definition : Option Yaml}
    (h : p.addNetwork name definition u = (q, v)) : p.Declares u q v := by
  unfold addNetwork at h
  dsimp only at h
  split at h
  · obtain ⟨rfl, rfl⟩ := Draw.pure_eq_iff.1 h
    exact .refl _ _
  · next hk =>
    obtain ⟨id, u1, h1, h2⟩ := Draw.bind_eq_iff.1 h
    obtain ⟨rfl, rfl⟩ := Draw.pure_eq_iff.1 h2
    have hnone : p.networks.get? (stackKey name) = none := by simpa [Table.contains] using hk
    refine ⟨⟨rfl, rfl, rfl, rfl, .refl _⟩, Table.within_insert hnone _, fun key n hp hn => ?_, rfl,
      Supply.hex_advances 12 h1⟩
    replace hn : (p.networks.insert (stackKey name) _).get? key = some n := hn
    rw [Table.get?_insert] at hn
    split at hn
    · next he =>
      cases hn
      exact ⟨⟨name, he⟩, rfl⟩
    · rw [hp] at hn
      cases hn

theorem addVolume_declares {p q : Stack.Progress} {name : String}
    (h : p.addVolume name u = (q, v)) : p.Declares u q v := by
  unfold addVolume at h
  dsimp only at h
  split at h
  · obtain ⟨rfl, rfl⟩ := Draw.pure_eq_iff.1 h
    exact .refl _ _
  · next hk =>
    obtain ⟨id, u1, h1, h2⟩ := Draw.bind_eq_iff.1 h
    obtain ⟨rfl, rfl⟩ := Draw.pure_eq_iff.1 h2
    have hnone : p.volumes.get? (stackKey name) = none := by simpa [Table.contains] using hk
    refine ⟨⟨rfl, rfl, rfl, rfl, Table.within_insert hnone _⟩, .refl _, fun key n hp hn => ?_, rfl,
      Supply.hex_advances 12 h1⟩
    replace hn : p.networks.get? key = some n := hn
    rw [hp] at hn
    cases hn

theorem addDeclared_declares {p q : Stack.Progress} {doc : YamlMap}
    (h : p.addDeclared doc u = (q, v)) : p.Declares u q v := by
  obtain ⟨p', u1, h1, h2⟩ := Draw.bind_eq_iff.1 h
  have hnetworks : p.Declares u p' u1 :=
    Draw.foldlM_keeps (R := Declares) .refl .trans addNetwork_declares h1
  have hvolumes : p'.Declares u1 q v :=
    Draw.foldlM_keeps (R := Declares) .refl .trans addVolume_declares h2
  exact hnetworks.trans hvolumes

end Stack.Progress

open Stack.Progress (Works)

variable {p q : Stack.Progress} {svc : Service} {image : Image}

/-- The outcomes of bringing up a service: it runs already; its container is started again, unless
another one holds a port of it; or a container is made, unless the name or a port is taken. -/
inductive BringsUp (detached : Bool) (p : Stack.Progress) (svc : Service) (image : Image)
    (u : Supply) : Stack.Progress → Supply → Prop
  | already {c : Container} (found : p.tracked? svc.name = some c) (running : c.isRunning = true) :
    BringsUp detached p svc image u (p.say (" ✔ Container " ++ svc.name ++ "  Running")) u
  | held {c : Container} {port : PortMapping} (found : p.tracked? svc.name = some c)
      (idle : c.isRunning = false) (held : portConflict p.boundPorts c = some port) :
    BringsUp detached p svc image u (p.fail svc.name (portTakenLine port.host)) u
  | restarted {c : Container} {q : Stack.Progress} {v : Supply}
      (found : p.tracked? svc.name = some c) (idle : c.isRunning = false)
      (unheld : portConflict p.boundPorts c = none) (made : restart p svc image c u = (q, v)) :
    BringsUp detached p svc image u q v
  | nameTaken (absent : p.tracked? svc.name = none)
      (taken : isNameTaken p.containers svc.name = true) :
    BringsUp detached p svc image u (p.fail svc.name (nameTakenLine svc.name)) u
  | portTaken {port : Nat} (absent : p.tracked? svc.name = none)
      (free : isNameTaken p.containers svc.name = false)
      (taken : claimServicePorts p.boundPorts [] svc.ports = .error port) :
    BringsUp detached p svc image u (p.fail svc.name (portTakenLine port)) u
  | created {ports : List PortMapping} {q : Stack.Progress} {v : Supply}
      (absent : p.tracked? svc.name = none) (free : isNameTaken p.containers svc.name = false)
      (claimed : claimServicePorts p.boundPorts [] svc.ports = .ok ports)
      (made : create detached p svc image ports u = (q, v)) :
    BringsUp detached p svc image u q v

variable {detached : Bool}

theorem bringUp_cases (h : bringUp detached p svc image u = (q, v)) :
    BringsUp detached p svc image u q v := by
  unfold bringUp at h
  cases ht : p.tracked? svc.name with
  | some c =>
    simp only [ht] at h
    cases hr : c.isRunning with
    | true =>
      simp only [hr, if_true, Draw.pure_eq_iff] at h
      obtain ⟨rfl, rfl⟩ := h
      exact .already ht hr
    | false =>
      simp only [hr, Bool.false_eq_true, if_false] at h
      cases hc : portConflict p.boundPorts c with
      | some port =>
        unfold restart at h
        simp only [hc, Draw.pure_eq_iff] at h
        obtain ⟨rfl, rfl⟩ := h
        exact .held ht hr hc
      | none => exact .restarted ht hr hc h
  | none =>
    simp only [ht] at h
    cases hn : isNameTaken p.containers svc.name with
    | true =>
      simp only [hn, if_true, Draw.pure_eq_iff] at h
      obtain ⟨rfl, rfl⟩ := h
      exact .nameTaken ht hn
    | false =>
      simp only [hn, Bool.false_eq_true, if_false] at h
      cases hp : claimServicePorts p.boundPorts [] svc.ports with
      | error port =>
        simp only [hp, Draw.pure_eq_iff] at h
        obtain ⟨rfl, rfl⟩ := h
        exact .portTaken ht hn hp
      | ok ports =>
        simp only [hp] at h
        exact .created ht hn hp h

/-- A container that is started again is put back as it was, but running. -/
theorem restart_spec {c : Container} (unheld : portConflict p.boundPorts c = none)
    (h : restart p svc image c u = (q, v)) :
    ∃ time logs event u1, Supply.Shows u time u1 ∧
      Drawn u1 [.serviceStarted svc.name c.id image] [event] v ∧
      q = { p with
        boundPorts := bindPorts p.boundPorts c.ports c.id
        containers := p.containers.insert c.id (c.started time logs)
        lines := p.lines ++ [" ✔ Container " ++ svc.name ++ "  Started"]
        events := p.events ++ [event] } := by
  unfold restart at h
  simp only [unheld, Draw.bind_eq_iff, Draw.pure_eq_iff] at h
  obtain ⟨time, u1, h1, logs, u2, h2, event, u3, h3, rfl, rfl⟩ := h
  have shown := (Supply.shows_of_now h1).mono (Supply.le_refl _) (startupLogs_advances _ h2)
  exact ⟨time, logs, event, u2, shown, drawn_of_serviceStartedEvent h3, rfl⟩

/-- The container that is made for a service, with the id, the time and the output it draws. -/
def serviceContainer (p : Stack.Progress) (svc : Service) (image : Image)
    (ports : List PortMapping) (id : String) (time : Instant) (logs : List String) : Container where
  id
  name := svc.name
  imageId := image.id
  status := .running
  ports
  env := .ofList svc.environment
  createdAt := time
  startedAt := some time
  stoppedAt := none
  logs
  networkIds := ((joinedNetworks svc).foldl (joinOne id) (p.networks, [])).2
  mounts := svc.volumes.filterMap (mountOf p.volumes)

/-- The draws of a container that is made for a service, and what becomes of the stack with it. -/
theorem create_draws {ports : List PortMapping}
    (h : create detached p svc image ports u = (q, v)) :
    ∃ (id : String) (time : Instant) (logs started : List String) (event : Event)
      (u1 u2 u3 : Supply),
      Supply.containerId u = (id, u1) ∧ Supply.now u1 = (time, u2) ∧
      Startup.logs image.key u2 = (logs, u3) ∧
      Drawn u3 [.serviceStarted svc.name id image] [event] v ∧
      q = { p with
        boundPorts := bindPorts p.boundPorts ports id
        networks := ((joinedNetworks svc).foldl (joinOne id) (p.networks, [])).1
        containers := p.containers.insert id (serviceContainer p svc image ports id time logs)
        tracked := p.tracked.insert svc.name id
        events := p.events ++ [event]
        lines := p.lines ++ [" ✔ Container " ++ svc.name ++ "  Created"] ++ started } := by
  unfold create at h
  simp only [Draw.bind_eq_iff, Draw.pure_eq_iff] at h
  obtain ⟨id, u1, h1, time, u2, h2, logs, u3, h3, event, u4, h4, rfl, rfl⟩ := h
  exact ⟨id, time, logs, _, event, u1, u2, u3, h1, h2, h3, drawn_of_serviceStartedEvent h4, rfl⟩

/-- A container that is made has the name of its service, is tracked for it and joins its
networks. -/
theorem create_spec {ports : List PortMapping}
    (h : create detached p svc image ports u = (q, v)) :
    ∃ (c : Container) (started : List String) (event : Event) (u1 : Supply),
      c.name = svc.name ∧ c.ports = ports ∧ c.Made u u1 ∧
      Drawn u1 [.serviceStarted svc.name c.id image] [event] v ∧
      q = { p with
        boundPorts := bindPorts p.boundPorts c.ports c.id
        networks := ((joinedNetworks svc).foldl (joinOne c.id) (p.networks, [])).1
        containers := p.containers.insert c.id c
        tracked := p.tracked.insert svc.name c.id
        events := p.events ++ [event]
        lines := p.lines ++ [" ✔ Container " ++ svc.name ++ "  Created"] ++ started } := by
  obtain ⟨id, time, logs, started, event, u1, u2, u3, h1, h2, h3, told, rfl⟩ := create_draws h
  have ht := Supply.shows_of_now h2
  have hlogs := startupLogs_advances _ h3
  refine ⟨serviceContainer p svc image ports id time logs, started, event, u3, rfl, rfl, ?_, told,
    rfl⟩
  exact ⟨(Supply.hands_of_containerId h1).mono (Supply.le_refl _) (Supply.le_trans ht.le hlogs),
    rfl, ht.mono (Supply.containerId_advances h1) hlogs, rfl, rfl⟩

theorem BringsUp.works (bringing : terms.bringsUp) (h : BringsUp detached p svc image u q v) :
    Works terms s p u q v := by
  cases h with
  | already _ _ => exact .of_same ⟨rfl, rfl, rfl, rfl, .refl _⟩ (Supply.le_refl _)
  | held _ _ _ => exact .of_same ⟨rfl, rfl, rfl, rfl, .refl _⟩ (Supply.le_refl _)
  | nameTaken _ _ => exact .of_same ⟨rfl, rfl, rfl, rfl, .refl _⟩ (Supply.le_refl _)
  | portTaken _ _ _ => exact .of_same ⟨rfl, rfl, rfl, rfl, .refl _⟩ (Supply.le_refl _)
  | restarted found idle unheld made =>
    obtain ⟨active, key, -, hk⟩ := trackedContainer_spec found
    obtain ⟨time, logs, event, u1, shown, told, rfl⟩ := restart_spec unheld made
    refine ⟨?_, fun ht service id hi => (ht hi).imp contains_insert_of_contains fun h => h, .refl _⟩
    rw [Stack.Progress.scene_next (u := u)]
    exact .single (.start (Terms.not_drops bringing (by decide)) hk active idle unheld shown
      (.service svc.name image) told)
  | created _ free claimed made =>
    obtain ⟨c, started, event, u1, hname, rfl, hmade, told, rfl⟩ := create_spec made
    refine ⟨?_, ?_, .refl _⟩
    · rw [Stack.Progress.scene_next (u := u)]
      exact .single (.create (.inr bringing) (hname ▸ free) (.of_claimServicePorts .nil claimed)
        hmade (.service svc.name image) told)
    · intro htrack service id hi
      rw [Table.get?_insert] at hi
      split at hi
      · cases hi
        exact .inl (Table.contains_iff.2 ⟨c, Table.get?_insert_self _ _ _⟩)
      · exact (htrack hi).imp contains_insert_of_contains fun h => h

/-- The first service of an order is brought up, if the file has it and its image is there, and then
the others are. -/
theorem bringUpAll_cons {services : List Service} {images : Table Image} {name : String}
    {order : List String}
    (h : bringUpAll detached services images (name :: order) p u = (q, v)) :
    ∃ p' w, bringUpAll detached services images order p' w = (q, v) ∧
      (∀ svc image, serviceWithImage services images name = some (svc, image) →
        bringUp detached p svc image u = (p', w)) ∧
      (serviceWithImage services images name = none → p' = p) := by
  unfold bringUpAll at h
  rw [List.foldlM_cons, Draw.bind_eq_iff] at h
  obtain ⟨p', w, h1, h2⟩ := h
  refine ⟨p', w, h2, fun svc image hsvc => ?_, fun hnone => ?_⟩
  · simpa only [hsvc] using h1
  · simp only [hnone] at h1
    exact (Draw.pure_eq_iff.1 h1).1.symm

/-- What bringing up one service keeps, bringing up the services of an order keeps. -/
theorem bringUpAll_keeps {R : Stack.Progress → Supply → Stack.Progress → Supply → Prop}
    {services : List Service} {images : Table Image} {order : List String}
    (refl : ∀ p u, R p u p u)
    (trans : ∀ {p q t u v w}, R p u q v → R q v t w → R p u t w)
    (step : ∀ {p q svc image u v}, BringsUp detached p svc image u q v → R p u q v)
    (h : bringUpAll detached services images order p u = (q, v)) : R p u q v := by
  refine Draw.foldlM_keeps refl trans ?_ h
  intro p name q u v h
  cases hs : serviceWithImage services images name with
  | some found =>
    simp only [hs] at h
    exact step (bringUp_cases h)
  | none =>
    simp only [hs] at h
    obtain ⟨rfl, rfl⟩ := Draw.pure_eq_iff.1 h
    exact refl p u

theorem bringUpAll_works {services : List Service} {images : Table Image}
    {order : List String} (bringing : terms.bringsUp)
    (h : bringUpAll detached services images order p u = (q, v)) :
    Works terms s p u q v :=
  bringUpAll_keeps (fun _ _ => .of_same .rfl (Supply.le_refl _)) Works.trans
    (fun hup => hup.works bringing) h

/-- The outcome shows what was done. -/
theorem upOutcome_effect {warnings order : List String}
    (bringing : terms.bringsUp) (h : Works terms s (.start s) u p v) :
    Effect terms s u (upOutcome detached s warnings order p) v := by
  obtain ⟨hm, ht, hvolumes⟩ := h
  refine ⟨?_, ?_, ?_⟩
  · have h0 : (Stack.Progress.start s).scene s u = .of s u := by
      simp [Stack.Progress.scene, Stack.Progress.start, Scene.of]
    have h1 : Scene.of (s.take (upOutcome detached s warnings order p)) v = p.scene s v := by
      simp [State.take, State.apply, State.record, upOutcome, Scene.of, Stack.Progress.scene,
        getD_changedFrom]
    rw [h1, ← h0]
    exact hm
  · intro name stack hs
    simp only [State.take, State.apply, State.record, upOutcome, getD_changedFrom,
      Table.get?_insert] at hs ⊢
    split at hs
    · cases hs
      exact .inr ⟨bringing, ht (Stack.Progress.tracking_start s)⟩
    · exact .inl hs
  · replace hvolumes : s.volumes.Within p.volumes := hvolumes
    simpa only [State.take, State.apply, State.record, upOutcome, getD_changedFrom] using hvolumes

theorem rejectFile_effect {path : String} {warnings : List String} {errors : List Finding}
    (lines : ∀ f ∈ errors, terms.lines f.line)
    (h : rejectFile path warnings errors u = (o, v)) : Effect terms s u o v := by
  unfold rejectFile at h
  simp only [Draw.bind_eq_iff, Draw.pure_eq_iff] at h
  obtain ⟨failed, u1, h1, rfl, rfl⟩ := h
  exact .of_note (.stackFailed path errors) rfl lines (.one h1)

theorem upServices_effect {doc : YamlMap} {warnings : List String} (bringing : terms.bringsUp)
    (h : upServices r doc warnings u = (o, v)) : Effect terms r.state u o v := by
  unfold upServices at h
  dsimp only at h
  split at h
  · obtain ⟨rfl, rfl⟩ := Draw.pure_eq_iff.1 h
    exact .of_silent rfl rfl (Supply.le_refl _)
  · split at h
    · obtain ⟨rfl, rfl⟩ := Draw.pure_eq_iff.1 h
      exact .of_silent rfl rfl (Supply.le_refl _)
    · cases ho : Service.startOrder (Service.ofDocument doc) with
      | none =>
        simp only [ho, Draw.pure_eq_iff] at h
        obtain ⟨rfl, rfl⟩ := h
        exact .of_silent rfl rfl (Supply.le_refl _)
      | some order =>
        simp only [ho] at h
        obtain ⟨p, u1, h1, h⟩ := Draw.bind_eq_iff.1 h
        obtain ⟨q, u2, h2, h⟩ := Draw.bind_eq_iff.1 h
        obtain ⟨rfl, rfl⟩ := Draw.pure_eq_iff.1 h
        have hdeclares := Stack.Progress.addDeclared_declares h1
        have declared : Works terms r.state _ u p u1 := .of_same hdeclares.same hdeclares.le
        exact upOutcome_effect bringing (declared.trans (bringUpAll_works bringing h2))

/-- The numbers of the lines of the stack file may be told. -/
theorem stackFile_lines {file : WorkspaceFile} (cover : terms.Cover r.files)
    (h : stackFile r = .ok file) : ∀ n, n ≤ file.content.length + 1 → terms.lines n := by
  have hread : ∀ {found : Option WorkspaceFile} {refusal : Refusal},
      orRefuse refusal found = .ok file → found = some file := by
    intro found refusal hr
    cases found with
    | none => cases hr
    | some a =>
      cases hr
      rfl
  unfold stackFile at h
  split at h
  · obtain ⟨w, hw, hf⟩ := Option.bind_eq_some_iff.1 (hread h)
    exact cover.file hw hf
  · obtain ⟨w, hw, hf⟩ := Option.bind_eq_some_iff.1 (hread h)
    obtain ⟨name, -, hf⟩ := List.exists_of_findSome?_eq_some hf
    exact cover.file hw hf

theorem up_effect (bringing : terms.bringsUp) (cover : terms.Cover r.files) (h : up r u = (o, v)) :
    Effect terms r.state u o v := by
  unfold up at h
  cases hf : stackFile r with
  | error refusal =>
    simp only [hf, Draw.pure_eq_iff] at h
    obtain ⟨rfl, rfl⟩ := h
    exact .of_silent rfl rfl (Supply.le_refl _)
  | ok file =>
    simp only [hf] at h
    generalize found : Compose.check file.content ((r.files.map Workspace.paths).getD []) = fs at h
    by_cases he : (Finding.errors fs).isEmpty = true
    · rw [if_pos he] at h
      exact upServices_effect bringing h
    · rw [if_neg he] at h
      refine rejectFile_effect ?_ h
      intro f hmem
      have hlines := stackFile_lines cover hf
      exact Compose.line_of_mem_check (numbers_lines hlines) (hlines 1 (Nat.le_add_left _ _)) f
        (found ▸ (List.mem_filter.1 hmem).1)

/-! ## Taking down -/

namespace Stack.Teardown

/-- What was taken down so far, as a scene of the state it began with. -/
def scene (s : State) (t : Teardown) (u : Supply) : Scene :=
  { images := s.images, containers := t.containers, boundPorts := t.boundPorts
    log := s.eventLog ++ t.events, supply := u }

theorem scene_put {t : Teardown} {containers : Table Container} {boundPorts : Table String}
    {lines : List String} {es : List Event} :
    Teardown.scene s { containers, boundPorts, lines, events := t.events ++ es } v =
      { t.scene s u with
        containers, boundPorts, log := (t.scene s u).log ++ es, supply := v } := by
  simp [scene]

end Stack.Teardown

namespace Stack

/-- The active container of a service. -/
def active? (stack : Stack) (containers : Table Container) (service : String) : Option Container :=
  ((stack.containerIds.get? service).bind containers.get?).filter Container.isActive

/-- What taking down a service comes to. -/
inductive TakesDown (stack : Stack) (t : Teardown) (service : String) (u : Supply) :
    Teardown → Supply → Prop
  | nothing (absent : stack.active? t.containers service = none) : TakesDown stack t service u t u
  | removed {c : Container} {time : Option Instant} {event : Event} {w v : Supply}
      (found : stack.active? t.containers service = some c) (stopped : StoppedAt c u time w)
      (told : Drawn w [.serviceStopped service c.id] [event] v) (lines : List String) :
    TakesDown stack t service u
      { containers := t.containers.insert c.id (c.removed time)
        boundPorts := releasePorts t.boundPorts c
        events := t.events ++ [event], lines } v

variable {stack : Stack} {t t' : Teardown} {service : String}

theorem takeDown_cases (h : stack.takeDown t service u = (t', v)) :
    TakesDown stack t service u t' v := by
  unfold takeDown at h
  cases hc : ((stack.containerIds.get? service).bind t.containers.get?).filter
      Container.isActive with
  | none =>
    simp only [hc, Draw.pure_eq_iff] at h
    obtain ⟨rfl, rfl⟩ := h
    exact .nothing hc
  | some c =>
    simp only [hc] at h
    by_cases hr : c.isRunning = true
    · rw [if_pos hr] at h
      simp only [Draw.bind_eq_iff, Draw.map_eq_iff, Draw.pure_eq_iff] at h
      obtain ⟨_, u1, ⟨time, h1, rfl⟩, event, u2, h2, rfl, rfl⟩ := h
      exact .removed hc (.running hr (Supply.shows_of_now h1)) (drawn_of_serviceStoppedEvent h2) _
    · rw [if_neg hr] at h
      simp only [Draw.bind_eq_iff, Draw.pure_eq_iff] at h
      obtain ⟨_, _, ⟨rfl, rfl⟩, event, u2, h2, rfl, rfl⟩ := h
      exact .removed hc (.idle hr (Supply.le_refl _)) (drawn_of_serviceStoppedEvent h2) _

/-- Without a stack nothing is taken down. Otherwise its services are, one after the other, and then
the stack and its networks are forgotten. -/
theorem down_cases (h : down r u = (o, v)) :
    r.state.stack? = none ∧ v = u ∧ (∃ lines, o = .print lines) ∨
      ∃ stack t lines, r.state.stack? = some stack ∧
        stack.downOrder.foldlM stack.takeDown (.start r.state) u = (t, v) ∧
        o = {
          delta := {
            containers := some t.containers
            boundPorts := some t.boundPorts
            networks := changedFrom r.state.networks
              (r.state.networks.filter fun key _ => !stack.ownsNetwork key)
            composeStacks := some (r.state.composeStacks.erase stack.name) }
          events := t.events
          output := lines
          succeeded := true } := by
  unfold down at h
  cases hs : r.state.stack? with
  | none =>
    simp only [hs, Draw.pure_eq_iff] at h
    exact .inl ⟨rfl, h.2.symm, _, h.1.symm⟩
  | some stack =>
    simp only [hs] at h
    obtain ⟨t, u1, h1, h⟩ := Draw.bind_eq_iff.1 h
    obtain ⟨rfl, rfl⟩ := Draw.pure_eq_iff.1 h
    exact .inr ⟨stack, t, _, rfl, h1, rfl⟩

end Stack

theorem takeDown_moves {stack : Stack} {t t' : Teardown} {service : String}
    (keeping : ¬terms.creates) (other : ¬terms.drops)
    (h : stack.takeDown t service u = (t', v)) :
    Moves terms (t.scene s u) (t'.scene s v) := by
  cases takeDown_cases h with
  | nothing _ => exact .refl
  | removed found stopped told _ =>
    obtain ⟨active, id, -, hk⟩ := trackedContainer_spec found
    rw [Teardown.scene_put (u := u)]
    exact .single (.remove keeping (fun hd => absurd hd other) hk active stopped (.service service)
      told)

theorem takeDownAll_moves {stack : Stack} {services : List String} {t t' : Teardown}
    (keeping : ¬terms.creates) (other : ¬terms.drops)
    (h : services.foldlM stack.takeDown t u = (t', v)) :
    Moves terms (t.scene s u) (t'.scene s v) :=
  Draw.foldlM_keeps (R := fun t u t' v => Moves terms (Teardown.scene s t u) (t'.scene s v))
    (fun _ _ => .refl) .trans (takeDown_moves keeping other) h

theorem down_effect (keeping : ¬terms.creates) (other : ¬terms.drops)
    (h : down r u = (o, v)) : Effect terms r.state u o v := by
  rcases down_cases h with ⟨-, rfl, lines, rfl⟩ | ⟨stack, t, lines, -, h1, rfl⟩
  · exact .of_silent rfl rfl (Supply.le_refl _)
  · refine ⟨?_, ?_, .refl _⟩
    · have h0 : (Teardown.start r.state).scene r.state u = .of r.state u := by
        simp [Teardown.scene, Teardown.start, Scene.of]
      have hm := takeDownAll_moves (s := r.state) keeping other h1
      rw [h0] at hm
      simpa [State.take, State.apply, State.record, Scene.of, Teardown.scene] using hm
    · intro name other ho
      simp only [State.take, State.apply, State.record, Option.getD_some, Table.get?_erase] at ho
      split at ho
      · cases ho
      · exact .inl ho

end DockerSim
