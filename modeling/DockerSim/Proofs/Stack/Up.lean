import DockerSim.Proofs.History
import DockerSim.Proofs.Refusals
import DockerSim.Proofs.Stack.BringUp
import DockerSim.Proofs.Stack.Order

/-!
# What `compose up` achieves

Once the checks of a stack file have passed there is a plan: the services of the file and the order
in which they are brought up (`Stack.plan?`, `Stack.up_eq_carryOut`); without a plan nothing changes
(`Stack.up_stops`). What carrying out the plan reports is what is true in the state after it
(`Reached.up_achieves`): whether it succeeded, how many services run, and which were started.

The services are found in the tables by the ids that the stack tracks. So it has to be known of
every reached state that the containers its stacks track have the names of their services
(`Reached.stacks_named`).
-/

namespace DockerSim

open Command Stack

namespace Stack

/-! ## Plans -/

/-- What is brought up once the checks of a stack file have passed. -/
structure Plan where
  doc : YamlMap
  warnings : List String
  order : List String

def Plan.services (plan : Plan) : List Service := Service.ofDocument plan.doc

/-- The plan of a request: there is one when the stack file is found and has no errors, when it
defines services and all their images are there, and when no service depends on itself. -/
def plan? (r : Request) : Option Plan :=
  match stackFile r with
  | .error _ => none
  | .ok file =>
    let findings := Compose.check file.content ((r.files.map Workspace.paths).getD [])
    let warned := (Finding.warnings findings).map Finding.warningLine
    let doc := (Yaml.parse file.content).toOption.getD []
    let services := Service.ofDocument doc
    if (Finding.errors findings).isEmpty && !services.isEmpty &&
        services.all fun s => (s.findImage r.state.images).isSome then
      (Service.startOrder services).map fun order =>
        { doc, warnings := if warned.isEmpty then [] else warned ++ [""], order }
    else none

def Plan.carryOut (plan : Plan) (r : Request) : Draw Outcome := do
  let detached := r.line.anySwitch ["d", "detach"]
  let p ← (Progress.start r.state).addDeclared plan.doc
  let p ← bringUpAll detached plan.services r.state.images plan.order p
  return upOutcome detached r.state plan.warnings plan.order p

variable {r : Request} {plan : Plan} {u v : Supply} {o : Outcome}

/-- No image is missing when each is found. -/
theorem isEmpty_missing (services : List Service) (images : Table Image) :
    (services.filter fun s => (s.findImage images).isNone).isEmpty =
      services.all fun s => (s.findImage images).isSome := by
  rw [Bool.eq_iff_iff, List.isEmpty_iff, List.filter_eq_nil_iff, List.all_eq_true]
  simp [Option.isSome_iff_ne_none]

theorem up_eq_carryOut (h : plan? r = some plan) : up r = plan.carryOut r := by
  unfold plan? at h
  unfold up
  cases hf : stackFile r with
  | error refusal =>
    rw [hf] at h
    cases h
  | ok file =>
    simp only [hf] at h ⊢
    split at h
    · next hpass =>
      simp only [Bool.and_eq_true] at hpass
      obtain ⟨⟨herrors, hsome⟩, himages⟩ := hpass
      obtain ⟨order, horder, rfl⟩ := Option.map_eq_some_iff.1 h
      rw [if_pos herrors]
      unfold upServices
      rw [Bool.not_eq_true'] at hsome
      simp only [hsome, Bool.false_eq_true, if_false, isEmpty_missing, himages, Bool.not_true,
        horder]
      rfl
    · cases h

/-- The stack file is found, and its check finds errors. -/
def rejectsFile (r : Request) : Bool :=
  match stackFile r with
  | .error _ => false
  | .ok file =>
    !(Finding.errors (Compose.check file.content ((r.files.map Workspace.paths).getD []))).isEmpty

theorem rejectsFile_of_plan? (h : plan? r = some plan) : rejectsFile r = false := by
  unfold plan? at h
  unfold rejectsFile
  cases hf : stackFile r with
  | error refusal => rfl
  | ok file =>
    simp only [hf] at h
    split at h
    · next hpass =>
      simp only [Bool.and_eq_true] at hpass
      dsimp only
      rw [hpass.1.1, Bool.not_true]
    · cases h

theorem says_invalidFile (before after : List String) :
    Says (before ++ [invalidFileLine] ++ after) :=
  says_of_mem (l := invalidFileLine) (by simp) (isBlank_ofList (by decide))

/-- A rejected file is told of, and nothing changes. -/
theorem rejectFile_spec {path : String} {warnings : List String} {errors : List Finding}
    (h : rejectFile path warnings errors u = (o, v)) :
    o.succeeded = false ∧ o.delta = {} ∧ Says o.output ∧
      ∃ e, o.events = [e] ∧ e.kind = .composeFailed := by
  unfold rejectFile at h
  simp only [Draw.bind_eq_iff, Draw.pure_eq_iff] at h
  obtain ⟨failed, u1, h1, rfl, -⟩ := h
  obtain ⟨hkind, -⟩ := Event.of_draw (n := .stackFailed _ _) h1
  exact ⟨rfl, rfl, says_invalidFile _ _, failed, rfl, hkind⟩

/-- **Without a plan nothing changes**: the command fails, says why, and tells at most of a file
that was rejected. -/
theorem up_stops (h : plan? r = none) (hu : up r u = (o, v)) :
    o.succeeded = false ∧ o.delta = {} ∧ Says o.output ∧
      (rejectsFile r = false ∧ o.events = [] ∨
        rejectsFile r = true ∧ ∃ e, o.events = [e] ∧ e.kind = .composeFailed) := by
  have refused : ∀ {lines : List String}, Says lines →
      (pure (.fail lines) : Draw Outcome) u = (o, v) →
      o.succeeded = false ∧ o.delta = {} ∧ Says o.output ∧ o.events = [] := by
    intro lines hsays hp
    obtain ⟨rfl, -⟩ := Draw.pure_eq_iff.1 hp
    exact ⟨rfl, rfl, hsays, rfl⟩
  have passed : ∀ {rejected : Bool}, rejected = false →
      o.succeeded = false ∧ o.delta = {} ∧ Says o.output ∧ o.events = [] →
      o.succeeded = false ∧ o.delta = {} ∧ Says o.output ∧ (rejected = false ∧ o.events = [] ∨
        rejected = true ∧ ∃ e, o.events = [e] ∧ e.kind = .composeFailed) :=
    fun hr ⟨hfailed, hdelta, hsays, hevents⟩ => ⟨hfailed, hdelta, hsays, .inl ⟨hr, hevents⟩⟩
  unfold plan? at h
  unfold up at hu
  unfold rejectsFile
  cases hf : stackFile r with
  | error refusal =>
    simp only [hf] at hu
    exact passed rfl (refused refusal.speaks hu)
  | ok file =>
    simp only [hf] at h hu
    dsimp only
    split at hu
    · next herrors =>
      refine passed (by rw [herrors, Bool.not_true]) ?_
      unfold upServices at hu
      dsimp only at hu
      split at hu
      · exact refused (Refusal.speaks _) hu
      · next hsome =>
        rw [isEmpty_missing] at hu
        split at hu
        · exact refused (says_invalidFile _ _) hu
        · next himages =>
          rw [Bool.not_eq_true', Bool.not_eq_false] at himages
          rw [Bool.not_eq_true] at hsome
          simp only [herrors, hsome, himages, Bool.not_false, Bool.and_self, if_true,
            Option.map_eq_none_iff] at h
          simp only [h] at hu
          exact refused (Refusal.speaks _) hu
    · next herrors =>
      rw [Bool.not_eq_true] at herrors
      obtain ⟨hfailed, hdelta, hsays, htold⟩ := rejectFile_spec hu
      exact ⟨hfailed, hdelta, hsays, .inr ⟨by rw [herrors, Bool.not_false], htold⟩⟩

/-- What is known of a plan. -/
structure Plan.Checked (plan : Plan) (images : Table Image) : Prop where
  names : (plan.services.map Service.name).Nodup
  images : ∀ svc ∈ plan.services, (svc.findImage images).isSome = true
  order : Service.startOrder plan.services = some plan.order

theorem checked_of_plan? (h : plan? r = some plan) : plan.Checked r.state.images := by
  unfold plan? at h
  split at h
  · cases h
  · next file _ =>
    dsimp only at h
    split at h
    · next hpass =>
      simp only [Bool.and_eq_true, List.all_eq_true] at hpass
      obtain ⟨order, horder, rfl⟩ := Option.map_eq_some_iff.1 h
      refine ⟨Service.nodup_names_ofDocument ?_, hpass.2, horder⟩
      cases hdoc : Yaml.parse file.content with
      | error e => exact YamlMap.proper_nil
      | ok doc => exact Yaml.parse_proper hdoc
    · cases h

variable {limit : Nat} {terms : Terms}

/-- Every service of the order is one of the file, with its image. -/
theorem Plan.Checked.found {images : Table Image} (h : plan.Checked images) :
    ∀ name ∈ plan.order, ∃ svc image,
      serviceWithImage plan.services images name = some (svc, image) ∧ svc.name = name := by
  intro name hmem
  obtain ⟨hperm, -⟩ := Service.startOrder_spec h.names h.order
  obtain ⟨svc, hsvc, hname⟩ := List.mem_map.1 (hperm.subset hmem)
  obtain ⟨svc', hfind⟩ : ∃ svc', (plan.services.find? fun s => s.name = name) = some svc' := by
    rw [← Option.isSome_iff_exists, List.find?_isSome]
    exact ⟨svc, hsvc, by simpa using hname⟩
  obtain ⟨image, himage⟩ :=
    Option.isSome_iff_exists.1 (h.images svc' (List.mem_of_find?_eq_some hfind))
  refine ⟨svc', image, ?_, by simpa using List.find?_some hfind⟩
  unfold serviceWithImage
  rw [hfind, Option.bind_eq_bind, Option.bind_some, himage]
  rfl

/-- What is declared is made, and then the services are brought up in their order. -/
theorem Plan.carryOut_spec (h : plan.carryOut r u = (o, v)) :
    ∃ p w q, (Progress.start r.state).addDeclared plan.doc u = (p, w) ∧
      bringUpAll (r.line.anySwitch ["d", "detach"]) plan.services r.state.images plan.order p w =
        (q, v) ∧
      o = upOutcome (r.line.anySwitch ["d", "detach"]) r.state plan.warnings plan.order q := by
  unfold carryOut at h
  obtain ⟨p, w, hp, h⟩ := Draw.bind_eq_iff.1 h
  obtain ⟨q, w', hq, h⟩ := Draw.bind_eq_iff.1 h
  obtain ⟨rfl, rfl⟩ := Draw.pure_eq_iff.1 h
  exact ⟨p, w, q, hp, hq, rfl⟩

/-- **A plan is carried out** by bringing up its services, from the containers that are there. -/
theorem Plan.Checked.carryOut_raises (hplan : plan.Checked r.state.images)
    (bringing : terms.bringsUp) (h : plan.carryOut r u = (o, v))
    (hs : (Progress.start r.state).Sound r.state limit u) (hl : limit ≤ u.drawn + idLimit)
    (hv : v.drawn ≤ limit) :
    ∃ detached q, o = upOutcome detached r.state plan.warnings plan.order q ∧
      (Progress.start r.state).Raises plan.order q ∧ q.Sound r.state limit v := by
  obtain ⟨p, u1, q, h1, h2, rfl⟩ := plan.carryOut_spec h
  have hdeclares := Progress.addDeclared_declares h1
  have hworks : Progress.Works terms r.state _ u p u1 := .of_same hdeclares.same hdeclares.le
  have hup : p.isUp = (Progress.start r.state).isUp := by
    unfold Progress.isUp
    rw [hdeclares.same.tracked, hdeclares.same.containers]
  have hp : p.Sound r.state limit u1 := by
    refine ⟨hworks.moves.agrees hs.agrees hl, ?_⟩
    rw [hdeclares.same.tracked, hdeclares.same.containers]
    exact hs.named
  have hle : u.drawn ≤ u1.drawn := hdeclares.le.drawn
  obtain ⟨hperm, hplaced⟩ := Service.startOrder_spec hplan.names hplan.order
  obtain ⟨hraises, hq⟩ :=
    bringUpAll_raises bringing hplaced.nodup hplan.found h2 hp (by omega) hv
  refine ⟨_, q, rfl, ⟨?_, ?_, ?_⟩, hq⟩
  · rw [hraises.failed, hdeclares.failed]
  · rw [← hup]
    exact hraises.others
  · rw [← hup, ← hdeclares.same.events]
    exact hraises.told

/-- The running containers that are counted are those of the services that are up. -/
theorem length_runningContainers {s : State} {q : Stack.Progress} (hq : q.Sound s limit v)
    (order : List String) : (runningContainers q order).length = order.countP q.isUp := by
  unfold runningContainers
  induction order with
  | nil => rfl
  | cons name order ih =>
    rw [List.countP_cons, ← ih, List.filterMap_cons]
    cases hi : q.tracked.get? name with
    | none => simp [Progress.isUp, Stack.isUp, hi]
    | some id =>
      obtain ⟨c, hc, hname⟩ := hq.named hi
      cases hr : c.isRunning <;> simp [Progress.isUp, Stack.isUp, hi, hc, hr, hname]

end Stack

/-! ## Stacks of reached states -/

/-- The stacks track containers that have the names of their services. -/
def StacksNamed (s : State) : Prop :=
  ∀ ⦃name stack⦄, s.composeStacks.get? name = some stack →
    ∀ ⦃service id⦄, stack.containerIds.get? service = some id →
      ∃ c, s.containers.get? id = some c ∧ c.name = service

/-- A service of the stack is up: its container is running and has its name. -/
def State.isUp (s : State) : String → Bool :=
  Stack.isUp ((s.stack?.map Stack.containerIds).getD ∅) s.containers

/-- The request that the command of a line is carried out for. -/
def Submission.commandRequest (a : Submission) (s : State) : Request :=
  { a.request s with line := (a.request s).line.normalized }

variable {s t : State} {u v : Supply} {a : Submission} {o : Outcome} {limit : Nat}

theorem sound_start (hs : (Scene.of s u).Agrees limit) (hn : StacksNamed s) :
    (Stack.Progress.start s).Sound s limit u := by
  refine ⟨?_, fun service id hi => ?_⟩
  · have hscene : (Stack.Progress.start s).scene s u = .of s u := by
      simp [Stack.Progress.scene, Stack.Progress.start, Scene.of]
    rwa [hscene]
  · unfold Stack.Progress.start at hi
    cases hstack : s.stack? with
    | none => simp [hstack] at hi
    | some stack => exact hn hstack (by simpa [hstack] using hi)

/-- A line that is carried out does what its command does for its request. -/
theorem Submission.subcommand_of_run {sub : String} (hc : a.carried? = some sub)
    (h : a.run s u = ((t, o), v)) :
    runSubcommand (a.commandRequest s) sub u = (o, v) ∧
      t = { (a.request s).state.take o with lastError := o.errorLine?, pending := none } := by
  obtain ⟨he, ht⟩ := run_eq_iff.1 h
  rw [evaluate_eq_runSubcommand (r := a.request s) hc] at he
  exact ⟨he, ht⟩

theorem Submission.up_of_run (hc : a.carried? = some "compose up")
    (h : a.run s u = ((t, o), v)) :
    up (a.commandRequest s) u = (o, v) ∧
      t = { (a.request s).state.take o with lastError := o.errorLine?, pending := none } :=
  a.subcommand_of_run hc h

/-- The state after a plan was carried out has what was brought up. -/
theorem Submission.carried_out {plan : Stack.Plan} (hc : a.carried? = some "compose up")
    (hplan : plan? (a.commandRequest s) = some plan) (h : a.run s u = ((t, o), v))
    (hv : v.drawn < idLimit) (hs : Ordered s u) (hn : StacksNamed s) :
    ∃ detached q, o = upOutcome detached (a.request s).state plan.warnings plan.order q ∧
      (Stack.Progress.start s).Raises plan.order q ∧
      q.Sound (a.request s).state (idLimit - 1) v ∧
      t.containers = q.containers ∧
      t.composeStacks = s.composeStacks.insert State.stackName
        { name := State.stackName, services := plan.order, containerIds := q.tracked } := by
  obtain ⟨hup, ht⟩ := a.up_of_run hc h
  rw [up_eq_carryOut hplan] at hup
  have bringing : (a.terms fun _ => True).bringsUp := hc
  have hsound : (Stack.Progress.start (a.request s).state).Sound (a.request s).state
      (idLimit - 1) u := sound_start hs.agrees hn
  obtain ⟨detached, q, rfl, hraises, hq⟩ := (checked_of_plan? hplan).carryOut_raises bringing hup
    hsound (by unfold idLimit; omega) (Nat.le_sub_one_of_lt hv)
  refine ⟨detached, q, rfl, hraises, hq, ?_, ?_⟩
  · rw [ht]
    exact getD_changedFrom _ _
  · rw [ht]
    exact getD_changedFrom _ _

/-- A line keeps the names of tracked containers: it keeps the containers, and the stack that it
brings up tracks containers with the names of its services. -/
theorem Submission.stacksNamed (h : a.run s u = ((t, o), v)) (hv : v.drawn < idLimit)
    (hs : Ordered s u) (hb : (Scene.of s u).Begun) (hn : StacksNamed s) : StacksNamed t := by
  have old : ∀ {name stack}, s.composeStacks.get? name = some stack →
      ∀ ⦃service id⦄, stack.containerIds.get? service = some id →
        ∃ c, t.containers.get? id = some c ∧ c.name = service := by
    intro name stack hstack service id hid
    obtain ⟨c, hc, hname⟩ := hn hstack hid
    obtain ⟨d, hd, hcd⟩ := (a.keeps h hv hs hb).containers hc
    exact ⟨d, hd, hcd.name.trans hname⟩
  intro name stack hstack
  rcases (a.leads_anyway h).follow hstack with hold | ⟨bringing, -⟩
  · exact old hold
  · cases hplan : plan? (a.commandRequest s) with
    | none =>
      obtain ⟨hup, ht⟩ := a.up_of_run bringing h
      obtain ⟨-, hdelta, -⟩ := up_stops hplan hup
      rw [ht] at hstack
      unfold State.take at hstack
      rw [hdelta] at hstack
      exact old hstack
    | some plan =>
      obtain ⟨_, q, -, -, hq, hcontainers, hstacks⟩ := a.carried_out bringing hplan h hv hs hn
      rw [hstacks, Table.get?_insert] at hstack
      split at hstack
      · cases hstack
        rw [hcontainers]
        exact hq.named
      · exact old hstack

namespace Reached

theorem stacks_named (h : Reached s u) (hu : u.drawn < idLimit) : StacksNamed s := by
  obtain ⟨as, os, h⟩ := h
  have kept := State.submitAll_keeps (P := fun s u => u.drawn < idLimit →
    Ordered s u ∧ (Scene.of s u).Begun ∧ StacksNamed s) ?_ h
    (fun _ => ⟨ordered_empty _, fun _ _ hc => (nomatch hc), fun _ _ hstack => (nomatch hstack)⟩)
  · exact (kept hu).2.2
  intro a s t o u v hr hs hv
  have hmoves := (a.leads_anyway hr).moves
  obtain ⟨hordered, hbegun, hnamed⟩ := hs (Nat.lt_of_le_of_lt hmoves.supply_le.drawn hv)
  exact ⟨a.ordered hr hv hordered, hmoves.begun hbegun,
    a.stacksNamed hr hv hordered hbegun hnamed⟩

/-- **What `compose up` reports is what is true in the end.** Once the checks of the file have
passed, it succeeds exactly when all services of the file are up in the state after it; it counts
the ones that are up, and all of them; and its events are one for each service that was not up
before and is up then, after those of the services that it depends on. -/
theorem up_achieves {plan : Stack.Plan} (h : Reached s u)
    (hc : a.carried? = some "compose up") (hplan : plan? (a.commandRequest s) = some plan)
    (ha : a.run s u = ((t, o), v)) (hv : v.drawn < idLimit) :
    (o.succeeded = true ↔ ∀ svc ∈ plan.services, t.isUp svc.name = true) ∧
    (∃ rest, o.output = plan.warnings ++ ("[+] Running " ++
      Text.decimal (plan.services.countP fun svc => t.isUp svc.name) ++ "/" ++
      Text.decimal plan.services.length) :: rest) ∧
    (plan.services.map Service.name).Nodup ∧
    ∃ started, TellStarts o.events started ∧ started.Nodup ∧
      (∀ name, name ∈ started ↔
        (∃ svc ∈ plan.services, svc.name = name) ∧ s.isUp name = false ∧ t.isUp name = true) ∧
      ∀ name ∈ started, ∀ dep ∈ started,
        Relation.TransGen (Service.Needs plan.services) name dep → [dep, name].Sublist started := by
  have hle : u.drawn ≤ v.drawn := (a.leads_anyway ha).moves.supply_le.drawn
  have hu := Nat.lt_of_le_of_lt hle hv
  have hchecked := checked_of_plan? hplan
  obtain ⟨hperm, hplaced⟩ := Service.startOrder_spec hchecked.names hchecked.order
  obtain ⟨detached, q, rfl, hraises, hq, hcontainers, hstacks⟩ :=
    a.carried_out hc hplan ha hv (h.ordered hu) (h.stacks_named hu)
  have hup : t.isUp = q.isUp := by
    unfold State.isUp State.stack? Stack.Progress.isUp
    rw [hstacks, Table.get?_insert_self, hcontainers]
    rfl
  obtain ⟨hfailed, -, es, hevents, htold⟩ := hraises
  replace hfailed : q.failed = plan.order.any fun n => !q.isUp n := hfailed
  replace hevents : q.events = es := hevents
  have hmem : ∀ name, name ∈ plan.order ↔ ∃ svc ∈ plan.services, svc.name = name := by
    intro name
    rw [hperm.mem_iff, List.mem_map]
  rw [hup]
  refine ⟨?_, ?_, hchecked.names, plan.order.filter fun n => !s.isUp n && q.isUp n, ?_,
    hplaced.nodup.filter _, ?_, ?_⟩
  · show (!q.failed) = true ↔ _
    rw [hfailed, Bool.not_eq_true', List.any_eq_false]
    constructor
    · intro hall svc hsvc
      simpa using hall svc.name ((hmem _).2 ⟨svc, hsvc, rfl⟩)
    · intro hall name hname
      obtain ⟨svc, hsvc, rfl⟩ := (hmem name).1 hname
      simpa using hall svc hsvc
  · have hcount : plan.order.countP q.isUp = plan.services.countP fun svc => q.isUp svc.name := by
      rw [hperm.countP_eq, List.countP_map]
      rfl
    have hlength : plan.order.length = plan.services.length := by
      rw [hperm.length_eq, List.length_map]
    refine ⟨q.lines ++ (if detached then [] else
      attachedLines (runningContainers q plan.order)), ?_⟩
    unfold upOutcome
    dsimp only
    rw [length_runningContainers hq, hcount, hlength, List.append_assoc, List.append_assoc,
      List.singleton_append]
  · show TellStarts q.events _
    rw [hevents]
    exact htold
  · intro name
    rw [List.mem_filter, hmem, Bool.and_eq_true, Bool.not_eq_true']
  · exact fun name hname dep hdep hneeds => hplaced.sublist_filter hname hdep hneeds

/-- A stack in which one service depends on another one. -/
def shopFiles : Workspace := .ofFiles [("compose.yaml",
  "services:\n  web:\n    image: nginx:1.25\n    depends_on:\n      - db\n" ++
  "  db:\n    image: redis:7\n  cache:\n    image: redis:7\n")]

/-- The images of the stack are pulled, and a container takes the name of one of its services. -/
def shopLines : List Submission := [
  .ofLine "docker pull nginx:1.25",
  .ofLine "docker pull redis:7",
  .ofLine "docker run -d --name cache redis:7"]

def shopUp : Submission :=
  { raw := "docker compose up -d", files := some shopFiles, stackFiles := ["compose.yaml"] }

/-- Two of three services are started, one behind the other, and the third one cannot be: `cache` is
the name of a container. -/
theorem up_achieves_shop :
    let r := State.empty.submitAll shopLines .fresh
    let r' := shopUp.run r.1.1 r.2
    shopUp.carried? = some "compose up" ∧ r'.2.drawn < idLimit ∧
    ∃ plan, plan? (shopUp.commandRequest r.1.1) = some plan ∧
      plan.services.map Service.name = ["web", "db", "cache"] ∧
      (¬∀ svc ∈ plan.services, r'.1.1.isUp svc.name = true) ∧
      r'.1.2.succeeded = false ∧ r'.1.1.isUp "cache" = false ∧
      (∃ rest, r'.1.2.output = plan.warnings ++ "[+] Running 2/3" :: rest) ∧
      TellStarts r'.1.2.events ["db", "web"] ∧
      ∀ name, name ∈ ["db", "web"] ↔ (∃ svc ∈ plan.services, svc.name = name) ∧
        r.1.1.isUp name = false ∧ r'.1.1.isUp name = true := by
  intro r r'
  have computed : shopUp.carried? = some "compose up" ∧ r'.2.drawn < idLimit ∧
      (plan? (shopUp.commandRequest r.1.1)).map
          (fun plan => plan.services.map fun svc => (svc.name, svc.dependsOn)) =
        some [("web", ["db"]), ("db", []), ("cache", [])] ∧
      ["web", "db", "cache"].map r.1.1.isUp = [false, false, false] ∧
      ["web", "db", "cache"].map r'.1.1.isUp = [true, true, false] := by
    decide +kernel
  obtain ⟨hc, hv, hservices, hbefore, hafter⟩ := computed
  have hr' : shopUp.run r.1.1 r.2 = r' := rfl
  have hr : State.empty.submitAll shopLines .fresh = r := rfl
  clear_value r'
  clear_value r
  have hreached : Reached r.1.1 r.2 := hr ▸ reached_submitAll shopLines
  obtain ⟨plan, hplan, hservices⟩ := Option.map_eq_some_iff.1 hservices
  obtain ⟨hsucceeded, ⟨rest, hcount⟩, -, started, htold, hnodup, hstarted, hbehind⟩ :=
    up_achieves hreached hc hplan hr' hv
  obtain ⟨hweb, hdb, hcache⟩ : r'.1.1.isUp "web" = true ∧ r'.1.1.isUp "db" = true ∧
      r'.1.1.isUp "cache" = false := by simpa using hafter
  obtain ⟨hweb', hdb', -⟩ : r.1.1.isUp "web" = false ∧ r.1.1.isUp "db" = false ∧
      r.1.1.isUp "cache" = false := by simpa using hbefore
  have hnames : plan.services.map Service.name = ["web", "db", "cache"] := by
    have hfirst := congrArg (List.map Prod.fst) hservices
    rw [List.map_map] at hfirst
    exact hfirst
  have hservice : ∀ name, (∃ svc ∈ plan.services, svc.name = name) ↔
      name ∈ ["web", "db", "cache"] := fun name => by rw [← hnames, List.mem_map]
  have hmem : ∀ name, name ∈ started ↔ name ∈ ["db", "web"] := by
    intro name
    rw [hstarted, hservice]
    constructor
    · rintro ⟨hname, -, hup⟩
      simp only [List.mem_cons, List.not_mem_nil, or_false] at hname
      rcases hname with rfl | rfl | rfl
      · exact .tail _ (.head _)
      · exact .head _
      · rw [hcache] at hup
        cases hup
    · intro hname
      simp only [List.mem_cons, List.not_mem_nil, or_false] at hname
      rcases hname with rfl | rfl
      · exact ⟨.tail _ (.head _), hdb', hdb⟩
      · exact ⟨.head _, hweb', hweb⟩
  have hneeds : Service.Needs plan.services "web" "db" := by
    obtain ⟨svc, hsvc, he⟩ := List.mem_map.1 (hservices ▸ List.mem_cons_self)
    obtain ⟨hname, hdeps⟩ := Prod.mk.inj he
    exact ⟨svc, hsvc, hname, hdeps ▸ List.mem_cons_self,
      (hservice "db").2 (.tail _ (.head _))⟩
  have hsub := hbehind "web" ((hmem _).2 (.tail _ (.head _))) "db" ((hmem _).2 (.head _))
    (.single hneeds)
  have hperm : started.Perm ["db", "web"] :=
    (List.perm_ext_iff_of_nodup hnodup (by decide)).2 hmem
  obtain rfl := hsub.eq_of_length hperm.length_eq.symm
  have hlost : ¬∀ svc ∈ plan.services, r'.1.1.isUp svc.name = true := by
    intro hall
    obtain ⟨svc, hsvc, hname⟩ := (hservice "cache").2 (.tail _ (.tail _ (.head _)))
    have := hall svc hsvc
    rw [hname, hcache] at this
    cases this
  refine ⟨hc, hv, plan, hplan, hnames, hlost, ?_, hcache, ⟨rest, ?_⟩, htold, hstarted⟩
  · exact Bool.eq_false_iff.2 fun h => hlost (hsucceeded.1 h)
  · have hup : plan.services.countP (fun svc => r'.1.1.isUp svc.name) = 2 := by
      have hcount := List.countP_map (p := r'.1.1.isUp) (f := Service.name) (l := plan.services)
      rw [hnames] at hcount
      exact hcount.symm.trans (by simp [hweb, hdb, hcache])
    have hlength : plan.services.length = 3 := by
      rw [← List.length_map (f := Service.name), hnames]
      rfl
    rw [hcount, hup, hlength]
    rfl

end Reached

end DockerSim
