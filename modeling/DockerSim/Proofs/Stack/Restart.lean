import DockerSim.Proofs.Links.Reached
import DockerSim.Proofs.OneByOne
import DockerSim.Proofs.Stack.Again
import DockerSim.Proofs.Stack.Made
import DockerSim.Proofs.StoredImages

/-!
# Two ways to start a container again

A stopped container of a stack is started again by `docker start`, and by `compose up` when all the
other services run. What both come to is the same (`Restarts`), but for one thing: the output that
the container starts with. `docker start` chooses it by the label of the image that the container
was made from, `compose up` by the name of the image that the stack file asks for now. So the
containers agree in the end if and only if these two give the same lines.
-/

namespace DockerSim

open Command Stack

/-! ## Starting one container -/

/-- What starting a stopped container again comes to, when its output is chosen by a label. Another
container may hold a port of it; then this is told, and the container stays as it is. -/
inductive Restarts (s : State) (u : Supply) (c : Container) (label : String)
    (complaint : Nat → List String) (t : State) (o : Outcome) : Prop
  | refused {port : PortMapping} (held : portConflict s.boundPorts c = some port)
      (failed : o.succeeded = false) (told : complaint port.host ⊆ o.output)
      (containers : t.containers = s.containers) (boundPorts : t.boundPorts = s.boundPorts)
  | started (unheld : portConflict s.boundPorts c = none) (succeeded : o.succeeded = true)
      (containers : t.containers = s.containers.insert c.id
        (c.started (Supply.now u).1 (Startup.logs label (Supply.now u).2).1))
      (boundPorts : t.boundPorts = bindPorts s.boundPorts c.ports c.id)

variable {s t t' : State} {u v v' : Supply} {o o' : Outcome} {c : Container} {label label' : String}
  {complaint complaint' : Nat → List String}

theorem Container.started_inj {time : Instant} {lines lines' : List String} :
    c.started time lines = c.started time lines' ↔ lines = lines' := by
  constructor
  · intro h
    exact List.append_cancel_left (congrArg Container.logs h)
  · rintro rfl
    rfl

/-- It is the containers and the bound ports that count. -/
theorem Restarts.congr {s' : State} (h : Restarts s u c label complaint t o)
    (hs : s'.containers = s.containers ∧ s'.boundPorts = s.boundPorts)
    (ht : t'.containers = t.containers ∧ t'.boundPorts = t.boundPorts) :
    Restarts s' u c label complaint t' o := by
  obtain ⟨hsc, hsb⟩ := hs
  obtain ⟨htc, htb⟩ := ht
  cases h with
  | refused held failed told containers boundPorts =>
    exact .refused (hsb ▸ held) failed told (by rw [htc, containers, hsc])
      (by rw [htb, boundPorts, hsb])
  | started unheld succeeded containers boundPorts =>
    exact .started (hsb ▸ unheld) succeeded (by rw [htc, containers, hsc])
      (by rw [htb, boundPorts, hsb])

/-- Two labels are told apart by the lines they stand for, and by nothing else. -/
theorem Restarts.agree (h : Restarts s u c label complaint t o)
    (h' : Restarts s u c label' complaint' t' o') :
    o.succeeded = o'.succeeded ∧ t.boundPorts = t'.boundPorts ∧
      (t.containers = t'.containers ↔ (portConflict s.boundPorts c).isSome = true ∨
        (Startup.logs label (Supply.now u).2).1 = (Startup.logs label' (Supply.now u).2).1) := by
  cases h with
  | refused held failed _ containers boundPorts =>
    cases h' with
    | refused _ failed' _ containers' boundPorts' =>
      refine ⟨failed.trans failed'.symm, boundPorts.trans boundPorts'.symm, ?_⟩
      simp [containers, containers', held]
    | started unheld _ _ _ =>
      rw [held] at unheld
      cases unheld
  | started unheld succeeded containers boundPorts =>
    cases h' with
    | refused held _ _ _ _ =>
      rw [unheld] at held
      cases held
    | started _ succeeded' containers' boundPorts' =>
      refine ⟨succeeded.trans succeeded'.symm, boundPorts.trans boundPorts'.symm, ?_⟩
      rw [containers, containers', unheld, ← Container.started_inj (c := c)]
      constructor
      · intro he
        have hfound := congrArg (·.get? c.id) he
        simpa using hfound
      · rintro (he | he)
        · cases he
        · rw [he]

/-! ## By `docker start` -/

/-- A container that is kept under its id is found by it. -/
theorem findContainer_id {containers : Table Container}
    (keyed : ∀ ⦃key d⦄, containers.get? key = some d → d.id = key)
    (hc : containers.get? c.id = some c) (active : c.isActive = true) (hne : c.id ≠ "") :
    findContainer containers c.id = some c := by
  have hmem : c ∈ containers.values.filter Container.isActive :=
    List.mem_filter.2 ⟨List.mem_map.2 ⟨_, Table.get?_eq_some_iff.1 hc, rfl⟩, active⟩
  have hfirst : (containers.values.filter Container.isActive).find? (fun d => d.id = c.id) =
      some c := by
    refine find?_eq_some_of_unique hmem (by simp) fun d hd hid => ?_
    obtain ⟨⟨key, d'⟩, he, rfl⟩ := List.mem_map.1 (List.mem_filter.1 hd).1
    have hkey := Table.get?_eq_some_iff.2 he
    rw [← keyed hkey, of_decide_eq_true hid, hc] at hkey
    exact (Option.some.inj hkey).symm
  unfold findContainer
  rw [if_neg hne]
  dsimp only
  rw [hfirst]
  rfl

/-- `docker start` chooses the output by the label of the container's image. -/
theorem start_restarts {r : Request} (hargs : r.line.args = [c.id])
    (hfind : findContainer r.state.containers c.id = some c) (idle : c.isRunning = false)
    (h : start r u = (o, v)) :
    Restarts r.state u c (imageLabel r.state.images c.imageId)
      (fun port => (Refusal.cannotRestart c.name port).lines) (r.state.take o) o := by
  have hone : start r =
      Command.Progress.finish <$> startOne r.state.images (.start r.state) c.id := by
    rw [start, onTargets_eq (by simp [hargs]), hargs, List.foldlM_cons]
    rfl
  rw [hone, Draw.map_eq_iff] at h
  obtain ⟨p, hp, rfl⟩ := h
  have hfound : findContainer (Command.Progress.start r.state).containers c.id = some c := hfind
  unfold startOne at hp
  simp only [hfound, idle, Bool.false_eq_true, if_false] at hp
  cases hport : portConflict r.state.boundPorts c with
  | some port =>
    have hheld : portConflict (Command.Progress.start r.state).boundPorts c = some port := hport
    simp only [hheld, Draw.pure_eq_iff] at hp
    obtain ⟨rfl, -⟩ := hp
    refine .refused hport rfl ?_ rfl rfl
    exact List.subset_append_right _ _
  | none =>
    have hunheld : portConflict (Command.Progress.start r.state).boundPorts c = none := hport
    simp only [hunheld, Draw.bind_eq_iff, Draw.pure_eq_iff] at hp
    obtain ⟨time, u1, h1, logs, u2, h2, bound, u3, -, started, u4, -, rfl, -⟩ := hp
    have htold : (Command.Progress.change (.start r.state) (c.started time logs)
        (bindPorts r.state.boundPorts c.ports c.id) (bound ++ [started])).Told r.state :=
      told_change (by simp)
    have htaken := Command.Progress.apply_finish htold
    refine .started hport rfl ?_ (congrArg State.boundPorts htaken)
    rw [h1, h2]
    exact congrArg State.containers htaken

/-! ## By `compose up` -/

namespace Stack

variable {p q : Progress} {svc : Service} {image : Image} {detached : Bool}
  {services : List Service} {images : Table Image} {order : List String} {name : String}

theorem bringUpAll_cons_eq (hsvc : serviceWithImage services images name = some (svc, image)) :
    bringUpAll detached services images (name :: order) p =
      bringUp detached p svc image >>= bringUpAll detached services images order := by
  unfold bringUpAll
  rw [List.foldlM_cons, hsvc]

/-- A service that runs is only named. -/
theorem bringUp_eq_say (hruns : p.Runs svc.name) :
    bringUp detached p svc image = pure (p.say (" ✔ Container " ++ svc.name ++ "  Running")) := by
  obtain ⟨d, hd, hrunning⟩ := hruns
  unfold bringUp
  simp only [hd, hrunning, if_true]

theorem bringUp_eq_restart (hc : p.tracked? svc.name = some c) (idle : c.isRunning = false) :
    bringUp detached p svc image = restart p svc image c := by
  unfold bringUp
  simp only [hc, idle, Bool.false_eq_true, if_false]

theorem bringUpAll_running : ∀ {order : List String} {p : Progress},
    (∀ n ∈ order, ∃ svc image, serviceWithImage services images n = some (svc, image) ∧
      svc.name = n) → (∀ n ∈ order, p.Runs n) →
    ∃ lines, bringUpAll detached services images order p = pure { p with lines := p.lines ++ lines }
  | [], p, _, _ => ⟨[], by rw [List.append_nil]; rfl⟩
  | n :: order, p, hfound, hruns => by
    obtain ⟨⟨svc, image, hsvc, rfl⟩, hothers⟩ := List.forall_mem_cons.1 hfound
    obtain ⟨hfirst, hrest⟩ := List.forall_mem_cons.1 hruns
    have hsaid : ∀ n ∈ order, (p.say (" ✔ Container " ++ svc.name ++ "  Running")).Runs n := hrest
    obtain ⟨lines, hlater⟩ := bringUpAll_running hothers hsaid
    refine ⟨[" ✔ Container " ++ svc.name ++ "  Running"] ++ lines, ?_⟩
    rw [bringUpAll_cons_eq hsvc, bringUp_eq_say hfirst, pure_bind, hlater]
    simp [Progress.say]

/-- Starting a container leaves the services running that do not track it. -/
theorem restart_runs {other : String} (h : restart p svc image c u = (q, v)) (hr : p.Runs other)
    (hne : p.tracked.get? other ≠ some c.id) : q.Runs other := by
  cases hport : portConflict p.boundPorts c with
  | some port =>
    simp only [restart, hport, Draw.pure_eq_iff] at h
    obtain ⟨rfl, -⟩ := h
    exact hr
  | none =>
    obtain ⟨time, logs, event, u1, -, -, rfl⟩ := restart_spec hport h
    obtain ⟨d, hd, hrunning⟩ := hr
    obtain ⟨⟨id, hid, hget⟩, hactive⟩ := Progress.tracked?_eq_some.1 hd
    have hkept : (p.containers.insert c.id (c.started time logs)).get? id = some d := by
      rw [Table.get?_insert_of_ne _ _ (by rintro rfl; exact hne hid), hget]
    exact ⟨d, Progress.tracked?_eq_some.2 ⟨⟨id, hid, hkept⟩, hactive⟩, hrunning⟩

/-- **Where all services run but one, that one is started**, and the others are only named. -/
theorem bringUpAll_restart (hsvc : serviceWithImage services images svc.name = some (svc, image))
    (hfound : ∀ n ∈ order, ∃ svc image, serviceWithImage services images n = some (svc, image) ∧
      svc.name = n)
    (hmem : svc.name ∈ order) (hnodup : order.Nodup) (hc : p.tracked? svc.name = some c)
    (idle : c.isRunning = false) (hothers : ∀ n ∈ order, n ≠ svc.name → p.Runs n)
    (hown : ∀ n, n ≠ svc.name → p.tracked.get? n ≠ some c.id)
    (h : bringUpAll detached services images order p u = (q, v)) :
    ∃ lines q' lines', restart { p with lines := p.lines ++ lines } svc image c u = (q', v) ∧
      q = { q' with lines := q'.lines ++ lines' } := by
  obtain ⟨before, after, rfl⟩ := List.append_of_mem hmem
  obtain ⟨-, hnew, hapart⟩ := List.nodup_append.1 hnodup
  have hbefore : ∀ n ∈ before, n ∈ before ++ svc.name :: after := fun n hn =>
    List.mem_append_left _ hn
  have hafter : ∀ n ∈ after, n ∈ before ++ svc.name :: after := fun n hn =>
    List.mem_append_right _ (List.mem_cons_of_mem _ hn)
  obtain ⟨lines, hsaid⟩ : ∃ lines, bringUpAll detached services images before p =
      pure { p with lines := p.lines ++ lines } :=
    bringUpAll_running (fun n hn => hfound n (hbefore n hn))
      fun n hn => hothers n (hbefore n hn) (hapart n hn svc.name List.mem_cons_self)
  have htracked : Progress.tracked? { p with lines := p.lines ++ lines } svc.name = some c := hc
  have hsplit : bringUpAll detached services images (before ++ svc.name :: after) p =
      restart { p with lines := p.lines ++ lines } svc image c >>=
        bringUpAll detached services images after := by
    rw [← bringUp_eq_restart htracked idle, ← bringUpAll_cons_eq hsvc,
      ← pure_bind _ (bringUpAll _ _ _ (svc.name :: after)), ← hsaid]
    exact List.foldlM_append
  rw [hsplit] at h
  obtain ⟨q', w, hrestart, hrest⟩ := Draw.bind_eq_iff.1 h
  -- the services behind it run on: none of them tracks the container that was put in place
  obtain ⟨lines', hlast⟩ := bringUpAll_running (p := q') (fun n hn => hfound n (hafter n hn))
    fun n hn => by
      have hne : n ≠ svc.name := by
        rintro rfl
        exact (List.nodup_cons.1 hnew).1 hn
      exact restart_runs hrestart (hothers n (hafter n hn) hne) (hown n hne)
  rw [hlast] at hrest
  obtain ⟨rfl, rfl⟩ := Draw.pure_eq_iff.1 hrest
  exact ⟨lines, q', lines', hrestart, rfl⟩

variable {r : Request} {plan : Plan}

/-- What the file declares is there, and all its services run but one, which has a container that
is stopped. -/
structure Plan.LacksOnly (plan : Plan) (p : Progress) (svc : Service) (c : Container) : Prop where
  declared : p.Has plan.doc
  tracked : p.tracked? svc.name = some c
  idle : c.isRunning = false
  others : ∀ other ∈ plan.services, other.name ≠ svc.name → p.Runs other.name

instance (p : Progress) (doc : YamlMap) : Decidable (p.Has doc) :=
  decidable_of_iff ((∀ d ∈ declaredNetworks doc, p.networks.contains (stackKey d.1) = true) ∧
      ∀ name ∈ declaredVolumes doc, p.volumes.contains (stackKey name) = true)
    ⟨fun ⟨hn, hv⟩ => ⟨hn, hv⟩, fun h => ⟨h.networks, h.volumes⟩⟩

instance (p : Progress) (service : String) : Decidable (p.Runs service) :=
  decidable_of_iff ((p.tracked? service).any Container.isRunning = true)
    (by cases h : p.tracked? service <;> simp [Progress.Runs, h])

instance (plan : Plan) (p : Progress) (svc : Service) (c : Container) :
    Decidable (plan.LacksOnly p svc c) :=
  decidable_of_iff (p.Has plan.doc ∧ p.tracked? svc.name = some c ∧ c.isRunning = false ∧
      ∀ other ∈ plan.services, other.name ≠ svc.name → p.Runs other.name)
    ⟨fun ⟨hd, ht, hi, ho⟩ => ⟨hd, ht, hi, ho⟩,
      fun h => ⟨h.declared, h.tracked, h.idle, h.others⟩⟩

/-- A service of a plan is found by its name, with its image. -/
theorem Plan.Checked.finds {images : Table Image} (hplan : plan.Checked images)
    (hsvc : svc ∈ plan.services) : ∃ image, svc.findImage images = some image ∧
      serviceWithImage plan.services images svc.name = some (svc, image) := by
  obtain ⟨image, himage⟩ := Option.isSome_iff_exists.1 (hplan.images svc hsvc)
  refine ⟨image, himage, ?_⟩
  have hfind : (plan.services.find? fun s => s.name = svc.name) = some svc := by
    refine find?_eq_some_of_unique hsvc (by simp) fun found hfound hname => ?_
    exact List.inj_on_of_nodup_map hplan.names hfound hsvc (of_decide_eq_true hname)
  unfold serviceWithImage
  rw [hfind, Option.bind_eq_bind, Option.bind_some, himage]
  rfl

/-- `compose up` chooses the output by the name of the image that the file asks for. -/
theorem Plan.Checked.carryOut_restarts (hplan : plan.Checked r.state.images)
    (hsvc : serviceWithImage plan.services r.state.images svc.name = some (svc, image))
    (hlacks : plan.LacksOnly (Progress.start r.state) svc c)
    (hown : ∀ n, n ≠ svc.name → (Progress.start r.state).tracked.get? n ≠ some c.id)
    (h : plan.carryOut r u = (o, v)) :
    Restarts r.state u c image.key (fun port => [portTakenLine port]) (r.state.take o) o := by
  obtain ⟨p, w, q, hp, hq, rfl⟩ := plan.carryOut_spec h
  rw [Progress.addDeclared_of_has hlacks.declared] at hp
  obtain ⟨rfl, rfl⟩ := Draw.pure_eq_iff.1 hp
  obtain ⟨hperm, hplaced⟩ := Service.startOrder_spec hplan.names hplan.order
  have hmem : svc.name ∈ plan.order :=
    hperm.symm.subset (List.mem_map_of_mem (name_of_serviceWithImage hsvc).2)
  have hruns : ∀ n ∈ plan.order, n ≠ svc.name → (Progress.start r.state).Runs n := by
    intro n hn hne
    obtain ⟨other, hother, rfl⟩ := List.mem_map.1 (hperm.subset hn)
    exact hlacks.others other hother hne
  obtain ⟨lines, q', lines', hrestart, rfl⟩ :=
    bringUpAll_restart hsvc hplan.found hmem hplaced.nodup hlacks.tracked hlacks.idle hruns hown hq
  have hcontainers : ∀ {q : Progress} {detached : Bool}, (r.state.take
      (upOutcome detached r.state plan.warnings plan.order q)).containers = q.containers :=
    getD_changedFrom _ _
  have hports : ∀ {q : Progress} {detached : Bool}, (r.state.take
      (upOutcome detached r.state plan.warnings plan.order q)).boundPorts = q.boundPorts :=
    getD_changedFrom _ _
  unfold restart at hrestart
  cases hport : portConflict r.state.boundPorts c with
  | some port =>
    have hheld : portConflict (Progress.start r.state).boundPorts c = some port := hport
    simp only [hheld, Draw.pure_eq_iff] at hrestart
    obtain ⟨rfl, -⟩ := hrestart
    refine .refused hport rfl ?_ hcontainers hports
    simp [upOutcome, Progress.fail]
  | none =>
    have hunheld : portConflict (Progress.start r.state).boundPorts c = none := hport
    simp only [hunheld, Draw.bind_eq_iff, Draw.pure_eq_iff] at hrestart
    obtain ⟨time, u1, h1, logs, u2, h2, event, u3, -, rfl, -⟩ := hrestart
    refine .started hport rfl ?_ hports
    rw [h1, h2]
    exact hcontainers

end Stack

/-! ## In a reached state -/

/-- The image of a service is kept under its full name. -/
theorem get?_of_findImage {images : Table Image} {svc : Service} {image : Image}
    (keyed : ∀ ⦃key i⦄, images.get? key = some i → i.key = key)
    (h : svc.findImage images = some image) : images.get? image.key = some image := by
  obtain ⟨reference, -, hfound⟩ := Option.bind_eq_some_iff.1 h
  rcases (Option.orElse_eq_some _ _ _).1 hfound with hi | ⟨-, hi⟩ <;> exact (keyed hi).symm ▸ hi

namespace Reached

variable {a b : Submission} {plan : Plan} {svc : Service}

/-- **Both ways agree but for the output.** Let all services of a stack run but one, whose container
is stopped, and let the networks and volumes that the file declares be there. Then `compose up` and
`docker start` with the id of the container both refuse to start it, because a port of it is taken,
or both start it at the same time with the same ports. The containers are the same in the end if and
only if nothing was started or the two names that the output is chosen by, that of the image which
the file asks for and the label of the image which the container was made from, give the same lines.
Where the file asks for the image that the container was made from they are one name. -/
theorem restarts_agree (h : Reached s u) (hu : u.drawn < idLimit)
    (hup : a.carried? = some "compose up") (hplan : plan? (a.commandRequest s) = some plan)
    (hsvc : svc ∈ plan.services) (hlacks : plan.LacksOnly (.start s) svc c)
    (hstart : b.carried? = some "start") (hargs : (b.commandRequest s).line.args = [c.id])
    (ha : a.run s u = ((t, o), v)) (hb : b.run s u = ((t', o'), v')) :
    ∃ image, svc.findImage s.images = some image ∧
      Restarts s u c image.key (fun port => [portTakenLine port]) t o ∧
      Restarts s u c (imageLabel s.images c.imageId)
        (fun port => (Refusal.cannotRestart c.name port).lines) t' o' ∧
      o.succeeded = o'.succeeded ∧ t.boundPorts = t'.boundPorts ∧
      (t.containers = t'.containers ↔ (portConflict s.boundPorts c).isSome = true ∨
        (Startup.logs image.key (Supply.now u).2).1 =
          (Startup.logs (imageLabel s.images c.imageId) (Supply.now u).2).1) ∧
      (image.id = c.imageId → t.containers = t'.containers) := by
  have hordered := h.ordered hu
  have hsound := sound_start hordered.agrees (h.stacks_named hu)
  obtain ⟨htracked, hcontainer, hname⟩ := hsound.found hlacks.tracked
  have hchecked := checked_of_plan? hplan
  obtain ⟨image, himage, hfound⟩ := hchecked.finds hsvc
  have hup' : Restarts s u c image.key (fun port => [portTakenLine port]) t o := by
    obtain ⟨he, ht⟩ := a.up_of_run hup ha
    rw [up_eq_carryOut hplan] at he
    have hown : ∀ n, n ≠ svc.name → (Stack.Progress.start s).tracked.get? n ≠ some c.id :=
      fun n hne hn => hne ((hsound.service_eq hcontainer hn).trans hname)
    exact (hchecked.carryOut_restarts hfound hlacks hown he).congr ⟨rfl, rfl⟩
      (by rw [ht]; exact ⟨rfl, rfl⟩)
  have hstart' : Restarts s u c (imageLabel s.images c.imageId)
      (fun port => (Refusal.cannotRestart c.name port).lines) t' o' := by
    obtain ⟨he, ht⟩ := b.subcommand_of_run hstart hb
    replace he : Command.start (b.commandRequest s) u = (o', v') := he
    have hne : c.id ≠ "" := by
      obtain ⟨n, -, hid⟩ := (h.sound hu).issued hcontainer
      intro hempty
      have hlength := Supply.length_hexText 12 n
      rw [← hid, hempty] at hlength
      cases hlength
    have hfind := findContainer_id hordered.agrees.containers hcontainer
      (Stack.Progress.tracked?_eq_some.1 hlacks.tracked).2 hne
    exact (start_restarts hargs hfind hlacks.idle he).congr ⟨rfl, rfl⟩
      (by rw [ht]; exact ⟨rfl, rfl⟩)
  obtain ⟨hsucceeded, hports, hiff⟩ := hup'.agree hstart'
  refine ⟨image, himage, hup', hstart', hsucceeded, hports, hiff, fun hid => hiff.2 (.inr ?_)⟩
  rw [← hid, (h.digested hu).imageLabel_eq (get?_of_findImage hordered.agrees.images himage)]

/-- The service that is lacking of the stack that a line brings up, and its container. -/
def lacking? (a : Submission) (s : State) : Option (Service × Container) :=
  (plan? (a.commandRequest s)).bind fun plan => plan.services.findSome? fun svc =>
    ((Stack.Progress.start s).tracked? svc.name).bind fun c =>
      if plan.LacksOnly (.start s) svc c then some (svc, c) else none

theorem lacksOnly_of_lacking? (h : lacking? a s = some (svc, c)) :
    ∃ plan, plan? (a.commandRequest s) = some plan ∧ svc ∈ plan.services ∧
      plan.LacksOnly (.start s) svc c := by
  obtain ⟨plan, hplan, h⟩ := Option.bind_eq_some_iff.1 h
  obtain ⟨svc', hsvc, h⟩ := List.exists_of_findSome?_eq_some h
  obtain ⟨c', -, h⟩ := Option.bind_eq_some_iff.1 h
  split at h
  · next hlacks =>
    cases h
    exact ⟨plan, hplan, hsvc, hlacks⟩
  · cases h

/-- A stack of two services, one of which has the image that is given. -/
def haltedUp (image : String) : Submission :=
  { raw := "docker compose up -d"
    files := some (.ofFiles [("compose.yaml",
      "services:\n  web:\n    image: " ++ image ++ "\n  db:\n    image: redis:7\n")])
    stackFiles := ["compose.yaml"] }

/-- The stack is brought up, and the container of one service is stopped. -/
def haltedLines : List Submission := [
  .ofLine "docker pull nginx:1.25",
  .ofLine "docker pull redis:7",
  haltedUp "nginx:1.25",
  .ofLine "docker stop web"]

def haltedStart : Submission := .ofLine "docker start 000000000012"

/-- Where the file is as it was, both ways lead to the same containers. -/
theorem restarts_agree_unedited :
    let r := State.empty.submitAll haltedLines .fresh
    let e := (haltedUp "nginx:1.25").run r.1.1 r.2
    let e' := haltedStart.run r.1.1 r.2
    (haltedUp "nginx:1.25").carried? = some "compose up" ∧ haltedStart.carried? = some "start" ∧
      r.2.drawn < idLimit ∧ (∃ svc c, lacking? (haltedUp "nginx:1.25") r.1.1 = some (svc, c) ∧
        (haltedStart.commandRequest r.1.1).line.args = [c.id]) ∧
      e.1.2.succeeded = e'.1.2.succeeded ∧ e.1.1.boundPorts = e'.1.1.boundPorts ∧
      e.1.1.containers = e'.1.1.containers := by
  intro r e e'
  have computed : (haltedUp "nginx:1.25").carried? = some "compose up" ∧
      haltedStart.carried? = some "start" ∧ r.2.drawn < idLimit ∧
      (lacking? (haltedUp "nginx:1.25") r.1.1).any (fun (svc, c) =>
        (haltedStart.commandRequest r.1.1).line.args = [c.id] ∧
          (svc.findImage r.1.1.images).any fun image => image.id = c.imageId) = true := by
    decide +kernel
  obtain ⟨hup, hstart, hu, hlacking⟩ := computed
  have he : (haltedUp "nginx:1.25").run r.1.1 r.2 = e := rfl
  have he' : haltedStart.run r.1.1 r.2 = e' := rfl
  have hr : State.empty.submitAll haltedLines .fresh = r := rfl
  clear_value e e'
  clear_value r
  have hreached : Reached r.1.1 r.2 := hr ▸ reached_submitAll haltedLines
  cases hl : lacking? (haltedUp "nginx:1.25") r.1.1 with
  | none =>
    rw [hl] at hlacking
    cases hlacking
  | some found =>
    obtain ⟨svc, c⟩ := found
    rw [hl] at hlacking
    obtain ⟨hargs, hsame⟩ := of_decide_eq_true hlacking
    obtain ⟨plan, hplan, hsvc, hlacks⟩ := lacksOnly_of_lacking? hl
    obtain ⟨image, himage, -, -, hsucceeded, hports, -, hagree⟩ :=
      restarts_agree hreached hu hup hplan hsvc hlacks hstart hargs he he'
    rw [himage] at hsame
    exact ⟨hup, hstart, hu, ⟨svc, c, rfl, hargs⟩, hsucceeded, hports,
      hagree (of_decide_eq_true hsame)⟩

/-- Where the file asks for another image now, the container of a web server prints what a database
prints when `compose up` starts it. -/
theorem restarts_differ_edited :
    let r := State.empty.submitAll haltedLines .fresh
    let e := (haltedUp "redis:7").run r.1.1 r.2
    let e' := haltedStart.run r.1.1 r.2
    Reached r.1.1 r.2 ∧ r.2.drawn < idLimit ∧
      (haltedUp "redis:7").carried? = some "compose up" ∧ haltedStart.carried? = some "start" ∧
      (∃ svc c, lacking? (haltedUp "redis:7") r.1.1 = some (svc, c) ∧
        (haltedStart.commandRequest r.1.1).line.args = [c.id]) ∧
      e.1.2.succeeded = true ∧ e'.1.2.succeeded = true ∧
      (e.1.1.containers.get? "000000000012").map Container.logs = some
        ["/docker-entrypoint.sh: Configuration complete; ready for start up",
          "* Ready to accept connections"] ∧
      (e'.1.1.containers.get? "000000000012").map Container.logs = some
        ["/docker-entrypoint.sh: Configuration complete; ready for start up",
          "/docker-entrypoint.sh: Configuration complete; ready for start up"] ∧
      e.1.1.containers ≠ e'.1.1.containers := by
  intro r e e'
  have computed : (r.2.drawn < idLimit ∧ (haltedUp "redis:7").carried? = some "compose up" ∧
      haltedStart.carried? = some "start") ∧
      (lacking? (haltedUp "redis:7") r.1.1).any (fun (_, c) =>
        (haltedStart.commandRequest r.1.1).line.args = [c.id]) = true ∧
      (e.1.2.succeeded = true ∧ e'.1.2.succeeded = true) ∧
      (e.1.1.containers.get? "000000000012").map Container.logs = some
        ["/docker-entrypoint.sh: Configuration complete; ready for start up",
          "* Ready to accept connections"] ∧
      (e'.1.1.containers.get? "000000000012").map Container.logs = some
        ["/docker-entrypoint.sh: Configuration complete; ready for start up",
          "/docker-entrypoint.sh: Configuration complete; ready for start up"] := by
    decide +kernel
  obtain ⟨⟨hdrawn, hup, hstart⟩, hlacking, ⟨hdone, hdone'⟩, hlogs, hlogs'⟩ := computed
  have hr : State.empty.submitAll haltedLines .fresh = r := rfl
  clear_value e e'
  clear_value r
  have hreached : Reached r.1.1 r.2 := hr ▸ reached_submitAll haltedLines
  refine ⟨hreached, hdrawn, hup, hstart, ?_, hdone, hdone', hlogs, hlogs', fun he => ?_⟩
  · cases hl : lacking? (haltedUp "redis:7") r.1.1 with
    | none =>
      rw [hl] at hlacking
      cases hlacking
    | some found =>
      rw [hl] at hlacking
      exact ⟨found.1, found.2, rfl, of_decide_eq_true hlacking⟩
  · rw [he, hlogs'] at hlogs
    revert hlogs
    decide

end Reached

end DockerSim
