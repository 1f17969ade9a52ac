import DockerSim.Proofs.Loadable
import DockerSim.Proofs.Stack.Additions
import DockerSim.Proofs.Stack.Up

/-!
# Services that are tried

A service is stuck when it is its turn and there is an obstacle (`stuck`). It adds nothing then, and
what is told of it is an error; the other services are raised (`Tries`). In the end every service is
settled: it runs, or there still is an obstacle.

No more has to be known of the tables than that the containers that are tracked are kept under their
ids and that ids are handed out that no container has (`Ready`).
-/

namespace DockerSim

open Command Stack

/-- The container of each service that the stack tracks. -/
def State.tracked (s : State) : Table String := (s.stack?.map Stack.containerIds).getD ∅

/-- The containers that the stack tracks are kept under their ids. -/
def State.TrackedByIds (s : State) : Prop :=
  ∀ ⦃service id c⦄, s.tracked.get? service = some id → s.containers.get? id = some c → c.id = id

theorem Ordered.trackedByIds {s : State} {u : Supply} (h : Ordered s u) : s.TrackedByIds :=
  fun _ _ _ _ hc => h.agrees.containers hc

theorem Ordered.spares {s : State} {u v : Supply} (h : Ordered s u) (hv : v.drawn < idLimit) :
    s.Spares u v where
  unused _ hlt hle := h.agrees.spare hlt (Nat.le_sub_one_of_lt (Nat.lt_of_le_of_lt hle hv))
  few := Nat.le_trans (Nat.le_of_lt hv) (Nat.le_add_left _ _)

/-- The request with its line in the usual form. -/
def Request.normalized (r : Request) : Request := { r with line := r.line.normalized }

theorem evaluate_eq_up {r : Request} (hc : r.line.carried? = some "compose up") :
    evaluate r = up r.normalized := evaluate_eq_runSubcommand hc

namespace Stack

/-- The services of an order that cannot be brought up when it is their turn. -/
def stuck (detached : Bool) (services : List Service) (images : Table Image) :
    List String → Progress → Supply → List String
  | [], _, _ => []
  | name :: order, p, u =>
    match serviceWithImage services images name with
    | none => stuck detached services images order p u
    | some (s, image) =>
      let (q, v) := bringUp detached p s image u
      let others := stuck detached services images order q v
      if (p.obstacle? s).isSome then name :: others else others

/-- The lines that tell that a service was raised. -/
def raisedLines (service : String) : List String :=
  ["  Running", "  Started", "  Created"].map fun done => " ✔ Container " ++ service ++ done

namespace Progress

/-- The containers that are tracked are kept under their ids, and the ids that will be handed out
are free. -/
structure Ready (limit : Nat) (p : Progress) (u : Supply) : Prop where
  keyed : ∀ ⦃service id c⦄, p.tracked.get? service = some id → p.containers.get? id = some c →
    c.id = id
  unused : ∀ ⦃n⦄, u.drawn < n → n ≤ limit → p.containers.get? (Supply.hexText 12 n) = none

/-- An id that is handed out now is free. -/
theorem Ready.fresh {limit : Nat} {p : Progress} {u v : Supply} {id : String}
    (h : p.Ready limit u) (hid : Supply.Hands u id v) (hv : v.drawn ≤ limit) :
    p.containers.get? id = none := by
  obtain ⟨n, hlt, hle, rfl⟩ := hid
  exact h.unused hlt (Nat.le_trans hle hv)

end Progress

end Stack

/-! ## One service -/

open Stack.Progress (Ready obstacle? obstacle?_of_tracked? obstacle?_of_absent tracked?_eq_some
  adds_of_same adds_started adds_created)

variable {p q : Stack.Progress} {svc : Service} {image : Image} {detached : Bool} {u v : Supply}
  {limit : Nat}

namespace BringsUp

theorem le (h : BringsUp detached p svc image u q v) : u ≤ v := by
  cases h with
  | restarted _ _ unheld made =>
    obtain ⟨_, _, _, _, shown, told, -⟩ := restart_spec unheld made
    exact Supply.le_trans shown.le told.le
  | created _ _ _ made =>
    obtain ⟨_, _, _, _, -, -, hmade, told, -⟩ := create_spec made
    exact Supply.le_trans hmade.created.le told.le
  | _ => exact Supply.le_refl u

/-- **A service is stuck, or it is raised**: then this is told, and what it adds is its own. -/
theorem stuck_or_raised (h : BringsUp detached p svc image u q v) :
    (p.obstacle? svc).isSome = true ∧ (∃ reason, q = p.fail svc.name reason) ∨
      (p.obstacle? svc).isSome = false ∧ q.failed = p.failed ∧
        (∃ line ∈ raisedLines svc.name, ∃ rest, q.lines = p.lines ++ line :: rest) ∧
        ∀ ⦃limit⦄, p.Ready limit u → v.drawn ≤ limit → p.Adds [svc.name] q := by
  cases h with
  | @already c found running =>
    refine .inr ⟨by simp [obstacle?, found, running], rfl,
      ⟨_, by simp [raisedLines], [], rfl⟩, fun _ _ _ => ?_⟩
    refine adds_of_same rfl rfl rfl rfl rfl fun name hmem => ?_
    rw [List.mem_singleton.1 hmem]
    exact ⟨c, found, running⟩
  | held found idle held =>
    exact .inl ⟨by rw [obstacle?_of_tracked? found idle, held]; rfl, _, rfl⟩
  | nameTaken absent taken =>
    exact .inl ⟨(obstacle?_of_absent absent).2 (.inl taken), _, rfl⟩
  | portTaken absent _ taken =>
    exact .inl ⟨(obstacle?_of_absent absent).2 (.inr ⟨_, taken⟩), _, rfl⟩
  | @restarted c _ _ found idle unheld made =>
    obtain ⟨time, logs, event, u1, -, -, rfl⟩ := restart_spec unheld made
    refine .inr ⟨by rw [obstacle?_of_tracked? found idle, unheld]; rfl, rfl,
      ⟨_, by simp [raisedLines], [], rfl⟩, fun limit hp _ => ?_⟩
    obtain ⟨⟨id, hid, hget⟩, ha⟩ := tracked?_eq_some.1 found
    obtain rfl : c.id = id := hp.keyed hid hget
    exact adds_started hid hget ha idle unheld
  | created absent free claimed made =>
    obtain ⟨c, started, event, u1, hname, rfl, hmade, told, rfl⟩ := create_spec made
    refine .inr ⟨?_, rfl, ⟨_, by simp [raisedLines], started, List.append_assoc _ _ _⟩,
      fun limit hp hv => ?_⟩
    · rw [← Bool.not_eq_true, obstacle?_of_absent absent, free, claimed]
      simp
    · exact adds_created hname (by simp [Container.isRunning, hmade.status])
        (hp.fresh hmade.id (Nat.le_trans told.le.drawn hv)) (.of_claimServicePorts .nil claimed)
        (joined_foldl c.id (joinedNetworks svc) (p.networks, []))

/-- The containers that are tracked go on to be kept under their ids, with ids to spare. -/
theorem ready (h : BringsUp detached p svc image u q v) (hp : p.Ready limit u)
    (hl : limit ≤ u.drawn + idLimit) (hv : v.drawn ≤ limit) : q.Ready limit v := by
  have hle := h.le.drawn
  have same : ∀ {q : Stack.Progress}, q.tracked = p.tracked → q.containers = p.containers →
      q.Ready limit v := by
    intro q htracked hcontainers
    refine ⟨?_, ?_⟩
    · rw [htracked, hcontainers]
      exact hp.keyed
    · rw [hcontainers]
      exact fun n hn => hp.unused (Nat.lt_of_le_of_lt hle hn)
  cases h with
  | @restarted c _ _ found idle unheld made =>
    obtain ⟨⟨id, hid, hget⟩, -⟩ := tracked?_eq_some.1 found
    obtain rfl : c.id = id := hp.keyed hid hget
    obtain ⟨time, logs, event, u1, -, -, rfl⟩ := restart_spec unheld made
    constructor
    · intro service id d hservice hd
      replace hd : (p.containers.insert c.id (c.started time logs)).get? id = some d := hd
      rw [Table.get?_insert] at hd
      split at hd
      · next he =>
        cases hd
        exact he.symm
      · exact hp.keyed hservice hd
    · intro n hn hnl
      have hfree := hp.unused (Nat.lt_of_le_of_lt hle hn) hnl
      refine (Table.get?_insert_of_ne _ _ ?_).trans hfree
      intro he
      rw [he, hget] at hfree
      cases hfree
  | created absent free claimed made =>
    obtain ⟨c, started, event, u1, -, -, hmade, told, rfl⟩ := create_spec made
    constructor
    · intro service id d hservice hd
      replace hservice : (p.tracked.insert svc.name c.id).get? service = some id := hservice
      replace hd : (p.containers.insert c.id c).get? id = some d := hd
      rw [Table.get?_insert] at hservice hd
      split at hd
      · next he =>
        cases hd
        exact he.symm
      · next hne =>
        split at hservice
        · cases hservice
          exact absurd rfl hne
        · exact hp.keyed hservice hd
    · intro n hn hnl
      obtain ⟨m, hm, hmv, hid⟩ := hmade.id
      have hmn : m < n := Nat.lt_of_le_of_lt (Nat.le_trans hmv told.le.drawn) hn
      refine (Table.get?_insert_of_ne _ _ ?_).trans
        (hp.unused (Nat.lt_of_le_of_lt hle hn) hnl)
      rw [hid]
      refine (Supply.hexText_ne hmn ?_).symm
      unfold idLimit at hl
      omega
  | _ => exact same rfl rfl

end BringsUp

/-! ## All services -/

namespace Stack.Progress

/-- The services of an order were tried, and some were stuck: these add nothing, and what became of
each of them is told. -/
structure Tries (p : Stack.Progress) (order stuck : List String) (q : Stack.Progress) : Prop where
  within : stuck ⊆ order
  adds : p.Adds (order.filter fun name => !stuck.contains name) q
  failed : q.failed = (p.failed || !stuck.isEmpty)
  lines : p.lines ⊆ q.lines
  errors : ∀ name ∈ stuck, " ✗ Container " ++ name ++ "  Error" ∈ q.lines
  successes : ∀ name ∈ order, name ∉ stuck → ∃ line ∈ raisedLines name, line ∈ q.lines

theorem Tries.nil (p : Stack.Progress) : p.Tries [] [] p where
  within := List.Subset.refl _
  adds := adds_of_same rfl rfl rfl rfl rfl fun _ hmem => nomatch hmem
  failed := (Bool.or_false _).symm
  lines := List.Subset.refl _
  errors _ hmem := nomatch hmem
  successes _ hmem := nomatch hmem

/-- One service is tried, and then others. -/
theorem Tries.cons {t : Stack.Progress} {name : String} {first order others : List String}
    (h : p.Tries [name] first q) (h' : q.Tries order others t) (hnew : name ∉ order) :
    p.Tries (name :: order) (first ++ others) t where
  within := by
    refine List.append_subset.2 ⟨fun n hn => ?_, fun n hn => List.mem_cons_of_mem _ (h'.within hn)⟩
    exact List.mem_singleton.1 (h.within hn) ▸ List.mem_cons_self
  adds := by
    have hone : [name].filter (fun n => !first.contains n) =
        [name].filter fun n => !(first ++ others).contains n := by
      refine List.filter_congr fun n hn => ?_
      rw [List.mem_singleton.1 hn]
      have : name ∉ others := fun hmem => hnew (h'.within hmem)
      simp [this]
    have hrest : order.filter (fun n => !others.contains n) =
        order.filter fun n => !(first ++ others).contains n := by
      refine List.filter_congr fun n hn => ?_
      have : n ∉ first := fun hmem => hnew (List.mem_singleton.1 (h.within hmem) ▸ hn)
      simp [this]
    have happend := h.adds.append h'.adds fun n hn hmem =>
      hnew (List.mem_singleton.1 (List.mem_filter.1 hn).1 ▸ (List.mem_filter.1 hmem).1)
    rwa [hone, hrest, ← List.filter_append, List.singleton_append] at happend
  failed := by
    rw [h'.failed, h.failed, Bool.or_assoc, ← Bool.not_and]
    cases first <;> rfl
  lines := List.Subset.trans h.lines h'.lines
  errors n hn := (List.mem_append.1 hn).elim (fun hf => h'.lines (h.errors n hf)) (h'.errors n)
  successes n hn hfree := by
    rw [List.mem_append, not_or] at hfree
    rcases List.mem_cons.1 hn with rfl | hmem
    · obtain ⟨line, hline, hq⟩ := h.successes n (List.mem_singleton_self n) hfree.1
      exact ⟨line, hline, h'.lines hq⟩
    · exact h'.successes n hmem hfree.2

end Stack.Progress

/-- One service is tried, and then settled. -/
theorem BringsUp.tries (h : BringsUp detached p svc image u q v) (hp : p.Ready limit u)
    (hv : v.drawn ≤ limit) :
    p.Tries [svc.name] (if (p.obstacle? svc).isSome then [svc.name] else []) q ∧
      q.Settled svc := by
  rcases h.stuck_or_raised with
    ⟨ho, reason, rfl⟩ | ⟨ho, hfailed, ⟨line, hline, rest, hlines⟩, hadds⟩
  · rw [if_pos ho]
    refine ⟨⟨List.Subset.refl _, ?_, (Bool.or_true _).symm, List.subset_append_left _ _, ?_, ?_⟩,
      .inr ho⟩
    · exact adds_of_same rfl rfl rfl rfl rfl fun n hn => by simp at hn
    · intro n hn
      rw [List.mem_singleton.1 hn]
      exact List.mem_append_right _ List.mem_cons_self
    · exact fun n hn hfree => absurd hn hfree
  · rw [ho, if_neg Bool.false_ne_true]
    replace hadds := hadds hp hv
    refine ⟨⟨List.nil_subset _, hadds, by simp [hfailed], ?_, fun _ hn => (nomatch hn), ?_⟩,
      .inl (hadds.runs (List.mem_singleton_self _))⟩
    · rw [hlines]
      exact List.subset_append_left _ _
    · intro n hn _
      rw [List.mem_singleton.1 hn]
      exact ⟨line, hline, by simp [hlines]⟩

theorem bringUpAll_le {services : List Service} {images : Table Image} {order : List String}
    (h : bringUpAll detached services images order p u = (q, v)) : u ≤ v :=
  bringUpAll_keeps (R := fun _ u _ v => u ≤ v) (fun _ => Supply.le_refl) Supply.le_trans
    BringsUp.le h

/-- **What bringing up the services of an order adds.** Those that are stuck add nothing, and in the
end each of them is settled. -/
theorem bringUpAll_tries {services : List Service} {images : Table Image} :
    ∀ {order : List String} {p q : Stack.Progress} {u : Supply}, order.Nodup →
      (∀ name ∈ order, ∃ svc image,
        serviceWithImage services images name = some (svc, image) ∧ svc.name = name) →
      bringUpAll detached services images order p u = (q, v) → p.Ready limit u →
      limit ≤ u.drawn + idLimit → v.drawn ≤ limit →
      p.Tries order (stuck detached services images order p u) q ∧ q.Ready limit v ∧
        ∀ name ∈ order, ∀ svc image,
          serviceWithImage services images name = some (svc, image) → q.Settled svc
  | [], p, q, u, _, _, h, hp, _, _ => by
    obtain ⟨rfl, rfl⟩ := Draw.pure_eq_iff.1 h
    exact ⟨.nil p, hp, fun _ hmem => nomatch hmem⟩
  | name :: order, p, q, u, hnodup, found, h, hp, hl, hv => by
    obtain ⟨hnew, hrest⟩ := List.nodup_cons.1 hnodup
    obtain ⟨⟨svc, image, hsvc, rfl⟩, hfound⟩ := List.forall_mem_cons.1 found
    obtain ⟨p', u', h2, hone, -⟩ := bringUpAll_cons h
    have h1 := hone svc image hsvc
    have hcase := bringUp_cases h1
    have hv' := Nat.le_trans (bringUpAll_le h2).drawn hv
    obtain ⟨htries, hsettled⟩ := hcase.tries hp hv'
    obtain ⟨hothers, hq, hall⟩ := bringUpAll_tries hrest hfound h2 (hcase.ready hp hl hv')
      (Nat.le_trans hl (Nat.add_le_add_right hcase.le.drawn _)) hv
    refine ⟨?_, hq, ?_⟩
    · have hstuck : stuck detached services images (svc.name :: order) p u =
          (if (p.obstacle? svc).isSome then [svc.name] else []) ++
            stuck detached services images order p' u' := by
        rw [stuck, hsvc]
        simp only [h1]
        split <;> rfl
      rw [hstuck]
      exact htries.cons hothers hnew
    · intro name hmem svc' image' hsvc'
      rcases List.mem_cons.1 hmem with rfl | hmem
      · rw [hsvc, Option.some.injEq, Prod.mk.injEq] at hsvc'
        rw [← hsvc'.1]
        exact hothers.adds.settled hsettled
      · exact hall name hmem svc' image' hsvc'

/-! ## Plans -/

namespace Stack

variable {r : Request} {plan : Plan} {o : Outcome}

/-- The services of a plan that are stuck when it is carried out. -/
def Plan.stuck (plan : Plan) (r : Request) (u : Supply) : List String :=
  let (p, v) := (Progress.start r.state).addDeclared plan.doc u
  Stack.stuck (r.line.anySwitch ["d", "detach"]) plan.services r.state.images plan.order p v

/-- Once the networks and volumes are there, the services can be tried. -/
theorem Progress.Declares.ready {s : State} {p : Progress} {w : Supply}
    (h : (Progress.start s).Declares u p w) (hkept : s.TrackedByIds) (hs : s.Spares u v) :
    p.Ready v.drawn w := by
  constructor
  · rw [h.same.tracked, h.same.containers]
    exact hkept
  · rw [h.same.containers]
    exact fun n hn => hs.unused n (Nat.lt_of_le_of_lt h.le.drawn hn)

/-- **A plan is carried out** by trying its services, once the networks and volumes are there. -/
theorem Plan.Checked.carryOut_tries (hplan : plan.Checked r.state.images)
    (h : plan.carryOut r u = (o, v)) (hkept : r.state.TrackedByIds) (hs : r.state.Spares u v) :
    ∃ p u1 q, (Progress.start r.state).addDeclared plan.doc u = (p, u1) ∧
      o = upOutcome (r.line.anySwitch ["d", "detach"]) r.state plan.warnings plan.order q ∧
      p.Tries plan.order (plan.stuck r u) q ∧
      ∀ name ∈ plan.order, ∀ svc image,
        serviceWithImage plan.services r.state.images name = some (svc, image) →
          q.Settled svc := by
  obtain ⟨p, u1, q, h1, h2, rfl⟩ := plan.carryOut_spec h
  have hdeclares := Progress.addDeclared_declares h1
  have hready := hdeclares.ready hkept hs
  obtain ⟨-, hplaced⟩ := Service.startOrder_spec hplan.names hplan.order
  obtain ⟨htries, -, hsettled⟩ := bringUpAll_tries hplaced.nodup hplan.found h2 hready
    (Nat.le_trans hs.few (Nat.add_le_add_right hdeclares.le.drawn _)) (Nat.le_refl _)
  refine ⟨p, u1, q, h1, rfl, ?_, hsettled⟩
  unfold Plan.stuck
  rw [h1]
  exact htries

/-- The state after a plan was carried out has the tables that were worked on. -/
theorem apply_upOutcome (s : State) (warnings order : List String) (q : Progress) :
    s.apply (upOutcome detached s warnings order q).delta = { s with
      containers := q.containers
      boundPorts := q.boundPorts
      networks := q.networks
      volumes := q.volumes
      composeStacks := s.composeStacks.insert State.stackName
        { name := State.stackName, services := order, containerIds := q.tracked } } := by
  simp only [State.apply, upOutcome, getD_changedFrom, Option.getD_none]

theorem stack?_apply_upOutcome (detached : Bool) (s : State) (warnings order : List String)
    (q : Progress) :
    (s.apply (upOutcome detached s warnings order q).delta).stack? =
      some { name := State.stackName, services := order, containerIds := q.tracked } := by
  rw [apply_upOutcome]
  exact Table.get?_insert_self _ _ _

theorem tracked_apply_upOutcome (detached : Bool) (s : State) (warnings order : List String)
    (q : Progress) :
    (s.apply (upOutcome detached s warnings order q).delta).tracked = q.tracked := by
  unfold State.tracked
  rw [stack?_apply_upOutcome]
  rfl

/-! ## A stack of one service -/

/-- A state with a stopped container for the service `web`, which is kept under an id that may not
be its own, and a running one for nothing in the stack. -/
def webState (id : String) (tracked : Table String) : State :=
  let time : Instant := ⟨1704067200, 0⟩
  let image : Image := {
    id := "sha256:0", repository := "nginx", tag := "1.25", size := 1, createdAt := time
    layers := [] }
  let web : Container := {
    id, name := "web", imageId := "sha256:0", status := .stopped, ports := [], env := ∅
    createdAt := time, startedAt := some time, stoppedAt := some ⟨1704067201, 0⟩, logs := []
    networkIds := [], mounts := [] }
  let db : Container :=
    { web with id := "bbbbbbbbbbbb", name := "db", status := .running, stoppedAt := none }
  { State.empty with
    images := Table.empty.insert image.key image
    containers := (Table.empty.insert "aaaaaaaaaaaa" web).insert "bbbbbbbbbbbb" db
    composeStacks := Table.empty.insert State.stackName
      { name := State.stackName, services := ["web"], containerIds := tracked } }

/-- The stack is brought up. -/
def webUp (s : State) : Request where
  state := s
  line := CommandLine.parse "docker compose up -d"
  files := some (.ofFiles [("compose.yml", "services:\n  web:\n    image: nginx:1.25\n")])
  stackFiles := []

theorem spares_webState {id : String} {tracked : Table String} {v : Supply} (hv : v.drawn ≤ 9) :
    (webState id tracked).Spares .fresh v := by
  refine ⟨fun n hlt hle => ?_, Nat.le_trans hv (by decide)⟩
  have hn : n < 10 := Nat.lt_succ_of_le (Nat.le_trans hle hv)
  have hids : ∀ n < 10, Supply.hexText 12 n ≠ "aaaaaaaaaaaa" ∧
      Supply.hexText 12 n ≠ "bbbbbbbbbbbb" := by decide +kernel
  obtain ⟨ha, hb⟩ := hids n hn
  show ((Table.empty.insert "aaaaaaaaaaaa" _).insert "bbbbbbbbbbbb" _).get? _ = none
  rw [Table.get?_insert_of_ne _ _ hb, Table.get?_insert_of_ne _ _ ha]
  rfl

theorem trackedByIds_webState {tracked : Table String}
    (h : ∀ service id, tracked.get? service = some id → id = "aaaaaaaaaaaa") :
    (webState "aaaaaaaaaaaa" tracked).TrackedByIds := by
  intro service id c hid hc
  obtain rfl := h service id hid
  replace hc : ((Table.empty.insert "aaaaaaaaaaaa" _).insert "bbbbbbbbbbbb" _).get?
      "aaaaaaaaaaaa" = some c := hc
  rw [Table.get?_insert_of_ne _ _ (by decide), Table.get?_insert_self] at hc
  cases hc
  rfl

end Stack

end DockerSim
