import DockerSim.Proofs.Stack.Tries

/-!
# `compose up` fails cleanly

A `compose up` that a check stops changes nothing. Otherwise what it changes is confined to the
services that are not stuck (`Confined`): the stuck ones leave no container, no bound port, no
membership of a network and no entry in the stack behind, and what belongs to others stays as it is.

This needs the containers of the stack to be kept under their ids. A state with one that is not is
refused by the check of states, and in it `compose up` may overwrite another container
(`up_misplaced`).
-/

namespace DockerSim

open Command Stack

/-- What changed between two states is confined to some services: to the containers that the stack
tracks for them. -/
structure Confined (s : State) (raised : String → Prop) (t : State) : Prop where
  images : t.images = s.images
  entries : ∀ name, ¬raised name → t.tracked.get? name = s.tracked.get? name
  containers : ∀ id c, s.containers.get? id = some c →
    (∀ name, raised name → s.tracked.get? name ≠ some id) → t.containers.get? id = some c
  newContainers : ∀ id d, s.containers.get? id = none → t.containers.get? id = some d →
    raised d.name ∧ t.tracked.get? d.name = some id
  ports : ∀ port id, s.boundPorts.get? port = some id → t.boundPorts.get? port = some id
  newPorts : ∀ port id, s.boundPorts.get? port = none → t.boundPorts.get? port = some id →
    ∃ name, raised name ∧ t.tracked.get? name = some id
  members : ∀ key n id, t.networks.get? key = some n → id ∈ n.containerIds →
    (∃ n', s.networks.get? key = some n' ∧ id ∈ n'.containerIds) ∨
      s.containers.get? id = none ∧ ∃ name, raised name ∧ t.tracked.get? name = some id

namespace Stack

variable {r : Request} {plan : Plan} {u v : Supply} {o : Outcome}

/-- The service is one of the plan, and it is not stuck when the plan is carried out. -/
def Plan.Raised (plan : Plan) (r : Request) (u : Supply) (name : String) : Prop :=
  (∃ svc ∈ plan.services, svc.name = name) ∧ name ∉ plan.stuck r u

/-- What is added to the tables of a state, after networks and volumes were declared, is confined to
the services that are raised. -/
theorem confined_of_adds {s : State} {p q : Progress} {w : Supply} {raised order : List String}
    {detached : Bool} {warnings : List String} (hdeclares : (Progress.start s).Declares u p w)
    (hadds : p.Adds raised q) :
    Confined s (· ∈ raised) (s.apply (upOutcome detached s warnings order q).delta) := by
  have hafter := tracked_apply_upOutcome detached s warnings order q
  have htracked : p.tracked = s.tracked := hdeclares.same.tracked
  have hcontainers : p.containers = s.containers := hdeclares.same.containers
  have hports : p.boundPorts = s.boundPorts := hdeclares.same.boundPorts
  generalize ht : s.apply (upOutcome detached s warnings order q).delta = t at hafter ⊢
  rw [apply_upOutcome] at ht
  subst ht
  constructor
  case images => rfl
  case entries =>
    intro name hname
    rw [hafter, hadds.tracked hname, htracked]
  case containers =>
    intro id c hc hother
    rw [← hcontainers] at hc
    rcases hadds.containers hc with hq | ⟨-, -, ⟨name, hname, hid⟩, -⟩
    · exact hq
    · exact absurd (htracked ▸ hid) (hother name hname)
  case newContainers =>
    intro id d hnone hd
    rw [hafter]
    exact (hadds.newContainers (hcontainers ▸ hnone) hd).2
  case ports => exact fun port id hport => hadds.ports (hports ▸ hport)
  case newPorts =>
    intro port id hnone hport
    rw [hafter]
    exact hadds.newPorts (hports ▸ hnone) hport
  case members =>
    intro key n id hn hid
    rw [hafter]
    rcases hadds.networks.member hn hid with ⟨n', hn', hold⟩ | ⟨hnone, hnew⟩
    · cases hs : s.networks.get? key with
      | none =>
        rw [(hdeclares.declared hs hn').2] at hold
        cases hold
      | some n'' =>
        rw [hdeclares.networks hs, Option.some.injEq] at hn'
        exact .inl ⟨n'', rfl, hn' ▸ hold⟩
    · exact .inr ⟨hcontainers ▸ hnone, hnew⟩

/-- **`compose up` fails cleanly.** When a check stops it, it changes nothing and tells at most of a
file that was rejected. Otherwise it succeeds if no service is stuck, tells which ones are and which
are not, and changes nothing but what belongs to the latter. -/
theorem up_fails_cleanly (hc : r.line.carried? = some "compose up") (h : evaluate r u = (o, v))
    (hkept : r.state.TrackedByIds) (hs : r.state.Spares u v) :
    (plan? r.normalized = none →
      o.succeeded = false ∧ o.delta = {} ∧
        (o.events = [] ∨ ∃ e, o.events = [e] ∧ e.kind = .composeFailed)) ∧
    ∀ plan, plan? r.normalized = some plan →
      (o.succeeded = true ↔ plan.stuck r.normalized u = []) ∧
      (∀ name ∈ plan.stuck r.normalized u,
        (∃ svc ∈ plan.services, svc.name = name) ∧
          " ✗ Container " ++ name ++ "  Error" ∈ o.output) ∧
      (∀ name, plan.Raised r.normalized u name → ∃ line ∈ raisedLines name, line ∈ o.output) ∧
      Confined r.state (plan.Raised r.normalized u)
        (r.state.apply o.delta) := by
  rw [evaluate_eq_up hc] at h
  refine ⟨fun hplan => ?_, fun plan hplan => ?_⟩
  · obtain ⟨hfailed, hdelta, -, htold⟩ := up_stops hplan h
    exact ⟨hfailed, hdelta, htold.imp And.right And.right⟩
  · rw [up_eq_carryOut hplan] at h
    have hchecked := checked_of_plan? hplan
    obtain ⟨p, u1, q, hp, rfl, htries, -⟩ := hchecked.carryOut_tries h hkept hs
    have hdeclares := Progress.addDeclared_declares hp
    obtain ⟨hperm, -⟩ := Service.startOrder_spec hchecked.names hchecked.order
    have hmem : ∀ name, name ∈ plan.order ↔ ∃ svc ∈ plan.services, svc.name = name := by
      intro name
      rw [hperm.mem_iff, List.mem_map]
    refine ⟨?_, fun name hname => ⟨(hmem name).1 (htries.within hname), ?_⟩,
      fun name ⟨hservice, hraised⟩ => ?_, ?_⟩
    · show (!q.failed) = true ↔ _
      rw [htries.failed, hdeclares.failed]
      simp [Progress.start]
    · simp [upOutcome, htries.errors name hname]
    · obtain ⟨line, hline, hq⟩ := htries.successes name ((hmem name).2 hservice) hraised
      exact ⟨line, hline, by simp [upOutcome, hq]⟩
    · have hraised : (· ∈ plan.order.filter fun name =>
          !(plan.stuck r.normalized u).contains name) =
          plan.Raised r.normalized u := by
        funext name
        simp [Plan.Raised, hmem]
      exact hraised ▸ confined_of_adds hdeclares htries.adds

/-- A service is stuck whose name is taken. -/
theorem up_fails_cleanly_web :
    let s := webState "aaaaaaaaaaaa" ∅
    let r := webUp s
    let e := evaluate r .fresh
    ∃ plan, plan? r.normalized = some plan ∧ plan.stuck r.normalized .fresh ≠ [] ∧
      Confined s (plan.Raised r.normalized .fresh) (s.apply e.1.delta) := by
  intro s r e
  have computed : r.line.carried? = some "compose up" ∧ (plan? r.normalized).isSome = true ∧
      e.1.succeeded = false ∧ e.2.drawn ≤ 9 := by
    decide +kernel
  obtain ⟨hc, hsome, hfailed, hdrawn⟩ := computed
  obtain ⟨plan, hplan⟩ := Option.isSome_iff_exists.1 hsome
  have he : evaluate r .fresh = e := rfl
  clear_value e
  have hkept : r.state.TrackedByIds := trackedByIds_webState fun _ _ h => nomatch h
  have hspares : r.state.Spares .fresh e.2 := spares_webState hdrawn
  obtain ⟨hsucceeded, -, -, hconfined⟩ := (up_fails_cleanly hc he hkept hspares).2 plan hplan
  refine ⟨plan, hplan, fun hstuck => ?_, hconfined⟩
  rw [hsucceeded.2 hstuck] at hfailed
  cases hfailed

/-- Where the container of a service is not kept under its id, another container is overwritten that
the stack does not track. -/
theorem up_misplaced :
    let s := webState "bbbbbbbbbbbb" (Table.empty.insert "web" "aaaaaaaaaaaa")
    let e := evaluate (webUp s) .fresh
    (plan? (webUp s).normalized).isSome = true ∧ s.Spares .fresh e.2 ∧
      s.tracked = Table.empty.insert "web" "aaaaaaaaaaaa" ∧
      (s.containers.get? "bbbbbbbbbbbb").map Container.name = some "db" ∧
      ((s.apply e.1.delta).containers.get? "bbbbbbbbbbbb").map Container.name = some "web" := by
  intro s e
  have computed : (plan? (webUp s).normalized).isSome = true ∧ e.2.drawn ≤ 9 ∧
      (s.containers.get? "bbbbbbbbbbbb").map Container.name = some "db" ∧
      ((s.apply e.1.delta).containers.get? "bbbbbbbbbbbb").map Container.name = some "web" := by
    decide +kernel
  obtain ⟨hplan, hdrawn, hbefore, hafter⟩ := computed
  exact ⟨hplan, spares_webState hdrawn, rfl, hbefore, hafter⟩

end Stack

end DockerSim
