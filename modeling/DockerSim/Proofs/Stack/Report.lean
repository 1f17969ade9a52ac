import DockerSim.Proofs.Links.Reached

/-!
# What `compose ps` and `compose logs` see

`compose down` works on every container that the stack tracks, but the reports of a stack go by the
services of the file that was brought up last. So a container whose service has left the file runs
on, is tracked, and is in neither report: it is overlooked. Everything else that is tracked and
active is reported once (`Stack.mem_members`), and it is overlooked from the `compose up` on whose
file lacks its service, and from no other line (`Reached.overlooks_iff`, `Reached.overlooked`).
-/

namespace DockerSim

open Command Stack

/-- The stack tracks a container for a service that is not removed. -/
structure State.Tracks (s : State) (service : String) (c : Container) : Prop where
  tracked : s.tracked.get? service = some c.id
  found : s.containers.get? c.id = some c
  active : c.status ≠ .removed

/-- The service is one of the file that was brought up last. -/
def State.Serves (s : State) (service : String) : Prop :=
  ∃ stack, s.stack? = some stack ∧ service ∈ stack.services

/-- The stack tracks a container for a service that its file has no more. -/
def State.Overlooks (s : State) (service : String) (c : Container) : Prop :=
  s.Tracks service c ∧ ¬s.Serves service

variable {s t : State} {u v : Supply} {a : Submission} {o : Outcome} {service : String}
  {c : Container}

/-! ## The members of a stack -/

theorem State.tracked_of_stack? {stack : Stack} (h : s.stack? = some stack) :
    s.tracked = stack.containerIds := by
  unfold State.tracked
  rw [h]
  rfl

theorem State.stack_of_tracked {id : String} (h : s.tracked.get? service = some id) :
    ∃ stack, s.stack? = some stack ∧ stack.containerIds.get? service = some id := by
  cases hstack : s.stack? with
  | none =>
    unfold State.tracked at h
    rw [hstack] at h
    cases h
  | some stack => exact ⟨stack, rfl, State.tracked_of_stack? hstack ▸ h⟩

namespace Stack

/-- Members are listed like the containers that are stopped when the stack is taken down. -/
theorem map_members {stack : Stack} (hstack : s.stack? = some stack) :
    (members s).map (fun m => (m.1, m.2.id)) = stack.stopped s.containers stack.services := by
  unfold members stopped
  rw [hstack]
  simp only [List.map_filterMap, Option.map_map]
  rfl

/-- **A member is an active container that is tracked for a service of the file.** -/
theorem mem_members (hapart : ∀ stack, s.stack? = some stack → stack.Apart s.containers) :
    (service, c) ∈ members s ↔ s.Tracks service c ∧ s.Serves service := by
  have hactive : c.isActive = true ↔ c.status ≠ .removed := decide_eq_true_iff
  cases hstack : s.stack? with
  | none =>
    unfold members
    rw [hstack]
    refine ⟨fun h => (nomatch h), fun ⟨htracks, _⟩ => ?_⟩
    obtain ⟨stack, hsome, -⟩ := State.stack_of_tracked htracks.tracked
    cases hstack.symm.trans hsome
  | some stack =>
    have hmem : (service, c) ∈ members s ↔
        service ∈ stack.services ∧ stack.active? s.containers service = some c := by
      unfold members
      rw [hstack]
      simp only [List.mem_filterMap, Option.map_eq_some_iff, Prod.mk.injEq]
      constructor
      · rintro ⟨_, hservice, _, hfound, rfl, rfl⟩
        exact ⟨hservice, hfound⟩
      · rintro ⟨hservice, hfound⟩
        exact ⟨service, hservice, c, hfound, rfl, rfl⟩
    rw [hmem, active?_eq_some (hapart stack hstack), hactive]
    constructor
    · rintro ⟨hservice, hid, hfound, ha⟩
      exact ⟨⟨State.tracked_of_stack? hstack ▸ hid, hfound, ha⟩, stack, hstack, hservice⟩
    · rintro ⟨⟨hid, hfound, ha⟩, stack', hstack', hservice⟩
      rw [hstack, Option.some.injEq] at hstack'
      subst hstack'
      exact ⟨hservice, State.tracked_of_stack? hstack ▸ hid, hfound, ha⟩

end Stack

/-! ## The reports -/

/-- The lines that the containers have printed, each after the name of its service. -/
def reportedLogs (count : Option Nat) (listed : List (String × Container)) : List String :=
  listed.flatMap fun m => (Display.tail m.2.logs count).map fun line => m.1 ++ "  | " ++ line

namespace Stack

theorem output_ps (r : Request) : (ps r).output =
    if members r.state = [] then [nothingRunning]
    else memberHeader :: (members r.state).map fun m => memberRow r.state.images m.1 m.2 := by
  unfold ps
  cases members r.state with
  | nil => rfl
  | cons m ms => rfl

/-- Where every member has printed something, that is shown. -/
theorem output_logs {r : Request} (hargs : r.line.args = [])
    (hlogs : ∀ m ∈ members r.state, m.2.logs ≠ []) : (logs r).output =
      if members r.state = [] then [nothingRunning]
      else reportedLogs (Display.tailCount (r.line.value? ["tail", "n"])) (members r.state) := by
  unfold logs
  cases hms : members r.state with
  | nil => rfl
  | cons m ms =>
    simp only [hargs, List.isEmpty_cons, Bool.false_eq_true, if_false, List.find?_nil,
      List.isEmpty_nil, Bool.true_or, List.filter_true, Outcome.print, reduceCtorEq]
    rw [hms] at hlogs
    refine List.flatMap_congr fun m hm => ?_
    have hsome : m.2.logs.isEmpty = false := by simpa using hlogs m hm
    simp [memberLogs, logsOr, hsome]

end Stack

namespace Reached

/-- No container is listed twice. -/
theorem members_nodup (h : Reached s u) (hu : u.drawn < idLimit) :
    ((members s).map fun m => m.2.id).Nodup := by
  cases hstack : s.stack? with
  | none =>
    unfold members
    rw [hstack]
    exact List.nodup_nil
  | some stack =>
    have hnodup := nodup_stopped (h.apart hu hstack) ((h.managed hu).stack hstack).2
    rwa [← map_members hstack, List.map_map] at hnodup

/-! ## Containers that are overlooked -/

/-- **Bringing up a file overlooks the containers whose services it lacks**, and no others. -/
theorem overlooks_iff (h : Reached s u) (ha : a.run s u = ((t, o), v)) (hv : v.drawn < idLimit)
    (hc : a.carried? = some "compose up") {plan : Plan}
    (hplan : plan? (a.commandRequest s) = some plan) :
    t.Overlooks service c ↔ s.Tracks service c ∧ ∀ svc ∈ plan.services, svc.name ≠ service := by
  have hu := Nat.lt_of_le_of_lt (a.leads_anyway ha).moves.supply_le.drawn hv
  obtain ⟨hrun, ht⟩ := a.up_of_run hc ha
  rw [up_eq_carryOut hplan] at hrun
  have hchecked := checked_of_plan? hplan
  have hspares := (h.ordered hu).spares hv
  obtain ⟨p, u1, q, hp, rfl, htries, -⟩ := hchecked.carryOut_tries hrun (h.ordered hu).trackedByIds
    ⟨hspares.unused, hspares.few⟩
  have hsame := (Progress.addDeclared_declares hp).same
  have hstack : t.stack? = some
      { name := State.stackName, services := plan.order, containerIds := q.tracked } := by
    rw [ht]
    exact stack?_apply_upOutcome _ _ _ _ _
  have hcontainers : t.containers = q.containers := by
    rw [ht]
    exact getD_changedFrom _ _
  have hserves : t.Serves service ↔ service ∈ plan.order := by
    unfold State.Serves
    rw [hstack]
    simp
  obtain ⟨hperm, -⟩ := Service.startOrder_spec hchecked.names hchecked.order
  have hnames : service ∉ plan.order ↔ ∀ svc ∈ plan.services, svc.name ≠ service := by
    rw [hperm.mem_iff, List.mem_map]
    simp
  unfold State.Overlooks
  rw [hserves, ← hnames]
  refine and_congr_left fun hnot => ?_
  -- such a service is not brought up, and so its container stays as it is
  have hnotRaised : service ∉ plan.order.filter fun name =>
      !(plan.stuck (a.commandRequest s) u).contains name :=
    fun hmem => hnot (List.mem_filter.1 hmem).1
  have htracked : t.tracked.get? service = s.tracked.get? service := by
    rw [State.tracked_of_stack? hstack, htries.adds.tracked hnotRaised, hsame.tracked]
    rfl
  have hkept : ∀ {id : String}, s.tracked.get? service = some id →
      t.containers.get? id = s.containers.get? id := by
    intro id hid
    obtain ⟨old, hold, hid⟩ := State.stack_of_tracked hid
    obtain ⟨d, hd⟩ := Table.contains_iff.1 ((h.ordered hu).tracked hold hid)
    rw [hcontainers, hd]
    have hp : p.containers.get? id = some d := by rwa [hsame.containers]
    rcases htries.adds.containers hp with hleft | ⟨-, -, ⟨name, hname, hnameId⟩, -⟩
    · exact hleft
    · rw [hsame.tracked] at hnameId
      replace hnameId : old.containerIds.get? name = some id :=
        State.tracked_of_stack? hold ▸ hnameId
      exact absurd ((h.apart hu hold).distinct hid hnameId ▸ hname) hnotRaised
  constructor
  · rintro ⟨hid, hfound, ha⟩
    rw [htracked] at hid
    exact ⟨hid, hkept hid ▸ hfound, ha⟩
  · rintro ⟨hid, hfound, ha⟩
    exact ⟨htracked.trans hid, (hkept hid).trans hfound, ha⟩

/-- Another line leaves the stack, or there is none after it. -/
theorem stack_kept (h : Reached s u) (ha : a.run s u = ((t, o), v)) (hv : v.drawn < idLimit)
    (hup : a.carried? = some "compose up" → plan? (a.commandRequest s) = none) :
    t.stack? = s.stack? ∨ t.stack? = none := by
  have hu := Nat.lt_of_le_of_lt (a.leads_anyway ha).moves.supply_le.drawn hv
  have kept : (a.request s).state.StackKept ((a.request s).state.apply o.delta) →
      t.stack? = s.stack? := by
    intro hkept
    obtain ⟨-, rfl⟩ := a.run_eq_iff.1 ha
    exact congrArg (Table.get? · State.stackName) hkept.composeStacks
  cases hsub : a.carried? with
  | none =>
    obtain ⟨he, -⟩ := a.run_eq_iff.1 ha
    rcases evaluate_cases he with ⟨-, hp, -⟩ | ⟨sub, hcarried, -⟩
    · exact .inl (kept hp.silent.elsewhere.kept)
    · cases hsub.symm.trans hcarried
  | some sub =>
    obtain ⟨hrun, ht⟩ := a.subcommand_of_run hsub ha
    by_cases hisUp : sub = "compose up"
    · subst hisUp
      obtain ⟨-, hdelta, -⟩ := up_stops (hup hsub) hrun
      refine .inl (kept ?_)
      rw [hdelta]
      exact ⟨rfl, fun _ hkey => hkey⟩
    by_cases hisDown : sub = "compose down"
    · subst hisDown
      have hnone := (down_forgets (r := a.commandRequest s) hrun ((h.managed hu).request a)).1
      rw [ht]
      exact .inr hnone
    · exact .inl (kept (runSubcommand_stackKept (r := a.commandRequest s) hisUp hisDown hrun))

/-- **No other line overlooks a container** that was not overlooked before. -/
theorem overlooked (h : Reached s u) (ha : a.run s u = ((t, o), v)) (hv : v.drawn < idLimit)
    (hup : a.carried? = some "compose up" → plan? (a.commandRequest s) = none)
    (ht : t.Overlooks service c) : ∃ d, s.Overlooks service d ∧ d.Continues c := by
  have hu := Nat.lt_of_le_of_lt (a.leads_anyway ha).moves.supply_le.drawn hv
  obtain ⟨htracks, hserves⟩ := ht
  obtain ⟨stack, hstack, hstackId⟩ := State.stack_of_tracked htracks.tracked
  have hsame : s.stack? = some stack := by
    rcases h.stack_kept ha hv hup with hkept | hnone
    · rw [← hkept, hstack]
    · cases hstack.symm.trans hnone
  obtain ⟨d, hd⟩ := Table.contains_iff.1 ((h.ordered hu).tracked hsame hstackId)
  obtain ⟨c', hc', hcontinues⟩ := (h.keeps ha hv).containers hd
  replace hc' : t.containers.get? c.id = some c' := hc'
  rw [htracks.found, Option.some.injEq] at hc'
  subst hc'
  rw [hcontinues.id] at hstackId hd
  refine ⟨d,
    ⟨⟨State.tracked_of_stack? hsame ▸ hstackId, hd, fun hremoved => htracks.active ?_⟩, ?_⟩,
    hcontinues⟩
  · rw [hcontinues.final hremoved, hremoved]
  · rintro ⟨old, hold, hservice⟩
    rw [hsame, Option.some.injEq] at hold
    exact hserves ⟨stack, hstack, hold ▸ hservice⟩

/-- **The reports list what is tracked, as far as the file that was brought up last still has its
service.** `compose ps` has one row for each active container that is tracked for a service of that
file, and `compose logs` shows what these have printed; both leave out the containers that are
overlooked. A `compose up` whose file has passed its checks overlooks exactly the active containers
that were tracked for services which the file lacks, and every other line overlooks none that was
not overlooked before. -/
theorem reports_tell (h : Reached s u) (hu : u.drawn < idLimit) :
    (∃ listed : List (String × Container),
      (∀ service c, (service, c) ∈ listed ↔ s.Tracks service c ∧ s.Serves service) ∧
      (listed.map fun m => m.2.id).Nodup ∧
      (∀ (a : Submission) (t : State) (o : Outcome) (v : Supply),
        a.carried? = some "compose ps" → a.run s u = ((t, o), v) → o.output =
          if listed = [] then [nothingRunning]
          else memberHeader :: listed.map fun m => memberRow s.images m.1 m.2) ∧
      ∀ (a : Submission) (t : State) (o : Outcome) (v : Supply),
        a.carried? = some "compose logs" → (a.commandRequest s).line.args = [] →
        a.run s u = ((t, o), v) → o.output =
          if listed = [] then [nothingRunning]
          else reportedLogs
            (Display.tailCount ((a.commandRequest s).line.value? ["tail", "n"])) listed) ∧
    ∀ (a : Submission) (t : State) (o : Outcome) (v : Supply),
      a.run s u = ((t, o), v) → v.drawn < idLimit →
      (∀ plan, a.carried? = some "compose up" → plan? (a.commandRequest s) = some plan →
        ∀ service c, t.Overlooks service c ↔
          s.Tracks service c ∧ ∀ svc ∈ plan.services, svc.name ≠ service) ∧
      ((a.carried? = some "compose up" → plan? (a.commandRequest s) = none) →
        ∀ service c, t.Overlooks service c → ∃ d, s.Overlooks service d ∧ d.Continues c) := by
  have hmembers : ∀ service c, (service, c) ∈ members s ↔ s.Tracks service c ∧ s.Serves service :=
    fun _ _ => mem_members fun _ => h.apart hu
  refine ⟨⟨members s, hmembers, h.members_nodup hu, ?_, ?_⟩, ?_⟩
  · intro a t o v hps ha
    obtain ⟨hrun, -⟩ := a.subcommand_of_run hps ha
    obtain ⟨rfl, -⟩ := Draw.pure_eq_iff.1 hrun
    exact output_ps (a.commandRequest s)
  · intro a t o v hlogs hargs ha
    obtain ⟨hrun, -⟩ := a.subcommand_of_run hlogs ha
    obtain ⟨rfl, -⟩ := Draw.pure_eq_iff.1 hrun
    refine output_logs (r := a.commandRequest s) hargs fun m hm => ?_
    obtain ⟨htracks, -⟩ := (hmembers m.1 m.2).1 hm
    exact (h.sound hu).logs htracks.found
  · exact fun a t o v ha hv => ⟨fun plan hc hplan service c => h.overlooks_iff ha hv hc hplan,
      fun hup service c hover => h.overlooked ha hv hup hover⟩

/-- A stack of two services is brought up. -/
def pairLines : List Submission := [
  .ofLine "docker pull nginx:1.25",
  .ofLine "docker pull redis:7",
  { raw := "docker compose up -d"
    files := some (.ofFiles [("compose.yml",
      "services:\n  web:\n    image: nginx:1.25\n  db:\n    image: redis:7\n")])
    stackFiles := ["compose.yml"] }]

/-- The file is edited: one of the services is taken out, and the stack is brought up again. -/
def singleUp : Submission where
  raw := "docker compose up -d"
  files := some (.ofFiles [("compose.yml", "services:\n  web:\n    image: nginx:1.25\n")])
  stackFiles := ["compose.yml"]

/-- A container that runs, was tracked and has printed something, as it is found by computing. -/
theorem exists_tracks {id : String} (hid : s.tracked.get? service = some id)
    (hc : (s.containers.get? id).map (fun c => (c.id, c.status, c.logs.isEmpty)) =
      some (id, .running, false)) :
    ∃ c, s.Tracks service c ∧ c.status = .running ∧ c.logs ≠ [] := by
  obtain ⟨c, hc, hfields⟩ := Option.map_eq_some_iff.1 hc
  simp only [Prod.mk.injEq] at hfields
  obtain ⟨rfl, hstatus, hlogs⟩ := hfields
  exact ⟨c, ⟨hid, hc, by simp [hstatus]⟩, hstatus, by simpa using hlogs⟩

/-- What is tracked before and after the edit, and what is reported then. -/
theorem pair_reports :
    let r := State.empty.submitAll pairLines .fresh
    let r' := singleUp.run r.1.1 r.2
    let seen (s : State) (id : String) := (s.containers.get? id).map
      fun c => (c.id, c.status, c.logs.isEmpty)
    let reported (line : String) := ((Submission.ofLine line).run r'.1.1 r'.2).1.2.output
    r'.2.drawn < idLimit ∧
    (singleUp.carried? = some "compose up" ∧
      (plan? (singleUp.commandRequest r.1.1)).map (fun plan => plan.services.map Service.name) =
        some ["web"]) ∧
    (r.1.1.tracked.get? "db" = some "000000000014" ∧
      seen r.1.1 "000000000014" = some ("000000000014", .running, false)) ∧
    (r'.1.1.tracked.get? "db" = some "000000000014" ∧
      seen r'.1.1 "000000000014" = some ("000000000014", .running, false)) ∧
    (∀ line ∈ reported "docker compose ps", Text.holds "db" line = false) ∧
    ∀ line ∈ reported "docker compose logs", Text.holds "db" line = false := by
  decide +kernel

/-- The container that is tracked for the lost service is overlooked. -/
theorem reports_tell_pair :
    let r := State.empty.submitAll pairLines .fresh
    let r' := singleUp.run r.1.1 r.2
    r'.2.drawn < idLimit ∧ ∃ c, r.1.1.Tracks "db" c ∧ r'.1.1.Overlooks "db" c := by
  intro r r'
  obtain ⟨hv, ⟨hup, hplan⟩, ⟨htracked, hfound⟩, -⟩ := pair_reports
  have hr : State.empty.submitAll pairLines .fresh = r := rfl
  have hr' : singleUp.run r.1.1 r.2 = r' := rfl
  rw [hr] at hv hplan htracked hfound
  rw [hr'] at hv
  clear_value r'
  clear_value r
  have hreached : Reached r.1.1 r.2 := hr ▸ reached_submitAll pairLines
  have hu := Nat.lt_of_le_of_lt (singleUp.leads_anyway hr').moves.supply_le.drawn hv
  obtain ⟨plan, hplan, hnames⟩ := Option.map_eq_some_iff.1 hplan
  obtain ⟨c, htracks, -⟩ := exists_tracks htracked hfound
  have hlost : ∀ svc ∈ plan.services, svc.name ≠ "db" := by
    intro svc hsvc hname
    have hmem := List.mem_map_of_mem (f := Service.name) hsvc
    rw [hnames, hname] at hmem
    exact absurd hmem (by decide)
  obtain ⟨-, hlines⟩ := reports_tell hreached hu
  obtain ⟨hshrinks, -⟩ := hlines _ _ _ _ hr' hv
  exact ⟨hv, c, htracks, (hshrinks plan hup hplan "db" c).2 ⟨htracks, hlost⟩⟩

/-- It runs, it is tracked and it has printed something, but neither report has a line of it. -/
theorem reports_overlook_db :
    let r := State.empty.submitAll pairLines .fresh
    let r' := singleUp.run r.1.1 r.2
    let reported (line : String) := ((Submission.ofLine line).run r'.1.1 r'.2).1.2.output
    Reached r'.1.1 r'.2 ∧ r'.2.drawn < idLimit ∧
      (∃ c, r'.1.1.Tracks "db" c ∧ c.status = .running ∧ c.logs ≠ []) ∧
      (∀ line ∈ reported "docker compose ps", Text.holds "db" line = false) ∧
      ∀ line ∈ reported "docker compose logs", Text.holds "db" line = false := by
  intro r r' reported
  obtain ⟨hv, -, -, ⟨htracked, hfound⟩, hps, hlogs⟩ := pair_reports
  have hr : State.empty.submitAll pairLines .fresh = r := rfl
  have hr' : singleUp.run r.1.1 r.2 = r' := rfl
  rw [hr, hr'] at hv htracked hfound hps hlogs
  clear_value r'
  clear_value r
  have hreached : Reached r.1.1 r.2 := hr ▸ reached_submitAll pairLines
  exact ⟨hreached.run hr', hv, exists_tracks htracked hfound, hps, hlogs⟩

end Reached

end DockerSim
