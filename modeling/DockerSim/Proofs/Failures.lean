import DockerSim.Proofs.Stack.Up

/-!
# Failures

What a line leaves behind that fails. All commands but four do their work at one go, so that a
failure changes nothing and tells of nothing, except that a build tells of a Dockerfile that it
rejects. The four go on after a part of their work has failed (`persisting`). And of the lines that
are submitted, those that ask for help and those whose command only reports leave no trace
(`changing`).
-/

namespace DockerSim

open Command Stack

/-- The commands that go on after a part of their work has failed. -/
def persisting : List String := ["stop", "start", "rm", "compose up"]

/-- The commands that do more than to report. -/
def changing : List String :=
  ["pull", "build", "run", "stop", "start", "rm", "exec", "compose up", "compose down"]

variable {r : Request} {sub : String} {u v : Supply} {o : Outcome}

/-! ## Stacks -/

namespace Stack

theorem up_explained (h : up r u = (o, v)) : o.Explained := by
  cases hplan : plan? r with
  | none => exact fun _ => (up_stops hplan h).2.2.1
  | some plan =>
    rw [up_eq_carryOut hplan] at h
    obtain ⟨p, w, q, -, -, rfl⟩ := plan.carryOut_spec h
    -- the number of running containers is reported in any case
    have hreported : Text.isBlank ("[+] Running " ++
        Text.decimal (runningContainers q plan.order).length ++ "/" ++
        Text.decimal plan.order.length) = false := by
      simp only [isBlank_append]
      exact .inl (.inl (.inl (isBlank_ofList (by decide))))
    exact fun _ => says_of_mem (by simp [upOutcome]) hreported

theorem down_succeeds (h : down r u = (o, v)) : o.succeeded = true := by
  rcases down_cases h with ⟨-, -, lines, rfl⟩ | ⟨stack, t, lines, -, -, rfl⟩
  · rfl
  · rfl

end Stack

/-! ## The command of a line -/

/-- The build is rejected, and the only thing it does is to tell so. -/
structure TellsRejection (r : Request) (o : Outcome) : Prop where
  rejected : rejectsBuild r = true
  delta : o.delta = {}
  events : ∃ e, o.events = [e] ∧ e.kind = .buildFailed

/-- **A failure says why.** It leaves nothing behind, unless the command goes on after it or is a
build that tells of its Dockerfile. -/
theorem runSubcommand_fails (h : runSubcommand r sub u = (o, v)) :
    o.Explained ∧ (o.succeeded = false →
      o.Silent ∨ sub ∈ persisting ∨ sub = "build" ∧ TellsRejection r o) := by
  have atomic : o.Atomic → o.Explained ∧ (o.succeeded = false →
      o.Silent ∨ sub ∈ persisting ∨ sub = "build" ∧ TellsRejection r o) :=
    fun ha => ⟨ha.explained, fun hf => .inl (ha.silent hf)⟩
  have plain : ∀ {p : Outcome}, p.Plain → (pure p : Draw Outcome) u = (o, v) → o.Atomic := by
    intro p hp h
    obtain ⟨rfl, -⟩ := Draw.pure_eq_iff.1 h
    exact hp.atomic
  unfold runSubcommand at h
  split at h
  · exact atomic (plain (.print _) h)
  · exact atomic (pull_atomic h)
  · exact atomic (plain (.print _) h)
  · rcases build_atomic_or_told h with ⟨-, ha⟩ | ⟨hrejects, -, hdelta, hsays, htold⟩
    · exact atomic ha
    · exact ⟨fun _ => hsays, fun _ => .inr (.inr ⟨rfl, hrejects, hdelta, htold⟩)⟩
  · exact atomic (run_atomic h)
  · exact atomic (plain (Command.plain_ps r) h)
  · exact ⟨onTargets_explained stopOne_reports h, fun _ => .inr (.inl (by decide))⟩
  · exact ⟨onTargets_explained startOne_reports h, fun _ => .inr (.inl (by decide))⟩
  · exact ⟨onTargets_explained removeOne_reports h, fun _ => .inr (.inl (by decide))⟩
  · exact atomic (plain (Command.plain_logs r) h)
  · exact atomic (exec_atomic h)
  · exact ⟨up_explained h, fun _ => .inr (.inl (by decide))⟩
  · exact atomic (Outcome.atomic_of_succeeded (down_succeeds h))
  · exact atomic (plain (Stack.plain_ps r) h)
  · exact atomic (plain (Stack.plain_logs r) h)
  · exact atomic (plain (.refuse _) h)

/-- A command that only reports leaves no trace. -/
theorem runSubcommand_silent (hsub : sub ∉ changing) (h : runSubcommand r sub u = (o, v)) :
    o.Silent := by
  have plain : ∀ {p : Outcome}, p.Plain → (pure p : Draw Outcome) u = (o, v) → o.Silent := by
    intro p hp h
    obtain ⟨rfl, -⟩ := Draw.pure_eq_iff.1 h
    exact hp.silent
  unfold runSubcommand at h
  split at h
  case h_1 => exact plain (.print _) h
  case h_3 => exact plain (.print _) h
  case h_6 => exact plain (Command.plain_ps r) h
  case h_10 => exact plain (Command.plain_logs r) h
  case h_14 => exact plain (Stack.plain_ps r) h
  case h_15 => exact plain (Stack.plain_logs r) h
  case h_16 => exact plain (.refuse _) h
  all_goals exact absurd (by decide) hsub

/-- What a failed line leaves behind. -/
theorem evaluate_fails (h : evaluate r u = (o, v)) (hf : o.succeeded = false)
    (hsub : ∀ sub ∈ persisting, r.line.normalized.subcommand ≠ some sub) :
    o.Silent ∨ r.line.normalized.subcommand = some "build" ∧
      TellsRejection { r with line := r.line.normalized } o := by
  rcases evaluate_cases h with ⟨-, hp, -⟩ | ⟨sub, hc, hr⟩
  · exact .inl hp.silent
  · obtain ⟨hline, -⟩ := CommandLine.subcommand_of_carried? hc
    rcases (runSubcommand_fails hr).2 hf with hsilent | hmem | ⟨rfl, htells⟩
    · exact .inl hsilent
    · exact absurd hline (hsub sub hmem)
    · exact .inr ⟨hline, htells⟩

theorem evaluate_explained (h : evaluate r u = (o, v)) : o.Explained := by
  rcases evaluate_cases h with ⟨-, hp, -⟩ | ⟨sub, -, hr⟩
  · exact hp.atomic.explained
  · exact (runSubcommand_fails hr).1

/-- A line that only reports leaves no trace. -/
theorem evaluate_silent (h : evaluate r u = (o, v))
    (hsub : r.line.normalized.wantsHelp = true ∨
      ∀ sub ∈ changing, r.line.normalized.subcommand ≠ some sub) : o.Silent := by
  rcases evaluate_cases h with ⟨-, hp, -⟩ | ⟨sub, hc, hr⟩
  · exact hp.silent
  · obtain ⟨hline, hhelp⟩ := CommandLine.subcommand_of_carried? hc
    rcases hsub with hwants | hsub
    · rw [hhelp] at hwants
      cases hwants
    · exact runSubcommand_silent (fun hmem => hsub sub hmem hline) hr

/-! ## Submitted lines -/

/-- **Failures leave nothing behind.** A line that fails changes no table and tells of no event,
unless its command is one of the four that go on, or it is a build, which may tell that its
Dockerfile was rejected. A line that asks for help, or whose command only reports, never does. And a
line that was submitted leaves a last error exactly when it failed, which is one of the lines it
prints and not blank; the events are those it told of after the ones before, and it is not pending
any more. -/
theorem failures_leave_nothing (u : Supply) :
    (∀ (r : Request) (o : Outcome) (v : Supply), evaluate r u = (o, v) →
      (o.succeeded = false →
        (∀ sub ∈ persisting, r.line.normalized.subcommand ≠ some sub) →
        o.delta = {} ∧ (o.events = [] ∨ r.line.normalized.subcommand = some "build" ∧
          rejectsBuild { r with line := r.line.normalized } = true ∧
          ∃ e, o.events = [e] ∧ e.kind = .buildFailed)) ∧
      (r.line.normalized.wantsHelp = true ∨
        (∀ sub ∈ changing, r.line.normalized.subcommand ≠ some sub) →
        o.delta = {} ∧ o.events = [])) ∧
    ∀ (a : Submission) (s t : State) (o : Outcome) (v : Supply), a.run s u = ((t, o), v) →
      (t.lastError.isSome = true ↔ o.succeeded = false) ∧
      (∀ l, t.lastError = some l → l ∈ o.output ∧ Text.isBlank l = false) ∧
      t.eventLog = s.eventLog ++ o.events ∧ t.pending = none := by
  refine ⟨fun r o v h => ⟨fun hf hsub => ?_, fun hsub => ?_⟩, fun a s t o v h => ?_⟩
  · rcases evaluate_fails h hf hsub with hsilent | ⟨hline, htells⟩
    · exact ⟨hsilent.delta, .inl hsilent.events⟩
    · exact ⟨htells.delta, .inr ⟨hline, htells.rejected, htells.events⟩⟩
  · exact ⟨(evaluate_silent h hsub).delta, (evaluate_silent h hsub).events⟩
  · obtain ⟨he, rfl⟩ := a.run_eq_iff.1 h
    obtain ⟨hsome, hline⟩ := (evaluate_explained he).errorLine?
    refine ⟨?_, hline, rfl, rfl⟩
    show o.errorLine?.isSome = true ↔ _
    rw [hsome, Bool.not_eq_true']

/-- A build of a Dockerfile that starts from no image. -/
def baselessBuild : Submission :=
  { raw := "docker build -t app .", files := some (.ofFiles [("Dockerfile", "RUN make\n")])
    stackFiles := [] }

/-- It is rejected: nothing changes but that this is told and is the last error. -/
theorem failures_leave_nothing_baseless :
    let r := baselessBuild.run .empty .fresh
    r.1.2.succeeded = false ∧ r.1.2.delta = {} ∧
      (∃ e, r.1.2.events = [e] ∧ e.kind = .buildFailed) ∧ r.1.1.lastError.isSome = true ∧
      r.1.1.eventLog = r.1.2.events := by
  intro r
  have computed : r.1.2.succeeded = false ∧ r.1.2.events.isEmpty = false ∧
      (baselessBuild.request .empty).line.normalized.subcommand = some "build" := by
    decide +kernel
  obtain ⟨hfailed, hevents, hline⟩ := computed
  have hr : baselessBuild.run .empty .fresh = r := rfl
  clear_value r
  obtain ⟨he, -⟩ := Submission.run_eq_iff.1 hr
  obtain ⟨evaluated, submitted⟩ := failures_leave_nothing .fresh
  have hsub : ∀ sub ∈ persisting,
      (baselessBuild.request .empty).line.normalized.subcommand ≠ some sub := by
    rw [hline]
    decide
  obtain ⟨hlast, -, hlog, -⟩ := submitted _ _ _ _ _ hr
  obtain ⟨hdelta, hnone | ⟨-, -, htold⟩⟩ := (evaluated _ _ _ he).1 hfailed hsub
  · rw [hnone] at hevents
    cases hevents
  · exact ⟨hfailed, hdelta, htold, hlast.2 hfailed, hlog⟩

end DockerSim
