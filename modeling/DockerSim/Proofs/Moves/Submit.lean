import DockerSim.Proofs.Moves.Images
import DockerSim.Proofs.Moves.Run
import DockerSim.Proofs.Moves.Stack
import DockerSim.Session.Basic

/-!
# Moves of a submitted line

A line is either answered without touching the state, or carried out by the command that its
subcommand names (`CommandLine.carried?`). Whatever was submitted, the state before and the state
after are joined by moves, and only `rm` can make one of them a `drop`.
-/

namespace DockerSim

open Command

/-! ## The command that carries a line out -/

namespace CommandLine

/-- The subcommand of a line in its usual form, unless the line asks for help. -/
def served? (c : CommandLine) : Option String :=
  c.subcommand.filter fun sub =>
    !startsWithDash sub && !(c.wantsHelp || sub = "help" || sub = compose)

/-- The command that carries a line out; none if the line is faulty, is not for `docker`, or only
asks for the version or for help. -/
def carried? (c : CommandLine) : Option String :=
  if c.fault?.isNone && c.isDocker then c.normalized.served? else none

theorem subcommand_of_carried? {c : CommandLine} {sub : String} (h : c.carried? = some sub) :
    c.normalized.subcommand = some sub ∧ c.normalized.wantsHelp = false := by
  unfold carried? at h
  split at h
  · obtain ⟨hsub, hserved⟩ := Option.filter_eq_some_iff.1 h
    simp only [Bool.and_eq_true, Bool.not_eq_true', Bool.or_eq_false_iff] at hserved
    exact ⟨hsub, hserved.2.1.1⟩
  · cases h

theorem normalized_eq_self {c : CommandLine} (h : c.subcommand ≠ some compose) :
    c.normalized = c := if_neg h

/-- A line that is accepted and does not ask for help is carried out by the command that its
subcommand names. -/
theorem carried?_of_accepted {c : CommandLine} {sub : String} (accepted : c.fault? = none)
    (hsub : c.subcommand = some sub) (hhelp : c.wantsHelp = false)
    (hplain : startsWithDash sub = false ∧ sub ≠ "help" ∧ sub ≠ compose) :
    c.carried? = some sub := by
  have hdocker : c.isDocker = true := by
    cases hd : c.isDocker with
    | true => rfl
    | false => simp [fault?, hd, hsub] at accepted
  have hne : c.subcommand ≠ some compose := by
    rw [hsub, ne_eq, Option.some.injEq]
    exact hplain.2.2
  unfold carried? served?
  rw [normalized_eq_self hne, accepted, hdocker, hsub]
  simp [hhelp, hplain]

end CommandLine

variable {u v : Supply} {r : Request} {o : Outcome} {s : State}

/-! ## Outcomes that report nothing -/

namespace Outcome

/-- No table changes and nothing happened. -/
structure Silent (o : Outcome) : Prop where
  delta : o.delta = {}
  events : o.events = []

/-- Lines are printed, or the command is refused. -/
inductive Plain : Outcome → Prop
  | print (lines : List String) : Plain (print lines)
  | refuse (refusal : Refusal) : Plain (refuse refusal)

theorem Plain.silent {o : Outcome} (h : o.Plain) : o.Silent := by
  cases h <;> exact ⟨rfl, rfl⟩

theorem plain_help (sub : Option String) : (help sub).Plain := by
  unfold help
  split
  · exact .print _
  · exact .refuse _

theorem plain_ofRootFlag (flag : String) : (ofRootFlag flag).Plain := by
  unfold ofRootFlag
  split
  · exact .print _
  · exact .print _
  · exact plain_help none
  · exact plain_help none
  · exact .refuse _

end Outcome

namespace Command

theorem plain_ps (r : Request) : (ps r).Plain := by
  unfold ps
  dsimp only
  split <;> exact .print _

theorem plain_logs (r : Request) : (logs r).Plain := by
  unfold logs showLogs
  cases r.firstArg "logs [OPTIONS] CONTAINER" with
  | error refusal => exact .refuse _
  | ok reference =>
    dsimp only [bind, Except.bind]
    cases findContainer r.state.containers reference with
    | none => exact .refuse _
    | some c => exact .print _

end Command

namespace Stack

theorem plain_ps (r : Request) : (ps r).Plain := by
  unfold ps
  split <;> exact .print _

theorem plain_logs (r : Request) : (logs r).Plain := by
  unfold logs
  dsimp only
  split
  · exact .print _
  · split
    · exact .refuse _
    · exact .print _

end Stack

/-! ## The command of a line -/

theorem dispatch_cases (h : dispatch r u = (o, v)) :
    (r.line.served? = none ∧ o.Plain ∧ v = u) ∨
      ∃ sub, r.line.served? = some sub ∧ runSubcommand r sub u = (o, v) := by
  unfold dispatch at h
  unfold CommandLine.served?
  cases hs : r.line.subcommand with
  | none =>
    simp only [hs] at h
    left
    split at h
    · obtain ⟨rfl, rfl⟩ := Draw.pure_eq_iff.1 h
      exact ⟨rfl, .print _, rfl⟩
    · obtain ⟨rfl, rfl⟩ := Draw.pure_eq_iff.1 h
      exact ⟨rfl, Outcome.plain_help none, rfl⟩
  | some sub =>
    simp only [hs] at h
    rw [Option.filter_some]
    by_cases hd : CommandLine.startsWithDash sub = true
    · rw [if_pos hd] at h
      obtain ⟨rfl, rfl⟩ := Draw.pure_eq_iff.1 h
      rw [hd]
      exact .inl ⟨rfl, Outcome.plain_ofRootFlag sub, rfl⟩
    · rw [if_neg hd] at h
      rw [Bool.not_eq_true] at hd
      by_cases hh : (r.line.wantsHelp || sub = "help" || sub = CommandLine.compose) = true
      · rw [if_pos hh] at h
        obtain ⟨rfl, rfl⟩ := Draw.pure_eq_iff.1 h
        rw [hd, hh]
        exact .inl ⟨rfl, Outcome.plain_help _, rfl⟩
      · rw [if_neg hh] at h
        rw [Bool.not_eq_true] at hh
        rw [hd, hh]
        exact .inr ⟨sub, rfl, h⟩

/-- **A line is answered without a trace, or carried out by one command.** -/
theorem evaluate_cases (h : evaluate r u = (o, v)) :
    (r.line.carried? = none ∧ o.Plain ∧ v = u) ∨
      ∃ sub, r.line.carried? = some sub ∧
        runSubcommand { r with line := r.line.normalized } sub u = (o, v) := by
  unfold evaluate at h
  unfold CommandLine.carried?
  cases hf : r.line.fault? with
  | some fault =>
    simp only [hf, Draw.pure_eq_iff] at h
    obtain ⟨rfl, rfl⟩ := h
    exact .inl ⟨rfl, .refuse _, rfl⟩
  | none =>
    simp only [hf] at h
    split at h
    · next he =>
      obtain ⟨rfl, rfl⟩ := Draw.pure_eq_iff.1 h
      have : r.line.isDocker = false := by
        unfold CommandLine.isDocker
        rw [he]
        decide
      rw [this]
      exact .inl ⟨rfl, .print _, rfl⟩
    · by_cases hd : r.line.isDocker = true
      · rw [hd, Bool.not_true, if_neg (by simp)] at h
        rw [hd, Option.isNone_none, Bool.and_true, if_pos rfl]
        exact dispatch_cases (r := { r with line := r.line.normalized }) h
      · rw [Bool.not_eq_true] at hd
        rw [hd, Bool.not_false, if_pos rfl, Draw.pure_eq_iff] at h
        obtain ⟨rfl, rfl⟩ := h
        rw [hd]
        exact .inl ⟨rfl, .refuse _, rfl⟩

/-- A line that is carried out does what its command does. -/
theorem evaluate_eq_runSubcommand {sub : String} (hc : r.line.carried? = some sub) :
    evaluate r = runSubcommand { r with line := r.line.normalized } sub := by
  funext u
  rcases evaluate_cases (r := r) (u := u) rfl with ⟨hn, -⟩ | ⟨sub', hc', h⟩
  · rw [hn] at hc
    cases hc
  · rw [hc', Option.some.injEq] at hc
    rw [← hc]
    exact h.symm

/-! ## Effects -/

section Effects

variable {terms : Terms}

theorem Effect.of_silence (h : o.Silent) (hle : u ≤ v) : Effect terms s u o v :=
  .of_silent h.delta h.events hle

theorem runSubcommand_effect {sub : String} (hc : terms.carried = some sub)
    (cover : terms.Cover r.files) (h : runSubcommand r sub u = (o, v)) :
    Effect terms r.state u o v := by
  unfold runSubcommand at h
  have plain : ∀ {p : Outcome}, p.Plain → (pure p : Draw Outcome) u = (o, v) →
      Effect terms r.state u o v := by
    intro p hp h
    obtain ⟨rfl, rfl⟩ := Draw.pure_eq_iff.1 h
    exact .of_silence hp.silent (Supply.le_refl _)
  split at h
  · exact plain (.print _) h
  · exact pull_effect h
  · exact plain (.print _) h
  · exact build_effect cover h
  · exact run_effect (.inl hc) h
  · exact plain (Command.plain_ps r) h
  · exact stop_effect (Terms.not_creates hc (by decide)) h
  · exact start_effect (Terms.not_drops hc (by decide)) h
  · exact rm_effect hc h
  · exact plain (Command.plain_logs r) h
  · exact exec_effect h
  · exact up_effect hc cover h
  · exact down_effect (Terms.not_creates hc (by decide)) (Terms.not_drops hc (by decide)) h
  · exact plain (Stack.plain_ps r) h
  · exact plain (Stack.plain_logs r) h
  · exact plain (.refuse _) h

/-- **Evaluating a line is a row of moves**, on the terms of the command that carries it out. -/
theorem evaluate_effect (hc : terms.carried = r.line.carried?)
    (cover : terms.Cover r.files) (h : evaluate r u = (o, v)) : Effect terms r.state u o v := by
  rcases evaluate_cases h with ⟨-, hp, rfl⟩ | ⟨sub, hsub, h⟩
  · exact .of_silence hp.silent (Supply.le_refl _)
  · exact runSubcommand_effect (r := { r with line := r.line.normalized }) (hc.trans hsub) cover h

end Effects

/-! ## Submitted lines -/

/-- What is submitted: a line, with the workspace that is open and the names that a stack file may
have. -/
structure Submission where
  raw : String
  files : Option Workspace
  stackFiles : List String

namespace Submission

/-- A line without a workspace. -/
def ofLine (raw : String) : Submission := { raw, files := none, stackFiles := [] }

/-- The command that carries the line out. -/
def carried? (a : Submission) : Option String := (CommandLine.parse a.raw).carried?

/-- The terms of the moves that the line makes, when it tells of lines with certain numbers only. -/
def terms (a : Submission) (lines : Nat → Prop) : Terms :=
  { carried := a.carried?, lines }

/-- The line is evaluated in a state, which is left with the outcome taken over. -/
def run (a : Submission) (s : State) : Draw (State × Outcome) := s.submit a.raw a.files a.stackFiles

end Submission

variable {a : Submission} {t : State}

/-- The request of a submission. -/
def Submission.request (a : Submission) (s : State) : Request :=
  { state := { s with pending := some (CommandLine.parse a.raw) }, line := CommandLine.parse a.raw
    files := a.files, stackFiles := a.stackFiles }

theorem Submission.run_eq_iff :
    a.run s u = ((t, o), v) ↔
      evaluate (a.request s) u = (o, v) ∧
        t = { (a.request s).state.take o with lastError := o.errorLine?, pending := none } := by
  unfold run State.submit
  simp only [Draw.bind_eq_iff, Draw.pure_eq_iff, Prod.mk.injEq]
  constructor
  · rintro ⟨o', v', h, ⟨rfl, rfl⟩, rfl⟩
    exact ⟨h, rfl⟩
  · rintro ⟨h, rfl⟩
    exact ⟨o, v, h, ⟨rfl, rfl⟩, rfl⟩

/-- A state and a supply lead to others: by moves, and with stacks that follow them. -/
structure Leads (terms : Terms) (s : State) (u : Supply) (t : State) (v : Supply) : Prop where
  moves : Moves terms (.of s u) (.of t v)
  follow : StacksFollow terms s t
  volumes : s.volumes.Within t.volumes

/-- **A submitted line leads from the state before it to the state after it.** -/
theorem Submission.leads {lines : Nat → Prop} (cover : (a.terms lines).Cover a.files)
    (h : a.run s u = ((t, o), v)) : Leads (a.terms lines) s u t v := by
  obtain ⟨he, ht⟩ := run_eq_iff.1 h
  have hc : (a.terms lines).carried = (a.request s).line.carried? := rfl
  obtain ⟨hm, hs, hv⟩ := evaluate_effect hc cover he
  rw [ht]
  exact ⟨hm, hs, hv⟩

/-- The same, whatever lines are told of. -/
theorem Submission.leads_anyway (h : a.run s u = ((t, o), v)) :
    Leads (a.terms fun _ => True) s u t v :=
  a.leads ⟨trivial, fun _ _ _ _ _ _ _ => trivial⟩ h

end DockerSim
