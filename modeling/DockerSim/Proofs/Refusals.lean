import DockerSim.Proofs.Moves.Submit

/-!
# Refusals

A command that does its work at one go either succeeds or is refused (`Outcome.Atomic`): then it has
changed no table and told of no event, and it says why. The commands that go on after a target they
refuse at least say why they failed (`Outcome.Explained`). A build that the check of its Dockerfile
stops lies in between: it tells of that.
-/

namespace DockerSim

open Command

/-- Some line says something. -/
def Says (lines : List String) : Prop := ∃ l ∈ lines, Text.isBlank l = false

theorem Says.mono {lines more : List String} (h : Says lines) (hsub : lines ⊆ more) :
    Says more := by
  obtain ⟨l, hmem, hl⟩ := h
  exact ⟨l, hsub hmem, hl⟩

theorem says_of_mem {lines : List String} {l : String} (hmem : l ∈ lines)
    (hl : Text.isBlank l = false) : Says lines := ⟨l, hmem, hl⟩

theorem isBlank_ofList {c : Char} {cs : List Char} (hc : Chars.isBlank c = false) :
    Text.isBlank (.ofList (c :: cs)) = false := by
  simp [Text.isBlank, hc]

theorem isBlank_append {a b : String} :
    Text.isBlank (a ++ b) = false ↔ Text.isBlank a = false ∨ Text.isBlank b = false := by
  unfold Text.isBlank
  rw [String.toList_append, List.all_append, Bool.and_eq_false_iff]

/-- **Every refusal says something**, in its first line. -/
theorem Refusal.speaks (r : Refusal) : Says r.lines := by
  cases r with
  | commandNotFound command =>
    exact says_of_mem List.mem_cons_self (isBlank_append.2 (.inr (isBlank_ofList (by decide))))
  | _ =>
    -- The first piece of the line is a fixed text.
    refine says_of_mem List.mem_cons_self ?_
    try simp only [isBlank_append]
    repeat apply Or.inl
    exact isBlank_ofList (by decide)

namespace Outcome

/-- A failure says why. -/
def Explained (o : Outcome) : Prop := o.succeeded = false → Says o.output

/-- A failure leaves nothing behind, and says why. -/
structure Atomic (o : Outcome) : Prop where
  silent : o.succeeded = false → o.Silent
  explained : o.Explained

theorem atomic_of_succeeded {o : Outcome} (h : o.succeeded = true) : o.Atomic := by
  constructor <;> intro hf <;> rw [h] at hf <;> cases hf

theorem atomic_refuse (r : Refusal) : (refuse r).Atomic :=
  ⟨fun _ => (Plain.refuse r).silent, fun _ => r.speaks⟩

theorem Plain.atomic {o : Outcome} (h : o.Plain) : o.Atomic := by
  cases h with
  | print lines => exact atomic_of_succeeded rfl
  | refuse refusal => exact atomic_refuse refusal

/-- The last error of a failure that says why is one of its lines. -/
theorem Explained.errorLine? {o : Outcome} (h : o.Explained) :
    o.errorLine?.isSome = !o.succeeded ∧
      ∀ l, o.errorLine? = some l → l ∈ o.output ∧ Text.isBlank l = false := by
  unfold Outcome.errorLine?
  cases hs : o.succeeded with
  | true => exact ⟨rfl, fun l hl => nomatch hl⟩
  | false =>
    obtain ⟨l, hmem, hl⟩ := h hs
    refine ⟨List.find?_isSome.2 ⟨l, hmem, by simp [hl]⟩, fun l' hl' => ?_⟩
    exact ⟨List.mem_of_find?_eq_some hl', by simpa using List.find?_some hl'⟩

end Outcome

variable {r : Request} {u v : Supply} {o : Outcome}

/-! ## Commands that do their work at one go -/

theorem Work.ofWork_atomic {m : Work Outcome}
    (hok : ∀ {o v}, m.run u = (.ok o, v) → o.succeeded = true)
    (h : Outcome.ofWork m u = (o, v)) : o.Atomic := by
  rcases Work.ofWork_cases h with ⟨refusal, -, rfl⟩ | hdone
  · exact Outcome.atomic_refuse refusal
  · exact Outcome.atomic_of_succeeded (hok hdone)

namespace Command

theorem pull_atomic (h : pull r u = (o, v)) : o.Atomic := by
  cases pull_cases h with
  | unnamed _ refusal => exact Outcome.atomic_refuse refusal
  | present _ _ lines => exact (Outcome.Plain.print lines).atomic
  | pulled _ _ _ _ _ => exact Outcome.atomic_of_succeeded rfl

theorem run_atomic (h : run r u = (o, v)) : o.Atomic := by
  refine Work.ofWork_atomic ?_ h
  intro o v h
  obtain ⟨plan, volumes, w, -, h⟩ := launch_eq_ok_iff.1 h
  obtain ⟨c, w', events, -, -, rfl⟩ := carryOut_spec h
  rfl

theorem exec_atomic (h : exec r u = (o, v)) : o.Atomic := by
  refine Work.ofWork_atomic ?_ h
  intro o v h
  obtain ⟨c, command, output, ran, -, rfl⟩ := runProgram_ok h
  rfl

/-- The Dockerfile of a build is there, and its check finds errors. -/
def rejectsBuild (r : Request) : Bool :=
  ((r.files.bind fun files => files.file? (dockerfilePath r.line)).map fun file =>
    !(Finding.errors (Dockerfile.check file.content)).isEmpty).getD false

/-- A build fails without a trace, or tells of nothing but that its Dockerfile was rejected. -/
theorem build_atomic_or_told (h : build r u = (o, v)) :
    rejectsBuild r = false ∧ o.Atomic ∨
      rejectsBuild r = true ∧ o.succeeded = false ∧ o.delta = {} ∧ Says o.output ∧
        ∃ e, o.events = [e] ∧ e.kind = .buildFailed := by
  have finished : ∀ {name is warnings}, finishBuild r name is warnings u = (o, v) → o.Atomic := by
    intro name is warnings h
    obtain ⟨i, w, events, output, -, -, rfl⟩ := finishBuild_spec h
    exact Outcome.atomic_of_succeeded rfl
  unfold rejectsBuild
  cases build_cases h with
  | empty closed made => exact .inl ⟨by simp [closed], finished made⟩
  | missing opened absent refusal refused _ =>
    exact .inl ⟨by simp [opened, absent], refused ▸ Outcome.atomic_refuse refusal⟩
  | accepted opened found passes made =>
    exact .inl ⟨by simp [opened, found, passes], finished made⟩
  | rejected opened found fails told =>
    obtain ⟨failed, hdrawn, rfl⟩ := rejectBuild_spec told
    obtain ⟨e, he, hkind, -⟩ := hdrawn.eq_one
    refine .inr ⟨by simp [opened, found, fails], rfl, rfl, ?_, e, he, hkind⟩
    exact says_of_mem (l := "failed to solve: Dockerfile validation failed.")
      (List.mem_append_right _ (by simp)) (isBlank_ofList (by decide))

/-! ## Commands on several targets -/

namespace Progress

/-- A refusal was reported. -/
def Reports (p : Progress) : Prop := p.refused = true → Says p.output

theorem reports_refuse (p : Progress) (refusal : Refusal) : (p.refuse refusal).Reports :=
  fun _ => refusal.speaks.mono (List.subset_append_right _ _)

theorem Reports.change {p : Progress} (h : p.Reports) (c : Container) (bound : Table String)
    (es : List Event) : (p.change c bound es).Reports :=
  fun hr => (h hr).mono (List.subset_append_left _ _)

end Progress

/-- Work on targets, each of which reports what it refuses, says why it failed. -/
theorem onTargets_explained {form : String} {step : Progress → String → Draw Progress}
    (hstep : ∀ {p : Progress} {target : String} {q : Progress} {u v : Supply},
      step p target u = (q, v) → p.Reports → q.Reports)
    (h : onTargets form step r u = (o, v)) : o.Explained := by
  rcases onTargets_cases h with ⟨rfl, -⟩ | ⟨p, hp, rfl⟩
  · exact (Outcome.atomic_refuse _).explained
  · have hreports : (Progress.start r.state).Reports → p.Reports :=
      Draw.foldlM_keeps (R := fun p _ q _ => Progress.Reports p → Progress.Reports q)
        (fun _ _ h => h) (fun h h' hp => h' (h hp)) hstep hp
    intro hf
    exact hreports (fun hr => nomatch hr) (by simpa [Progress.finish] using hf)

section Targets

variable {p q : Progress} {target : String}

theorem stopOne_reports (h : stopOne p target u = (q, v)) (hp : p.Reports) : q.Reports := by
  cases stopOne_cases h with
  | refused refusal => exact p.reports_refuse refusal
  | stopped _ _ _ _ => exact hp.change _ _ _

theorem startOne_reports {images : Table Image} (h : startOne images p target u = (q, v))
    (hp : p.Reports) : q.Reports := by
  cases startOne_cases h with
  | refused refusal => exact p.reports_refuse refusal
  | named _ => exact fun hr => (hp hr).mono (List.subset_append_left _ _)
  | started _ _ _ _ _ _ => exact hp.change _ _ _

theorem removeOne_reports {force : Bool} (h : removeOne force p target u = (q, v))
    (hp : p.Reports) : q.Reports := by
  cases removeOne_cases h with
  | refused refusal => exact p.reports_refuse refusal
  | stopped _ _ _ _ _ => exact hp.change _ _ _
  | dropped _ _ _ _ => exact hp.change _ _ _

end Targets

end Command

end DockerSim
