import DockerSim.Proofs.Reached

/-!
# Targets one by one

`stop`, `start` and `rm` take several targets. What such a line does is what it does on each of its
targets alone, one after the other, every outcome being taken over before the next target: the same
tables, the same draws, the reports one behind the other (`Request.evaluate_eq_each`).

Two facts about the work on one target make it so. It never looks at the report on the targets
before it (`Apart.report`), and it changes no table without an event (`Apart.told`), so that nothing
is lost when an outcome without events leaves the tables out.
-/

namespace DockerSim

open Command

/-! ## Reports -/

namespace Command.Progress

/-- The same tables, with nothing reported yet. -/
def unreported (p : Progress) : Progress := { p with events := [], output := [], refused := false }

theorem unreported_containers (p : Progress) : p.unreported.containers = p.containers := rfl

theorem unreported_boundPorts (p : Progress) : p.unreported.boundPorts = p.boundPorts := rfl

/-- The tables of the second, with its report behind that of the first. -/
def andThen (p q : Progress) : Progress :=
  { q with
    events := p.events ++ q.events
    output := p.output ++ q.output
    refused := p.refused || q.refused }

theorem andThen_assoc (p q t : Progress) : (p.andThen q).andThen t = p.andThen (q.andThen t) := by
  simp [andThen, Bool.or_assoc]

theorem andThen_unreported (p : Progress) : p.andThen p.unreported = p := by
  simp [andThen, unreported]

theorem unreported_andThen (p q : Progress) : (p.andThen q).unreported = q.unreported := rfl

/-- The state after the work has the tables of the work. -/
theorem apply_finish {s : State} {p : Progress} (h : p.Told s) :
    s.apply p.finish.delta = { s with containers := p.containers, boundPorts := p.boundPorts } := by
  by_cases he : p.events = []
  · obtain ⟨hc, hb⟩ := h he
    simp [State.apply, finish, he, hc, hb]
  · simp [State.apply, finish, List.isEmpty_eq_false_iff.2 he]

theorem start_apply_finish {s : State} {p : Progress} (h : p.Told s) :
    Progress.start (s.apply p.finish.delta) = p.unreported := by
  rw [apply_finish h]
  rfl

theorem Told.andThen {s : State} {p q : Progress} (hp : p.Told s)
    (hq : q.Told (s.apply p.finish.delta)) : (p.andThen q).Told s := by
  intro he
  obtain ⟨hpe, hqe⟩ := List.append_eq_nil_iff.1 he
  rw [apply_finish hp] at hq
  obtain ⟨hc, hb⟩ := hq hqe
  obtain ⟨hc', hb'⟩ := hp hpe
  exact ⟨hc.trans hc', hb.trans hb'⟩

end Command.Progress

/-- Work on targets that treats each of them apart from the report on those before it. -/
structure Apart (step : Progress → String → Draw Progress) : Prop where
  report : ∀ p target, step p target = p.andThen <$> step p.unreported target
  told : ∀ ⦃s p target u q v⦄, step p target u = (q, v) → p.Told s → q.Told s

namespace Apart

variable {step : Progress → String → Draw Progress}

/-- Work on several targets does not look at what was reported before either. -/
theorem foldlM_report (h : Apart step) : ∀ (targets : List String) (p : Progress),
    targets.foldlM step p = p.andThen <$> targets.foldlM step p.unreported
  | [], p => by
    simp only [List.foldlM_nil, map_pure, Progress.andThen_unreported]
  | target :: targets, p => by
    have later : ∀ q : Progress, targets.foldlM step (p.andThen q) =
        p.andThen <$> targets.foldlM step q := by
      intro q
      rw [foldlM_report h targets (p.andThen q), foldlM_report h targets q, Functor.map_map,
        Progress.unreported_andThen]
      exact congrArg (· <$> targets.foldlM step q.unreported) (funext (p.andThen_assoc q))
    simp only [List.foldlM_cons, h.report p target, bind_map_left, later, map_bind]

end Apart

/-! ## The three commands -/

section Steps

variable (p : Progress)

theorem andThen_refuse (refusal : Refusal) :
    p.andThen (p.unreported.refuse refusal) = p.refuse refusal := by
  simp [Progress.andThen, Progress.unreported, Progress.refuse]

theorem andThen_change (c : Container) (bound : Table String) (es : List Event) :
    p.andThen (p.unreported.change c bound es) = p.change c bound es := by
  simp [Progress.andThen, Progress.unreported, Progress.change]

theorem andThen_name (name : String) :
    p.andThen { p.unreported with output := p.unreported.output ++ [name] } =
      { p with output := p.output ++ [name] } := by
  simp [Progress.andThen, Progress.unreported]

end Steps

theorem stopOne_apart : Apart stopOne where
  report p target := by
    unfold stopOne
    rw [Progress.unreported_containers]
    cases findContainer p.containers target with
    | none => simp only [map_pure, andThen_refuse]
    | some c =>
      dsimp only
      split
      · simp only [map_pure, andThen_refuse]
      · simp only [map_bind, map_pure, andThen_change]
        rfl
  told _ _ _ _ _ _ h ht := by
    have keeping : ¬Terms.creates ⟨some "stop", fun _ => True⟩ := Terms.not_creates rfl (by decide)
    exact (stopOne_moves keeping h ht).2

theorem startOne_apart (images : Table Image) : Apart (startOne images) where
  report p target := by
    unfold startOne
    rw [Progress.unreported_containers]
    cases findContainer p.containers target with
    | none => simp only [map_pure, andThen_refuse]
    | some c =>
      dsimp only
      split
      · rw [map_pure]
        exact congrArg pure (andThen_name p c.name).symm
      · rw [Progress.unreported_boundPorts]
        cases portConflict p.boundPorts c with
        | some port => simp only [map_pure, andThen_refuse]
        | none =>
          simp only [map_bind, map_pure, andThen_change]
  told _ _ _ _ _ _ h ht := by
    have other : ¬Terms.drops ⟨some "start", fun _ => True⟩ := Terms.not_drops rfl (by decide)
    exact (startOne_moves other h ht).2

theorem removeOne_apart (force : Bool) : Apart (removeOne force) where
  report p target := by
    unfold removeOne
    rw [Progress.unreported_containers]
    cases findContainer p.containers target with
    | none => simp only [map_pure, andThen_refuse]
    | some c =>
      dsimp only
      split
      · simp only [map_pure, andThen_refuse]
      · split
        · simp only [map_bind, map_pure, andThen_change]
          rfl
        · simp only [map_bind, map_pure, andThen_change]
          rfl
  told _ _ _ _ _ _ h ht := by
    have allowed : Terms.drops ⟨some "rm", fun _ => True⟩ := rfl
    exact (removeOne_moves allowed h ht).2

/-! ## One target after the other -/

namespace Request

/-- The same line in another state. -/
def inState (r : Request) (s : State) : Request := { r with state := s }

/-- The same line with other targets. -/
def on (r : Request) (targets : List String) : Request :=
  { r with line := { r.line with args := targets } }

/-- The line is evaluated on each of some targets alone, in the state that the outcomes on those
before it have led to. -/
def evaluateEach (r : Request) : List String → Draw (State × List Outcome)
  | [] => return (r.state, [])
  | target :: targets => do
    let o ← evaluate (r.on [target])
    let (s, os) ← (r.inState (r.state.apply o.delta)).evaluateEach targets
    return (s, o :: os)

end Request

variable {r : Request}

/-- **Work that treats its targets apart is done on one after the other.** -/
theorem Request.evaluateEach_eq {step : Progress → String → Draw Progress} (hstep : Apart step)
    (hone : ∀ s target, s.images = r.state.images →
      evaluate ((r.inState s).on [target]) = Progress.finish <$> step (.start s) target) :
    ∀ {targets : List String} {s : State} {u v : Supply} {p : Progress},
      s.images = r.state.images → targets.foldlM step (.start s) u = (p, v) →
        p.Told s ∧ ∃ os,
          (r.inState s).evaluateEach targets u = ((s.apply p.finish.delta, os), v) ∧
          p.events = os.flatMap Outcome.events ∧ p.output = os.flatMap Outcome.output ∧
          (!p.refused) = os.all Outcome.succeeded
  | [], s, u, v, p, _, h => by
    obtain ⟨rfl, rfl⟩ := Draw.pure_eq_iff.1 h
    exact ⟨fun _ => ⟨rfl, rfl⟩, [], rfl, rfl, rfl, rfl⟩
  | target :: targets, s, u, v, p, hs, h => by
    rw [List.foldlM_cons, Draw.bind_eq_iff] at h
    obtain ⟨p₁, w, h₁, h⟩ := h
    have ht₁ : p₁.Told s := hstep.told h₁ fun _ => ⟨rfl, rfl⟩
    rw [hstep.foldlM_report, ← Progress.start_apply_finish ht₁, Draw.map_eq_iff] at h
    obtain ⟨q, h, rfl⟩ := h
    obtain ⟨htq, os, heach, hevents, houtput, hrefused⟩ :=
      evaluateEach_eq hstep hone (s := s.apply p₁.finish.delta) hs h
    have ho : evaluate ((r.inState s).on [target]) u = (p₁.finish, w) := by
      rw [hone s target hs, Draw.map_eq_iff]
      exact ⟨p₁, h₁, rfl⟩
    have hboth : (s.apply p₁.finish.delta).apply q.finish.delta =
        s.apply (p₁.andThen q).finish.delta := by
      rw [Progress.apply_finish htq, Progress.apply_finish (ht₁.andThen htq)]
      rfl
    refine ⟨ht₁.andThen htq, p₁.finish :: os, ?_, ?_, ?_, ?_⟩
    · rw [← hboth]
      unfold evaluateEach
      simp only [Draw.bind_eq_iff, Draw.pure_eq_iff]
      exact ⟨_, w, ho, _, v, heach, rfl, rfl⟩
    · show p₁.events ++ q.events = _
      rw [hevents]
      rfl
    · show p₁.output ++ q.output = _
      rw [houtput]
      rfl
    · show (!(p₁.refused || q.refused)) = (!p₁.refused && os.all Outcome.succeeded)
      rw [Bool.not_or, hrefused]

/-! ## Lines with several targets -/

/-- Which command carries a line out does not hang on its targets. -/
theorem CommandLine.carried?_args {c : CommandLine} (h : c.subcommand ≠ some compose)
    (targets : List String) : { c with args := targets }.carried? = c.carried? := by
  unfold carried?
  rw [normalized_eq_self h, normalized_eq_self (c := { c with args := targets }) h]
  rfl

theorem onTargets_eq {form : String} {step : Progress → String → Draw Progress}
    (ha : r.line.args ≠ []) :
    onTargets form step r = Progress.finish <$> r.line.args.foldlM step (.start r.state) := by
  unfold onTargets
  rw [if_neg (by simpa using ha)]
  rfl

/-- The commands that take several targets work on each of them apart. -/
theorem runSubcommand_onTargets (r : Request) {sub : String}
    (hone : sub = "stop" ∨ sub = "start" ∨ sub = "rm") :
    ∃ form step, Apart step ∧ ∀ (s : State) (targets : List String), s.images = r.state.images →
      runSubcommand ((r.inState s).on targets) sub =
        onTargets form step ((r.inState s).on targets) := by
  rcases hone with rfl | rfl | rfl
  · exact ⟨_, stopOne, stopOne_apart, fun _ _ _ => rfl⟩
  · refine ⟨"start CONTAINER [CONTAINER...]", startOne r.state.images, startOne_apart _,
      fun s targets hs => ?_⟩
    rw [← hs]
    rfl
  · exact ⟨_, removeOne (r.line.anySwitch ["f", "force"]), removeOne_apart _, fun _ _ _ => rfl⟩

/-- **A line with several targets does what it does on each of them alone**, one after the other,
every outcome being taken over before the next target: the state is the same, and so is the supply
that is left; the events are the events on the targets, in order, and so are the lines of output;
and it succeeds if it does on every target. -/
theorem Request.evaluate_eq_each {sub : String} (hsub : r.line.subcommand = some sub)
    (hone : sub = "stop" ∨ sub = "start" ∨ sub = "rm") (hc : r.line.carried? = some sub)
    (ha : r.line.args ≠ []) (u : Supply) :
    let whole := evaluate r u
    let each := r.evaluateEach r.line.args u
    each.1.1 = r.state.apply whole.1.delta ∧ each.2 = whole.2 ∧
      whole.1.events = each.1.2.flatMap Outcome.events ∧
      whole.1.output = each.1.2.flatMap Outcome.output ∧
      whole.1.succeeded = each.1.2.all Outcome.succeeded := by
  have hne : r.line.subcommand ≠ some CommandLine.compose := by
    rw [hsub]
    rcases hone with rfl | rfl | rfl <;> decide
  obtain ⟨form, step, hstep, hrun⟩ := runSubcommand_onTargets r hone
  have heval : ∀ (s : State) (targets : List String), s.images = r.state.images → targets ≠ [] →
      evaluate ((r.inState s).on targets) = Progress.finish <$> targets.foldlM step (.start s) := by
    intro s targets hs ht
    have hc' : ((r.inState s).on targets).line.carried? = some sub :=
      (CommandLine.carried?_args hne targets).trans hc
    rw [evaluate_eq_runSubcommand hc',
      CommandLine.normalized_eq_self (c := ((r.inState s).on targets).line) hne]
    exact (hrun s targets hs).trans (onTargets_eq ht)
  have hsingle : ∀ s target, s.images = r.state.images →
      evaluate ((r.inState s).on [target]) = Progress.finish <$> step (.start s) target := by
    intro s target hs
    rw [heval s [target] hs (List.cons_ne_nil _ _), List.foldlM_cons]
    simp only [List.foldlM_nil, bind_pure]
  obtain ⟨p, v, hp⟩ : ∃ p v, r.line.args.foldlM step (.start r.state) u = (p, v) := ⟨_, _, rfl⟩
  obtain ⟨-, os, heach, hevents, houtput, hrefused⟩ := evaluateEach_eq hstep hsingle rfl hp
  have hwhole : evaluate r u = (p.finish, v) := by
    show evaluate ((r.inState r.state).on r.line.args) u = _
    rw [heval r.state r.line.args rfl ha, Draw.map_eq_iff]
    exact ⟨p, hp, rfl⟩
  replace heach : r.evaluateEach r.line.args u = ((r.state.apply p.finish.delta, os), v) := heach
  dsimp only
  rw [hwhole, heach]
  exact ⟨rfl, rfl, hevents, houtput, hrefused⟩

/-- A container is stopped by its name; the target after it is none, and the beginning of its id
finds it stopped already. -/
theorem Request.evaluate_eq_each_web :
    let state := (State.empty.submitAll Reached.webLines .fresh).1.1
    let r := (Submission.ofLine "docker stop web ghost 00000000").request state
    let whole := evaluate r .fresh
    let each := r.evaluateEach r.line.args .fresh
    r.line.args = ["web", "ghost", "00000000"] ∧
      each.1.2.map Outcome.succeeded = [true, false, false] ∧
      each.1.1 = r.state.apply whole.1.delta ∧ each.2 = whole.2 ∧
      whole.1.events = each.1.2.flatMap Outcome.events ∧
      whole.1.output = each.1.2.flatMap Outcome.output ∧
      whole.1.succeeded = each.1.2.all Outcome.succeeded := by
  intro state r
  have hargs : r.line.args = ["web", "ghost", "00000000"] := by decide +kernel
  have hc : r.line.carried? = some "stop" := by decide +kernel
  refine ⟨hargs, by decide +kernel, ?_⟩
  exact evaluate_eq_each (r := r) (by decide +kernel) (.inl rfl) hc
    (by rw [hargs]; exact List.cons_ne_nil _ _) .fresh

end DockerSim
