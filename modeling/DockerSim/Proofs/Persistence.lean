import DockerSim.Proofs.Moves.Storable
import DockerSim.Proofs.Reached

/-!
# Saving and loading a session

A session may be saved and loaded between any two lines. The file that was written is read back, and
what it leaves out of the state, the pending command and the last error, no command ever reads: so
the lines that follow have the outcomes they would have had, and lead to the same states.
-/

namespace DockerSim

/-! ## What commands read -/

/-- The state without a pending command and a last error. -/
def State.settled (s : State) : State := { s with pending := none, lastError := none }

/-- The request, of a state without a pending command and a last error. -/
def Request.settled (r : Request) : Request := { r with state := r.state.settled }

/-- Every command looks at the tables and the log only. -/
theorem runSubcommand_settled (r : Request) (sub : String) :
    runSubcommand r.settled sub = runSubcommand r sub := by
  unfold runSubcommand
  split
  all_goals rfl

theorem dispatch_settled (r : Request) : dispatch r.settled = dispatch r := by
  unfold dispatch
  cases hs : r.line.subcommand with
  | none =>
    simp only [Request.settled, hs]
    rfl
  | some sub =>
    have hrun := runSubcommand_settled r sub
    simp only [Request.settled] at hrun
    simp only [Request.settled, hs, hrun]

/-- **Evaluation does not depend on the pending command and the last error.** -/
theorem evaluate_settled (r : Request) : evaluate r.settled = evaluate r := by
  unfold evaluate
  have hdispatch := dispatch_settled { r with line := r.line.normalized }
  simp only [Request.settled] at hdispatch
  simp only [Request.settled, hdispatch]

/-- States that are the same but for these two make the same of a line. -/
theorem Submission.run_settled (a : Submission) (s : State) : a.run s.settled = a.run s := by
  have hrequest : (a.request s.settled).settled = (a.request s).settled := rfl
  have heval : evaluate (a.request s.settled) = evaluate (a.request s) := by
    rw [← evaluate_settled, hrequest, evaluate_settled]
  funext u
  have hrun : a.run s u = (((a.run s u).1.1, (a.run s u).1.2), (a.run s u).2) := rfl
  obtain ⟨he, ht⟩ := run_eq_iff.1 hrun
  rw [hrun, run_eq_iff, heval]
  exact ⟨he, ht⟩

/-! ## Steps of a session -/

/-- What is done with a session. -/
inductive Step where
  | submit (a : Submission)
  /-- The session is saved at a time, and loaded from the file that was written. -/
  | reload (time : Instant)

namespace Step

def line? : Step → Option Submission
  | submit a => some a
  | reload _ => none

/-- What can be met: texts have a length that fits in 64 bits, like every text in memory, and a
session is saved at a proper time. -/
def Sound : Step → Prop
  | submit a => ∀ ⦃w path file⦄, a.files = some w → w.file? path = some file →
    file.content.length + 1 < UInt64.size
  | reload time => time.Proper

end Step

/-- The states after each of some lines, with the outcomes of the lines. -/
def State.history (s : State) : List Submission → Draw (List (State × Outcome))
  | [] => return []
  | a :: as => do
    let (t, o) ← a.run s
    return (t, o) :: (← t.history as)

namespace Session

/-- The session that is loaded after the session was saved. -/
def reloaded (s : Session) (time : Instant) : Except SessionError Session :=
  load (some (s.saved time).encode)

/-- The session after some steps, with the states after each of the lines and their outcomes. -/
def perform (s : Session) :
    List Step → ExceptT SessionError Draw (Session × List (State × Outcome))
  | [] => return (s, [])
  | .submit a :: steps => do
    let (t, o) ← (a.run s.engine : Draw (State × Outcome))
    let (s', history) ← perform { s with engine := t } steps
    return (s', (t, o) :: history)
  | .reload time :: steps => do
    let s' ← s.reloaded time
    perform s' steps

variable {s s' s₁ : Session} {t : State} {o : Outcome} {u v w : Supply} {a : Submission}
  {time : Instant} {steps : List Step} {history : List (State × Outcome)}

theorem perform_submit (ha : a.run s.engine u = ((t, o), v))
    (hsteps : (perform { s with engine := t } steps).run v = (.ok (s', history), w)) :
    (s.perform (.submit a :: steps)).run u = (.ok (s', (t, o) :: history), w) := by
  have hrun : (perform { s with engine := (a.run s.engine u).1.1 } steps).run
      (a.run s.engine u).2 = (.ok (s', history), w) := by
    rw [ha]
    exact hsteps
  have hpair : (a.run s.engine u).1 = (t, o) := by rw [ha]
  unfold perform
  rw [← hpair, ExceptT.run_bind]
  show (ExceptT.run (perform _ steps >>= _) : Draw _) _ = _
  rw [ExceptT.run_bind]
  refine Draw.bind_eq_iff.2 ⟨_, _, hrun, ?_⟩
  rfl

theorem perform_reload (hs : s.reloaded time = .ok s₁)
    (hsteps : (s₁.perform steps).run u = (.ok (s', history), w)) :
    (s.perform (.reload time :: steps)).run u = (.ok (s', history), w) := by
  unfold perform
  rw [hs]
  exact hsteps

end Session

theorem State.history_cons_iff {s : State} {a : Submission} {as : List Submission}
    {history : List (State × Outcome)} {u w : Supply} :
    s.history (a :: as) u = (history, w) ↔ ∃ t o v rest, a.run s u = ((t, o), v) ∧
      t.history as v = (rest, w) ∧ history = (t, o) :: rest := by
  simp only [State.history, Draw.bind_eq_iff, Draw.pure_eq_iff, Prod.exists]
  constructor
  · rintro ⟨t, o, v, ha, rest, w', hrest, rfl, rfl⟩
    exact ⟨t, o, v, rest, ha, hrest, rfl⟩
  · rintro ⟨t, o, v, rest, ha, hrest, rfl⟩
    exact ⟨t, o, v, ha, rest, w, hrest, rfl, rfl⟩

theorem State.history_le {as : List Submission} {s : State} {history : List (State × Outcome)}
    {u w : Supply} (h : s.history as u = (history, w)) : u ≤ w := by
  induction as generalizing s u history with
  | nil =>
    obtain ⟨-, rfl⟩ := Draw.pure_eq_iff.1 h
    exact Supply.le_refl _
  | cons a as ih =>
    obtain ⟨t, o, v, rest, ha, hrest, -⟩ := State.history_cons_iff.1 h
    exact Supply.le_trans (a.leads_anyway ha).moves.supply_le (ih hrest)

/-- The state after the last of some lines. -/
def State.after (s : State) (history : List (State × Outcome)) : State :=
  (history.getLast?.map (·.1)).getD s

/-! ## What is kept -/

/-- A state that can be saved and loaded: it is in order and can be written. -/
structure Kept (s : State) (u : Supply) : Prop where
  ordered : Ordered s u
  storable : (Scene.of s u).Storable
  begun : Supply.fresh ≤ u

theorem kept_empty : Kept .empty .fresh where
  ordered := ordered_empty _
  storable := by
    refine ⟨?_, ?_, ?_⟩
    · exact fun _ _ h => nomatch h
    · exact fun _ _ h => nomatch h
    · exact fun _ h => absurd h List.not_mem_nil
  begun := Supply.le_refl _

variable {s t : State} {u v w : Supply} {o : Outcome} {a : Submission} {time : Instant}

/-- **A line keeps what can be saved and loaded.** -/
theorem Submission.kept (h : a.run s u = ((t, o), v)) (sound : (Step.submit a).Sound)
    (hv : v.drawn < idLimit) (hcal : v.InCalendar) (hs : Kept s u) : Kept t v := by
  have cover : (a.terms (· < UInt64.size)).Cover a.files := by
    refine ⟨by show 0 < UInt64.size; decide, ?_⟩
    intro w path file hw hfile n hn
    exact Nat.lt_of_le_of_lt hn (sound hw hfile)
  have hmoves := (a.leads cover h).moves
  exact ⟨a.ordered h hv hs.ordered, hmoves.storable (fun _ hk => hk) hs.storable hs.begun hcal,
    Supply.le_trans hs.begun hmoves.supply_le⟩

/-- **A session in a state that is kept is loaded as it was saved.** -/
theorem Kept.load_saved (h : Kept s u) {x : Session} (hx : x.version = sessionVersion)
    (he : x.engine.settled = s.settled) (ht : time.Proper) :
    x.reloaded time = .ok (x.saved time) := by
  have hstorable : s.settled.Storable :=
    ⟨h.storable.images, h.storable.containers, h.storable.log⟩
  have hfault : s.fault? = none := State.fault?_eq_none_iff.2 h.ordered.valid
  replace hfault : s.settled.fault? = none := hfault
  rw [← he] at hstorable hfault
  exact Session.load_encode hx rfl ht hstorable hfault

/-! ## Runs with reloads -/

/-- Reloads between lines change nothing but what they leave out. -/
theorem Kept.perform {steps : List Step} {history : List (State × Outcome)} (hs : Kept s u)
    {x : Session} (hx : x.version = sessionVersion) (he : x.engine.settled = s.settled)
    (h : s.history (steps.filterMap Step.line?) u = (history, w)) (hw : w.drawn < idLimit)
    (hcal : w.InCalendar) (sound : ∀ step ∈ steps, step.Sound) :
    ∃ y, (x.perform steps).run u = (.ok (y, history), w) ∧ y.version = sessionVersion ∧
      y.engine.settled = (s.after history).settled ∧ Kept (s.after history) w := by
  induction steps generalizing s u x history with
  | nil =>
    obtain ⟨rfl, rfl⟩ := Draw.pure_eq_iff.1 h
    exact ⟨x, rfl, hx, he, hs⟩
  | cons step steps ih =>
    have hsound := List.forall_mem_cons.1 sound
    cases step with
    | submit a =>
      obtain ⟨t, o, v, rest, ha, hrest, rfl⟩ := State.history_cons_iff.1 h
      have hle := State.history_le hrest
      have hv : v.drawn < idLimit := Nat.lt_of_le_of_lt hle.drawn hw
      have hbegun := Supply.le_trans hs.begun (a.leads_anyway ha).moves.supply_le
      have ht : Kept t v := a.kept ha hsound.1 hv (hcal.of_le hbegun hle) hs
      -- The sessions may differ in what no command reads, so the line does the same in both, and
      -- after it they do not differ at all.
      have hax : a.run x.engine u = ((t, o), v) := by
        rw [← a.run_settled, he, a.run_settled]
        exact ha
      obtain ⟨y, hy, hrest'⟩ := ih ht (x := { x with engine := t }) hx rfl hrest hsound.2
      have hafter : s.after ((t, o) :: rest) = t.after rest := by
        unfold State.after
        rw [List.getLast?_cons]
        cases rest.getLast? <;> rfl
      rw [hafter]
      exact ⟨y, Session.perform_submit hax hy, hrest'⟩
    | reload time =>
      have hload := hs.load_saved hx he hsound.1
      obtain ⟨y, hy, hrest'⟩ := ih hs (x := x.saved time) hx he h hsound.2
      exact ⟨y, Session.perform_reload hload hy, hrest'⟩

/-- **Saving and loading a session is not noticed.** Take any lines, from the empty state and a
fresh supply, with saves and loads between them. Every load gives the session as it was saved; the
lines have the outcomes they have without any of this, and lead to the same states; and the session
that is left can be saved and loaded again, only a pending command and the last error being lost. -/
theorem Session.reloads_unnoticed {steps : List Step} {history : List (State × Outcome)}
    (h : State.empty.history (steps.filterMap Step.line?) .fresh = (history, u))
    (hu : u.drawn < idLimit) (hcal : u.InCalendar) (sound : ∀ step ∈ steps, step.Sound) :
    ∃ y, (new.perform steps).run .fresh = (.ok (y, history), u) ∧
      y.engine.settled = (State.empty.after history).settled ∧
      ∀ time : Instant, time.Proper → ∃ z, load (some (y.saved time).encode) = .ok z ∧
        z.engine = (State.empty.after history).settled := by
  obtain ⟨y, hy, hversion, he, hkept⟩ :=
    kept_empty.perform (x := new) rfl rfl h hu hcal sound
  refine ⟨y, hy, he, ?_⟩
  intro time ht
  exact ⟨y.saved time, hkept.load_saved hversion he ht, he⟩

/-- A container is run and stopped. The session is saved and loaded before it is started again, and
after that. -/
def webSteps : List Step := [
  .submit (.ofLine "docker pull nginx"),
  .submit (.ofLine "docker run -d -p 8080:80 --name web nginx"),
  .submit (.ofLine "docker stop web"),
  .reload { seconds := 1735689599, nanos := 250000000 },
  .submit (.ofLine "docker start web"),
  .reload { seconds := 1735689600, nanos := 0 }]

theorem sound_webSteps : ∀ step ∈ webSteps, step.Sound := by
  unfold webSteps
  simp only [List.forall_mem_cons]
  refine ⟨?_, ?_, ?_, ?_, ?_, ?_, fun _ h => absurd h List.not_mem_nil⟩
  · exact fun _ _ _ h => nomatch h
  · exact fun _ _ _ h => nomatch h
  · exact fun _ _ _ h => nomatch h
  · exact ⟨by decide, .inl (by decide)⟩
  · exact fun _ _ _ h => nomatch h
  · exact ⟨by decide, .inl (by decide)⟩

theorem Session.reloads_unnoticed_web :
    let r := State.empty.history (webSteps.filterMap Step.line?) .fresh
    r.2.drawn < idLimit ∧ r.2.InCalendar ∧
      ∃ y, (new.perform webSteps).run .fresh = (.ok (y, r.1), r.2) ∧
        y.engine.settled = (State.empty.after r.1).settled := by
  intro r
  have hdrawn : r.2.drawn < idLimit := by decide +kernel
  have hcal : r.2.InCalendar := by
    show Instant.inRange r.2.clock.date.year = true
    decide +kernel
  obtain ⟨y, hy, he, -⟩ := reloads_unnoticed (Prod.mk.eta (p := r)).symm hdrawn hcal sound_webSteps
  exact ⟨hdrawn, hcal, y, hy, he⟩

end DockerSim
