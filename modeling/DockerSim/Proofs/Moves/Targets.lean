import DockerSim.Proofs.Moves.Basic

/-!
# Moves of `stop`, `start` and `rm`

These commands work on their targets in turn. What becomes of one target is said once (`Stops`,
`Starts`, `Removes`). It is at most one move (`stopOne_moves`, `startOne_moves`, `removeOne_moves`),
and a target without a move leaves no event; so the fold over the targets is a row of moves, and an
outcome without events leaves the tables as they were.
-/

namespace DockerSim

open Command

variable {terms : Terms} {u v : Supply}

/-- An active container that a reference finds stands in the table. -/
theorem findContainer_spec {containers : Table Container} {reference : String} {c : Container}
    (h : findContainer containers reference = some c) :
    c.isActive = true ∧ ∃ key, containers.get? key = some c := by
  have hmem : c ∈ containers.values.filter Container.isActive := by
    unfold findContainer at h
    split at h
    · cases h
    · simp only [Option.orElse_eq_orElse, Option.orElse_eq_or, Option.or_eq_some_iff] at h
      rcases h with h | ⟨-, h | ⟨-, h⟩⟩ <;> exact List.mem_of_find?_eq_some h
  obtain ⟨hv, ha⟩ := List.mem_filter.1 hmem
  obtain ⟨⟨key, c'⟩, he, rfl⟩ := List.mem_map.1 hv
  exact ⟨ha, key, Table.get?_eq_some_iff.2 he⟩

namespace Command.Progress

/-- What the work on targets has done so far, as a scene of the state it began with. -/
def scene (s : State) (p : Progress) (u : Supply) : Scene :=
  { images := s.images, containers := p.containers, boundPorts := p.boundPorts
    log := s.eventLog ++ p.events, supply := u }

theorem scene_change {s : State} {p : Progress} {c : Container} {bound : Table String}
    {es : List Event} : (p.change c bound es).scene s v =
      { p.scene s u with
        containers := p.containers.insert c.id c
        boundPorts := bound
        log := (p.scene s u).log ++ es
        supply := v } := by
  simp [scene, change]

/-- Nothing has changed, or an event tells of it. -/
def Told (s : State) (p : Progress) : Prop :=
  p.events = [] → p.containers = s.containers ∧ p.boundPorts = s.boundPorts

theorem start_scene (s : State) : (Progress.start s).scene s u = .of s u := by
  simp [scene, Progress.start, Scene.of]

/-- The outcome of the work shows what was done. -/
theorem take_finish {s : State} {p : Progress} (h : p.Told s) :
    Scene.of (s.take p.finish) v = p.scene s v := by
  unfold State.take Progress.finish scene Scene.of
  by_cases he : p.events = []
  · obtain ⟨hc, hb⟩ := h he
    simp [State.apply, State.record, he, hc, hb]
  · simp [State.apply, State.record, List.isEmpty_eq_false_iff.2 he]

end Command.Progress

variable {r : Request} {o : Outcome}

/-- Without targets the command is refused, and otherwise it works on one after the other. -/
theorem onTargets_cases {form : String} {step : Progress → String → Draw Progress}
    (h : onTargets form step r u = (o, v)) :
    o = .refuse (.usage form) ∧ v = u ∨
      ∃ p, r.line.args.foldlM step (.start r.state) u = (p, v) ∧ o = p.finish := by
  unfold onTargets at h
  by_cases ha : r.line.args.isEmpty = true
  · rw [if_pos ha, Draw.pure_eq_iff] at h
    exact .inl ⟨h.1.symm, h.2.symm⟩
  · rw [if_neg ha, Draw.bind_eq_iff] at h
    obtain ⟨p, w, hp, hw⟩ := h
    obtain ⟨rfl, rfl⟩ := Draw.pure_eq_iff.1 hw
    exact .inr ⟨p, hp, rfl⟩

/-- Work on targets, each of which is some moves and tells of what it changes, is some moves. -/
theorem onTargets_effect {form : String} {step : Progress → String → Draw Progress}
    (hstep : ∀ {p : Progress} {reference : String} {p' : Progress} {u v : Supply},
      step p reference u = (p', v) → p.Told r.state →
        Moves terms (p.scene r.state u) (p'.scene r.state v) ∧ p'.Told r.state)
    (h : onTargets form step r u = (o, v)) : Effect terms r.state u o v := by
  rcases onTargets_cases h with ⟨rfl, rfl⟩ | ⟨p, hp, rfl⟩
  · exact .of_silent rfl rfl (Supply.le_refl _)
  · have hfold : (Progress.start r.state).Told r.state → Moves terms
        ((Progress.start r.state).scene r.state u) (p.scene r.state v) ∧ p.Told r.state := by
      refine Draw.foldlM_keeps (R := fun p u q v => p.Told r.state →
        Moves terms (p.scene r.state u) (Progress.scene r.state q v) ∧ q.Told r.state)
        (fun _ _ ht => ⟨.refl, ht⟩) ?_ hstep hp
      intro p q t u v w h h' ht
      obtain ⟨hm, hq⟩ := h ht
      obtain ⟨hm', ht'⟩ := h' hq
      exact ⟨hm.trans hm', ht'⟩
    obtain ⟨hm, ht⟩ := hfold fun _ => ⟨rfl, rfl⟩
    rw [Progress.start_scene] at hm
    exact ⟨by rw [Progress.take_finish ht]; exact hm, .of_eq rfl, .refl _⟩

/-! ## One target -/

variable {s : State} {p p' : Progress} {reference : String}

/-- A container was worked on, and events tell of it. -/
theorem told_change {c : Container} {bound : Table String} {es : List Event} (h : es ≠ []) :
    (p.change c bound es).Told s := by
  intro he
  exact absurd (List.append_eq_nil_iff.1 he).2 h

/-- What stopping a target comes to. -/
inductive Stops (p : Progress) (u : Supply) : Progress → Supply → Prop
  | refused (refusal : Refusal) : Stops p u (p.refuse refusal) u
  | stopped {key : String} {c : Container} {time : Instant} {es : List Event} {w v : Supply}
      (found : p.containers.get? key = some c) (running : c.isRunning = true)
      (shown : Supply.Shows u time w)
      (told : Drawn w (.stopped c :: Notice.ifPorts c (.released c)) es v) :
    Stops p u (p.change (c.stopped time) (releasePorts p.boundPorts c) es) v

theorem stopOne_cases (h : stopOne p reference u = (p', v)) : Stops p u p' v := by
  unfold stopOne at h
  cases hf : findContainer p.containers reference with
  | none =>
    rw [hf] at h
    obtain ⟨rfl, rfl⟩ := Draw.pure_eq_iff.1 h
    exact .refused _
  | some c =>
    obtain ⟨-, key, hk⟩ := findContainer_spec hf
    simp only [hf] at h
    by_cases hr : c.isRunning = true
    · simp only [hr, Bool.not_true, Bool.false_eq_true, if_false, Draw.bind_eq_iff,
        Draw.pure_eq_iff] at h
      obtain ⟨time, u1, h1, stopped, u2, h2, released, u3, h3, rfl, rfl⟩ := h
      exact .stopped hk hr (Supply.shows_of_now h1)
        ((drawn_of_stoppedEvent h2).append (drawn_of_releaseEvents h3))
    · simp only [Bool.not_eq_true] at hr
      simp only [hr, Bool.not_false, if_true, Draw.pure_eq_iff] at h
      obtain ⟨rfl, rfl⟩ := h
      exact .refused _

theorem stopOne_moves (keeping : ¬terms.creates) (h : stopOne p reference u = (p', v))
    (ht : p.Told s) : Moves terms (p.scene s u) (p'.scene s v) ∧ p'.Told s := by
  cases stopOne_cases h with
  | refused _ => exact ⟨.refl, ht⟩
  | @stopped _ c _ _ _ _ found running shown told =>
    refine ⟨?_, told_change (told.ne_nil (by simp))⟩
    rw [Progress.scene_change (u := u)]
    exact .single (.stop (c := c) keeping found running shown told)

/-- What starting a target comes to. One that runs already is only named. -/
inductive Starts (p : Progress) (u : Supply) : Progress → Supply → Prop
  | refused (refusal : Refusal) : Starts p u (p.refuse refusal) u
  | named (name : String) : Starts p u { p with output := p.output ++ [name] } u
  | started {key : String} {c : Container} {time : Instant} {logs : List String}
      {es : List Event} {w v : Supply} (found : p.containers.get? key = some c)
      (active : c.isActive = true) (idle : c.isRunning = false)
      (unheld : portConflict p.boundPorts c = none) (shown : Supply.Shows u time w)
      (told : Drawn w (Notice.ifPorts c (.bound c) ++ [.started c]) es v) :
    Starts p u (p.change (c.started time logs) (bindPorts p.boundPorts c.ports c.id) es) v

theorem startOne_cases {images : Table Image} (h : startOne images p reference u = (p', v)) :
    Starts p u p' v := by
  unfold startOne at h
  cases hf : findContainer p.containers reference with
  | none =>
    rw [hf] at h
    obtain ⟨rfl, rfl⟩ := Draw.pure_eq_iff.1 h
    exact .refused _
  | some c =>
    obtain ⟨ha, key, hk⟩ := findContainer_spec hf
    simp only [hf] at h
    by_cases hr : c.isRunning = true
    · simp only [hr, if_true, Draw.pure_eq_iff] at h
      obtain ⟨rfl, rfl⟩ := h
      exact .named _
    · simp only [Bool.not_eq_true] at hr
      simp only [hr, Bool.false_eq_true, if_false] at h
      cases hc : portConflict p.boundPorts c with
      | some port =>
        simp only [hc, Draw.pure_eq_iff] at h
        obtain ⟨rfl, rfl⟩ := h
        exact .refused _
      | none =>
        simp only [hc, Draw.bind_eq_iff, Draw.pure_eq_iff] at h
        obtain ⟨time, u1, h1, logs, u2, h2, bound, u3, h3, started, u4, h4, rfl, rfl⟩ := h
        exact .started hk ha hr hc
          ((Supply.shows_of_now h1).mono (Supply.le_refl _) (startupLogs_advances _ h2))
          ((drawn_of_bindEvents h3).append (drawn_of_startedEvent h4))

theorem startOne_moves {images : Table Image} (other : ¬terms.drops)
    (h : startOne images p reference u = (p', v))
    (ht : p.Told s) : Moves terms (p.scene s u) (p'.scene s v) ∧ p'.Told s := by
  cases startOne_cases h with
  | refused _ => exact ⟨.refl, ht⟩
  | named _ => exact ⟨.refl, ht⟩
  | started found active idle unheld shown told =>
    refine ⟨?_, told_change (told.ne_nil (by simp))⟩
    rw [Progress.scene_change (u := u)]
    exact .single (.start other found active idle unheld shown .start told)

/-- What removing a target comes to. Only one that runs is stopped and gives its ports back. -/
inductive Removes (p : Progress) (u : Supply) : Progress → Supply → Prop
  | refused (refusal : Refusal) : Removes p u (p.refuse refusal) u
  | stopped {key : String} {c : Container} {time : Instant} {es : List Event} {w v : Supply}
      (found : p.containers.get? key = some c) (active : c.isActive = true)
      (running : c.isRunning = true) (shown : Supply.Shows u time w)
      (told : Drawn w (Notice.ifPorts c (.released c) ++ [.removed c]) es v) :
    Removes p u (p.change (c.removed (some time)) (releasePorts p.boundPorts c) es) v
  | dropped {key : String} {c : Container} {es : List Event} {v : Supply}
      (found : p.containers.get? key = some c) (active : c.isActive = true)
      (idle : c.isRunning = false) (told : Drawn u [.removed c] es v) :
    Removes p u (p.change (c.removed none) p.boundPorts es) v

theorem removeOne_cases {force : Bool} (h : removeOne force p reference u = (p', v)) :
    Removes p u p' v := by
  unfold removeOne at h
  cases hf : findContainer p.containers reference with
  | none =>
    rw [hf] at h
    obtain ⟨rfl, rfl⟩ := Draw.pure_eq_iff.1 h
    exact .refused _
  | some c =>
    obtain ⟨ha, key, hk⟩ := findContainer_spec hf
    simp only [hf] at h
    by_cases hr : c.isRunning = true
    · cases force with
      | false =>
        simp only [hr, Bool.not_false, Bool.and_self, if_true, Draw.pure_eq_iff] at h
        obtain ⟨rfl, rfl⟩ := h
        exact .refused _
      | true =>
        simp only [hr, Bool.not_true, Bool.and_false, Bool.false_eq_true, if_false, if_true,
          Draw.bind_eq_iff, Draw.pure_eq_iff] at h
        obtain ⟨time, u1, h1, released, u2, h2, removed, u3, h3, rfl, rfl⟩ := h
        exact .stopped hk ha hr (Supply.shows_of_now h1)
          ((drawn_of_releaseEvents h2).append (drawn_of_removedEvent h3))
    · simp only [Bool.not_eq_true] at hr
      simp only [hr, Bool.false_and, Bool.false_eq_true, if_false, Draw.bind_eq_iff,
        Draw.pure_eq_iff] at h
      obtain ⟨removed, u1, h1, rfl, rfl⟩ := h
      exact .dropped hk ha hr (drawn_of_removedEvent h1)

/-- Only a container that was not running is dropped. -/
theorem removeOne_moves {force : Bool} (allowed : terms.drops)
    (h : removeOne force p reference u = (p', v)) (ht : p.Told s) :
    Moves terms (p.scene s u) (p'.scene s v) ∧ p'.Told s := by
  cases removeOne_cases h with
  | refused _ => exact ⟨.refl, ht⟩
  | stopped found active running shown told =>
    have keeping : ¬terms.creates := Terms.not_creates allowed (by decide)
    refine ⟨?_, told_change (told.ne_nil (by simp))⟩
    rw [Progress.scene_change (u := u)]
    exact .single
      (.remove keeping (fun _ => running) found active (.running running shown) .rm told)
  | @dropped _ c _ _ found active idle told =>
    refine ⟨?_, told_change (told.ne_nil (by simp))⟩
    rw [Progress.scene_change (u := u)]
    exact .single (.drop (c := c) allowed found active idle told)

/-! ## The commands -/

theorem stop_effect (keeping : ¬terms.creates) (h : Command.stop r u = (o, v)) :
    Effect terms r.state u o v :=
  onTargets_effect (stopOne_moves keeping) h

theorem start_effect (other : ¬terms.drops) (h : Command.start r u = (o, v)) :
    Effect terms r.state u o v :=
  onTargets_effect (startOne_moves other) h

theorem rm_effect (allowed : terms.drops) (h : Command.rm r u = (o, v)) :
    Effect terms r.state u o v :=
  onTargets_effect (removeOne_moves allowed) h

end DockerSim
