import DockerSim.Proofs.Moves.Basic

/-!
# The move of `run`

`run` creates one container, or it is refused and nothing has changed but the supply. Work that may
be refused is taken apart like a draw: `run_bind_ok_iff` names what is in between when it succeeds,
and `Work.Advances` says that the supply goes on also when it is refused.
-/

namespace DockerSim

open Command

/-! ## Work that may be refused -/

namespace Work

variable {α β : Type} {u v w : Supply}

theorem run_bind_ok_iff {m : Work α} {f : α → Work β} {b : β} :
    (m >>= f).run u = (.ok b, w) ↔ ∃ a v, m.run u = (.ok a, v) ∧ (f a).run v = (.ok b, w) := by
  rw [ExceptT.run_bind, Draw.bind_eq_iff]
  constructor
  · rintro ⟨x, v, hm, hf⟩
    cases x with
    | ok a => exact ⟨a, v, hm, hf⟩
    | error e => cases (Draw.pure_eq_iff.1 hf).1
  · rintro ⟨a, v, hm, hf⟩
    exact ⟨.ok a, v, hm, hf⟩

theorem run_pure_ok_iff {a b : α} : (pure a : Work α).run u = (.ok b, v) ↔ a = b ∧ u = v := by
  rw [ExceptT.run_pure, Draw.pure_eq_iff, Except.ok.injEq]

theorem run_throw_ok_iff {e : Refusal} {a : α} : (throw e : Work α).run u = (.ok a, v) ↔ False := by
  rw [ExceptT.run_throw, Draw.pure_eq_iff]
  simp

theorem run_draw_ok_iff {m : Draw α} {a : α} :
    (liftM m : Work α).run u = (.ok a, v) ↔ m u = (a, v) := by
  show (m >>= fun a => pure (.ok a) : Draw (Except Refusal α)) u = _ ↔ _
  simp only [Draw.bind_eq_iff, Draw.pure_eq_iff, Except.ok.injEq]
  exact ⟨by rintro ⟨a, v, h, rfl, rfl⟩; exact h, fun h => ⟨a, v, h, rfl, rfl⟩⟩

theorem run_except_ok_iff {x : Except Refusal α} {a : α} :
    (liftM x : Work α).run u = (.ok a, v) ↔ x = .ok a ∧ u = v := by
  cases x with
  | ok b => exact Draw.pure_eq_iff
  | error e => exact Draw.pure_eq_iff

/-- The work never takes a supply back, whether it is refused or not. -/
def Advances (m : Work α) : Prop := m.run.Advances

namespace Advances

theorem bind {m : Work α} {f : α → Work β} (hm : m.Advances) (hf : ∀ a, (f a).Advances) :
    (m >>= f).Advances := by
  unfold Advances
  rw [ExceptT.run_bind]
  refine Draw.Advances.bind hm fun x => ?_
  cases x with
  | ok a => exact hf a
  | error e => exact .pure _

theorem pure (a : α) : (pure a : Work α).Advances := Draw.Advances.pure _

theorem throw (e : Refusal) : (throw e : Work α).Advances := Draw.Advances.pure _

theorem draw {m : Draw α} (h : m.Advances) : (liftM m : Work α).Advances :=
  Draw.Advances.bind h fun _ => .pure _

theorem except (x : Except Refusal α) : (liftM x : Work α).Advances := by
  cases x with
  | ok a => exact Draw.Advances.pure _
  | error e => exact Draw.Advances.pure _

end Advances

/-- Work is refused as a whole, or it is done. -/
theorem ofWork_cases {m : Work Outcome} {o : Outcome} (h : Outcome.ofWork m u = (o, v)) :
    (∃ refusal, m.run u = (.error refusal, v) ∧ o = .refuse refusal) ∨ m.run u = (.ok o, v) := by
  obtain ⟨x, w, hx, hw⟩ := Draw.bind_eq_iff.1 h
  cases x with
  | ok o' =>
    obtain ⟨rfl, rfl⟩ := Draw.pure_eq_iff.1 hw
    exact .inr hx
  | error e =>
    obtain ⟨rfl, rfl⟩ := Draw.pure_eq_iff.1 hw
    exact .inl ⟨e, hx, rfl⟩

/-- The outcome of work is what it returns, or a refusal that changes nothing. -/
theorem ofWork_effect {terms : Terms} {s : State} {m : Work Outcome} {o : Outcome}
    (hm : m.Advances) (hok : m.run u = (.ok o, v) → Effect terms s u o v)
    (h : Outcome.ofWork m u = (o, v)) : Effect terms s u o v := by
  rcases ofWork_cases h with ⟨refusal, hrefused, rfl⟩ | hdone
  · exact .of_silent rfl rfl (hm hrefused)
  · exact hok hdone

end Work

/-! ## Running a container -/

variable {terms : Terms} {u v : Supply} {r : Request} {o : Outcome}

theorem mountEnds_advances (spec : String) : (mountEnds spec).Advances := by
  unfold mountEnds
  split
  · exact .pure _
  · exact .bind (Supply.hex_advances 12) fun _ => .pure _

theorem addMount_advances (volumes : Table Volume) (mounts : List Mount) (spec : String) :
    (addMount volumes mounts spec).Advances := by
  refine .bind (mountEnds_advances spec) fun ends => ?_
  dsimp only
  split
  · exact .pure _
  · split
    · exact .pure _
    · exact .bind (Supply.hex_advances 12) fun _ => .pure _

theorem addMounts_advances (volumes : Table Volume) (specs : List String) :
    (addMounts volumes specs).Advances :=
  .foldlM (fun _ _ => addMount_advances _ _ _) _ _

/-- A mount makes the volume it needs when there is none, and leaves the others alone. -/
theorem addMount_within {volumes volumes' : Table Volume} {mounts mounts' : List Mount}
    {spec : String} (h : addMount volumes mounts spec u = ((volumes', mounts'), v)) :
    volumes.Within volumes' := by
  unfold addMount at h
  obtain ⟨⟨source, target⟩, u1, -, h⟩ := Draw.bind_eq_iff.1 h
  dsimp only at h
  split at h
  · obtain ⟨he, -⟩ := Draw.pure_eq_iff.1 h
    cases he
    exact .refl _
  · cases hs : volumes.get? source with
    | some found =>
      simp only [hs, Draw.pure_eq_iff, Prod.mk.injEq] at h
      obtain ⟨⟨rfl, -⟩, -⟩ := h
      exact .refl _
    | none =>
      simp only [hs, Draw.bind_eq_iff, Draw.pure_eq_iff, Prod.mk.injEq] at h
      obtain ⟨id, u2, -, ⟨rfl, -⟩, -⟩ := h
      exact Table.within_insert hs _

theorem addMounts_within {specs : List String} {volumes volumes' : Table Volume}
    {mounts : List Mount} (h : addMounts volumes specs u = ((volumes', mounts), v)) :
    volumes.Within volumes' :=
  Draw.foldlM_keeps (R := fun before _ after _ => before.1.Within after.1)
    (fun before _ => .refl before.1) .trans addMount_within h

theorem made_of_draw {p : ContainerPlan} {c : Container} (h : p.draw u = (c, v)) :
    c.Made u v ∧ c.name = p.name ∧ c.ports = p.ports := by
  unfold ContainerPlan.draw at h
  simp only [Draw.bind_eq_iff, Draw.pure_eq_iff] at h
  obtain ⟨id, u1, h1, time, u2, h2, logs, u3, h3, rfl, rfl⟩ := h
  have hle := Supply.containerId_advances h1
  have hlogs := startupLogs_advances _ h3
  have ht := Supply.shows_of_now h2
  exact ⟨⟨(Supply.hands_of_containerId h1).mono (Supply.le_refl _) (Supply.le_trans ht.le hlogs),
    rfl, ht.mono hle hlogs, rfl, rfl⟩, rfl, rfl⟩

/-- The container has the networks and mounts that were planned, and it has printed something. -/
theorem links_of_draw {p : ContainerPlan} {c : Container} (h : p.draw u = (c, v)) :
    c.networkIds = p.networkIds ∧ c.mounts = p.mounts ∧ c.logs ≠ [] := by
  unfold ContainerPlan.draw at h
  simp only [Draw.bind_eq_iff, Draw.pure_eq_iff] at h
  obtain ⟨id, u1, -, time, u2, -, logs, u3, h3, rfl, rfl⟩ := h
  exact ⟨rfl, rfl, startupLogs_ne_nil h3⟩

theorem planDraw_advances (p : ContainerPlan) : p.draw.Advances := by
  intro u c v h
  exact (made_of_draw h).1.created.le

theorem runEvents_advances (c : Container) : (runEvents c).Advances := by
  intro u es v h
  exact (drawn_of_runEvents h).le

theorem chooseName_advances (r : Request) : (chooseName r).Advances := by
  unfold chooseName
  split
  · exact .pure _
  · exact .draw (drawFreeName_advances _ _)

theorem prepare_advances (r : Request) : (prepare r).Advances := by
  unfold prepare
  refine .bind (.except _) fun reference => .bind (.except _) fun image => ?_
  refine .bind (chooseName_advances r) fun name => ?_
  dsimp only
  split
  · exact .bind (.throw _) fun _ => .bind (.except _) fun _ => .bind (.except _) fun _ =>
      .bind (.draw (addMounts_advances _ _)) fun _ => .pure _
  · exact .bind (.except _) fun _ => .bind (.except _) fun _ =>
      .bind (.draw (addMounts_advances _ _)) fun _ => .pure _

theorem orRefuse_eq_ok_iff {α : Type} {refusal : Refusal} {x : Option α} {a : α} :
    orRefuse refusal x = .ok a ↔ x = some a := by
  cases x <;> simp [orRefuse]

/-- What is settled about a plan that passes all checks. -/
structure Prepares (r : Request) (u : Supply) (plan : ContainerPlan) (volumes : Table Volume)
    (v : Supply) : Prop where
  image : ∃ reference, r.firstArg "run [OPTIONS] IMAGE [COMMAND] [ARG...]" = .ok reference ∧
    findImage r.state.images reference = some plan.image
  free : isNameTaken r.state.containers plan.name = false
  ports : claimPorts r.state.boundPorts [] (r.line.values ["p", "publish"]) = .ok plan.ports
  networks : chooseNetwork r.state.networks (r.line.value? ["network", "net"]) =
    .ok plan.networkIds
  env : environment (r.line.values ["e", "env"]) = plan.env
  drawn : ∃ w, (chooseName r).run u = (.ok plan.name, w) ∧
    addMounts r.state.volumes (r.line.values ["v", "volume"]) w = ((volumes, plan.mounts), v)

theorem prepare_eq_ok_iff {plan : ContainerPlan} {volumes : Table Volume} :
    (prepare r).run u = (.ok (plan, volumes), v) ↔ Prepares r u plan volumes v := by
  constructor
  · intro h
    unfold prepare at h
    obtain ⟨reference, u1, h1, hchecked⟩ := Work.run_bind_ok_iff.1 h
    obtain ⟨image, u2, h2, hnamed⟩ := Work.run_bind_ok_iff.1 hchecked
    obtain ⟨name, u3, h3, h⟩ := Work.run_bind_ok_iff.1 hnamed
    obtain ⟨hreference, rfl⟩ := Work.run_except_ok_iff.1 h1
    obtain ⟨himage, rfl⟩ := Work.run_except_ok_iff.1 h2
    by_cases ht : isNameTaken r.state.containers name = true
    · simp only [ht, if_true, Work.run_bind_ok_iff, Work.run_throw_ok_iff, false_and,
        exists_false] at h
    · simp only [ht, Bool.false_eq_true, if_false, Work.run_bind_ok_iff, Work.run_except_ok_iff,
        Work.run_draw_ok_iff, Work.run_pure_ok_iff, Prod.mk.injEq] at h
      obtain ⟨ports, _, ⟨hp, rfl⟩, networkIds, _, ⟨hn, rfl⟩, _, _, hmounts, ⟨rfl, rfl⟩, rfl⟩ := h
      exact ⟨⟨reference, hreference, orRefuse_eq_ok_iff.1 himage⟩, by simpa using ht, hp, hn, rfl,
        _, h3, hmounts⟩
  · rintro ⟨⟨reference, hreference, himage⟩, hfree, hp, hn, henv, w, hname, hmounts⟩
    unfold prepare
    refine Work.run_bind_ok_iff.2 ⟨reference, u, Work.run_except_ok_iff.2 ⟨hreference, rfl⟩, ?_⟩
    refine Work.run_bind_ok_iff.2 ⟨plan.image, u, Work.run_except_ok_iff.2 ⟨?_, rfl⟩, ?_⟩
    · exact orRefuse_eq_ok_iff.2 himage
    refine Work.run_bind_ok_iff.2 ⟨plan.name, w, hname, ?_⟩
    simp only [hfree, Bool.false_eq_true, if_false, Work.run_bind_ok_iff, Work.run_except_ok_iff,
      Work.run_draw_ok_iff, Work.run_pure_ok_iff, Prod.mk.injEq]
    exact ⟨_, _, ⟨hp, rfl⟩, _, _, ⟨hn, rfl⟩, _, _, hmounts, ⟨by rw [henv], rfl⟩, rfl⟩

/-- A plan that passes all checks has a free name and claimed ports, and keeps the volumes. -/
theorem prepare_ok {plan : ContainerPlan} {volumes : Table Volume}
    (h : (prepare r).run u = (.ok (plan, volumes), v)) :
    isNameTaken r.state.containers plan.name = false ∧ Claimed r.state.boundPorts plan.ports ∧
      r.state.volumes.Within volumes := by
  obtain ⟨-, hname, hports, -, -, w, -, hmounts⟩ := prepare_eq_ok_iff.1 h
  exact ⟨hname, .of_claimPorts hports, addMounts_within hmounts⟩

/-- A container is made as it was planned, and events tell of it. -/
theorem carryOut_spec {plan : ContainerPlan} {volumes : Table Volume}
    (h : carryOut r plan volumes u = (o, v)) :
    ∃ c w events, plan.draw u = (c, w) ∧ runEvents c w = (events, v) ∧ o = {
      delta := {
        containers := some (r.state.containers.insert c.id c)
        boundPorts := some (bindPorts r.state.boundPorts plan.ports c.id)
        networks := changedFrom r.state.networks
          (plan.networkIds.foldl (fun ns id => joinNetwork ns id c.id) r.state.networks)
        volumes := changedFrom r.state.volumes volumes }
      events
      output := runOutput r.line c plan.image
      succeeded := true } := by
  unfold carryOut at h
  simp only [Draw.bind_eq_iff, Draw.pure_eq_iff] at h
  obtain ⟨c, w, hc, events, w', he, rfl, rfl⟩ := h
  exact ⟨c, w, events, hc, he, rfl⟩

/-- What is not refused is prepared, and then carried out. -/
theorem launch_eq_ok_iff :
    (launch r).run u = (.ok o, v) ↔ ∃ plan volumes w,
      (prepare r).run u = (.ok (plan, volumes), w) ∧ carryOut r plan volumes w = (o, v) := by
  unfold launch
  simp only [Work.run_bind_ok_iff, Work.run_draw_ok_iff, Prod.exists]

theorem carryOut_effect {plan : ContainerPlan} {volumes : Table Volume} {w : Supply}
    (creating : terms.creates) (hn : isNameTaken r.state.containers plan.name = false)
    (hp : Claimed r.state.boundPorts plan.ports) (hvolumes : r.state.volumes.Within volumes)
    (hle : u ≤ v) (h : carryOut r plan volumes v = (o, w)) : Effect terms r.state u o w := by
  obtain ⟨c, v1, events, hc, he, rfl⟩ := carryOut_spec h
  obtain ⟨hm, hname, hports⟩ := made_of_draw hc
  rw [← hname] at hn
  rw [← hports] at hp ⊢
  have hmove : Move terms { Scene.of r.state u with supply := v } _ :=
    .create creating hn hp hm .run (drawn_of_runEvents he)
  refine ⟨(Moves.idle hle).tail hmove, .of_eq rfl, ?_⟩
  simpa only [State.take, State.apply, State.record, getD_changedFrom] using hvolumes

theorem run_effect (creating : terms.creates) (h : Command.run r u = (o, v)) :
    Effect terms r.state u o v := by
  refine Work.ofWork_effect ?_ ?_ h
  · refine .bind (prepare_advances r) fun x => .draw ?_
    intro u o v h
    obtain ⟨c, w, events, hc, he, -⟩ := carryOut_spec h
    exact Supply.le_trans (planDraw_advances _ hc) (runEvents_advances _ he)
  · intro h
    obtain ⟨plan, volumes, w, hw, h⟩ := launch_eq_ok_iff.1 h
    obtain ⟨hn, hp, hvolumes⟩ := prepare_ok hw
    exact carryOut_effect creating hn hp hvolumes (prepare_advances r hw) h

end DockerSim
