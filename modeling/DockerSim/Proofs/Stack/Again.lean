import DockerSim.Proofs.Stack.Tries

/-!
# `compose up` once more

Bringing a stack up a second time changes nothing, also when some services could not be brought up
the first time: what the file declares is there (`Progress.Has`), and every service is settled, so
that trying it again only prints lines (`Progress.Unmoved`).

As for the first time, this needs the containers of the stack to be kept under their ids. One that
is not is started again and again (`up_again_misplaced`).
-/

namespace DockerSim

open Command Stack

namespace Stack

/-! ## What is declared -/

namespace Progress

variable {p q : Progress} {doc : YamlMap} {u v : Supply}

/-- The networks and the volumes that a file declares are there. -/
structure Has (p : Progress) (doc : YamlMap) : Prop where
  networks : ∀ d ∈ declaredNetworks doc, p.networks.contains (stackKey d.1) = true
  volumes : ∀ name ∈ declaredVolumes doc, p.volumes.contains (stackKey name) = true

theorem addNetwork_contains {name : String} {definition : Option Yaml}
    (h : p.addNetwork name definition u = (q, v)) :
    q.networks.contains (stackKey name) = true := by
  unfold addNetwork at h
  dsimp only at h
  split at h
  · next hk =>
    obtain ⟨rfl, -⟩ := Draw.pure_eq_iff.1 h
    exact hk
  · obtain ⟨id, u1, -, h2⟩ := Draw.bind_eq_iff.1 h
    obtain ⟨rfl, -⟩ := Draw.pure_eq_iff.1 h2
    exact Table.contains_iff.2 ⟨_, Table.get?_insert_self _ _ _⟩

theorem addVolume_contains {name : String} (h : p.addVolume name u = (q, v)) :
    q.volumes.contains (stackKey name) = true := by
  unfold addVolume at h
  dsimp only at h
  split at h
  · next hk =>
    obtain ⟨rfl, -⟩ := Draw.pure_eq_iff.1 h
    exact hk
  · obtain ⟨id, u1, -, h2⟩ := Draw.bind_eq_iff.1 h
    obtain ⟨rfl, -⟩ := Draw.pure_eq_iff.1 h2
    exact Table.contains_iff.2 ⟨_, Table.get?_insert_self _ _ _⟩

/-- What is declared is there afterwards. -/
theorem addDeclared_has (h : p.addDeclared doc u = (q, v)) : q.Has doc := by
  obtain ⟨p', u1, h1, h2⟩ := Draw.bind_eq_iff.1 h
  have hnetworks : ∀ d ∈ declaredNetworks doc, p'.networks.contains (stackKey d.1) = true :=
    Draw.foldlM_reaches (P := fun d p => p.networks.contains (stackKey d.1) = true)
      addNetwork_contains
      (fun hstep hold => Table.Within.contains (addNetwork_declares hstep).networks hold) h1
  have hvolumes : ∀ name ∈ declaredVolumes doc, q.volumes.contains (stackKey name) = true :=
    Draw.foldlM_reaches (P := fun name p => p.volumes.contains (stackKey name) = true)
      addVolume_contains
      (fun hstep hold => Table.Within.contains (addVolume_declares hstep).same.volumes hold) h2
  have hkept : p'.Declares u1 q v :=
    Draw.foldlM_keeps (R := Declares) .refl .trans addVolume_declares h2
  exact ⟨fun d hd => hkept.networks.contains (hnetworks d hd), hvolumes⟩

/-- What is there is not made again. -/
theorem addDeclared_of_has (h : p.Has doc) : p.addDeclared doc = pure p := by
  unfold addDeclared
  rw [Draw.foldlM_eq_pure (l := declaredNetworks doc) (b := p) ?networks, pure_bind]
  case networks =>
    intro d hd
    unfold addNetwork
    exact if_pos (h.networks d hd)
  refine Draw.foldlM_eq_pure fun name hname => ?_
  unfold addVolume
  exact if_pos (h.volumes name hname)

end Progress

/-! ## Services that are settled -/

namespace Progress

/-- No table changes and nothing happens; at most lines are added. -/
def Unmoved (p q : Progress) : Prop := q = { p with lines := q.lines, failed := q.failed }

theorem Unmoved.trans {p q t : Progress} (h : p.Unmoved q) (h' : q.Unmoved t) : p.Unmoved t := by
  unfold Unmoved at *
  rw [h', h]

theorem Unmoved.settled {p q : Progress} {svc : Service} (h : p.Unmoved q) (hs : p.Settled svc) :
    q.Settled svc := by
  unfold Unmoved at h
  rw [h]
  exact hs

end Progress

end Stack

variable {p q : Stack.Progress} {svc : Service} {image : Image} {detached : Bool} {u v : Supply}

/-- A settled service is left alone. -/
theorem BringsUp.unmoved (h : BringsUp detached p svc image u q v) (hs : p.Settled svc) :
    p.Unmoved q := by
  cases h with
  | restarted found idle unheld _ =>
    exfalso
    rcases hs with ⟨d, hd, hrun⟩ | ho
    · rw [found, Option.some.injEq] at hd
      rw [hd, hrun] at idle
      cases idle
    · rw [Stack.Progress.obstacle?_of_tracked? found idle, unheld] at ho
      cases ho
  | created absent free claimed _ =>
    exfalso
    rcases hs with ⟨d, hd, -⟩ | ho
    · rw [absent] at hd
      cases hd
    · rw [Stack.Progress.obstacle?_of_absent absent, free, claimed] at ho
      simp at ho
  | _ => rfl

/-- Services that are settled are left alone. -/
theorem bringUpAll_unmoved {services : List Service} {images : Table Image} :
    ∀ {order : List String} {p : Stack.Progress} {u : Supply},
      (∀ name ∈ order, ∀ svc image,
        serviceWithImage services images name = some (svc, image) → p.Settled svc) →
      bringUpAll detached services images order p u = (q, v) → p.Unmoved q
  | [], p, u, _, h => by
    obtain ⟨rfl, -⟩ := Draw.pure_eq_iff.1 h
    rfl
  | name :: order, p, u, hs, h => by
    obtain ⟨hfirst, hrest⟩ := List.forall_mem_cons.1 hs
    obtain ⟨p', u', h2, hone, hskip⟩ := bringUpAll_cons h
    have hstep : p.Unmoved p' := by
      cases hsvc : serviceWithImage services images name with
      | some found => exact (bringUp_cases (hone _ _ hsvc)).unmoved (hfirst _ _ hsvc)
      | none =>
        rw [hskip hsvc]
        rfl
    exact hstep.trans (bringUpAll_unmoved
      (fun n hn svc image hsvc => hstep.settled (hrest n hn svc image hsvc)) h2)

namespace Stack

/-! ## The second time -/

variable {r : Request} {plan : Plan} {o again : Outcome} {w x : Supply}

/-- Outcomes do not depend on containers until there is a plan. -/
theorem plan?_of_images {t : State} (h : t.images = r.state.images) :
    plan? { r with state := t } = plan? r := by
  unfold plan?
  rw [h]
  rfl

/-- Nothing has changed when all is as it was, and the stack is the same. -/
theorem upOutcome_unmoved {t : State} {order warnings : List String}
    (h : (Progress.start t).Unmoved q)
    (hstack : t.stack? =
      some { name := State.stackName, services := order, containerIds := t.tracked }) :
    (upOutcome detached t warnings order q).Silent := by
  unfold Progress.Unmoved at h
  rw [h]
  constructor
  · have htracked : (Progress.start t).tracked = t.tracked := rfl
    simp only [upOutcome, Progress.start] at htracked ⊢
    rw [htracked, Table.insert_eq_self hstack]
    simp only [changedFrom_self]
  · rfl

/-- **A plan that was carried out is carried out again** without a trace. -/
theorem carryOut_again (hplan : plan? r = some plan) (h : up r u = (o, v))
    (h' : up { r with state := r.state.apply o.delta } w = (again, x))
    (hkept : r.state.TrackedByIds) (hs : r.state.Spares u v) : again.Silent := by
  rw [up_eq_carryOut hplan] at h
  obtain ⟨p, u1, q, hp, rfl, htries, hsettled⟩ :=
    (checked_of_plan? hplan).carryOut_tries h hkept hs
  have hstack := stack?_apply_upOutcome (r.line.anySwitch ["d", "detach"]) r.state plan.warnings
    plan.order q
  have htracked := tracked_apply_upOutcome (r.line.anySwitch ["d", "detach"]) r.state plan.warnings
    plan.order q
  generalize ht : r.state.apply (upOutcome (r.line.anySwitch ["d", "detach"]) r.state plan.warnings
    plan.order q).delta = t at h' hstack htracked
  -- what was worked on the first time is what is found the second time
  have hstart : Progress.start t = { q with lines := [], events := [], failed := false } := by
    unfold Progress.start
    change Progress.mk _ _ _ _ t.tracked _ _ _ = _
    rw [htracked, ← ht, apply_upOutcome]
  have hhas : (Progress.start t).Has plan.doc := by
    have hdeclared := Progress.addDeclared_has hp
    rw [hstart]
    refine ⟨fun d hd => htries.adds.networks.contains (hdeclared.networks d hd), fun n hn => ?_⟩
    show q.volumes.contains _ = true
    rw [htries.adds.volumes]
    exact hdeclared.volumes n hn
  have himages : t.images = r.state.images := by
    rw [← ht, apply_upOutcome]
  rw [up_eq_carryOut ((plan?_of_images himages).trans hplan)] at h'
  obtain ⟨p', u2, q', h1, h2, rfl⟩ := plan.carryOut_spec h'
  replace h1 : (Progress.start t).addDeclared plan.doc w = (p', u2) := h1
  rw [Progress.addDeclared_of_has hhas] at h1
  obtain ⟨rfl, rfl⟩ := Draw.pure_eq_iff.1 h1
  refine upOutcome_unmoved (bringUpAll_unmoved (fun n hn svc image hsvc => ?_) h2)
    (by rw [hstack, htracked])
  rw [himages] at hsvc
  rw [hstart]
  exact hsettled n hn svc image hsvc

/-- **`compose up` is idempotent.** When it was evaluated and its changes were taken over,
evaluating it again changes nothing, whatever came of it the first time. It tells of no event,
unless its file is rejected: then this is what is told, both times. -/
theorem up_again (hline : r.line.normalized.subcommand = some "compose up")
    (h : evaluate r u = (o, v))
    (h' : evaluate { r with state := r.state.apply o.delta } w = (again, x))
    (hkept : r.state.TrackedByIds) (hs : r.state.Spares u v) :
    again.delta = {} ∧
      (r.line.carried? = some "compose up" ∧ rejectsFile r.normalized = true →
        (∃ e, o.events = [e] ∧ e.kind = .composeFailed) ∧
          ∃ e, again.events = [e] ∧ e.kind = .composeFailed) ∧
      (¬(r.line.carried? = some "compose up" ∧ rejectsFile r.normalized = true) →
        again.events = []) := by
  cases hc : r.line.carried? with
  | none =>
    have hplain : again.Plain := by
      rcases evaluate_cases h' with ⟨-, hp, -⟩ | ⟨sub, hsub, -⟩
      · exact hp
      · rw [hc] at hsub
        cases hsub
    exact ⟨hplain.silent.delta, fun hand => (nomatch hand.1), fun _ => hplain.silent.events⟩
  | some sub =>
    obtain rfl : sub = "compose up" :=
      Option.some.inj ((CommandLine.subcommand_of_carried? hc).1.symm.trans hline)
    rw [evaluate_eq_up hc] at h
    rw [evaluate_eq_up (r := { r with state := r.state.apply o.delta }) hc] at h'
    replace h' : up { r.normalized with state := r.state.apply o.delta } w = (again, x) := h'
    cases hplan : plan? r.normalized with
    | none =>
      obtain ⟨-, hdelta, -, htold⟩ := up_stops hplan h
      have hsame : r.state.apply o.delta = r.state := by
        rw [hdelta]
        rfl
      rw [hsame] at h'
      obtain ⟨-, hdelta', -, htold'⟩ := up_stops (r := r.normalized) hplan h'
      refine ⟨hdelta', fun ⟨_, hrejects⟩ => ?_, fun hpasses => ?_⟩
      · rw [hrejects] at htold htold'
        exact ⟨(htold.resolve_left fun hl => nomatch hl.1).2,
          (htold'.resolve_left fun hl => nomatch hl.1).2⟩
      · rcases htold' with ⟨-, hnone⟩ | ⟨hrejects, -⟩
        · exact hnone
        · exact absurd ⟨rfl, hrejects⟩ hpasses
    | some plan =>
      have hsilent := carryOut_again (r := r.normalized) hplan h h' hkept hs
      refine ⟨hsilent.delta, fun ⟨_, hrejects⟩ => ?_, fun _ => hsilent.events⟩
      rw [rejectsFile_of_plan? hplan] at hrejects
      cases hrejects

/-- A service is started again, and then it runs. -/
theorem up_again_web :
    let s := webState "aaaaaaaaaaaa" (Table.empty.insert "web" "aaaaaaaaaaaa")
    let e := evaluate (webUp s) .fresh
    let e' := evaluate { webUp s with state := s.apply e.1.delta } e.2
    e.1.events.isEmpty = false ∧ e'.1.delta = {} ∧ e'.1.events = [] := by
  intro s e e'
  have computed : (webUp s).line.normalized.subcommand = some "compose up" ∧
      rejectsFile (webUp s).normalized = false ∧ e.2.drawn ≤ 9 ∧ e.1.events.isEmpty = false := by
    decide +kernel
  obtain ⟨hline, hpasses, hdrawn, hevents⟩ := computed
  have he : evaluate (webUp s) .fresh = e := rfl
  have he' : evaluate { webUp s with state := (webUp s).state.apply e.1.delta } e.2 = e' := rfl
  clear_value e'
  clear_value e
  have hkept : (webUp s).state.TrackedByIds := by
    refine trackedByIds_webState fun service id hid => ?_
    rw [Table.get?_insert] at hid
    split at hid
    · exact (Option.some.inj hid).symm
    · cases hid
  obtain ⟨hdelta, -, hnone⟩ := up_again hline he he' hkept (spares_webState hdrawn)
  refine ⟨hevents, hdelta, hnone fun hand => ?_⟩
  rw [hpasses] at hand
  cases hand.2

/-- Where the container of a service is not kept under its id, it is started a second time. -/
theorem up_again_misplaced :
    let s := webState "bbbbbbbbbbbb" (Table.empty.insert "web" "aaaaaaaaaaaa")
    let e := evaluate (webUp s) .fresh
    let e' := evaluate { webUp s with state := s.apply e.1.delta } e.2
    (webUp s).line.carried? = some "compose up" ∧ s.Spares .fresh e.2 ∧
      e'.1.delta.containers.isSome = true ∧
      e'.1.events.map Event.kind = [.composeServiceStarted] := by
  intro s e e'
  have computed : (webUp s).line.carried? = some "compose up" ∧ e.2.drawn ≤ 9 ∧
      e'.1.delta.containers.isSome = true ∧
      e'.1.events.map Event.kind = [.composeServiceStarted] := by
    decide +kernel
  obtain ⟨hc, hdrawn, hchanged, htold⟩ := computed
  exact ⟨hc, spares_webState hdrawn, hchanged, htold⟩

end Stack

end DockerSim
