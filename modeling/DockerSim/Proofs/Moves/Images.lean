import DockerSim.Proofs.FindingLines
import DockerSim.Proofs.Moves.Run

/-!
# Moves of `pull`, `build` and `exec`

`pull` and `build` make at most one image; what they come to is said once (`Pulls`, `Builds`). A
build that is rejected and a program that is run in a container leave an event and change nothing
else.
-/

namespace DockerSim

open Command

variable {terms : Terms} {u v : Supply} {r : Request} {o : Outcome}

/-! ## New images -/

theorem drawDigests_advances (count : Nat) : (drawDigests count).Advances :=
  .mapM (fun _ => Supply.digest_advances) _

theorem made_of_drawPulled {name : ImageName} {i : Image} (h : drawPulled name u = (i, v)) :
    i.Made u v ∧ i.name = name := by
  unfold drawPulled at h
  simp only [Draw.bind_eq_iff, Draw.pure_eq_iff] at h
  obtain ⟨count, u1, h1, layers, u2, h2, id, u3, h3, size, u4, h4, time, u5, h5, rfl, rfl⟩ := h
  have hcounted : u ≤ u2 := Supply.le_trans (Supply.below_advances _ h1) (drawDigests_advances _ h2)
  have hsized : u3 ≤ u5 :=
    Supply.le_trans (Supply.sizeBetween_advances _ _ h4) (Supply.now_advances h5)
  have hle : u ≤ u4 :=
    calc u ≤ u2 := hcounted
      _ ≤ u3 := Supply.digest_advances h3
      _ ≤ u4 := Supply.sizeBetween_advances _ _ h4
  have hsize := Supply.sizeBetween_lt h4 (by decide)
  exact ⟨⟨(Supply.handsDigest_of_digest h3).mono hcounted hsized, Nat.lt_trans hsize (by decide),
    (Supply.shows_of_now h5).mono hle (Supply.le_refl _)⟩, rfl⟩

theorem made_of_drawBuilt {name : ImageName} {is : List Instruction} {i : Image}
    (h : drawBuilt name is u = (i, v)) : i.Made u v ∧ i.name = name := by
  unfold drawBuilt at h
  simp only [Draw.bind_eq_iff, Draw.pure_eq_iff] at h
  obtain ⟨id, u1, h1, size, u2, h2, time, u3, h3, layers, u4, h4, rfl, rfl⟩ := h
  have hle : u ≤ u2 :=
    calc u ≤ u1 := Supply.digest_advances h1
      _ ≤ u2 := Supply.sizeBetween_advances _ _ h2
  have hlater : u1 ≤ u4 :=
    calc u1 ≤ u2 := Supply.sizeBetween_advances _ _ h2
      _ ≤ u3 := Supply.now_advances h3
      _ ≤ u4 := drawDigests_advances _ h4
  have hsize := Supply.sizeBetween_lt h2 (by decide)
  exact ⟨⟨(Supply.handsDigest_of_digest h1).mono (Supply.le_refl _) hlater,
    Nat.lt_trans hsize (by decide),
    (Supply.shows_of_now h3).mono hle (drawDigests_advances _ h4)⟩, rfl⟩

/-- An image was made, and events tell of it. -/
theorem Effect.of_image {i : Image} {ns : List Notice} {w : Supply}
    (hd : o.delta = withImage r i) (made : i.Made u v) (about : Notice.OfImage terms.lines i ns)
    (told : Drawn v ns o.events w) : Effect terms r.state u o w := by
  have h : r.state.take o =
      { r.state with
        images := r.state.images.insert i.key i
        eventLog := r.state.eventLog ++ o.events } := by
    unfold State.take
    rw [hd]
    rfl
  refine ⟨?_, .of_eq (by rw [h]), by rw [h]; exact .refl _⟩
  rw [h]
  exact .single (.image (x := .of r.state u) made about told)

/-! ## Pulling -/

/-- What pulling comes to. -/
inductive Pulls (r : Request) (u : Supply) : Outcome → Supply → Prop
  | unnamed (absent : r.line.args = []) (refusal : Refusal) : Pulls r u (.refuse refusal) u
  | present {reference : String} {i : Image} (named : r.line.args.head? = some reference)
      (found : r.state.images.get? (ImageName.ofReference reference).key = some i)
      (lines : List String) : Pulls r u (.print lines) u
  | pulled {reference : String} {i : Image} {events : List Event} {w v : Supply}
      (named : r.line.args.head? = some reference)
      (absent : r.state.images.get? (ImageName.ofReference reference).key = none)
      (made : drawPulled (ImageName.ofReference reference) u = (i, w))
      (told : pullEvents i w = (events, v)) (output : List String) :
    Pulls r u { delta := withImage r i, events, output, succeeded := true } v

theorem pull_cases (h : Command.pull r u = (o, v)) : Pulls r u o v := by
  unfold Command.pull at h
  cases ha : r.line.args with
  | nil =>
    simp only [ha, Draw.pure_eq_iff] at h
    obtain ⟨rfl, rfl⟩ := h
    exact .unnamed ha _
  | cons reference rest =>
    have named : r.line.args.head? = some reference := by rw [ha, List.head?_cons]
    simp only [ha] at h
    cases hg : r.state.images.get? (ImageName.ofReference reference).key with
    | some i =>
      simp only [hg, Draw.pure_eq_iff] at h
      obtain ⟨rfl, rfl⟩ := h
      exact .present named hg _
    | none =>
      simp only [hg, Draw.bind_eq_iff, Draw.pure_eq_iff] at h
      obtain ⟨i, w, hi, events, w', he, rfl, rfl⟩ := h
      exact .pulled named hg hi he _

theorem pull_effect (h : Command.pull r u = (o, v)) : Effect terms r.state u o v := by
  cases pull_cases h with
  | unnamed _ _ => exact .of_silent rfl rfl (Supply.le_refl _)
  | present _ _ _ => exact .of_silent rfl rfl (Supply.le_refl _)
  | pulled _ _ made told _ =>
    exact .of_image rfl (made_of_drawPulled made).1 .pulled (drawn_of_pullEvents told)

/-! ## Building -/

theorem buildSteps_advances (total : Nat) :
    ∀ (is : List Instruction) (n : Nat), (buildSteps total n is).Advances
  | [], _ => .pure _
  | i :: is, n => by
    unfold buildSteps
    dsimp only
    split
    · exact .bind (.bind (Supply.hex_advances 12) fun _ => .pure _) fun _ =>
        .bind (Supply.hex_advances 12) fun _ =>
          .bind (buildSteps_advances total is _) fun _ => .pure _
    · exact .bind (.pure _) fun _ =>
        .bind (Supply.hex_advances 12) fun _ =>
          .bind (buildSteps_advances total is _) fun _ => .pure _

/-- A build that passes makes an image, and events tell of it. -/
theorem finishBuild_spec {name : ImageName} {is : List Instruction} {warnings : List String}
    (h : finishBuild r name is warnings u = (o, v)) :
    ∃ i w events output, (i.Made u w ∧ i.name = name) ∧
      Drawn w [.buildStep name is.length, .buildComplete i] events v ∧
      o = { delta := withImage r i, events, output, succeeded := true } := by
  unfold finishBuild at h
  simp only [Draw.bind_eq_iff, Draw.pure_eq_iff] at h
  obtain ⟨steps, u1, h1, i, u2, h2, step, u3, h3, complete, u4, h4, rfl, rfl⟩ := h
  obtain ⟨hmade, hname⟩ := made_of_drawBuilt h2
  have hle := buildSteps_advances _ _ _ h1
  have told := Drawn.append (.one (n := .buildStep name is.length) h3)
    (.one (n := .buildComplete i) h4)
  exact ⟨i, u2, _, _, ⟨hmade.mono hle (Supply.le_refl _), hname⟩, told, rfl⟩

/-- A build that is rejected leaves an event, and prints its errors. -/
theorem rejectBuild_spec {name : ImageName} {errors : List Finding} {warnings : List String}
    (h : rejectBuild name errors warnings u = (o, v)) :
    ∃ failed, Drawn u [.buildFailed name errors] [failed] v ∧
      o = { Outcome.fail (warnings ++ buildErrorLines 1 errors ++
        ["", "failed to solve: Dockerfile validation failed."]) with events := [failed] } := by
  unfold rejectBuild at h
  simp only [Draw.bind_eq_iff, Draw.pure_eq_iff] at h
  obtain ⟨failed, u1, h1, rfl, rfl⟩ := h
  exact ⟨failed, .one h1, rfl⟩

/-- The reference that a build is told to name its image by. -/
def builtReference (line : CommandLine) : String :=
  (line.value? ["t", "tag"]).getD "unnamed:latest"

/-- What building comes to. Without a workspace there is nothing to be built, and it passes. -/
inductive Builds (r : Request) (u : Supply) (o : Outcome) (v : Supply) : Prop
  | empty (closed : r.files = none)
      (made : finishBuild r (.ofReference (builtReference r.line)) [] [] u = (o, v))
  | missing {files : Workspace} (opened : r.files = some files)
      (absent : files.file? (dockerfilePath r.line) = none) (refusal : Refusal)
      (refused : o = .refuse refusal) (same : v = u)
  | accepted {files : Workspace} {file : WorkspaceFile} {warnings : List String}
      (opened : r.files = some files) (found : files.file? (dockerfilePath r.line) = some file)
      (passes : (Finding.errors (Dockerfile.check file.content)).isEmpty = true)
      (made : finishBuild r (.ofReference (builtReference r.line))
        (Instruction.ofContent file.content) warnings u = (o, v))
  | rejected {files : Workspace} {file : WorkspaceFile} {name : ImageName} {warnings : List String}
      (opened : r.files = some files) (found : files.file? (dockerfilePath r.line) = some file)
      (fails : (Finding.errors (Dockerfile.check file.content)).isEmpty = false)
      (told : rejectBuild name (Finding.errors (Dockerfile.check file.content)) warnings u = (o, v))

theorem build_cases (h : Command.build r u = (o, v)) : Builds r u o v := by
  unfold Command.build at h
  cases hf : r.files with
  | none =>
    simp only [hf] at h
    exact .empty hf h
  | some files =>
    simp only [hf] at h
    cases hp : files.file? (dockerfilePath r.line) with
    | none =>
      simp only [hp, Draw.pure_eq_iff] at h
      exact .missing hf hp _ h.1.symm h.2.symm
    | some file =>
      simp only [hp] at h
      cases he : (Finding.errors (Dockerfile.check file.content)).isEmpty with
      | true =>
        rw [he, if_pos rfl] at h
        exact .accepted hf hp he h
      | false =>
        rw [he, if_neg Bool.false_ne_true] at h
        exact .rejected hf hp he h

theorem finishBuild_effect {name : ImageName} {is : List Instruction} {warnings : List String}
    (few : terms.lines is.length) (h : finishBuild r name is warnings u = (o, v)) :
    Effect terms r.state u o v := by
  obtain ⟨i, w, events, output, ⟨hmade, -⟩, told, rfl⟩ := finishBuild_spec h
  exact .of_image rfl hmade (.built name is.length few) told

theorem build_effect (cover : terms.Cover r.files) (h : Command.build r u = (o, v)) :
    Effect terms r.state u o v := by
  cases build_cases h with
  | empty _ made =>
    have few : terms.lines ([] : List Instruction).length := cover.zero
    exact finishBuild_effect few made
  | missing _ _ refusal refused same =>
    subst refused same
    exact .of_silent rfl rfl (Supply.le_refl _)
  | accepted opened found _ made =>
    exact finishBuild_effect (cover.file opened found _ (Instruction.length_ofContent _)) made
  | @rejected _ _ name _ opened found _ told =>
    obtain ⟨failed, hdrawn, rfl⟩ := rejectBuild_spec told
    refine .of_note (.buildFailed name _) rfl (fun f hmem => ?_) hdrawn
    exact Dockerfile.line_of_mem_check (numbers_lines (cover.file opened found)) f
      (List.mem_filter.1 hmem).1

/-! ## Programs -/

/-- A program that is run prints something, and an event tells of it. -/
theorem runProgram_ok (h : (runProgram r).run u = (.ok o, v)) :
    ∃ c command output ran, Drawn u [.ran c command] [ran] v ∧
      o = { Outcome.print output with events := [ran] } := by
  obtain ⟨⟨c, command, output⟩, u1, hc, h⟩ := Work.run_bind_ok_iff.1 h
  obtain ⟨-, rfl⟩ := Work.run_except_ok_iff.1 hc
  obtain ⟨ran, u2, hr, h⟩ := Work.run_bind_ok_iff.1 h
  obtain ⟨rfl, rfl⟩ := Work.run_pure_ok_iff.1 h
  exact ⟨c, command, output, ran, .one (Work.run_draw_ok_iff.1 hr), rfl⟩

theorem exec_effect (h : Command.exec r u = (o, v)) : Effect terms r.state u o v := by
  refine Work.ofWork_effect ?_ ?_ h
  · exact .bind (.except _) fun _ => .bind (.draw (eventDraw_advances _ _ _)) fun _ => .pure _
  · intro h
    obtain ⟨c, command, output, ran, told, rfl⟩ := runProgram_ok h
    exact .of_note (.ran c command) rfl trivial told

end DockerSim
