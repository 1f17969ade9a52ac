import DockerSim.Proofs.Launch
import Mathlib.Data.List.Nodup
import Mathlib.Data.List.Perm.Subperm

/-!
# Names that are drawn

A container without a name of its own gets a drawn one: of eight names the first that is not taken,
and if all are taken, a ninth with a suffix. Nobody looks whether the ninth is taken. So the name
that is drawn is taken if and only if all nine are (`drawn_name_taken_iff`), which takes nine active
containers with names that were chosen for it; fewer never take the drawn name.
-/

namespace DockerSim

open Command

/-! ## Candidates -/

/-- The name that is drawn when `n` numbers were drawn before. -/
def nameAfter (n : Nat) : String :=
  adjectives.getD ((n + 1) % adjectives.length) "" ++ "_" ++
    surnames.getD ((n + 2) % surnames.length) ""

/-- The name with a suffix that is drawn when `n` numbers were drawn before. -/
def suffixedNameAfter (n : Nat) : String := nameAfter n ++ "_" ++ Supply.hexText 4 (n + 3)

/-- The names that come into question when `n` numbers were drawn before, in order: `tries` plain
ones, and the one with a suffix. -/
def candidateNames : (tries n : Nat) → List String
  | 0, n => [suffixedNameAfter n]
  | tries + 1, n => nameAfter n :: candidateNames tries (n + 2)

theorem drawFreeName_zero (containers : Table Container) (u : Supply) :
    (drawFreeName containers 0 u).1 = suffixedNameAfter u.drawn := rfl

theorem drawFreeName_succ (containers : Table Container) (tries : Nat) (u : Supply) :
    drawFreeName containers (tries + 1) u =
      if isNameTaken containers (nameAfter u.drawn) then
        drawFreeName containers tries { u with drawn := u.drawn + 2 }
      else (nameAfter u.drawn, { u with drawn := u.drawn + 2 }) := by
  show (if isNameTaken containers (nameAfter u.drawn) then _ else _ : Draw String) _ = _
  split <;> rfl

variable {containers : Table Container} {name : String} {n m : Nat}

/-- **The name that is drawn is a candidate, and it is taken only if all candidates are.** -/
theorem drawFreeName_spec (containers : Table Container) : ∀ (tries : Nat) (u : Supply),
    (drawFreeName containers tries u).1 ∈ candidateNames tries u.drawn ∧
      (isNameTaken containers (drawFreeName containers tries u).1 = true ↔
        ∀ name ∈ candidateNames tries u.drawn, isNameTaken containers name = true)
  | 0, u => by
    rw [drawFreeName_zero, candidateNames]
    exact ⟨List.mem_singleton_self _, by simp⟩
  | tries + 1, u => by
    rw [candidateNames, List.forall_mem_cons, drawFreeName_succ]
    cases htaken : isNameTaken containers (nameAfter u.drawn) with
    | false =>
      rw [if_neg Bool.false_ne_true, htaken]
      exact ⟨List.mem_cons_self, iff_of_false Bool.false_ne_true fun h => Bool.false_ne_true h.1⟩
    | true =>
      obtain ⟨hmem, hiff⟩ := drawFreeName_spec containers tries { u with drawn := u.drawn + 2 }
      rw [if_pos rfl, hiff]
      exact ⟨List.mem_cons_of_mem _ hmem, (and_iff_right rfl).symm⟩

/-! ## Candidates are different -/

theorem nameAfter_mod (n : Nat) : nameAfter n = nameAfter (n % 18) := by
  have hlen : adjectives.length = 18 ∧ surnames.length = 18 := by decide
  unfold nameAfter
  rw [hlen.1, hlen.2, Nat.mod_add_mod, Nat.mod_add_mod]

/-- Names come again after nine only. -/
theorem nameAfter_inj (h : nameAfter m = nameAfter n) : m % 18 = n % 18 := by
  have hall : ∀ a < 18, ∀ b < 18, nameAfter a = nameAfter b → a = b := by decide +kernel
  rw [nameAfter_mod m, nameAfter_mod n] at h
  exact hall _ (Nat.mod_lt _ (by decide)) _ (Nat.mod_lt _ (by decide)) h

/-- A plain name has one mark in it, and a suffix brings another. -/
theorem nameAfter_ne_suffixedNameAfter (m n : Nat) : nameAfter m ≠ suffixedNameAfter n := by
  have hone : ∀ k, (nameAfter k).toList.count '_' = 1 := by
    have hall : ∀ a < 18, (nameAfter a).toList.count '_' = 1 := by decide +kernel
    intro k
    rw [nameAfter_mod]
    exact hall _ (Nat.mod_lt _ (by decide))
  intro h
  have hcount := congrArg (fun s : String => s.toList.count '_') h
  simp only [suffixedNameAfter, String.toList_append, List.count_append, hone] at hcount
  have hmark : "_".toList.count '_' = 1 := by decide
  omega

theorem mem_candidateNames_iff : ∀ {tries n : Nat}, name ∈ candidateNames tries n ↔
    (∃ i < tries, name = nameAfter (n + 2 * i)) ∨ name = suffixedNameAfter (n + 2 * tries)
  | 0, n => by simp [candidateNames]
  | tries + 1, n => by
    have hstep : ∀ i, n + 2 + 2 * i = n + 2 * (i + 1) := fun i => by omega
    simp only [candidateNames, List.mem_cons, mem_candidateNames_iff, hstep, ← or_assoc]
    refine or_congr_left ⟨?_, ?_⟩
    · rintro (h | ⟨i, hi, h⟩)
      · exact ⟨0, Nat.succ_pos _, h⟩
      · exact ⟨i + 1, Nat.succ_lt_succ hi, h⟩
    · rintro ⟨_ | i, hi, h⟩
      · exact .inl h
      · exact .inr ⟨i, Nat.lt_of_succ_lt_succ hi, h⟩

theorem nodup_candidateNames : ∀ {tries : Nat}, tries ≤ 9 → ∀ n, (candidateNames tries n).Nodup
  | 0, _, n => List.nodup_singleton _
  | tries + 1, h, n => by
    refine List.nodup_cons.2 ⟨fun hmem => ?_, nodup_candidateNames (by omega) (n + 2)⟩
    rcases mem_candidateNames_iff.1 hmem with ⟨i, hi, he⟩ | he
    · have := nameAfter_inj he
      omega
    · exact nameAfter_ne_suffixedNameAfter _ _ he

theorem length_candidateNames : ∀ tries n, (candidateNames tries n).length = tries + 1
  | 0, _ => rfl
  | tries + 1, n => congrArg (· + 1) (length_candidateNames tries (n + 2))

/-- As many active containers as candidates are needed to take all of them. -/
theorem length_le_of_taken {names : List String} (hnodup : names.Nodup)
    (h : ∀ name ∈ names, isNameTaken containers name = true) :
    names.length ≤ (containers.values.filter Container.isActive).length := by
  have hsub : names ⊆ (containers.values.filter Container.isActive).map Container.name := by
    intro name hname
    obtain ⟨key, c, hc, hactive, rfl⟩ := isNameTaken_iff.1 (h name hname)
    exact List.mem_map_of_mem (List.mem_filter.2 ⟨Table.mem_values_iff.2 ⟨key, hc⟩, hactive⟩)
  have hle := (List.subperm_of_subset hnodup hsub).length_le
  rwa [List.length_map] at hle

/-! ## Refusals of `run` -/

namespace Work

variable {α β : Type} {u v w : Supply} {e e' : Refusal}

theorem run_bind_error_iff {m : Work α} {f : α → Work β} :
    (m >>= f).run u = (.error e, w) ↔ m.run u = (.error e, w) ∨
      ∃ a v, m.run u = (.ok a, v) ∧ (f a).run v = (.error e, w) := by
  rw [ExceptT.run_bind, Draw.bind_eq_iff]
  constructor
  · rintro ⟨x, v, hm, hf⟩
    cases x with
    | ok a => exact .inr ⟨a, v, hm, hf⟩
    | error e' =>
      obtain ⟨he, rfl⟩ := Draw.pure_eq_iff.1 hf
      cases he
      exact .inl hm
  · rintro (hm | ⟨a, v, hm, hf⟩)
    · exact ⟨.error e, w, hm, Draw.pure_eq_iff.2 ⟨rfl, rfl⟩⟩
    · exact ⟨.ok a, v, hm, hf⟩

theorem run_except_error_iff {x : Except Refusal α} :
    (liftM x : Work α).run u = (.error e, v) ↔ x = .error e ∧ u = v := by
  cases x with
  | ok a => exact Draw.pure_eq_iff
  | error e' => exact Draw.pure_eq_iff

theorem run_throw_error_iff : (throw e' : Work α).run u = (.error e, v) ↔ e' = e ∧ u = v := by
  rw [ExceptT.run_throw, Draw.pure_eq_iff, Except.error.injEq]

theorem run_draw_ne_error {m : Draw α} : (liftM m : Work α).run u ≠ (.error e, v) := by
  show (m >>= fun a => pure (.ok a) : Draw (Except Refusal α)) u ≠ _
  rw [ne_eq, Draw.bind_eq_iff]
  rintro ⟨a, w, -, h⟩
  cases (Draw.pure_eq_iff.1 h).1

end Work

/-- No other refusal says what a name in use does. -/
theorem Refusal.eq_of_lines_nameInUse {refusal : Refusal}
    (h : refusal.lines = (nameInUse name).lines) : ∃ taken, refusal = .nameInUse taken := by
  cases refusal with
  | nameInUse taken => exact ⟨taken, rfl⟩
  | portTaken port =>
    -- the two have as many lines, of which the first ones differ early on
    have hfirst := congrArg (fun lines : List String => (lines.headD "").toList.take 6) h
    simp only [lines, List.headD_cons, String.toList_append] at hfirst
    simp at hfirst
  | _ => simp [lines] at h

theorem claimPorts_ne_nameInUse {bound : Table String} : ∀ {specs : List String}
    {claimed : List PortMapping}, claimPorts bound claimed specs ≠ .error (.nameInUse name)
  | [], _, h => nomatch h
  | spec :: specs, claimed, h => by
    unfold claimPorts at h
    split at h
    · cases h
    · split at h
      · cases h
      · exact claimPorts_ne_nameInUse h

theorem chooseNetwork_ne_nameInUse {networks : Table Network} {wanted : Option String} :
    chooseNetwork networks wanted ≠ .error (.nameInUse name) := by
  intro h
  unfold chooseNetwork at h
  split at h
  · cases h
  · split at h
    · cases h
    · split at h <;> cases h

/-- The reference of the first argument is that of an image. -/
def Request.HasImage (r : Request) : Prop :=
  ∃ reference i, r.line.args.head? = some reference ∧ findImage r.state.images reference = some i

variable {r : Request} {u v : Supply}

/-- **A container is refused for its name** when there is an image for it and the name is taken. -/
theorem prepare_nameInUse_iff : (∃ v, (prepare r).run u = (.error (.nameInUse name), v)) ↔
    r.HasImage ∧ name = r.containerName u ∧ isNameTaken r.state.containers name = true := by
  obtain ⟨w, hchosen⟩ := r.chooseName_containerName u
  unfold prepare
  constructor
  · rintro ⟨v, h⟩
    rcases Work.run_bind_error_iff.1 h with h | ⟨reference, u1, hreference, h⟩
    · have he := (Work.run_except_error_iff.1 h).1
      unfold Request.firstArg at he
      split at he <;> cases he
    obtain ⟨hfirst, rfl⟩ := Work.run_except_ok_iff.1 hreference
    rcases Work.run_bind_error_iff.1 h with h | ⟨image, u2, himage, h⟩
    · have he := (Work.run_except_error_iff.1 h).1
      unfold orRefuse at he
      split at he <;> cases he
    obtain ⟨hfound, rfl⟩ := Work.run_except_ok_iff.1 himage
    have hhas : r.HasImage :=
      ⟨reference, image, Request.firstArg_eq_ok_iff.1 hfirst, orRefuse_eq_ok_iff.1 hfound⟩
    rcases Work.run_bind_error_iff.1 h with h | ⟨chosen, u3, hname, h⟩
    · rw [hchosen] at h
      cases h
    rw [hchosen, Prod.mk.injEq, Except.ok.injEq] at hname
    obtain ⟨rfl, rfl⟩ := hname
    cases htaken : isNameTaken r.state.containers (r.containerName u) with
    | true =>
      rw [htaken] at h
      rcases Work.run_bind_error_iff.1 h with h | ⟨_, _, h, -⟩
      · cases (Work.run_throw_error_iff.1 h).1
        exact ⟨hhas, rfl, htaken⟩
      · exact (Work.run_throw_ok_iff.1 h).elim
    | false =>
      -- what is checked behind the name is refused for other reasons
      rw [htaken] at h
      rcases Work.run_bind_error_iff.1 h with h | ⟨ports, u4, -, h⟩
      · exact absurd (Work.run_except_error_iff.1 h).1 claimPorts_ne_nameInUse
      rcases Work.run_bind_error_iff.1 h with h | ⟨networkIds, u5, -, h⟩
      · exact absurd (Work.run_except_error_iff.1 h).1 chooseNetwork_ne_nameInUse
      rcases Work.run_bind_error_iff.1 h with h | ⟨made, u6, -, h⟩
      · exact absurd h Work.run_draw_ne_error
      · cases (Draw.pure_eq_iff.1 h).1
  · rintro ⟨⟨reference, image, hreference, himage⟩, rfl, htaken⟩
    refine ⟨w, Work.run_bind_error_iff.2 (.inr ⟨reference, u, Work.run_except_ok_iff.2
      ⟨Request.firstArg_eq_ok_iff.2 hreference, rfl⟩, ?_⟩)⟩
    refine Work.run_bind_error_iff.2 (.inr ⟨image, u, Work.run_except_ok_iff.2
      ⟨orRefuse_eq_ok_iff.2 himage, rfl⟩, ?_⟩)
    refine Work.run_bind_error_iff.2 (.inr ⟨_, w, hchosen, ?_⟩)
    rw [htaken]
    exact Work.run_bind_error_iff.2 (.inl (Work.run_throw_error_iff.2 ⟨rfl, rfl⟩))

/-- What was prepared is carried out without a refusal. -/
theorem launch_nameInUse_iff : (∃ v, (launch r).run u = (.error (.nameInUse name), v)) ↔
    r.HasImage ∧ name = r.containerName u ∧ isNameTaken r.state.containers name = true := by
  rw [← prepare_nameInUse_iff]
  unfold launch
  constructor
  · rintro ⟨v, h⟩
    rcases Work.run_bind_error_iff.1 h with h | ⟨prepared, w, -, h⟩
    · exact ⟨v, h⟩
    · exact absurd h Work.run_draw_ne_error
  · rintro ⟨v, h⟩
    exact ⟨v, Work.run_bind_error_iff.2 (.inl h)⟩

/-- **`run` fails for a name in use** exactly when there is an image and the name is taken. -/
theorem run_nameInUse_iff : (Command.run r u).1 = .refuse (.nameInUse (r.containerName u)) ↔
    r.HasImage ∧ isNameTaken r.state.containers (r.containerName u) = true := by
  obtain ⟨o, v, h⟩ : ∃ o v, Command.run r u = (o, v) := ⟨_, _, rfl⟩
  rw [h]
  constructor
  · rintro rfl
    rcases Work.ofWork_cases h with ⟨refusal, hrefused, he⟩ | hdone
    · have hlines : refusal.lines = (Refusal.nameInUse (r.containerName u)).lines :=
        (congrArg Outcome.output he).symm
      obtain ⟨taken, rfl⟩ := Refusal.eq_of_lines_nameInUse hlines
      obtain ⟨himage, rfl, htaken⟩ := launch_nameInUse_iff.1 ⟨v, hrefused⟩
      exact ⟨himage, htaken⟩
    · exact absurd (Request.launched_of_launch hdone).1 Bool.false_ne_true
  · rintro ⟨himage, htaken⟩
    obtain ⟨v', hrefused⟩ := launch_nameInUse_iff.2 ⟨himage, rfl, htaken⟩
    rcases Work.ofWork_cases h with ⟨refusal, hrefused', rfl⟩ | hdone
    · rw [hrefused] at hrefused'
      cases hrefused'
      rfl
    · rw [hrefused] at hdone
      cases hdone

/-- The same of a whole line that is accepted and does not ask for help. -/
theorem evaluate_nameInUse_iff (accepted : r.line.fault? = none)
    (hrun : r.line.subcommand = some "run") (hhelp : r.line.wantsHelp = false) :
    (evaluate r u).1 = .refuse (.nameInUse (r.containerName u)) ↔
      r.HasImage ∧ isNameTaken r.state.containers (r.containerName u) = true := by
  have hcarried : r.line.carried? = some "run" :=
    CommandLine.carried?_of_accepted accepted hrun hhelp (by decide)
  have hself : r.line.normalized = r.line :=
    CommandLine.normalized_eq_self (by rw [hrun]; decide)
  rw [evaluate_eq_runSubcommand hcarried, hself]
  exact run_nameInUse_iff

theorem Request.containerName_of_unnamed (h : r.line.value? ["name"] = none) :
    r.containerName u = (generateName r.state.containers u).1 := by
  unfold containerName
  rw [h]
  rfl

/-! ## Drawn names -/

/-- **A drawn name is taken if and only if all nine candidates are**, and for that there must be
nine active containers. So an accepted `run` without a name, which does not ask for help, fails for
its name if and only if there is an image for it and all candidates are taken. -/
theorem drawn_name_taken_iff (r : Request) (u : Supply) :
    (generateName r.state.containers u).1 ∈ candidateNames nameTries u.drawn ∧
      (isNameTaken r.state.containers (generateName r.state.containers u).1 = true ↔
        ∀ name ∈ candidateNames nameTries u.drawn, ∃ key c,
          r.state.containers.get? key = some c ∧ c.isActive = true ∧ c.name = name) ∧
      (isNameTaken r.state.containers (generateName r.state.containers u).1 = true →
        nameTries < r.state.activeContainers.length) ∧
      (r.line.fault? = none → r.line.subcommand = some "run" → r.line.wantsHelp = false →
        r.line.value? ["name"] = none →
        ((evaluate r u).1 = .refuse (.nameInUse (generateName r.state.containers u).1) ↔
          r.HasImage ∧ ∀ name ∈ candidateNames nameTries u.drawn, ∃ key c,
            r.state.containers.get? key = some c ∧ c.isActive = true ∧ c.name = name)) := by
  obtain ⟨hmem, hiff⟩ := drawFreeName_spec r.state.containers nameTries u
  replace hiff : isNameTaken r.state.containers (generateName r.state.containers u).1 = true ↔
      ∀ name ∈ candidateNames nameTries u.drawn, ∃ key c,
        r.state.containers.get? key = some c ∧ c.isActive = true ∧ c.name = name := by
    simp only [← isNameTaken_iff]
    exact hiff
  refine ⟨hmem, hiff, fun htaken => ?_, fun accepted hrun hhelp hunnamed => ?_⟩
  · have hle := length_le_of_taken (nodup_candidateNames (by decide) u.drawn)
      fun name hname => isNameTaken_iff.2 (hiff.1 htaken name hname)
    rwa [length_candidateNames] at hle
  · rw [← hiff, ← Request.containerName_of_unnamed hunnamed]
    exact evaluate_nameInUse_iff accepted hrun hhelp

/-- An image is pulled, and containers are run under some names. -/
def Reached.namedLines (names : List String) : List Submission :=
  .ofLine "docker pull nginx" ::
    names.map fun name => .ofLine ("docker run -d --name " ++ name ++ " nginx")

/-- Beside a container that has the first candidate for its name, another one is drawn. -/
theorem drawn_name_taken_iff_beside_first :
    let r := State.empty.submitAll (Reached.namedLines ["nifty_ritchie"]) .fresh
    let q := (Submission.ofLine "docker run -d nginx").request r.1.1
    q.line.fault? = none ∧ q.line.subcommand = some "run" ∧ q.line.wantsHelp = false ∧
      q.line.value? ["name"] = none ∧
      isNameTaken q.state.containers (nameAfter r.2.drawn) = true ∧
      isNameTaken q.state.containers (generateName q.state.containers r.2).1 = false ∧
      (evaluate q r.2).1 ≠ .refuse (.nameInUse (generateName q.state.containers r.2).1) := by
  intro r q
  have computed : q.line.fault? = none ∧ q.line.subcommand = some "run" ∧
      q.line.wantsHelp = false ∧ q.line.value? ["name"] = none ∧
      isNameTaken q.state.containers (nameAfter r.2.drawn) = true ∧
      q.state.activeContainers.length = 1 := by decide +kernel
  obtain ⟨hfault, hrun, hhelp, hname, hfirst, hone⟩ := computed
  clear_value q r
  obtain ⟨-, hiff, hmany, hfails⟩ := drawn_name_taken_iff q r.2
  have hfree : isNameTaken q.state.containers (generateName q.state.containers r.2).1 = false := by
    rw [Bool.eq_false_iff]
    intro htaken
    have := hmany htaken
    rw [hone] at this
    exact absurd this (by decide)
  refine ⟨hfault, hrun, hhelp, hname, hfirst, hfree, fun he => ?_⟩
  have htaken := hiff.2 ((hfails hfault hrun hhelp hname).1 he).2
  rw [hfree] at htaken
  cases htaken

/-- Nine containers have the names that would be drawn next: a tenth one without a name is
refused. -/
theorem drawn_name_taken_crowded :
    let r := State.empty.submitAll (Reached.namedLines ["admiring_curie", "brave_einstein",
      "dreamy_galileo", "focused_kepler", "happy_meitner", "keen_noether", "nifty_ritchie",
      "serene_tesla", "vibrant_wozniak_0036"]) .fresh
    let q := (Submission.ofLine "docker run -d nginx").request r.1.1
    q.line.value? ["name"] = none ∧
      (generateName q.state.containers r.2).1 = "vibrant_wozniak_0036" ∧
      isNameTaken q.state.containers "vibrant_wozniak_0036" = true ∧
      (evaluate q r.2).1 = .refuse (.nameInUse "vibrant_wozniak_0036") := by
  intro r q
  have computed : q.line.fault? = none ∧ q.line.subcommand = some "run" ∧
      q.line.wantsHelp = false ∧ q.line.value? ["name"] = none ∧
      (generateName q.state.containers r.2).1 = "vibrant_wozniak_0036" ∧
      isNameTaken q.state.containers "vibrant_wozniak_0036" = true ∧
      q.line.args.head? = some "nginx" ∧ (findImage q.state.images "nginx").isSome = true := by
    decide +kernel
  obtain ⟨hfault, hrun, hhelp, hunnamed, hname, htaken, hargs, himage⟩ := computed
  clear_value q r
  obtain ⟨i, hi⟩ := Option.isSome_iff_exists.1 himage
  have hdrawn : q.containerName r.2 = "vibrant_wozniak_0036" :=
    (Request.containerName_of_unnamed hunnamed).trans hname
  refine ⟨hunnamed, hname, htaken, ?_⟩
  rw [← hdrawn] at htaken ⊢
  exact (evaluate_nameInUse_iff hfault hrun hhelp).2 ⟨⟨_, i, hargs, hi⟩, htaken⟩

end DockerSim
