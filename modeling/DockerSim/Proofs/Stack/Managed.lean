import DockerSim.Proofs.Failures
import DockerSim.Proofs.Stack.Tries

/-!
# Networks of the stack

Networks are made by `compose up`, which also makes the stack, and are forgotten by `compose down`,
which forgets the stack. No other command touches the stack or the keys of the networks
(`State.StackKept`). So in a reached state all networks belong to a stack that is up
(`State.Managed`).
-/

namespace DockerSim

open Command Stack

/-- The stack has the name that it is found under and no service twice, and there are networks for
it only. -/
structure State.Managed (s : State) : Prop where
  stack : ∀ ⦃stack⦄, s.stack? = some stack →
    stack.name = State.stackName ∧ stack.services.Nodup
  networks : ∀ ⦃key⦄, s.networks.contains key = true →
    s.stack?.isSome = true ∧ ∃ name, key = stackKey name

theorem State.Managed.of_none {s : State} (hstack : s.stack? = none) (hempty : s.networks = ∅) :
    s.Managed := by
  constructor
  · rw [hstack]
    exact fun _ h => nomatch h
  · rw [hempty]
    exact fun _ h => nomatch h

/-- Without a stack there are no networks. -/
theorem State.Managed.networks_eq_empty {s : State} (hs : s.Managed) (hnone : s.stack? = none) :
    s.networks = ∅ := by
  refine Table.ext_get? fun key => ?_
  cases hkey : s.networks.get? key with
  | none => rfl
  | some n =>
    obtain ⟨hsome, -⟩ := hs.networks (Table.contains_iff.2 ⟨n, hkey⟩)
    rw [hnone] at hsome
    cases hsome

/-- The stacks are the same, and no network is new. -/
structure State.StackKept (s t : State) : Prop where
  composeStacks : t.composeStacks = s.composeStacks
  networks : ∀ ⦃key⦄, t.networks.contains key = true → s.networks.contains key = true

variable {s t : State} {r : Request} {u v : Supply} {o : Outcome}

theorem State.StackKept.managed (h : s.StackKept t) (hs : s.Managed) : t.Managed := by
  have hstack : t.stack? = s.stack? := by
    unfold State.stack?
    rw [h.composeStacks]
  constructor
  · rw [hstack]
    exact hs.stack
  · rw [hstack]
    exact fun key hkey => hs.networks (h.networks hkey)

/-! ## Commands on images and containers -/

/-- The outcome changes neither stacks nor networks. -/
structure Outcome.Elsewhere (o : Outcome) : Prop where
  composeStacks : o.delta.composeStacks = none
  networks : o.delta.networks = none

theorem Outcome.Elsewhere.kept (h : o.Elsewhere) : s.StackKept (s.apply o.delta) := by
  unfold State.apply
  rw [h.composeStacks, h.networks]
  exact ⟨rfl, fun _ hkey => hkey⟩

theorem Outcome.Silent.elsewhere (h : o.Silent) : o.Elsewhere := by
  constructor <;> rw [h.delta]

namespace Command

theorem pull_elsewhere (h : pull r u = (o, v)) : o.Elsewhere := by
  cases pull_cases h with
  | _ => exact ⟨rfl, rfl⟩

theorem build_elsewhere (h : build r u = (o, v)) : o.Elsewhere := by
  have finished : ∀ {name is warnings}, finishBuild r name is warnings u = (o, v) →
      o.Elsewhere := by
    intro name is warnings h
    obtain ⟨i, w, events, output, -, -, rfl⟩ := finishBuild_spec h
    exact ⟨rfl, rfl⟩
  cases build_cases h with
  | empty _ made => exact finished made
  | missing _ _ _ refused _ =>
    subst refused
    exact ⟨rfl, rfl⟩
  | accepted _ _ _ made => exact finished made
  | rejected _ _ _ told =>
    obtain ⟨failed, -, rfl⟩ := rejectBuild_spec told
    exact ⟨rfl, rfl⟩

theorem exec_elsewhere (h : exec r u = (o, v)) : o.Elsewhere := by
  rcases Work.ofWork_cases h with ⟨refusal, -, rfl⟩ | h
  · exact ⟨rfl, rfl⟩
  · obtain ⟨c, command, output, ran, -, rfl⟩ := runProgram_ok h
    exact ⟨rfl, rfl⟩

theorem onTargets_elsewhere {form : String} {step : Progress → String → Draw Progress}
    (h : onTargets form step r u = (o, v)) : o.Elsewhere := by
  rcases onTargets_cases h with ⟨rfl, -⟩ | ⟨p, -, rfl⟩
  · exact ⟨rfl, rfl⟩
  · exact ⟨rfl, rfl⟩

/-- A container joins a network that is there. -/
theorem contains_joinNetwork {networks : Table Network} {networkId containerId key : String}
    (h : (joinNetwork networks networkId containerId).contains key = true) :
    networks.contains key = true := by
  unfold joinNetwork at h
  split at h
  · next k n hfound =>
    have hn : networks.get? k = some n :=
      Table.get?_eq_some_iff.2 (List.mem_of_find?_eq_some hfound)
    by_cases he : key = k
    · exact Table.contains_iff.2 ⟨n, he ▸ hn⟩
    · rwa [Table.contains, Table.get?_insert_of_ne _ _ he] at h
  · exact h

theorem contains_foldl_joinNetwork {containerId key : String} :
    ∀ {ids : List String} {networks : Table Network},
      (ids.foldl (fun ns id => joinNetwork ns id containerId) networks).contains key = true →
        networks.contains key = true
  | [], _, h => h
  | _ :: _, _, h => contains_joinNetwork (contains_foldl_joinNetwork h)

theorem run_stackKept (h : run r u = (o, v)) : r.state.StackKept (r.state.apply o.delta) := by
  rcases Work.ofWork_cases h with ⟨refusal, -, rfl⟩ | h
  · exact Outcome.Elsewhere.kept ⟨rfl, rfl⟩
  · obtain ⟨plan, volumes, w, -, h⟩ := launch_eq_ok_iff.1 h
    obtain ⟨c, w', events, -, -, rfl⟩ := carryOut_spec h
    refine ⟨rfl, fun key hkey => ?_⟩
    simp only [State.apply, getD_changedFrom] at hkey
    exact contains_foldl_joinNetwork hkey

end Command

/-- A command that neither runs a container, nor brings up a stack, nor takes one down. -/
theorem runSubcommand_elsewhere {sub : String} (hsub : sub ∉ ["run", "compose up", "compose down"])
    (h : runSubcommand r sub u = (o, v)) : o.Elsewhere := by
  by_cases hchanging : sub ∈ changing
  · simp only [changing, List.mem_cons, List.not_mem_nil, or_false] at hchanging
    rcases hchanging with rfl | rfl | rfl | rfl | rfl | rfl | rfl | rfl | rfl
    · exact pull_elsewhere h
    · exact build_elsewhere h
    · exact absurd (by decide) hsub
    · exact onTargets_elsewhere h
    · exact onTargets_elsewhere h
    · exact onTargets_elsewhere h
    · exact exec_elsewhere h
    · exact absurd (by decide) hsub
    · exact absurd (by decide) hsub
  · exact (runSubcommand_silent hchanging h).elsewhere

/-- A command that neither brings up a stack nor takes one down. -/
theorem runSubcommand_stackKept {sub : String} (hup : sub ≠ "compose up")
    (hdown : sub ≠ "compose down") (h : runSubcommand r sub u = (o, v)) :
    r.state.StackKept (r.state.apply o.delta) := by
  by_cases hrun : sub = "run"
  · subst hrun
    exact run_stackKept h
  · exact (runSubcommand_elsewhere (by simp [hrun, hup, hdown]) h).kept

/-! ## Stacks -/

namespace Stack

theorem starts_stackKey (name : String) :
    Text.starts (State.stackName ++ "_") (stackKey name) = true := by
  unfold Text.starts stackKey
  exact Option.isSome_iff_exists.2 ⟨name.toList, Chars.after?_eq_some_iff.2 String.toList_append⟩

/-- The stack that is brought up is the one whose networks are made. -/
theorem up_managed (h : up r u = (o, v)) (hs : r.state.Managed) (hkept : r.state.TrackedByIds)
    (hspares : r.state.Spares u v) : (r.state.apply o.delta).Managed := by
  cases hplan : plan? r with
  | none =>
    obtain ⟨-, hdelta, -⟩ := up_stops hplan h
    rw [hdelta]
    exact hs
  | some plan =>
    rw [up_eq_carryOut hplan] at h
    have hchecked := checked_of_plan? hplan
    obtain ⟨p, u1, q, hp, rfl, htries, -⟩ := hchecked.carryOut_tries h hkept hspares
    have hdeclares := Progress.addDeclared_declares hp
    obtain ⟨-, hplaced⟩ := Service.startOrder_spec hchecked.names hchecked.order
    constructor
    · intro stack hstack
      rw [stack?_apply_upOutcome, Option.some.injEq] at hstack
      rw [← hstack]
      exact ⟨rfl, hplaced.nodup⟩
    · intro key hkey
      rw [stack?_apply_upOutcome]
      rw [apply_upOutcome] at hkey
      refine ⟨rfl, ?_⟩
      obtain ⟨n, hn⟩ := Table.contains_iff.1 hkey
      cases hpkey : p.networks.get? key with
      | none =>
        rw [htries.adds.networks.none hpkey] at hn
        cases hn
      | some n' =>
        cases hskey : r.state.networks.get? key with
        | none => exact (hdeclares.declared hskey hpkey).1
        | some n'' => exact (hs.networks (Table.contains_iff.2 ⟨n'', hskey⟩)).2

/-- Where a stack is taken down, there is none, and there are no networks. -/
theorem down_forgets (h : down r u = (o, v)) (hs : r.state.Managed) :
    (r.state.apply o.delta).stack? = none ∧ (r.state.apply o.delta).networks = ∅ := by
  rcases down_cases h with ⟨hstack, -, lines, rfl⟩ | ⟨stack, t, lines, hstack, -, rfl⟩
  · exact ⟨hstack, hs.networks_eq_empty hstack⟩
  · obtain ⟨hname, -⟩ := hs.stack hstack
    simp only [State.apply, State.stack?, getD_changedFrom, Option.getD_some, Table.get?_erase,
      hname, if_true, true_and]
    refine Table.ext_get? fun key => ?_
    rw [Table.get?_filter, Table.get?_empty, Option.filter_eq_none_iff]
    intro n hn
    obtain ⟨-, name, rfl⟩ := hs.networks (Table.contains_iff.2 ⟨n, hn⟩)
    unfold ownsNetwork
    rw [hname, starts_stackKey]
    decide

end Stack

/-! ## Reached states -/

/-- What a line changes keeps a state managed. -/
theorem evaluate_managed (h : evaluate r u = (o, v)) (hs : r.state.Managed)
    (hkept : r.state.TrackedByIds) (hspares : r.state.Spares u v) :
    (r.state.apply o.delta).Managed := by
  rcases evaluate_cases h with ⟨-, hp, -⟩ | ⟨sub, -, hrun⟩
  · exact hp.silent.elsewhere.kept.managed hs
  · by_cases hup : sub = "compose up"
    · subst hup
      exact up_managed (r := r.normalized) hrun hs hkept hspares
    · by_cases hdown : sub = "compose down"
      · subst hdown
        obtain ⟨hnone, hempty⟩ := down_forgets (r := r.normalized) hrun hs
        exact .of_none hnone hempty
      · exact (runSubcommand_stackKept hup hdown hrun).managed hs

variable {a : Submission}

/-- A request only has a pending command in its state. -/
theorem State.Managed.request (hs : s.Managed) (a : Submission) : (a.request s).state.Managed :=
  ⟨hs.stack, hs.networks⟩

/-- A submitted line keeps a state managed. -/
theorem Submission.managed (h : a.run s u = ((t, o), v)) (hv : v.drawn < idLimit)
    (hordered : Ordered s u) (hs : s.Managed) : t.Managed := by
  obtain ⟨he, ht⟩ := a.run_eq_iff.1 h
  have hspares := hordered.spares hv
  have happlied := evaluate_managed he (hs.request a) hordered.trackedByIds
    ⟨hspares.unused, hspares.few⟩
  rw [ht]
  exact State.StackKept.managed (s := (a.request s).state.apply o.delta)
    ⟨rfl, fun _ hkey => hkey⟩ happlied

theorem Reached.managed (h : Reached s u) (hu : u.drawn < idLimit) : s.Managed := by
  obtain ⟨as, os, h⟩ := h
  have kept := State.submitAll_keeps
    (P := fun s u => u.drawn < idLimit → Ordered s u ∧ s.Managed) ?_ h
    (fun _ => ⟨ordered_empty _, fun _ hstack => (nomatch hstack), fun _ hkey => (nomatch hkey)⟩)
  · exact (kept hu).2
  intro a s t o u v hr hs hv
  have hle := (a.leads_anyway hr).moves.supply_le.drawn
  obtain ⟨hordered, hmanaged⟩ := hs (Nat.lt_of_le_of_lt hle hv)
  exact ⟨a.ordered hr hv hordered, a.managed hr hv hordered hmanaged⟩

end DockerSim
