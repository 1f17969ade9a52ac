import DockerSim.Proofs.Moves.PortIndex
import DockerSim.Proofs.Moves.Submit

/-!
# States that are reached

The states that the engine comes to by itself, from the empty one and by any lines. Their index of
bound ports is exact, and they are valid. The check of a state is not what carries this through a
run: it lets a container that is not running hold a port, which `rm` would leave behind.
-/

namespace DockerSim

open Command

/-- The lines are submitted one after the other. -/
def State.submitAll (s : State) : List Submission → Draw (State × List Outcome)
  | [] => return (s, [])
  | a :: as => do
    let (t, o) ← a.run s
    let (t', os) ← t.submitAll as
    return (t', o :: os)

/-- The state and the supply after some lines, from the empty state and a fresh supply. -/
def Reached (s : State) (u : Supply) : Prop :=
  ∃ as os, State.empty.submitAll as .fresh = ((s, os), u)

variable {s t t' : State} {u v : Supply}

theorem State.submitAll_cons_iff {a : Submission} {as : List Submission} {os : List Outcome} :
    s.submitAll (a :: as) u = ((t, os), v) ↔
      ∃ s' o u' os', a.run s u = ((s', o), u') ∧ s'.submitAll as u' = ((t, os'), v) ∧
        os = o :: os' := by
  simp only [submitAll, Draw.bind_eq_iff, Draw.pure_eq_iff, Prod.exists, Prod.mk.injEq]
  constructor
  · rintro ⟨s', o, u', h, t', os', v', h', ⟨rfl, rfl⟩, rfl⟩
    exact ⟨s', o, u', os', h, h', rfl⟩
  · rintro ⟨s', o, u', os', h, h', rfl⟩
    exact ⟨s', o, u', h, t, os', v, h', ⟨rfl, rfl⟩, rfl⟩

/-- Some lines are submitted, and then others. -/
theorem State.submitAll_append {bs : List Submission} {os' : List Outcome} {w : Supply} :
    ∀ {as : List Submission} {s : State} {os : List Outcome} {u : Supply},
      s.submitAll as u = ((t, os), v) → t.submitAll bs v = ((t', os'), w) →
        s.submitAll (as ++ bs) u = ((t', os ++ os'), w)
  | [], s, os, u, h, h' => by
    obtain ⟨he, rfl⟩ := Draw.pure_eq_iff.1 h
    cases he
    exact h'
  | a :: as, s, os, u, h, h' => by
    obtain ⟨s', o, u', os1, h1, h2, rfl⟩ := State.submitAll_cons_iff.1 h
    exact State.submitAll_cons_iff.2 ⟨s', o, u', os1 ++ os', h1, submitAll_append h2 h', rfl⟩

/-- A line leads from a reached state to one. -/
theorem Reached.run {a : Submission} {o : Outcome} (h : Reached s u)
    (ha : a.run s u = ((t, o), v)) : Reached t v := by
  obtain ⟨as, os, h⟩ := h
  exact ⟨as ++ [a], os ++ [o],
    State.submitAll_append h (State.submitAll_cons_iff.2 ⟨t, o, v, [], ha, rfl, rfl⟩)⟩

theorem reached_submitAll (as : List Submission) :
    Reached (State.empty.submitAll as .fresh).1.1 (State.empty.submitAll as .fresh).2 :=
  ⟨as, _, rfl⟩

/-- **What every line keeps, every run keeps.** -/
theorem State.submitAll_keeps {P : State → Supply → Prop}
    (keeps : ∀ {a : Submission} {s t : State} {o : Outcome} {u v : Supply},
      a.run s u = ((t, o), v) → P s u → P t v) :
    ∀ {as : List Submission} {s : State} {os : List Outcome} {u : Supply},
      s.submitAll as u = ((t, os), v) → P s u → P t v
  | [], s, os, u, h, hp => by
    obtain ⟨he, rfl⟩ := Draw.pure_eq_iff.1 h
    cases he
    exact hp
  | a :: as, s, os, u, h, hp => by
    obtain ⟨s', o, u', os', h1, h2, rfl⟩ := State.submitAll_cons_iff.1 h
    exact submitAll_keeps keeps h2 (keeps h1 hp)

/-- The stacks track containers that exist. -/
def StacksTrack (s : State) : Prop :=
  ∀ ⦃name stack⦄, s.composeStacks.get? name = some stack →
    ∀ ⦃service id⦄, stack.containerIds.get? service = some id → s.containers.contains id = true

theorem Leads.stacksTrack {terms : Terms} (h : Leads terms s u t v) (hs : StacksTrack s) :
    StacksTrack t := by
  intro name stack ht service id hi
  rcases h.follow ht with ho | hn
  · exact h.moves.contains (hs ho hi)
  · rcases hn.2 hi with hc | ⟨old, ho, hoi⟩
    · exact hc
    · exact h.moves.contains (hs ho hoi)

/-! ## The invariant -/

/-- What is true of the states of a run: the tables agree, with ids to spare, the index is exact,
and the stacks track containers that exist. -/
structure Ordered (s : State) (u : Supply) : Prop where
  agrees : (Scene.of s u).Agrees (idLimit - 1)
  index : ExactIndex s.containers s.boundPorts
  tracked : StacksTrack s

theorem ordered_empty (u : Supply) : Ordered .empty u := by
  refine ⟨⟨?_, ?_, ?_, ?_⟩, ?_, ?_⟩
  · exact fun _ _ h => nomatch h
  · exact fun _ _ h => nomatch h
  · exact fun _ _ _ _ h => nomatch h
  · exact fun _ _ _ => rfl
  · intro port id
    constructor
    · exact fun h => nomatch h
    · rintro ⟨_, h, -⟩
      cases h
  · exact fun _ _ h => nomatch h

theorem Submission.ordered {a : Submission} {o : Outcome} (h : a.run s u = ((t, o), v))
    (hv : v.drawn < idLimit) (hs : Ordered s u) : Ordered t v := by
  have hl := a.leads_anyway h
  have hlimit : idLimit - 1 ≤ (Scene.of s u).supply.drawn + idLimit := by omega
  exact ⟨hl.moves.agrees hs.agrees hlimit,
    hl.moves.exact hs.agrees (Nat.le_sub_one_of_lt hv) hlimit hs.index, hl.stacksTrack hs.tracked⟩

theorem Ordered.valid (h : Ordered s u) : s.Valid := by
  refine ⟨h.agrees.images, h.agrees.containers, h.agrees.names, ?_, h.tracked⟩
  intro port owner hb
  obtain ⟨c, hc, hr, hp⟩ := (h.index port owner).1 hb
  exact ⟨c, hc, Container.isActive_of_isRunning hr, hp⟩

namespace Reached

theorem ordered (h : Reached s u) (hu : u.drawn < idLimit) : Ordered s u := by
  obtain ⟨as, os, h⟩ := h
  refine State.submitAll_keeps (P := fun s u => u.drawn < idLimit → Ordered s u) ?_ h
    (fun _ => ordered_empty _) hu
  intro a s t o u v hr hp hv
  have hle := (a.leads_anyway hr).moves.supply_le.drawn
  exact a.ordered hr hv (hp (Nat.lt_of_le_of_lt hle hv))

/-- An id that is handed out in a reached state is not the id of a container yet. -/
theorem unused (h : Reached s u) {id : String} (hid : Supply.Hands u id v)
    (hv : v.drawn < idLimit) : s.containers.get? id = none := by
  have hu : u.drawn < idLimit := by
    obtain ⟨n, hn, hle, -⟩ := hid
    omega
  exact (h.ordered hu).agrees.fresh hid (Nat.le_sub_one_of_lt hv)

/-- **The index of bound ports of a reached state is exact.** It lists a port for a container if and
only if the container is running and publishes it. So no two running containers publish a port of
the host, and a container that was stopped or removed holds none. -/
theorem index_exact (h : Reached s u) (hu : u.drawn < idLimit) :
    (∀ port id, s.boundPorts.get? port = some id ↔
      ∃ c, s.containers.get? id = some c ∧ c.status = .running ∧
        ∃ p ∈ c.ports, p.hostKey = port) ∧
    (∀ id id' c c', s.containers.get? id = some c → s.containers.get? id' = some c' →
      c.status = .running → c'.status = .running →
      ∀ p ∈ c.ports, ∀ p' ∈ c'.ports, p.host = p'.host → id = id') ∧
    (∀ port id c, s.containers.get? id = some c → c.status = .stopped ∨ c.status = .removed →
      s.boundPorts.get? port ≠ some id) := by
  have hexact := (h.ordered hu).index
  have hindex : ∀ port id, s.boundPorts.get? port = some id ↔
      ∃ c, s.containers.get? id = some c ∧ c.status = .running ∧
        ∃ p ∈ c.ports, p.hostKey = port := by
    intro port id
    rw [hexact port id]
    simp only [Holds, Container.isRunning, decide_eq_true_eq, Container.Publishes]
  refine ⟨hindex, ?_, ?_⟩
  · intro id id' c c' hc hc' hr hr' p hp p' hp' he
    have hb := (hindex p.hostKey id).2 ⟨c, hc, hr, p, hp, rfl⟩
    have hb' := (hindex p'.hostKey id').2 ⟨c', hc', hr', p', hp', rfl⟩
    have hk : p.hostKey = p'.hostKey := by
      unfold PortMapping.hostKey
      rw [he]
    rw [hk, hb'] at hb
    exact (Option.some.inj hb).symm
  · intro port id c hc hs hb
    obtain ⟨d, hd, hr, -⟩ := (hindex port id).1 hb
    rw [hc] at hd
    cases hd
    rw [hr] at hs
    rcases hs with hs | hs <;> cases hs

/-- An image is pulled, and a container that publishes a port is run, stopped and started again. -/
def webLines : List Submission := [
  .ofLine "docker pull nginx",
  .ofLine "docker run -d -p 8080:80 --name web nginx",
  .ofLine "docker stop web",
  .ofLine "docker start web"]

theorem index_exact_web :
    let r := State.empty.submitAll webLines .fresh
    r.1.1.boundPorts.get? "8080" = some "000000000009" ∧
      ∃ c, r.1.1.containers.get? "000000000009" = some c ∧ c.status = .running ∧
        ∃ p ∈ c.ports, p.hostKey = "8080" := by
  have hb : (State.empty.submitAll webLines .fresh).1.1.boundPorts.get? "8080" =
      some "000000000009" := by decide +kernel
  exact ⟨hb, ((index_exact (reached_submitAll webLines) (by decide +kernel)).1 _ _).1 hb⟩

/-- **Every reached state is valid**, and so the check of states finds no fault in it. -/
theorem accepted (h : Reached s u) (hu : u.drawn < idLimit) :
    s.fault? = none ∧ s.Valid := by
  have hv := (h.ordered hu).valid
  exact ⟨State.fault?_eq_none_iff.2 hv, hv⟩

theorem accepted_web :
    let r := State.empty.submitAll webLines .fresh
    r.2.drawn < idLimit ∧ r.1.1.fault? = none ∧ r.1.1.Valid := by
  have hu : (State.empty.submitAll webLines .fresh).2.drawn < idLimit := by decide +kernel
  exact ⟨hu, accepted (reached_submitAll webLines) hu⟩

end Reached

end DockerSim
