import DockerSim.Stack.Up
import DockerSim.Table.Lemmas

/-!
# The index of bound ports

What binding and releasing the ports of a container does to the index, and what it means that ports
were claimed: they are free, on different ports of the host, and in the range of ports.
-/

namespace DockerSim

open Command Stack

/-- The container publishes the port of the host that has a key in the index. -/
def Container.Publishes (c : Container) (key : String) : Prop := ∃ p ∈ c.ports, p.hostKey = key

/-- The ports may be bound together. -/
structure Claimed (bound : Table String) (ports : List PortMapping) : Prop where
  free : ∀ p ∈ ports, bound.get? p.hostKey = none
  distinct : ports.Pairwise fun p q => p.host ≠ q.host
  inRange : ∀ p ∈ ports, p.host < portBound ∧ p.container < portBound

/-! ## Claiming -/

theorem unsigned?_lt {bound n : Nat} {s : String} (h : Text.unsigned? bound s = some n) :
    n < bound := by
  unfold Text.unsigned? Chars.unsigned? at h
  simpa using (Option.filter_eq_some_iff.1 h).2

theorem ofText?_inRange {spec : String} {p : PortMapping} (h : PortMapping.ofText? spec = some p) :
    p.host < portBound ∧ p.container < portBound := by
  unfold PortMapping.ofText? at h
  obtain ⟨⟨ports, protocol⟩, _, h⟩ := Option.bind_eq_some_iff.1 h
  have hread : ∀ {host container : String}, (do
      let host ← Text.unsigned? portBound host
      let container ← Text.unsigned? portBound container
      some { host, container, protocol }) = some p →
      p.host < portBound ∧ p.container < portBound := by
    intro host container h
    simp only [Option.bind_eq_bind, Option.bind_eq_some_iff, Option.some.injEq] at h
    obtain ⟨_, hh, _, hc, rfl⟩ := h
    exact ⟨unsigned?_lt hh, unsigned?_lt hc⟩
  dsimp only at h
  split at h
  · exact hread h
  · exact hread h
  · cases h

namespace Claimed

variable {bound : Table String} {claimed ports : List PortMapping}

theorem nil : Claimed bound [] := ⟨by simp, .nil, by simp⟩

/-- A mapping that passes the test for taken ports is claimed with those before it. -/
theorem snoc {spec : String} {p : PortMapping} (h : Claimed bound claimed)
    (hp : PortMapping.ofText? spec = some p)
    (ht : ¬(bound.contains p.hostKey || claimed.any fun q => q.host = p.host) = true) :
    Claimed bound (claimed ++ [p]) := by
  simp only [Table.contains, Bool.or_eq_true, Option.isSome_iff_ne_none, ne_eq, not_or,
    Decidable.not_not, List.any_eq_true, decide_eq_true_eq, not_exists, not_and] at ht
  obtain ⟨hfree, hother⟩ := ht
  refine ⟨?_, ?_, ?_⟩
  · intro q hq
    rcases List.mem_append.1 hq with hq | hq
    · exact h.free q hq
    · rw [List.mem_singleton.1 hq]
      exact hfree
  · refine List.pairwise_append.2 ⟨h.distinct, List.pairwise_singleton _ _, ?_⟩
    intro q hq q' hq'
    rw [List.mem_singleton.1 hq']
    exact hother q hq
  · intro q hq
    rcases List.mem_append.1 hq with hq | hq
    · exact h.inRange q hq
    · rw [List.mem_singleton.1 hq]
      exact ofText?_inRange hp

/-- A mapping that is claimed behind others passes the test for taken ports. -/
theorem not_taken {p : PortMapping} {rest : List PortMapping}
    (h : Claimed bound (claimed ++ p :: rest)) :
    ¬(bound.contains p.hostKey || claimed.any fun q => q.host = p.host) = true := by
  have hfree := h.free p (List.mem_append_right _ List.mem_cons_self)
  have hother := (List.pairwise_append.1 h.distinct).2.2
  simp only [Table.contains, hfree, Option.isSome_none, Bool.false_or, List.any_eq_true,
    decide_eq_true_eq, not_exists, not_and]
  exact fun q hq => hother q hq p List.mem_cons_self

/-- **Ports are claimed exactly when all specifications are read** and the mappings may be bound
together with those claimed before. -/
theorem claimPorts_eq_ok_iff : ∀ {specs : List String} {claimed : List PortMapping},
    Claimed bound claimed → (claimPorts bound claimed specs = .ok ports ↔
      ∃ new, specs.map PortMapping.ofText? = new.map some ∧ ports = claimed ++ new ∧
        Claimed bound ports)
  | [], claimed, h => by
    constructor
    · intro hc
      cases hc
      exact ⟨[], rfl, (List.append_nil _).symm, h⟩
    · rintro ⟨new, hread, rfl, -⟩
      obtain rfl : new = [] := by simpa using hread
      rw [List.append_nil, claimPorts]
  | spec :: specs, claimed, h => by
    unfold claimPorts
    constructor
    · intro hc
      split at hc
      · cases hc
      · next p hp =>
        split at hc
        · cases hc
        · next ht =>
          obtain ⟨new, hread, rfl, hclaimed⟩ := (claimPorts_eq_ok_iff (h.snoc hp ht)).1 hc
          exact ⟨p :: new, by simp [hp, hread], by simp, hclaimed⟩
    · rintro ⟨new, hread, hports, hclaimed⟩
      cases new with
      | nil => simp at hread
      | cons p new =>
        rw [List.map_cons, List.map_cons, List.cons.injEq] at hread
        have ht := (hports ▸ hclaimed).not_taken
        simp only [hread.1, if_neg ht]
        exact (claimPorts_eq_ok_iff (h.snoc hread.1 ht)).2
          ⟨new, hread.2, by simp [hports], hclaimed⟩

theorem of_claimPorts {specs : List String} (h : claimPorts bound [] specs = .ok ports) :
    Claimed bound ports := by
  obtain ⟨-, -, -, hclaimed⟩ := (claimPorts_eq_ok_iff .nil).1 h
  exact hclaimed

theorem of_claimServicePorts : ∀ {specs : List String} {claimed : List PortMapping},
    Claimed bound claimed → claimServicePorts bound claimed specs = .ok ports →
      Claimed bound ports
  | [], claimed, h, hc => by
    cases hc
    exact h
  | spec :: specs, claimed, h, hc => by
    unfold claimServicePorts at hc
    split at hc
    · exact of_claimServicePorts h hc
    · next p hp =>
      split at hc
      · cases hc
      · next ht => exact of_claimServicePorts (h.snoc hp ht) hc

end Claimed

/-! ## Binding and releasing -/

theorem exists_mem_cons_hostKey {p : PortMapping} {ports : List PortMapping} {k : String} :
    (∃ q ∈ p :: ports, q.hostKey = k) ↔ p.hostKey = k ∨ ∃ q ∈ ports, q.hostKey = k := by
  simp

theorem get?_bindPorts {owner k id : String} : ∀ {ports : List PortMapping} {bound : Table String},
    (bindPorts bound ports owner).get? k = some id ↔
      (∃ p ∈ ports, p.hostKey = k) ∧ owner = id ∨
        ¬(∃ p ∈ ports, p.hostKey = k) ∧ bound.get? k = some id
  | [], bound => by simp [bindPorts]
  | p :: ports, bound => by
    show (bindPorts (bound.insert p.hostKey owner) ports owner).get? k = some id ↔ _
    rw [get?_bindPorts, Table.get?_insert, exists_mem_cons_hostKey]
    by_cases hp : ∃ q ∈ ports, q.hostKey = k
    · simp [hp]
    · by_cases hk : p.hostKey = k
      · simp [hp, hk]
      · simp [hp, hk, Ne.symm hk]

theorem bindPorts_eq_some {c : Container} {bound : Table String} {k id : String} :
    (bindPorts bound c.ports c.id).get? k = some id ↔
      c.Publishes k ∧ c.id = id ∨ ¬c.Publishes k ∧ bound.get? k = some id :=
  get?_bindPorts

theorem get?_releaseFold {owner k id : String} :
    ∀ {ports : List PortMapping} {bound : Table String},
      (ports.foldl (fun t p => if t.get? p.hostKey = some owner then t.erase p.hostKey else t)
        bound).get? k = some id ↔
      bound.get? k = some id ∧ ¬(owner = id ∧ ∃ p ∈ ports, p.hostKey = k)
  | [], bound => by simp
  | p :: ports, bound => by
    rw [List.foldl_cons, get?_releaseFold, exists_mem_cons_hostKey]
    by_cases hk : p.hostKey = k
    · subst hk
      by_cases ho : bound.get? p.hostKey = some owner
      · simp [ho, Table.get?_erase]
      · have hne : bound.get? p.hostKey = some id → owner ≠ id := fun h e => ho (e ▸ h)
        simp only [if_neg ho, true_or, and_true]
        exact ⟨fun h => ⟨h.1, hne h.1⟩, fun h => ⟨h.1, fun h' => h.2 h'.1⟩⟩
    · by_cases ho : bound.get? p.hostKey = some owner
      · simp [ho, Table.get?_erase, hk, Ne.symm hk]
      · simp [ho, hk]

theorem releasePorts_eq_some {c : Container} {bound : Table String} {k id : String} :
    (releasePorts bound c).get? k = some id ↔
      bound.get? k = some id ∧ ¬(c.id = id ∧ c.Publishes k) :=
  get?_releaseFold

/-- A container whose ports are not held by another one holds them or they are free. -/
theorem portConflict_eq_none {c : Container} {bound : Table String}
    (h : portConflict bound c = none) {k id : String} (hp : c.Publishes k)
    (hk : bound.get? k = some id) : id = c.id := by
  obtain ⟨p, hp, rfl⟩ := hp
  have := List.find?_eq_none.1 h p hp
  simpa [hk] using this

end DockerSim
