import DockerSim.Engine.Validity
import DockerSim.Proofs.Ports

/-!
# Valid states

What the check of a state accepts, clause by clause. The check looks for the first fault in the
entries of the tables; a state is valid when lookups in the tables agree with each other.
-/

namespace DockerSim

/-- No two active containers share a name. -/
def NamesApart (containers : Table Container) : Prop :=
  ∀ ⦃k k' c c'⦄, containers.get? k = some c → containers.get? k' = some c' →
    c.isActive = true → c'.isActive = true → c.name = c'.name → k = k'

/-- **What it means that a state is valid.** -/
structure State.Valid (s : State) : Prop where
  images : ∀ ⦃key i⦄, s.images.get? key = some i → i.key = key
  containers : ∀ ⦃key c⦄, s.containers.get? key = some c → c.id = key
  names : NamesApart s.containers
  ports : ∀ ⦃port owner⦄, s.boundPorts.get? port = some owner →
    ∃ c, s.containers.get? owner = some c ∧ c.isActive = true ∧ c.Publishes port
  tracked : ∀ ⦃name stack⦄, s.composeStacks.get? name = some stack →
    ∀ ⦃service id⦄, stack.containerIds.get? service = some id → s.containers.contains id = true

/-! ## The parts of the check -/

/-- A search through the entries of a table that finds nothing. -/
theorem Table.find?_entries_eq_none_iff {α : Type} {t : Table α} {p : String × α → Bool} :
    t.entries.find? p = none ↔ ∀ ⦃k a⦄, t.get? k = some a → p (k, a) = false := by
  simp only [List.find?_eq_none, Bool.not_eq_true, Prod.forall, Table.get?_eq_some_iff]

theorem Table.mem_values_iff {α : Type} {t : Table α} {a : α} :
    a ∈ t.values ↔ ∃ k, t.get? k = some a := by
  simp only [Table.values, List.mem_map, Prod.exists, exists_eq_right, Table.get?_eq_some_iff]

theorem isNameTaken_iff {containers : Table Container} {name : String} :
    isNameTaken containers name = true ↔
      ∃ key c, containers.get? key = some c ∧ c.isActive = true ∧ c.name = name := by
  simp only [isNameTaken, List.any_eq_true, Table.mem_values_iff, Bool.and_eq_true,
    decide_eq_true_eq]
  exact ⟨fun ⟨c, ⟨key, hc⟩, h⟩ => ⟨key, c, hc, h⟩, fun ⟨key, c, hc, h⟩ => ⟨c, ⟨key, hc⟩, h⟩⟩

/-- No active container has a name that is free. -/
theorem isNameTaken_eq_false_iff {containers : Table Container} {name : String} :
    isNameTaken containers name = false ↔
      ∀ ⦃key c⦄, containers.get? key = some c → c.isActive = true → c.name ≠ name := by
  rw [← Bool.not_eq_true, isNameTaken_iff]
  exact ⟨fun h key c hc ha hn => h ⟨key, c, hc, ha, hn⟩, fun h ⟨key, c, hc, ha, hn⟩ => h hc ha hn⟩

theorem firstRepeated_eq_none_iff :
    ∀ {l seen : List String}, firstRepeated seen l = none ↔ l.Nodup ∧ ∀ x ∈ l, x ∉ seen
  | [], seen => by simp [firstRepeated]
  | x :: l, seen => by
    unfold firstRepeated
    by_cases hx : seen.contains x = true
    · rw [if_pos hx]
      simp only [List.contains_iff_mem] at hx
      simp [hx]
    · rw [if_neg hx, firstRepeated_eq_none_iff]
      simp only [List.contains_iff_mem] at hx
      simp only [List.nodup_cons, List.mem_cons, not_or, forall_eq_or_imp]
      constructor
      · rintro ⟨hl, h⟩
        exact ⟨⟨fun hm => (h x hm).1 rfl, hl⟩, hx, fun y hy => (h y hy).2⟩
      · rintro ⟨⟨hm, hl⟩, -, h⟩
        exact ⟨hl, fun y hy => ⟨fun e => hm (e ▸ hy), h y hy⟩⟩

/-- Of entries with different keys, the active ones have different names if no two share one. -/
theorem nodup_activeNames_iff {l : List (String × Container)} (hl : l.Pairwise (·.1 < ·.1)) :
    (((l.map (·.2)).filter Container.isActive).map Container.name).Nodup ↔
      ∀ ⦃k k' c c'⦄, (k, c) ∈ l → (k', c') ∈ l → c.isActive = true → c'.isActive = true →
        c.name = c'.name → k = k' := by
  simp only [List.Nodup, List.pairwise_map, List.pairwise_filter]
  constructor
  · intro h k k' c c' hc hc' ha ha' hn
    obtain ⟨i, hi, hic⟩ := List.getElem_of_mem hc
    obtain ⟨j, hj, hjc⟩ := List.getElem_of_mem hc'
    rw [List.pairwise_iff_getElem] at h
    rcases Nat.lt_trichotomy i j with hij | rfl | hij
    · have := h i j hi hj hij
      rw [hic, hjc] at this
      exact absurd hn (this ha ha')
    · rw [hic] at hjc
      exact (Prod.mk.inj hjc).1
    · have := h j i hj hi hij
      rw [hic, hjc] at this
      exact absurd hn.symm (this ha' ha)
  · intro h
    refine hl.imp_of_mem ?_
    rintro ⟨k, c⟩ ⟨k', c'⟩ hc hc' hlt ha ha' hn
    exact absurd (h hc hc' ha ha' hn) (Std.ne_of_lt hlt)

theorem State.nameFault_eq_none_iff {s : State} :
    s.nameFault = none ↔ NamesApart s.containers := by
  unfold State.nameFault State.activeContainers NamesApart
  rw [Option.map_eq_none_iff, firstRepeated_eq_none_iff]
  simp only [List.not_mem_nil, not_false_eq_true, implies_true, and_true, Table.values,
    Table.get?_eq_some_iff]
  exact nodup_activeNames_iff s.containers.increasing

theorem State.imageFault_eq_none_iff {s : State} :
    s.imageFault = none ↔ ∀ ⦃key i⦄, s.images.get? key = some i → i.key = key := by
  unfold State.imageFault
  rw [Option.map_eq_none_iff, Table.find?_entries_eq_none_iff]
  simp only [ne_eq, decide_eq_false_iff_not, Decidable.not_not]
  exact ⟨fun h _ _ hk => (h hk).symm, fun h _ _ hk => (h hk).symm⟩

theorem State.containerFault_eq_none_iff {s : State} :
    s.containerFault = none ↔ ∀ ⦃key c⦄, s.containers.get? key = some c → c.id = key := by
  unfold State.containerFault
  rw [Option.map_eq_none_iff, Table.find?_entries_eq_none_iff]
  simp only [ne_eq, decide_eq_false_iff_not, Decidable.not_not]
  exact ⟨fun h _ _ hk => (h hk).symm, fun h _ _ hk => (h hk).symm⟩

theorem State.holdsPort_iff {containers : Table Container} {port owner : String} :
    State.holdsPort containers port owner = true ↔
      ∃ c, containers.get? owner = some c ∧ c.isActive = true ∧ c.Publishes port := by
  unfold State.holdsPort Container.Publishes
  simp [Option.any_eq_true]

theorem State.portFault_eq_none_iff {s : State} :
    s.portFault = none ↔ ∀ ⦃port owner⦄, s.boundPorts.get? port = some owner →
      ∃ c, s.containers.get? owner = some c ∧ c.isActive = true ∧ c.Publishes port := by
  unfold State.portFault
  rw [Option.map_eq_none_iff, Table.find?_entries_eq_none_iff]
  simp only [Bool.not_eq_eq_eq_not, Bool.not_false, State.holdsPort_iff]

theorem State.stackFault_eq_none_iff {s : State} :
    s.stackFault = none ↔ ∀ ⦃name stack⦄, s.composeStacks.get? name = some stack →
      ∀ ⦃service id⦄, stack.containerIds.get? service = some id →
        s.containers.contains id = true := by
  unfold State.stackFault State.lostService
  simp only [List.findSome?_eq_none_iff, Option.map_eq_none_iff,
    Table.find?_entries_eq_none_iff, Bool.not_eq_eq_eq_not, Bool.not_false, Table.mem_values_iff]
  exact ⟨fun h name stack hs => h stack ⟨name, hs⟩, fun h stack ⟨name, hs⟩ => h hs⟩

/-- **The check finds no fault in the valid states, and in no others.** -/
theorem State.fault?_eq_none_iff {s : State} : s.fault? = none ↔ s.Valid := by
  unfold State.fault?
  simp only [Option.orElse_eq_orElse, Option.orElse_eq_or, Option.or_eq_none_iff,
    imageFault_eq_none_iff, containerFault_eq_none_iff, nameFault_eq_none_iff,
    portFault_eq_none_iff, stackFault_eq_none_iff]
  constructor
  · rintro ⟨h1, h2, h3, h4, h5⟩
    exact ⟨h1, h2, h3, h4, h5⟩
  · rintro ⟨h1, h2, h3, h4, h5⟩
    exact ⟨h1, h2, h3, h4, h5⟩

end DockerSim
