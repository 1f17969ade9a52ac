import DockerSim.Proofs.Moves.Agree

/-!
# Moves and the index of bound ports

An index is exact when it lists the ports of the running containers and nothing else. Moves keep an
exact index exact: a container that is not running holds no port then, so `drop` has none to
release.

A state that was read from a file may have an index that is not exact, because a container that is
not running may hold ports in it. What moves make of such an index is told from the scene they start
in (`Scene.Traces`): a port that is not held by a running container was held in that scene already,
without running, and the holder is removed only by a `drop`. Where drops are made, such ports stay
held (`Moves.heldIdle`).
-/

namespace DockerSim

open Command

/-- A running container with the id publishes the port. -/
def Holds (containers : Table Container) (port id : String) : Prop :=
  ∃ c, containers.get? id = some c ∧ c.isRunning = true ∧ c.Publishes port

/-- **The index lists the ports of the running containers, and nothing else.** -/
def ExactIndex (containers : Table Container) (bound : Table String) : Prop :=
  ∀ port id, bound.get? port = some id ↔ Holds containers port id

theorem holds_insert {containers : Table Container} {c : Container} {port id : String} :
    Holds (containers.insert c.id c) port id ↔
      c.id = id ∧ c.isRunning = true ∧ c.Publishes port ∨ c.id ≠ id ∧ Holds containers port id := by
  unfold Holds
  rw [Table.get?_insert]
  by_cases h : id = c.id
  · simp [h]
  · simp [h, Ne.symm h]

theorem Holds.unique {containers : Table Container} {c : Container} {port id : String}
    (h : Holds containers port id) (hc : containers.get? id = some c) :
    c.isRunning = true ∧ c.Publishes port := by
  obtain ⟨d, hd, hr, hp⟩ := h
  rw [hc] at hd
  cases hd
  exact ⟨hr, hp⟩

namespace ExactIndex

variable {containers : Table Container} {bound : Table String} {c : Container}

/-- A running container takes ports that no other one holds. -/
theorem bind (h : ExactIndex containers bound) (hr : c.isRunning = true)
    (hfree : ∀ ⦃port id⦄, c.Publishes port → bound.get? port = some id → id = c.id)
    (hnot : ∀ port, bound.get? port ≠ some c.id) :
    ExactIndex (containers.insert c.id c) (bindPorts bound c.ports c.id) := by
  intro port id
  rw [bindPorts_eq_some, holds_insert, ← h port id]
  constructor
  · rintro (⟨hp, rfl⟩ | ⟨hp, hb⟩)
    · exact .inl ⟨rfl, hr, hp⟩
    · refine .inr ⟨?_, hb⟩
      rintro rfl
      exact hnot port hb
  · rintro (⟨rfl, -, hp⟩ | ⟨hne, hb⟩)
    · exact .inl ⟨hp, rfl⟩
    · refine .inr ⟨?_, hb⟩
      intro hp
      exact hne (hfree hp hb).symm

/-- A container that is not running any more leaves its ports. -/
theorem release (h : ExactIndex containers bound) {d : Container}
    (hc : containers.get? c.id = some c) (hd : d.id = c.id) (hr : d.isRunning = false) :
    ExactIndex (containers.insert d.id d) (releasePorts bound c) := by
  intro port id
  rw [releasePorts_eq_some, holds_insert, hd, hr, h port id]
  constructor
  · rintro ⟨hh, hne⟩
    refine .inr ⟨?_, hh⟩
    rintro rfl
    exact hne ⟨rfl, (hh.unique hc).2⟩
  · rintro (⟨-, hf, -⟩ | ⟨hne, hh⟩)
    · cases hf
    · exact ⟨hh, fun hx => hne hx.1⟩

/-- A container that is not running holds no port. -/
theorem not_held (h : ExactIndex containers bound) (hc : containers.get? c.id = some c)
    (hr : c.isRunning = false) (port : String) : bound.get? port ≠ some c.id := by
  intro hb
  have := (((h port c.id).1 hb).unique hc).1
  rw [hr] at this
  cases this

/-- A container that is not running may be changed into another that is not. -/
theorem change (h : ExactIndex containers bound) {d : Container}
    (hc : containers.get? c.id = some c) (hr : c.isRunning = false) (hd : d.id = c.id)
    (hdr : d.isRunning = false) : ExactIndex (containers.insert d.id d) bound := by
  intro port id
  rw [holds_insert, hd, hdr, h port id]
  constructor
  · intro hh
    refine .inr ⟨?_, hh⟩
    rintro rfl
    exact h.not_held hc hr port ((h _ _).2 hh)
  · rintro (⟨-, hf, -⟩ | ⟨-, hh⟩)
    · cases hf
    · exact hh

end ExactIndex

variable {terms : Terms} {x y z : Scene} {limit : Nat}

/-- **A move keeps an exact index exact.** -/
theorem Move.exact (h : Move terms x y) (ha : x.Agrees limit) (hy : y.supply.drawn ≤ limit)
    (hx : ExactIndex x.containers x.boundPorts) : ExactIndex y.containers y.boundPorts := by
  cases h with
  | pass _ _ => exact hx
  | image _ _ _ => exact hx
  | create _ _ claimed made _ told =>
    have hfresh := ha.fresh made.id (Nat.le_trans told.le.drawn hy)
    refine hx.bind (by simp [Container.isRunning, made.status]) ?_ ?_
    · rintro port id ⟨p, hp, rfl⟩ hb
      rw [claimed.free p hp] at hb
      cases hb
    · intro port hb
      obtain ⟨d, hd, -⟩ := (hx port _).1 hb
      rw [hfresh] at hd
      cases hd
  | @stop _ c _ _ _ _ _ found _ _ _ =>
    rw [← ha.containers found] at found
    exact hx.release (d := c.stopped _) found rfl rfl
  | @start _ c _ _ _ _ _ _ _ found _ idle unheld _ _ _ =>
    rw [← ha.containers found] at found
    refine hx.bind (c := c.started _ _) rfl ?_ (hx.not_held (c := c) found idle)
    exact fun port id hp hb => portConflict_eq_none unheld hp hb
  | @remove _ c _ _ _ _ _ _ _ found _ _ _ _ =>
    rw [← ha.containers found] at found
    exact hx.release (d := c.removed _) found rfl rfl
  | @drop _ c _ _ _ found _ idle _ =>
    rw [← ha.containers found] at found
    exact hx.change (d := c.removed none) found idle rfl rfl

theorem Moves.exact (h : Moves terms x y) (ha : x.Agrees limit) (hy : y.supply.drawn ≤ limit)
    (hl : limit ≤ x.supply.drawn + idLimit) (hx : ExactIndex x.containers x.boundPorts) :
    ExactIndex y.containers y.boundPorts := by
  induction h with
  | refl => exact hx
  | tail hm h ih =>
    have hle := h.supply_le.drawn
    exact h.exact (Moves.agrees hm ha hl) hy (ih (by omega))

/-! ## Ports of containers that are not running -/

/-- A container that is not running holds the port. -/
def Scene.HeldIdle (x : Scene) (port id : String) : Prop :=
  x.boundPorts.get? port = some id ∧ ∃ c, x.containers.get? id = some c ∧ c.isRunning = false

/-- Every port is held by a container that publishes it, and that is running or has held the port
from the first scene on without running. Such a one is removed only where drops are made. -/
def Scene.Traces (drops : Prop) (x y : Scene) : Prop :=
  ∀ ⦃port id⦄, y.boundPorts.get? port = some id → ∃ c, y.containers.get? id = some c ∧
    c.Publishes port ∧
      (c.isRunning = true ∨ (c.isActive = true ∨ drops) ∧ x.HeldIdle port id)

/-- A container that leaves its ports leaves the traces of the others. -/
theorem Scene.Traces.release {c d : Container} (h : x.Traces terms.drops y)
    (hc : y.containers.get? c.id = some c) (hd : d.id = c.id) {port id : String}
    (hb : (releasePorts y.boundPorts c).get? port = some id) :
    ∃ e, (y.containers.insert d.id d).get? id = some e ∧ e.Publishes port ∧
      (e.isRunning = true ∨ (e.isActive = true ∨ terms.drops) ∧ x.HeldIdle port id) := by
  obtain ⟨hb, hne⟩ := releasePorts_eq_some.1 hb
  obtain ⟨e, he, hp, hr⟩ := h hb
  have hid : id ≠ d.id := by
    rintro rfl
    rw [hd, hc] at he
    cases he
    exact hne ⟨hd.symm, hp⟩
  rw [Table.get?_insert_of_ne _ _ hid]
  exact ⟨e, he, hp, hr⟩

/-- **A move leaves traces of every port.** -/
theorem Move.traces (h : Move terms y z) (ha : y.Agrees limit) (hz : z.supply.drawn ≤ limit)
    (hy : x.Traces terms.drops y) : x.Traces terms.drops z := by
  cases h with
  | pass _ _ => exact hy
  | image _ _ _ => exact hy
  | @create c _ _ _ _ _ _ _ made _ told =>
    intro port id hb
    have hfresh := ha.fresh made.id (Nat.le_trans told.le.drawn hz)
    rcases bindPorts_eq_some.1 hb with ⟨hp, rfl⟩ | ⟨-, hb⟩
    · exact ⟨c, Table.get?_insert_self _ _ _, hp,
        .inl (by simp [Container.isRunning, made.status])⟩
    · obtain ⟨d, hd, hr⟩ := hy hb
      have hne : id ≠ c.id := by
        rintro rfl
        rw [hfresh] at hd
        cases hd
      exact ⟨d, by rwa [Table.get?_insert_of_ne _ _ hne], hr⟩
  | @stop _ c _ _ _ _ _ found _ _ _ =>
    rw [← ha.containers found] at found
    exact fun port id hb => hy.release (d := c.stopped _) found rfl hb
  | @start _ c t output _ _ _ _ _ found _ _ _ _ _ _ =>
    rw [← ha.containers found] at found
    intro port id hb
    rcases bindPorts_eq_some.1 hb with ⟨hp, rfl⟩ | ⟨hp, hb⟩
    · exact ⟨c.started t output, Table.get?_insert_self _ _ _, hp, .inl rfl⟩
    · obtain ⟨d, hd, hdp, hr⟩ := hy hb
      have hne : id ≠ c.id := by
        rintro rfl
        rw [found] at hd
        cases hd
        exact hp hdp
      exact ⟨d, by rwa [Table.get?_insert_of_ne _ _ hne], hdp, hr⟩
  | @remove _ c _ _ _ _ _ _ _ found _ _ _ _ =>
    rw [← ha.containers found] at found
    exact fun port id hb => hy.release (d := c.removed _) found rfl hb
  | @drop _ c _ _ allowed found _ idle _ =>
    rw [← ha.containers found] at found
    intro port id hb
    obtain ⟨d, hd, hdp, hr⟩ := hy hb
    by_cases hid : id = c.id
    · subst hid
      rw [found] at hd
      cases hd
      rcases hr with hr | ⟨-, hh⟩
      · rw [idle] at hr
        cases hr
      · exact ⟨c.removed none, Table.get?_insert_self _ _ _, hdp, .inr ⟨.inr allowed, hh⟩⟩
    · exact ⟨d, by rwa [Table.get?_insert_of_ne _ _ hid], hdp, hr⟩

theorem Moves.traces (h : Moves terms x y) (ha : x.Agrees limit) (hy : y.supply.drawn ≤ limit)
    (hl : limit ≤ x.supply.drawn + idLimit) (hx : x.Traces terms.drops x) :
    x.Traces terms.drops y := by
  induction h with
  | refl => exact hx
  | tail hm h ih =>
    have hle := h.supply_le.drawn
    exact h.traces (Moves.agrees hm ha hl) hy (ih (by omega))

/-- Where drops are made, a container that is not running keeps the ports it holds. -/
theorem Move.heldIdle (h : Move terms x y) (hd : terms.drops) (ha : x.Agrees limit)
    (hy : y.supply.drawn ≤ limit) {port id : String} (hx : x.HeldIdle port id) :
    y.HeldIdle port id := by
  obtain ⟨hb, d, hdc, hr⟩ := hx
  have other : ∀ {c : Container} {key : String}, x.containers.get? key = some c →
      c.isRunning = true → id ≠ c.id := by
    intro c key hc hcr he
    rw [ha.containers hc] at he
    rw [he, hc] at hdc
    cases hdc
    rw [hr] at hcr
    cases hcr
  cases h with
  | pass _ _ => exact ⟨hb, d, hdc, hr⟩
  | image _ _ _ => exact ⟨hb, d, hdc, hr⟩
  | @create c _ _ _ _ _ _ claimed made _ told =>
    have hfresh := ha.fresh made.id (Nat.le_trans told.le.drawn hy)
    have hne : id ≠ c.id := by
      rintro rfl
      rw [hfresh] at hdc
      cases hdc
    refine ⟨bindPorts_eq_some.2 (.inr ⟨?_, hb⟩), d, ?_, hr⟩
    · rintro ⟨p, hp, rfl⟩
      rw [claimed.free p hp] at hb
      cases hb
    · rwa [Table.get?_insert_of_ne _ _ hne]
  | @stop _ c _ _ _ _ _ found running _ _ =>
    have hne := other found running
    refine ⟨releasePorts_eq_some.2 ⟨hb, fun hx => hne hx.1.symm⟩, d, ?_, hr⟩
    exact (Table.get?_insert_of_ne _ _ hne).trans hdc
  | start not _ _ _ _ _ _ _ => exact absurd hd not
  | @remove _ c _ _ _ _ _ _ running found _ _ _ _ =>
    have hne := other found (running hd)
    refine ⟨releasePorts_eq_some.2 ⟨hb, fun hx => hne hx.1.symm⟩, d, ?_, hr⟩
    exact (Table.get?_insert_of_ne _ _ hne).trans hdc
  | @drop _ c _ _ _ found _ _ _ =>
    by_cases hid : id = c.id
    · exact ⟨hb, c.removed none, by rw [hid]; exact Table.get?_insert_self _ _ _, rfl⟩
    · exact ⟨hb, d, (Table.get?_insert_of_ne _ _ hid).trans hdc, hr⟩

theorem Moves.heldIdle (h : Moves terms x y) (hd : terms.drops) (ha : x.Agrees limit)
    (hy : y.supply.drawn ≤ limit) (hl : limit ≤ x.supply.drawn + idLimit) {port id : String}
    (hx : x.HeldIdle port id) : y.HeldIdle port id := by
  induction h with
  | refl => exact hx
  | tail hm h ih =>
    have hle := h.supply_le.drawn
    exact h.heldIdle hd (Moves.agrees hm ha hl) hy (ih (by omega))

end DockerSim
