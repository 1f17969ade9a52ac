import DockerSim.Proofs.Reached

/-!
# One line from any valid state

A state that was read from a file is valid, and no more than that is known of it. One line from it
leads to a valid state again, if no id that is handed out was used before, with one exception: `rm`
of a container that is not running leaves the ports bound that the container holds, although
`compose down` releases them. The exception is the exact condition.
-/

namespace DockerSim

open Command

variable {s t : State} {u v : Supply} {a : Submission} {o : Outcome}

/-- The ids that are handed out between two supplies are different from each other, and none is the
id of a container. -/
structure State.Spares (s : State) (u v : Supply) : Prop where
  unused : ∀ n, u.drawn < n → n ≤ v.drawn → s.containers.get? (Supply.hexText 12 n) = none
  few : v.drawn ≤ u.drawn + idLimit

theorem State.Valid.agrees (h : s.Valid) (hs : s.Spares u v) : (Scene.of s u).Agrees v.drawn :=
  ⟨h.images, h.containers, h.names, fun n => hs.unused n⟩

/-- In a valid state a port is held by a container that runs or does not. -/
theorem State.Valid.traces (h : s.Valid) (drops : Prop) :
    (Scene.of s u).Traces drops (Scene.of s u) := by
  intro port id hb
  obtain ⟨c, hc, ha, hp⟩ := h.ports hb
  refine ⟨c, hc, hp, ?_⟩
  by_cases hr : c.isRunning = true
  · exact .inl hr
  · exact .inr ⟨.inl ha, hb, c, hc, by simpa using hr⟩

/-- The line removes a container that held a port without running. -/
def DropsHolder (a : Submission) (s t : State) : Prop :=
  a.carried? = some "rm" ∧ ∃ port id c c', s.boundPorts.get? port = some id ∧
    s.containers.get? id = some c ∧ c.status ≠ .running ∧
    t.containers.get? id = some c' ∧ c'.status = .removed

/-- **A line makes a valid state faulty if it removes a container that held a port without running,
and in no other case.** -/
theorem Submission.accepted_iff (h : a.run s u = ((t, o), v)) (hs : s.fault? = none)
    (hid : s.Spares u v) : t.fault? = none ↔ ¬DropsHolder a s t := by
  have hvalid := State.fault?_eq_none_iff.1 hs
  have hl := a.leads_anyway h
  have hagrees := hvalid.agrees hid
  have hfinal := hl.moves.agrees hagrees hid.few
  rw [State.fault?_eq_none_iff]
  constructor
  · rintro ht ⟨hrm, port, id, c, c', hb, hc, hr, hc', hr'⟩
    -- the port is still held, and its holder is the removed container
    have hheld : (Scene.of s u).HeldIdle port id :=
      ⟨hb, c, hc, by simpa [Container.isRunning] using hr⟩
    obtain ⟨hb', -⟩ := hl.moves.heldIdle hrm hagrees (Nat.le_refl _) hid.few hheld
    obtain ⟨d, hd, ha, -⟩ := ht.ports hb'
    rw [hc'] at hd
    cases hd
    simp [Container.isActive, hr'] at ha
  · intro hno
    refine ⟨hfinal.images, hfinal.containers, hfinal.names, ?_, hl.stacksTrack hvalid.tracked⟩
    intro port owner hb
    obtain ⟨c', hc', hp, hr⟩ :=
      hl.moves.traces hagrees (Nat.le_refl _) hid.few (hvalid.traces _) hb
    refine ⟨c', hc', ?_, hp⟩
    rcases hr with hr | ⟨ha | hrm, hb0, c, hc, hcr⟩
    · exact Container.isActive_of_isRunning hr
    · exact ha
    · -- a removed holder would be the exception
      by_contra hna
      refine hno ⟨hrm, port, owner, c, c', hb0, hc, ?_, hc', ?_⟩
      · simpa [Container.isRunning] using hcr
      · simpa [Container.isActive] using hna

/-! ## A holder that is not running -/

/-- A state that the check accepts, with a stopped container that still holds its port. -/
def stoppedHolder : State := { State.empty with
  containers := Table.empty.insert "aaaaaaaaaaaa" {
    id := "aaaaaaaaaaaa", name := "web", imageId := "sha256:0", status := .stopped
    ports := [{ host := 8080, container := 80, protocol := .tcp }], env := ∅
    createdAt := ⟨1704067200, 0⟩, startedAt := some ⟨1704067200, 0⟩
    stoppedAt := some ⟨1704067201, 0⟩, logs := [], networkIds := [], mounts := [] }
  boundPorts := Table.empty.insert "8080" "aaaaaaaaaaaa" }

theorem spares_stoppedHolder {v : Supply} (h : v.drawn ≤ 2) :
    stoppedHolder.Spares .fresh v := by
  refine ⟨?_, Nat.le_trans h (by decide)⟩
  intro n h1 h2
  have : n = 1 ∨ n = 2 := by
    have : Supply.fresh.drawn = 0 := rfl
    omega
  rcases this with rfl | rfl <;> decide +kernel

/-- Removing the container leaves a state that the check rejects. -/
theorem rm_stoppedHolder :
    let r := (Submission.ofLine "docker rm web").run stoppedHolder .fresh
    stoppedHolder.fault? = none ∧ stoppedHolder.Spares .fresh r.2 ∧
      r.1.1.fault? = some (.strayPort "8080" "aaaaaaaaaaaa") :=
  ⟨by decide +kernel, spares_stoppedHolder (by decide +kernel), by decide +kernel⟩

/-- Starting it again leaves a state that the check accepts. -/
theorem start_stoppedHolder :
    let r := (Submission.ofLine "docker start web").run stoppedHolder .fresh
    r.1.1.fault? = none ↔ ¬DropsHolder (Submission.ofLine "docker start web") stoppedHolder r.1.1 :=
  Submission.accepted_iff rfl (by decide +kernel) (spares_stoppedHolder (by decide +kernel))

end DockerSim
