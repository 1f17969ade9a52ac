import DockerSim.Proofs.Reached

/-!
# The history of the records

What a line makes of the records that are there. A container keeps its record: it may be stopped,
started again or removed, and what it prints is added to its log, but everything else about it
stays, and once it was removed nothing changes any more (`Container.Continues`). A container that is
new is running. No image is lost under its name, and no volume at all.

Two things are needed for this beside the moves themselves. The tables agree, so that the record
that a move puts in place is one of the same container, and the id of a new container is not that of
an old one. And no container waits to be started for the first time (`Scene.Begun`).
-/

namespace DockerSim

/-! ## Records that go on -/

/-- What a status may become. -/
inductive Status.Becomes : Status → Status → Prop
  | same (s : Status) : Becomes s s
  | stopped : Becomes .running .stopped
  | killed : Becomes .running .removed
  | restarted : Becomes .stopped .running
  | removed : Becomes .stopped .removed

theorem Status.Becomes.trans {s t r : Status} (h : s.Becomes t) (h' : t.Becomes r) :
    s.Becomes r := by
  cases h with
  | same => exact h'
  | stopped =>
    cases h' with
    | same => exact .stopped
    | restarted => exact .same _
    | removed => exact .killed
  | killed =>
    cases h'
    exact .killed
  | restarted =>
    cases h' with
    | same => exact .restarted
    | stopped => exact .same _
    | killed => exact .removed
  | removed =>
    cases h'
    exact .removed

/-- The second record is a later one of the same container. -/
structure Container.Continues (c d : Container) : Prop where
  id : d.id = c.id
  name : d.name = c.name
  imageId : d.imageId = c.imageId
  ports : d.ports = c.ports
  env : d.env = c.env
  createdAt : d.createdAt = c.createdAt
  networkIds : d.networkIds = c.networkIds
  mounts : d.mounts = c.mounts
  logs : c.logs <+: d.logs
  status : c.status.Becomes d.status
  final : c.status = .removed → d = c

namespace Container

variable {c d e : Container}

theorem Continues.refl (c : Container) : c.Continues c :=
  ⟨rfl, rfl, rfl, rfl, rfl, rfl, rfl, rfl, List.prefix_refl _, .same _, fun _ => rfl⟩

theorem Continues.trans (h : c.Continues d) (h' : d.Continues e) : c.Continues e where
  id := h'.id.trans h.id
  name := h'.name.trans h.name
  imageId := h'.imageId.trans h.imageId
  ports := h'.ports.trans h.ports
  env := h'.env.trans h.env
  createdAt := h'.createdAt.trans h.createdAt
  networkIds := h'.networkIds.trans h.networkIds
  mounts := h'.mounts.trans h.mounts
  logs := h.logs.trans h'.logs
  status := h.status.trans h'.status
  final hc := by
    have hd := h.final hc
    subst hd
    exact h'.final hc

theorem continues_stopped {t : Instant} (h : c.status = .running) : c.Continues (c.stopped t) :=
  ⟨rfl, rfl, rfl, rfl, rfl, rfl, rfl, rfl, List.prefix_refl _, h ▸ .stopped, fun hr => by simp_all⟩

theorem continues_started {t : Instant} {output : List String} (h : c.status = .stopped) :
    c.Continues (c.started t output) :=
  ⟨rfl, rfl, rfl, rfl, rfl, rfl, rfl, rfl, List.prefix_append _ _, h ▸ .restarted,
    fun hr => by simp_all⟩

theorem continues_removed {t : Option Instant} (h : c.status = .running ∨ c.status = .stopped) :
    c.Continues (c.removed t) := by
  refine ⟨rfl, rfl, rfl, rfl, rfl, rfl, rfl, rfl, List.prefix_refl _, ?_, fun hr => by simp_all⟩
  rcases h with h | h
  · exact h ▸ .killed
  · exact h ▸ .removed

end Container

/-! ## Moves -/

variable {terms : Terms} {x y z : Scene} {limit : Nat}

/-- Every container was started at some time. -/
def Scene.Begun (x : Scene) : Prop :=
  ∀ ⦃key c⦄, x.containers.get? key = some c → c.status ≠ .created

theorem Move.begun (h : Move terms x y) (hx : x.Begun) : y.Begun := by
  have put : ∀ {d : Container}, d.status ≠ .created →
      ∀ ⦃key c⦄, (x.containers.insert d.id d).get? key = some c → c.status ≠ .created :=
    fun hd => Table.forall_get?_insert hd hx
  cases h with
  | pass _ _ => exact hx
  | image _ _ _ => exact hx
  | create _ _ _ made _ _ => exact put (by simp [made.status])
  | @stop _ c t _ _ _ _ _ _ _ _ => exact put (d := c.stopped t) Status.noConfusion
  | @start _ c t output _ _ _ _ _ _ _ _ _ _ _ =>
    exact put (d := c.started t output) Status.noConfusion
  | @remove _ c t _ _ _ _ _ _ _ _ _ _ _ => exact put (d := c.removed t) Status.noConfusion
  | @drop _ c _ _ _ _ _ _ _ => exact put (d := c.removed none) Status.noConfusion

theorem Moves.begun (h : Moves terms x y) (hx : x.Begun) : y.Begun := by
  induction h with
  | refl => exact hx
  | tail _ h ih => exact h.begun ih

/-- What a move makes of the containers, each of which was started: nothing, or one that runs is
added, or one goes on. Where containers are created, it goes on running. -/
inductive Growth (terms : Terms) (x y : Scene) : Prop
  | none (same : y.containers = x.containers)
  | added {c : Container} {v : Supply} (creating : terms.creates) (running : c.status = .running)
      (id : Supply.Hands x.supply c.id v) (le : v ≤ y.supply)
      (new : y.containers = x.containers.insert c.id c)
  | changed {key : String} {c d : Container} (found : x.containers.get? key = some c)
      (continues : c.Continues d) (running : terms.creates → d.status = .running)
      (new : y.containers = x.containers.insert d.id d)

theorem Move.growth (h : Move terms x y) (hx : x.Begun) : Growth terms x y := by
  have stopped : ∀ {key : String} {c : Container}, x.containers.get? key = some c →
      c.isActive = true → c.isRunning = false → c.status = .stopped := by
    intro key c hc ha hr
    have hcreated := hx hc
    unfold Container.isActive at ha
    unfold Container.isRunning at hr
    cases hs : c.status <;> simp_all
  cases h with
  | pass _ _ => exact .none rfl
  | image _ _ _ => exact .none rfl
  | create creating _ _ made _ told => exact .added creating made.status made.id told.le rfl
  | stop keeping found running _ _ =>
    exact .changed found (Container.continues_stopped (of_decide_eq_true running))
      (fun hc => absurd hc keeping) rfl
  | start _ found active idle _ _ _ _ =>
    exact .changed found (Container.continues_started (stopped found active idle))
      (fun _ => rfl) rfl
  | @remove _ c _ _ _ _ _ keeping _ found active _ _ _ =>
    refine .changed found (Container.continues_removed ?_) (fun hc => absurd hc keeping) rfl
    cases hr : c.isRunning with
    | true => exact .inl (of_decide_eq_true hr)
    | false => exact .inr (stopped found active hr)
  | drop allowed found active idle _ =>
    exact .changed found (Container.continues_removed (.inr (stopped found active idle)))
      (fun hc => absurd hc (Terms.not_creates allowed (by decide))) rfl

/-- What is there in a scene is there in a later one, and what is new there runs. -/
structure Scene.Keeps (terms : Terms) (x y : Scene) : Prop where
  containers : ∀ ⦃id c⦄, x.containers.get? id = some c →
    ∃ d, y.containers.get? id = some d ∧ c.Continues d
  /-- Where containers are created, they go on running. -/
  running : terms.creates → ∀ ⦃id c d⦄, x.containers.get? id = some c →
    y.containers.get? id = some d → c.status = .running → d.status = .running
  new : ∀ ⦃id d⦄, y.containers.get? id = some d →
    x.containers.contains id = true ∨ terms.creates ∧ d.status = .running
  images : ∀ ⦃key⦄, x.images.contains key = true → y.images.contains key = true

theorem Scene.Keeps.refl (x : Scene) : x.Keeps terms x where
  containers _ c hc := ⟨c, hc, .refl c⟩
  running _ id c d hc hd hr := by
    rw [hc] at hd
    cases hd
    exact hr
  new id d hd := .inl (Table.contains_iff.2 ⟨d, hd⟩)
  images _ hk := hk

theorem Scene.Keeps.trans (h : x.Keeps terms y) (h' : y.Keeps terms z) : x.Keeps terms z where
  containers id c hc := by
    obtain ⟨d, hd, hcd⟩ := h.containers hc
    obtain ⟨e, he, hde⟩ := h'.containers hd
    exact ⟨e, he, hcd.trans hde⟩
  running creating id c e hc he hr := by
    obtain ⟨d, hd, -⟩ := h.containers hc
    exact h'.running creating hd he (h.running creating hc hd hr)
  new id e he := by
    rcases h'.new he with hy | hn
    · obtain ⟨d, hd⟩ := Table.contains_iff.1 hy
      rcases h.new hd with hx | ⟨creating, hr⟩
      · exact .inl hx
      · exact .inr ⟨creating, h'.running creating hd he hr⟩
    · exact .inr hn
  images _ hk := h'.images (h.images hk)

/-- **A move keeps what is there.** The id of a container that it creates is a new one, and the
record that it changes is put back under the id it was found with. -/
theorem Move.keeps (h : Move terms x y) (hb : x.Begun) (ha : x.Agrees limit)
    (hy : y.supply.drawn ≤ limit) : x.Keeps terms y := by
  have himages : ∀ ⦃key⦄, x.images.contains key = true → y.images.contains key = true := by
    intro key hk
    rcases h.images_cases with he | ⟨i, he⟩
    · rwa [he]
    · rw [he]
      exact contains_insert_of_contains hk
  cases h.growth hb with
  | none same =>
    have hrefl : x.Keeps terms x := .refl x
    exact ⟨by rw [same]; exact hrefl.containers, by rw [same]; exact hrefl.running,
      by rw [same]; exact hrefl.new, himages⟩
  | @added c v creating running id le new =>
    have hfresh := ha.fresh id (Nat.le_trans le.drawn hy)
    have old : ∀ {id : String} {d : Container}, x.containers.get? id = some d →
        y.containers.get? id = some d := by
      intro id d hd
      rw [new]
      exact Table.within_insert hfresh c hd
    refine ⟨fun id d hd => ⟨d, old hd, .refl d⟩, ?_, ?_, himages⟩
    · intro _ id d e hd he hr
      rw [old hd] at he
      cases he
      exact hr
    · intro id d hd
      rw [new, Table.get?_insert] at hd
      split at hd
      · cases hd
        exact .inr ⟨creating, running⟩
      · exact .inl (Table.contains_iff.2 ⟨d, hd⟩)
  | @changed key c d found continues running new =>
    have hkey : d.id = key := continues.id.trans (ha.containers found)
    rw [hkey] at new
    refine ⟨?_, ?_, ?_, himages⟩
    · intro id e he
      rw [new, Table.get?_insert]
      split
      · next hid =>
        rw [hid, found] at he
        cases he
        exact ⟨d, rfl, continues⟩
      · exact ⟨e, he, .refl e⟩
    · intro creating id e e' he he' hr
      rw [new, Table.get?_insert] at he'
      split at he'
      · cases he'
        exact running creating
      · rw [he] at he'
        cases he'
        exact hr
    · intro id e he
      left
      rw [new, Table.get?_insert] at he
      split at he
      · next hid => exact Table.contains_iff.2 ⟨c, hid ▸ found⟩
      · exact Table.contains_iff.2 ⟨e, he⟩

theorem Moves.keeps (h : Moves terms x y) (hb : x.Begun) (ha : x.Agrees limit)
    (hy : y.supply.drawn ≤ limit) (hl : limit ≤ x.supply.drawn + idLimit) : x.Keeps terms y := by
  induction h with
  | refl => exact .refl x
  | tail hm h ih =>
    have hle := h.supply_le.drawn
    exact (ih (by omega)).trans (h.keeps (Moves.begun hm hb) (Moves.agrees hm ha hl) hy)

/-! ## Reached states -/

variable {s t : State} {u v : Supply} {a : Submission} {o : Outcome}

theorem Submission.keeps (h : a.run s u = ((t, o), v)) (hv : v.drawn < idLimit) (hs : Ordered s u)
    (hb : (Scene.of s u).Begun) : (Scene.of s u).Keeps (a.terms fun _ => True) (.of t v) :=
  (a.leads_anyway h).moves.keeps hb hs.agrees (Nat.le_sub_one_of_lt hv)
    (by unfold idLimit; omega)

namespace Reached

theorem begun (h : Reached s u) : (Scene.of s u).Begun := by
  obtain ⟨as, os, h⟩ := h
  refine State.submitAll_keeps (P := fun s u => (Scene.of s u).Begun) ?_ h
    (fun _ _ hc => nomatch hc)
  intro a s t o u v hr hb
  exact (a.leads_anyway hr).moves.begun hb

/-- A line that is submitted in a reached state keeps what is there. -/
theorem keeps (h : Reached s u) (ha : a.run s u = ((t, o), v)) (hv : v.drawn < idLimit) :
    (Scene.of s u).Keeps (a.terms fun _ => True) (.of t v) := by
  have hle : u.drawn ≤ v.drawn := (a.leads_anyway ha).moves.supply_le.drawn
  exact a.keeps ha hv (h.ordered (Nat.lt_of_le_of_lt hle hv)) h.begun

/-- **No line takes back what was recorded.** In the state after a line, every container of the
state before it goes on under its id, the ones that are new are running, every image is still found
under its key, and every volume is there as it was. -/
theorem history_kept (h : Reached s u) (ha : a.run s u = ((t, o), v)) (hv : v.drawn < idLimit) :
    (∀ id c, s.containers.get? id = some c →
      ∃ d, t.containers.get? id = some d ∧ c.Continues d) ∧
    (∀ id d, t.containers.get? id = some d → s.containers.get? id = none → d.status = .running) ∧
    (∀ key, s.images.contains key = true → t.images.contains key = true) ∧
    (∀ key volume, s.volumes.get? key = some volume → t.volumes.get? key = some volume) := by
  obtain ⟨hcontainers, -, hnew, himages⟩ := h.keeps ha hv
  refine ⟨fun _ _ hc => hcontainers hc, ?_, fun _ hk => himages hk,
    fun _ _ hw => (a.leads_anyway ha).volumes hw⟩
  intro id d hd hs
  rcases hnew hd with hx | ⟨-, hr⟩
  · obtain ⟨c, hc⟩ := Table.contains_iff.1 hx
    replace hc : s.containers.get? id = some c := hc
    rw [hs] at hc
    cases hc
  · exact hr

/-- A container that runs is removed by force, and its record stays. -/
theorem history_kept_web :
    let r := State.empty.submitAll webLines .fresh
    let r' := Submission.run (.ofLine "docker rm -f web") r.1.1 r.2
    r'.2.drawn < idLimit ∧
      ∃ c d, r.1.1.containers.get? "000000000009" = some c ∧ c.status = .running ∧
        r'.1.1.containers.get? "000000000009" = some d ∧ d.status = .removed ∧ c.Continues d := by
  intro r r'
  have computed : r'.2.drawn < idLimit ∧
      (r.1.1.containers.get? "000000000009").map Container.status = some .running ∧
      (r'.1.1.containers.get? "000000000009").map Container.status = some .removed := by
    decide +kernel
  obtain ⟨hu, before, after⟩ := computed
  have hr' : Submission.run (.ofLine "docker rm -f web") r.1.1 r.2 = r' := rfl
  have hr : State.empty.submitAll webLines .fresh = r := rfl
  clear_value r'
  clear_value r
  have hreached : Reached r.1.1 r.2 := hr ▸ reached_submitAll webLines
  obtain ⟨c, hc, hrunning⟩ := Option.map_eq_some_iff.1 before
  obtain ⟨d, hd, hremoved⟩ := Option.map_eq_some_iff.1 after
  obtain ⟨d', hd', hcd⟩ := (history_kept hreached hr' hu).1 _ _ hc
  rw [hd] at hd'
  cases hd'
  exact ⟨hu, c, d, hc, hrunning, hd, hremoved, hcd⟩

end Reached

end DockerSim
