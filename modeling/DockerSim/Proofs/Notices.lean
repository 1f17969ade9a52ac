import DockerSim.Proofs.Draws
import DockerSim.Command.Image
import DockerSim.Command.Inspect
import DockerSim.Command.Lifecycle
import DockerSim.Stack.Down
import DockerSim.Stack.Up

/-!
# What events tell

An event is drawn for one of a few reasons. A `Notice` is such a reason with the records it is
about; it fixes the kind and the payload of the event. `Drawn u ns es v` says that the events `es`
were drawn one after the other for the notices `ns`, on the way from the supply `u` to the supply
`v`.
-/

namespace DockerSim

open Command Stack

/-- Why an event is logged. -/
inductive Notice where
  | pullStarted (i : Image)
  | pullComplete (i : Image)
  | buildStep (name : ImageName) (total : Nat)
  | buildComplete (i : Image)
  | buildFailed (name : ImageName) (errors : List Finding)
  | created (c : Container)
  | bound (c : Container)
  | started (c : Container)
  | stopped (c : Container)
  | released (c : Container)
  | removed (c : Container)
  | ran (c : Container) (command : String)
  | serviceStarted (service containerId : String) (image : Image)
  | serviceStopped (service containerId : String)
  | stackFailed (path : String) (errors : List Finding)

namespace Notice

def kind : Notice → EventKind
  | pullStarted _ => .imagePullStarted
  | pullComplete _ => .imagePullComplete
  | buildStep _ _ => .buildStep
  | buildComplete _ => .buildComplete
  | buildFailed _ _ => .buildFailed
  | created _ => .containerCreated
  | bound _ => .portBound
  | started _ => .containerStarted
  | stopped _ => .containerStopped
  | released _ => .portReleased
  | removed _ => .containerRemoved
  | ran _ _ => .execCommandRun
  | serviceStarted _ _ _ => .composeServiceStarted
  | serviceStopped _ _ => .composeServiceStopped
  | stackFailed _ _ => .composeFailed

/-- The payload before its fields are brought into order. -/
def payload : Notice → Json
  | pullStarted i => .obj [("repository", .str i.repository), ("tag", .str i.tag)]
  | pullComplete i | buildComplete i => .obj [("image", i.toJson)]
  | buildStep name total => .obj [("tag", .str name.key), ("steps", .nat total)]
  | buildFailed name errors =>
    .obj [("tag", .str name.key), ("errors", .arr (errors.map Finding.toJson))]
  | created c => .obj [("container", c.toJson)]
  | bound c | released c => .obj [("ports", portsJson c.ports), ("containerId", .str c.id)]
  | started c | stopped c | removed c =>
    .obj [("containerId", .str c.id), ("name", .str c.name)]
  | ran c command => .obj [("containerId", .str c.id), ("cmd", .str command)]
  | serviceStarted service containerId image =>
    .obj [("service", .str service), ("containerId", .str containerId),
      ("imageKey", .str image.key)]
  | serviceStopped service containerId =>
    .obj [("service", .str service), ("containerId", .str containerId)]
  | stackFailed path errors =>
    .obj [("file", .str path), ("errors", .arr (errors.map Finding.toJson))]

/-- The notice is about neither a container nor an image that is made, and tells of lines with
certain numbers only. -/
def Aside (lines : Nat → Prop) : Notice → Prop
  | buildFailed _ errors | stackFailed _ errors => ∀ f ∈ errors, lines f.line
  | ran _ _ => True
  | _ => False

/-- What is told about ports of a container: nothing when it has none. -/
def ifPorts (c : Container) (n : Notice) : List Notice := if c.ports.isEmpty then [] else [n]

end Notice

/-- The events were drawn for the notices, one after the other, between two supplies. -/
inductive Drawn : Supply → List Notice → List Event → Supply → Prop
  | nil {u v : Supply} : u ≤ v → Drawn u [] [] v
  | cons {u v w x : Supply} {n : Notice} {ns : List Notice} {summary : String} {e : Event}
      {es : List Event} : u ≤ v → Event.draw n.kind n.payload summary v = (e, w) →
      Drawn w ns es x → Drawn u (n :: ns) (e :: es) x

theorem eventDraw_advances (kind : EventKind) (payload : Json) (summary : String) :
    (Event.draw kind payload summary).Advances :=
  .bind Supply.uuid_advances fun _ => .bind Supply.now_advances fun _ => .pure _

theorem Event.of_draw {n : Notice} {summary : String} {u v : Supply} {e : Event}
    (h : Event.draw n.kind n.payload summary u = (e, v)) :
    e.kind = n.kind ∧ e.payload = n.payload.canonical := by
  unfold Event.draw at h
  simp only [Draw.bind_eq_iff, Draw.pure_eq_iff] at h
  obtain ⟨id, _, -, time, _, -, rfl, -⟩ := h
  exact ⟨rfl, rfl⟩

namespace Drawn

variable {u v w x : Supply} {ns ms : List Notice} {es fs : List Event}

theorem le (h : Drawn u ns es v) : u ≤ v := by
  induction h with
  | nil h => exact h
  | cons h hd _ ih => exact Supply.le_trans h (Supply.le_trans (eventDraw_advances _ _ _ hd) ih)

theorem mono (h : Drawn u ns es v) (hw : w ≤ u) (hx : v ≤ x) : Drawn w ns es x := by
  induction h generalizing w with
  | nil h => exact .nil (Supply.le_trans hw (Supply.le_trans h hx))
  | cons h hd _ ih => exact .cons (Supply.le_trans hw h) hd (ih (Supply.le_refl _) hx)

theorem append (h : Drawn u ns es v) (h' : Drawn v ms fs w) : Drawn u (ns ++ ms) (es ++ fs) w := by
  induction h with
  | nil h => exact h'.mono h (Supply.le_refl _)
  | cons h hd _ ih => exact .cons h hd (ih h')

theorem one {n : Notice} {summary : String} {e : Event}
    (h : Event.draw n.kind n.payload summary u = (e, v)) : Drawn u [n] [e] v :=
  .cons (Supply.le_refl _) h (.nil (Supply.le_refl _))

/-- Every event is of the kind of its notice. -/
theorem kinds (h : Drawn u ns es v) : es.map Event.kind = ns.map Notice.kind := by
  induction h with
  | nil _ => rfl
  | cons _ hd _ ih => rw [List.map_cons, List.map_cons, ih, (Event.of_draw hd).1]

/-- Something is told of notices, if there are any. -/
theorem ne_nil (h : Drawn u ns es v) (hns : ns ≠ []) : es ≠ [] := by
  cases h with
  | nil _ => exact absurd rfl hns
  | cons _ _ _ => exact List.cons_ne_nil _ _

/-- What is told of one notice is one event of its kind, with its payload. -/
theorem eq_one {n : Notice} (h : Drawn u [n] es v) :
    ∃ e, es = [e] ∧ e.kind = n.kind ∧ e.payload = n.payload.canonical := by
  cases h with
  | cons _ hd hrest =>
    cases hrest
    exact ⟨_, rfl, Event.of_draw hd⟩

end Drawn

/-! ## The events of the commands -/

variable {u v : Supply} {e : Event} {es : List Event} {c : Container}

theorem drawn_of_stoppedEvent (h : stoppedEvent c u = (e, v)) : Drawn u [.stopped c] [e] v := .one h

theorem drawn_of_removedEvent (h : removedEvent c u = (e, v)) : Drawn u [.removed c] [e] v := .one h

theorem drawn_of_startedEvent (h : startedEvent c u = (e, v)) : Drawn u [.started c] [e] v := .one h

theorem drawn_of_serviceStartedEvent {service id : String} {i : Image}
    (h : serviceStartedEvent service id i u = (e, v)) :
    Drawn u [.serviceStarted service id i] [e] v :=
  .one h

theorem drawn_of_serviceStoppedEvent {service id : String}
    (h : serviceStoppedEvent service id u = (e, v)) : Drawn u [.serviceStopped service id] [e] v :=
  .one h

theorem drawn_ifPorts {m : Draw Event} {n : Notice}
    (hm : ∀ {u e v}, m u = (e, v) → Drawn u [n] [e] v)
    (h : (if c.ports.isEmpty then pure [] else m >>= fun e => pure [e] : Draw (List Event)) u =
      (es, v)) :
    Drawn u (Notice.ifPorts c n) es v := by
  unfold Notice.ifPorts
  split at h
  · next hp =>
    obtain ⟨rfl, rfl⟩ := Draw.pure_eq_iff.1 h
    rw [if_pos hp]
    exact .nil (Supply.le_refl _)
  · next hp =>
    obtain ⟨e, w, he, hw⟩ := Draw.bind_eq_iff.1 h
    obtain ⟨rfl, rfl⟩ := Draw.pure_eq_iff.1 hw
    rw [if_neg hp]
    exact hm he

theorem drawn_of_bindEvents (h : bindEvents c u = (es, v)) :
    Drawn u (Notice.ifPorts c (.bound c)) es v :=
  drawn_ifPorts (m := portsBoundEvent c) (n := .bound c) (fun h => .one h) h

theorem drawn_of_releaseEvents (h : releaseEvents c u = (es, v)) :
    Drawn u (Notice.ifPorts c (.released c)) es v :=
  drawn_ifPorts (n := .released c) (fun h => .one h) h

theorem drawn_of_runEvents (h : runEvents c u = (es, v)) :
    Drawn u (.created c :: Notice.ifPorts c (.bound c) ++ [.started c]) es v := by
  unfold runEvents at h
  obtain ⟨created, w, h1, h⟩ := Draw.bind_eq_iff.1 h
  unfold Notice.ifPorts
  by_cases hp : c.ports.isEmpty = true
  · simp only [if_pos hp, Draw.bind_eq_iff, Draw.pure_eq_iff] at h ⊢
    obtain ⟨_, _, ⟨rfl, rfl⟩, started, y, h3, rfl, rfl⟩ := h
    exact Drawn.append (.one (n := .created c) h1) (drawn_of_startedEvent h3)
  · simp only [if_neg hp, Draw.bind_eq_iff, Draw.pure_eq_iff] at h ⊢
    obtain ⟨_, _, ⟨bound, x, h2, rfl, rfl⟩, started, y, h3, rfl, rfl⟩ := h
    exact Drawn.append (.append (.one (n := .created c) h1) (.one (n := .bound c) h2))
      (drawn_of_startedEvent h3)

theorem drawn_of_pullEvents {i : Image} (h : pullEvents i u = (es, v)) :
    Drawn u [.pullStarted i, .pullComplete i] es v := by
  unfold pullEvents at h
  simp only [Draw.bind_eq_iff, Draw.pure_eq_iff] at h
  obtain ⟨started, w, h1, complete, x, h2, rfl, rfl⟩ := h
  exact Drawn.append (.one (n := .pullStarted i) h1) (.one (n := .pullComplete i) h2)

end DockerSim
