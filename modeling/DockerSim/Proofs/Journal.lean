import DockerSim.Proofs.Moves.Storable
import DockerSim.Proofs.Reached

/-!
# The event log as a journal

A log is read from its beginning into a `Ledger`: every event that completes an image sets the image
under its key, and every event about the life of a container sets the status of the container. The
ledger that is read from the log of a reached state holds the images of the state, as they are
written, and the status of each of its containers, and nothing else (`Reached.journal`).

An event is drawn for a notice, and what is read from the event is what the notice tells
(`Event.image?_of_draw`, `Event.standing?_of_draw`). So the proof goes move by move over the
notices, and only the reading of single events has to do with payloads.
-/

namespace DockerSim

/-! ## Reading a log -/

/-- A field of an object. -/
def Json.field? (name : String) : Json → Option Json
  | .obj fields => fields.lookup name
  | _ => none

/-- A field of an object that is a text. -/
def Json.text? (name : String) (j : Json) : Option String := (j.field? name).bind str?

/-- The status of a container after an event of a kind. -/
def EventKind.status? : EventKind → Option Status
  | .containerCreated | .containerStarted | .composeServiceStarted => some .running
  | .containerStopped => some .stopped
  | .containerRemoved | .composeServiceStopped => some .removed
  | _ => none

namespace Event

/-- The image that an event completes, as the event writes it, under its key. -/
def image? (e : Event) : Option (String × Json) :=
  if e.kind = .imagePullComplete ∨ e.kind = .buildComplete then do
    let image ← e.payload.field? "image"
    let repository ← image.text? "repository"
    let tag ← image.text? "tag"
    some (ImageName.key { repository, tag }, image)
  else none

/-- The container that an event names. The event of its creation has the whole record. -/
def containerId? (e : Event) : Option String :=
  if e.kind = .containerCreated then (e.payload.field? "container").bind (Json.text? "id")
  else e.payload.text? "containerId"

/-- The container that an event is about, with its status after the event. -/
def standing? (e : Event) : Option (String × Status) := do
  let status ← e.kind.status?
  let id ← e.containerId?
  some (id, status)

end Event

/-- What a log tells of: the images by their keys, and the statuses of the containers by id. -/
structure Ledger where
  images : Table Json
  statuses : Table Status

namespace Ledger

/-- An image and a status are entered, where there are any. -/
def enter (l : Ledger) (image? : Option (String × Json)) (standing? : Option (String × Status)) :
    Ledger where
  images := image?.elim l.images fun (key, image) => l.images.insert key image
  statuses := standing?.elim l.statuses fun (id, status) => l.statuses.insert id status

def read (l : Ledger) (e : Event) : Ledger := l.enter e.image? e.standing?

/-- What is read from a log. -/
def ofLog (log : List Event) : Ledger := log.foldl read { images := ∅, statuses := ∅ }

/-- What the log should tell of these images and containers. -/
def of (images : Table Image) (containers : Table Container) : Ledger where
  images := images.mapValues fun _ i => i.toJson.canonical
  statuses := containers.mapValues fun _ c => c.status

end Ledger

/-! ## What notices tell -/

namespace Notice

def image? : Notice → Option (String × Json)
  | pullComplete i | buildComplete i => some (i.key, i.toJson.canonical)
  | _ => none

def standing? : Notice → Option (String × Status)
  | created c | started c => some (c.id, .running)
  | serviceStarted _ id _ => some (id, .running)
  | stopped c => some (c.id, .stopped)
  | removed c => some (c.id, .removed)
  | serviceStopped _ id => some (id, .removed)
  | _ => none

end Notice

/-- In a value in order, a field is the last one of its name, in order. -/
theorem Json.field?_canonical (name : String) (fields : List (String × Json)) :
    (Json.obj fields).canonical.field? name =
      (Table.ofList (canonicalFields fields)).get? name := by
  rw [canonical]
  rfl

theorem Image.text?_canonical (i : Image) :
    i.toJson.canonical.text? "repository" = some i.repository ∧
      i.toJson.canonical.text? "tag" = some i.tag := by
  unfold Json.text? toJson
  simp only [Json.field?_canonical]
  simp [Json.canonicalFields, Table.ofList, Table.get?_insert, Json.str?]

/-- An image is read back from its value in order. -/
theorem Image.ofJson?_canonical {i : Image} (h : i.Storable) :
    Image.ofJson? i.toJson.canonical = some i := by
  have hvalue : i.toJson.canonical = .obj [
      ("createdAt", i.createdAt.toJson),
      ("id", .str i.id),
      ("layers", .strs i.layers),
      ("repository", .str i.repository),
      ("size", .nat i.size),
      ("tag", .str i.tag)] := by
    unfold toJson
    rw [Json.canonical]
    simp only [Json.canonicalFields, Instant.toJson, Json.canonical_str, Json.canonical_nat,
      Json.canonical_strs]
    rfl
  have hnames : ["createdAt", "id", "layers", "repository", "size", "tag"].Perm
      ["id", "repository", "tag", "size", "createdAt", "layers"] := by decide
  rw [hvalue]
  unfold ofJson?
  refine Json.record_found_of_perm hnames (by decide) ?_
  simp (disch := decide) only [Json.bind_found, Json.Record.need_head, Json.Record.need_tail,
    Json.str?_str, Json.nat?_nat h.size, Instant.ofJson?_toJson h.created, Json.listOf?_strs]

section Drawing

variable {u v : Supply} {n : Notice} {summary : String} {e : Event}

/-- **An event tells of the image that it was drawn for.** -/
theorem Event.image?_of_draw (h : Event.draw n.kind n.payload summary u = (e, v)) :
    e.image? = n.image? := by
  obtain ⟨hk, hp⟩ := Event.of_draw h
  unfold image?
  rw [hk, hp]
  cases n with
  | pullComplete i | buildComplete i =>
    simp [Notice.kind, Notice.payload, Notice.image?, Json.field?_canonical, Json.canonicalFields,
      Table.ofList, i.text?_canonical.1, i.text?_canonical.2, Image.key, Image.name]
  | _ => rfl

/-- **An event tells of the container that it was drawn for, and of its status.** -/
theorem Event.standing?_of_draw (h : Event.draw n.kind n.payload summary u = (e, v)) :
    e.standing? = n.standing? := by
  obtain ⟨hk, hp⟩ := Event.of_draw h
  have hid : ∀ c : Container, c.toJson.canonical.text? "id" = some c.id := by
    intro c
    unfold Json.text? Container.toJson
    rw [Json.field?_canonical]
    simp [Json.canonicalFields, Table.ofList, Table.get?_insert, Json.str?]
  unfold standing? containerId?
  rw [hk, hp]
  cases n with
  | created c =>
    simp [Notice.kind, Notice.payload, Notice.standing?, EventKind.status?, Json.field?_canonical,
      Json.canonicalFields, Table.ofList, hid c]
  | started c | stopped c | removed c | serviceStarted _ _ _ | serviceStopped _ _ =>
    simp [Notice.kind, Notice.payload, Notice.standing?, EventKind.status?, Json.text?,
      Json.field?_canonical, Json.canonicalFields, Table.ofList, Table.get?_insert, Json.str?]
  | _ => rfl

end Drawing

/-! ## Ledgers of scenes -/

namespace Ledger

variable {l : Ledger} {images : Table Image} {containers : Table Container}

/-- A notice is taken down as its event would be. -/
def hear (l : Ledger) (n : Notice) : Ledger := l.enter n.image? n.standing?

theorem enter_again (standing : String × Status) :
    (l.enter none (some standing)).enter none (some standing) = l.enter none (some standing) := by
  unfold enter
  congr 1
  refine Table.ext_get? fun k => ?_
  simp only [Option.elim_some, Table.get?_insert]
  split <;> rfl

/-- Ports tell nothing to a ledger. -/
theorem foldl_hear_ifPorts {c : Container} {n : Notice} (h : n.image? = none)
    (h' : n.standing? = none) : (Notice.ifPorts c n).foldl hear l = l := by
  unfold Notice.ifPorts
  split
  · rfl
  · show l.enter n.image? n.standing? = l
    rw [h, h']
    rfl

theorem foldl_hear_asides {lines : Nat → Prop} {ns : List Notice}
    (h : ∀ n ∈ ns, n.Aside lines) : ns.foldl hear l = l := by
  induction ns with
  | nil => rfl
  | cons n ns ih =>
    obtain ⟨hn, hns⟩ := List.forall_mem_cons.1 h
    have hsilent : hear l n = l := by
      cases n with
      | buildFailed _ _ | stackFailed _ _ | ran _ _ => rfl
      | _ => exact absurd hn id
    rw [List.foldl_cons, hsilent, ih hns]

theorem of_insert_image (i : Image) :
    of (images.insert i.key i) containers =
      (of images containers).enter (some (i.key, i.toJson.canonical)) none := by
  unfold of enter
  congr 1
  exact Table.mapValues_insert ..

theorem of_insert_container {id : String} {c : Container} :
    of images (containers.insert id c) =
      (of images containers).enter none (some (id, c.status)) := by
  unfold of enter
  congr 1
  exact Table.mapValues_insert ..

/-- **Events are read as their notices are heard.** -/
theorem foldl_read {u v : Supply} {ns : List Notice} {es : List Event} (h : Drawn u ns es v) :
    es.foldl read l = ns.foldl hear l := by
  induction h generalizing l with
  | nil _ => rfl
  | @cons _ _ _ _ n _ _ e _ _ hd _ ih =>
    rw [List.foldl_cons, List.foldl_cons, ih, read, Event.image?_of_draw hd,
      Event.standing?_of_draw hd, hear]

end Ledger

open Ledger

/-! ## Moves -/

variable {terms : Terms} {x y : Scene}

/-- The log of a scene tells of its images and containers. -/
def Scene.Journaled (x : Scene) : Prop := ofLog x.log = .of x.images x.containers

/-- **A move is taken down as it is made.** -/
theorem Move.journaled (h : Move terms x y) (hx : x.Journaled) : y.Journaled := by
  have told : ∀ {u v : Supply} {ns : List Notice} {es : List Event}, Drawn u ns es v →
      ofLog (x.log ++ es) = ns.foldl hear (.of x.images x.containers) := by
    intro u v ns es hd
    rw [ofLog, List.foldl_append, ← ofLog, hx, foldl_read hd]
  unfold Scene.Journaled
  cases h with
  | pass aside drawn =>
    rw [told drawn, foldl_hear_asides aside]
  | image _ about drawn =>
    rw [told drawn, of_insert_image]
    cases about <;> rfl
  | create _ _ _ made about drawn =>
    rw [told drawn, of_insert_container, made.status]
    cases about with
    | run =>
      rw [List.cons_append, List.foldl_cons, List.foldl_append, foldl_hear_ifPorts rfl rfl]
      exact enter_again _
    | service => rfl
  | stop _ _ _ _ drawn =>
    rw [told drawn, of_insert_container, List.foldl_cons, foldl_hear_ifPorts rfl rfl]
    rfl
  | start _ _ _ _ _ _ about drawn =>
    rw [told drawn, of_insert_container]
    cases about with
    | start =>
      rw [List.foldl_append, foldl_hear_ifPorts rfl rfl]
      rfl
    | service => rfl
  | remove _ _ _ _ _ about drawn =>
    rw [told drawn, of_insert_container]
    cases about with
    | rm =>
      rw [List.foldl_append, foldl_hear_ifPorts rfl rfl]
      rfl
    | service => rfl
  | drop _ _ _ _ drawn =>
    rw [told drawn, of_insert_container]
    rfl

theorem Moves.journaled (h : Moves terms x y) (hx : x.Journaled) : y.Journaled := by
  induction h with
  | refl => exact hx
  | tail _ h ih => exact h.journaled ih

/-! ## Reached states -/

namespace Reached

variable {s : State} {u : Supply}

theorem journaled (h : Reached s u) : (Scene.of s u).Journaled := by
  obtain ⟨as, os, h⟩ := h
  refine State.submitAll_keeps (P := fun s u => (Scene.of s u).Journaled) ?_ h rfl
  intro a s t o u v hr hj
  exact (a.leads_anyway hr).moves.journaled hj

/-- The images of a reached state can be written, for as long as the clock stands in the
calendar. -/
theorem images_storable (h : Reached s u) (hu : u.InCalendar) :
    ∀ ⦃key i⦄, s.images.get? key = some i → i.Storable := by
  obtain ⟨as, os, h⟩ := h
  have kept := State.submitAll_keeps (P := fun s u => Supply.fresh ≤ u ∧
    (u.InCalendar → ∀ ⦃key i⦄, s.images.get? key = some i → i.Storable)) ?_ h
    ⟨Supply.le_refl _, fun _ _ _ hi => nomatch hi⟩
  · exact kept.2 hu
  intro a s t o u v hr ⟨hfresh, hs⟩
  have hmoves := (a.leads_anyway hr).moves
  have hle := hmoves.supply_le
  exact ⟨Supply.le_trans hfresh hle,
    fun hv => hmoves.images_storable (hs (hv.of_le hfresh hle)) hfresh hv⟩

/-- **The event log of a reached state is a journal of it.** The log tells of the images of the
state, under their keys and as they are written, and of no others; they are read back from it for as
long as the clock stands in the calendar. And it tells of the containers of the state, each with the
status that it has, and of no others. -/
theorem journal (h : Reached s u) :
    (ofLog s.eventLog).images = s.images.mapValues (fun _ i => i.toJson.canonical) ∧
    (u.InCalendar → ∀ key,
      ((ofLog s.eventLog).images.get? key).bind Image.ofJson? = s.images.get? key) ∧
    (ofLog s.eventLog).statuses = s.containers.mapValues (fun _ c => c.status) := by
  have hlog : ofLog s.eventLog = .of s.images s.containers := h.journaled
  rw [hlog]
  refine ⟨rfl, ?_, rfl⟩
  intro hu key
  show ((s.images.mapValues fun _ i => i.toJson.canonical).get? key).bind _ = _
  rw [Table.get?_mapValues]
  cases hi : s.images.get? key with
  | none => rfl
  | some i =>
    rw [Option.map_some, Option.bind_some]
    exact Image.ofJson?_canonical (h.images_storable hu hi)

/-- The log of the lines tells of the one image that was pulled, and that the container runs. -/
theorem journal_web :
    let r := State.empty.submitAll webLines .fresh
    r.2.InCalendar ∧
    (((ofLog r.1.1.eventLog).images.get? "nginx:latest").bind Image.ofJson?).isSome = true ∧
    (ofLog r.1.1.eventLog).statuses.entries = [("000000000009", .running)] := by
  have hreached := reached_submitAll webLines
  have hu : (State.empty.submitAll webLines .fresh).2.InCalendar := by
    show Instant.inRange (State.empty.submitAll webLines .fresh).2.clock.date.year = true
    decide +kernel
  obtain ⟨-, himages, hstatuses⟩ := journal hreached
  refine ⟨hu, ?_, ?_⟩
  · rw [himages hu]
    decide +kernel
  · rw [hstatuses]
    decide +kernel

end Reached

end DockerSim
