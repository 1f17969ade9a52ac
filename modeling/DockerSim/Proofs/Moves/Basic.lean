import DockerSim.Proofs.Notices
import DockerSim.Proofs.Ports
import Mathlib.Logic.Relation

/-!
# Moves of the engine

Every command is a row of moves. A `Move` is what happens at one go to the images, the containers,
the index of bound ports and the event log, with the draws it takes: an image is made, or a
container is created, stopped, started or removed, with its ports. What is true of all states is
shown move by move.

One move is set apart. `drop` removes a container that was not running and leaves the index alone,
where `remove` would release its ports. It is possible only on the terms of `rm`, on which, in turn,
no container is started and `remove` takes running ones only. And the commands that create
containers neither stop nor remove any.
-/

namespace DockerSim

open Command

theorem getD_changedFrom {α : Type} [DecidableEq α] (before after : Table α) :
    (changedFrom before after).getD before = after := by
  unfold changedFrom
  split
  · next h => exact h.symm
  · rfl

theorem changedFrom_self {α : Type} [DecidableEq α] (t : Table α) : changedFrom t t = none :=
  if_pos rfl

theorem contains_insert_of_contains {α : Type} {t : Table α} {key id : String} {a : α}
    (h : t.contains id = true) : (t.insert key a).contains id = true :=
  (t.contains_insert key id a).2 (.inr h)

/-- The part of the state that moves are about, with the supply. -/
structure Scene where
  images : Table Image
  containers : Table Container
  boundPorts : Table String
  log : List Event
  supply : Supply

/-- What a state shows to the moves. -/
def Scene.of (s : State) (u : Supply) : Scene :=
  { images := s.images, containers := s.containers, boundPorts := s.boundPorts, log := s.eventLog
    supply := u }

/-- The image was made between two supplies. -/
structure Image.Made (u : Supply) (i : Image) (v : Supply) : Prop where
  id : Supply.HandsDigest u i.id v
  size : i.size < UInt64.size
  time : Supply.Shows u i.createdAt v

theorem Image.Made.mono {u v u' v' : Supply} {i : Image} (h : i.Made u v) (hu : u' ≤ u)
    (hv : v ≤ v') : i.Made u' v' :=
  ⟨h.id.mono hu hv, h.size, h.time.mono hu hv⟩

/-- The container was made between two supplies, and is running. -/
structure Container.Made (u : Supply) (c : Container) (v : Supply) : Prop where
  id : Supply.Hands u c.id v
  status : c.status = .running
  created : Supply.Shows u c.createdAt v
  started : c.startedAt = some c.createdAt
  unstopped : c.stoppedAt = none

namespace Notice

/-- What is told about an image that was made. -/
inductive OfImage (lines : Nat → Prop) (i : Image) : List Notice → Prop
  | pulled : OfImage lines i [.pullStarted i, .pullComplete i]
  | built (name : ImageName) (total : Nat) (few : lines total) :
    OfImage lines i [.buildStep name total, .buildComplete i]

/-- What is told about a container that was created. -/
inductive OfCreate (c : Container) : List Notice → Prop
  | run : OfCreate c (.created c :: ifPorts c (.bound c) ++ [.started c])
  | service (service : String) (i : Image) : OfCreate c [.serviceStarted service c.id i]

/-- What is told about a container that was started again. -/
inductive OfStart (c : Container) : List Notice → Prop
  | start : OfStart c (ifPorts c (.bound c) ++ [.started c])
  | service (service : String) (i : Image) : OfStart c [.serviceStarted service c.id i]

/-- What is told about a container that was removed and whose ports were released. -/
inductive OfRemove (c : Container) : List Notice → Prop
  | rm : OfRemove c (ifPorts c (.released c) ++ [.removed c])
  | service (service : String) : OfRemove c [.serviceStopped service c.id]

end Notice

/-- The time at which a container was stopped that is removed: only a running one is stopped. -/
def StoppedAt (c : Container) (u : Supply) (time : Option Instant) (v : Supply) : Prop :=
  if c.isRunning then ∃ t, time = some t ∧ Supply.Shows u t v else time = none ∧ u ≤ v

/-- The terms on which moves are made. -/
structure Terms where
  /-- The command that makes them; none for a line that is answered without one. -/
  carried : Option String
  /-- The numbers of lines that may be told. -/
  lines : Nat → Prop

namespace Terms

/-- Containers that are not running are dropped. -/
def drops (terms : Terms) : Prop := terms.carried = some "rm"

/-- A stack is brought up. -/
def bringsUp (terms : Terms) : Prop := terms.carried = some "compose up"

/-- Containers are created. -/
def creates (terms : Terms) : Prop := terms.carried = some "run" ∨ terms.bringsUp

theorem not_creates {terms : Terms} {sub : String} (hc : terms.carried = some sub)
    (h : sub ≠ "run" ∧ sub ≠ "compose up") : ¬terms.creates := by
  unfold creates bringsUp
  rw [hc, Option.some.injEq, Option.some.injEq]
  exact fun hor => hor.elim h.1 h.2

theorem not_drops {terms : Terms} {sub : String} (hc : terms.carried = some sub)
    (h : sub ≠ "rm") : ¬terms.drops := by
  unfold drops
  rw [hc, Option.some.injEq]
  exact h

end Terms

/-- The numbers of the lines of a workspace may be told. -/
structure Terms.Cover (terms : Terms) (files : Option Workspace) : Prop where
  zero : terms.lines 0
  file : ∀ ⦃w path file⦄, files = some w → w.file? path = some file →
    ∀ n, n ≤ file.content.length + 1 → terms.lines n

inductive Move (terms : Terms) : Scene → Scene → Prop
  /-- No image and no container changes. -/
  | pass {x : Scene} {ns : List Notice} {es : List Event} {v : Supply}
      (aside : ∀ n ∈ ns, n.Aside terms.lines) (told : Drawn x.supply ns es v) :
      Move terms x { x with log := x.log ++ es, supply := v }
  | image {x : Scene} {i : Image} {ns : List Notice} {es : List Event} {v w : Supply}
      (made : i.Made x.supply v) (about : Notice.OfImage terms.lines i ns)
      (told : Drawn v ns es w) :
      Move terms x
        { x with images := x.images.insert i.key i, log := x.log ++ es, supply := w }
  | create {x : Scene} {c : Container} {ns : List Notice} {es : List Event} {v w : Supply}
      (creating : terms.creates) (free : isNameTaken x.containers c.name = false)
      (claimed : Claimed x.boundPorts c.ports)
      (made : c.Made x.supply v) (about : Notice.OfCreate c ns) (told : Drawn v ns es w) :
      Move terms x
        { x with
          containers := x.containers.insert c.id c
          boundPorts := bindPorts x.boundPorts c.ports c.id
          log := x.log ++ es
          supply := w }
  | stop {x : Scene} {key : String} {c : Container} {t : Instant} {es : List Event} {v w : Supply}
      (keeping : ¬terms.creates) (found : x.containers.get? key = some c)
      (running : c.isRunning = true) (time : Supply.Shows x.supply t v)
      (told : Drawn v (.stopped c :: Notice.ifPorts c (.released c)) es w) :
      Move terms x
        { x with
          containers := x.containers.insert c.id (c.stopped t)
          boundPorts := releasePorts x.boundPorts c
          log := x.log ++ es
          supply := w }
  | start {x : Scene} {key : String} {c : Container} {t : Instant} {output : List String}
      {ns : List Notice} {es : List Event} {v w : Supply} (other : ¬terms.drops)
      (found : x.containers.get? key = some c) (active : c.isActive = true)
      (idle : c.isRunning = false) (unheld : portConflict x.boundPorts c = none)
      (time : Supply.Shows x.supply t v) (about : Notice.OfStart c ns) (told : Drawn v ns es w) :
      Move terms x
        { x with
          containers := x.containers.insert c.id (c.started t output)
          boundPorts := bindPorts x.boundPorts c.ports c.id
          log := x.log ++ es
          supply := w }
  | remove {x : Scene} {key : String} {c : Container} {t : Option Instant} {ns : List Notice}
      {es : List Event} {v w : Supply} (keeping : ¬terms.creates)
      (other : terms.drops → c.isRunning = true)
      (found : x.containers.get? key = some c) (active : c.isActive = true)
      (time : StoppedAt c x.supply t v) (about : Notice.OfRemove c ns) (told : Drawn v ns es w) :
      Move terms x
        { x with
          containers := x.containers.insert c.id (c.removed t)
          boundPorts := releasePorts x.boundPorts c
          log := x.log ++ es
          supply := w }
  | drop {x : Scene} {key : String} {c : Container} {es : List Event} {v : Supply}
      (allowed : terms.drops) (found : x.containers.get? key = some c) (active : c.isActive = true)
      (idle : c.isRunning = false) (told : Drawn x.supply [.removed c] es v) :
      Move terms x
        { x with
          containers := x.containers.insert c.id (c.removed none)
          log := x.log ++ es
          supply := v }

/-- Some moves, one after the other. -/
abbrev Moves (terms : Terms) : Scene → Scene → Prop := Relation.ReflTransGen (Move terms)

variable {terms : Terms} {x y : Scene}

theorem StoppedAt.running {c : Container} {u v : Supply} {t : Instant} (h : c.isRunning = true)
    (ht : Supply.Shows u t v) : StoppedAt c u (some t) v := by
  unfold StoppedAt
  rw [if_pos h]
  exact ⟨t, rfl, ht⟩

theorem StoppedAt.idle {c : Container} {u v : Supply} (h : ¬c.isRunning = true) (hle : u ≤ v) :
    StoppedAt c u none v := by
  unfold StoppedAt
  rw [if_neg h]
  exact ⟨rfl, hle⟩

theorem StoppedAt.le {c : Container} {u v : Supply} {time : Option Instant}
    (h : StoppedAt c u time v) : u ≤ v := by
  unfold StoppedAt at h
  split at h
  · obtain ⟨t, -, ht⟩ := h
    exact ht.le
  · exact h.2

/-- **Moves never take the supply back.** -/
theorem Move.supply_le (h : Move terms x y) : x.supply ≤ y.supply := by
  cases h with
  | pass _ told => exact told.le
  | image made _ told => exact Supply.le_trans made.time.le told.le
  | create _ _ _ made _ told => exact Supply.le_trans made.created.le told.le
  | stop _ _ _ time told => exact Supply.le_trans time.le told.le
  | start _ _ _ _ _ time _ told => exact Supply.le_trans time.le told.le
  | remove _ _ _ _ time _ told => exact Supply.le_trans time.le told.le
  | drop _ _ _ _ told => exact told.le

theorem Moves.supply_le (h : Moves terms x y) : x.supply ≤ y.supply := by
  induction h with
  | refl => exact Supply.le_refl _
  | tail _ h ih => exact Supply.le_trans ih h.supply_le

/-- Draws without events are a move. -/
theorem Moves.idle {v : Supply} (h : x.supply ≤ v) : Moves terms x { x with supply := v } := by
  have hm : Move terms x { x with log := x.log ++ [], supply := v } :=
    .pass (fun _ hn => absurd hn List.not_mem_nil) (.nil h)
  rw [List.append_nil] at hm
  exact .single hm

/-! ## Commands -/

/-- A stack of the second state is one of the first, or the one stack that is brought up: it tracks
containers that exist, and ones that it tracked before. -/
def StacksFollow (terms : Terms) (s t : State) : Prop :=
  ∀ ⦃name stack⦄, t.composeStacks.get? name = some stack →
    s.composeStacks.get? name = some stack ∨
      terms.bringsUp ∧ ∀ ⦃service id⦄, stack.containerIds.get? service = some id →
        t.containers.contains id = true ∨
          ∃ old, s.stack? = some old ∧ old.containerIds.get? service = some id

/-- What a command does, from a state and a supply to an outcome and a supply. -/
structure Effect (terms : Terms) (s : State) (u : Supply) (o : Outcome) (v : Supply) : Prop where
  moves : Moves terms (.of s u) (.of (s.take o) v)
  follow : StacksFollow terms s (s.take o)
  volumes : s.volumes.Within (s.take o).volumes

theorem StacksFollow.of_eq {s t : State} (h : t.composeStacks = s.composeStacks) :
    StacksFollow terms s t := by
  intro name stack hs
  exact .inl (h ▸ hs)

/-- An outcome that changes no table and only tells asides. -/
theorem Effect.of_aside {s : State} {u v : Supply} {o : Outcome} {ns : List Notice}
    (hd : o.delta = {}) (aside : ∀ n ∈ ns, n.Aside terms.lines) (told : Drawn u ns o.events v) :
    Effect terms s u o v := by
  have h : s.take o = s.record o.events := by
    unfold State.take
    rw [hd]
    rfl
  refine ⟨?_, .of_eq (by rw [h]; rfl), by rw [h]; exact .refl _⟩
  rw [h]
  exact .single (.pass (x := .of s u) aside told)

/-- An outcome that reports nothing. -/
theorem Effect.of_silent {s : State} {u v : Supply} {o : Outcome} (hd : o.delta = {})
    (he : o.events = []) (hle : u ≤ v) : Effect terms s u o v := by
  refine .of_aside hd (fun _ hn => absurd hn List.not_mem_nil) ?_
  rw [he]
  exact .nil hle

/-- An outcome that only tells one aside. -/
theorem Effect.of_note {s : State} {u v : Supply} {o : Outcome} (n : Notice) (hd : o.delta = {})
    (aside : n.Aside terms.lines) (told : Drawn u [n] o.events v) : Effect terms s u o v := by
  refine .of_aside hd ?_ told
  rintro n' hn
  rw [List.mem_singleton.1 hn]
  exact aside

end DockerSim
