import DockerSim.Proofs.Digits
import DockerSim.Proofs.Moves.Basic
import DockerSim.Proofs.Validity

/-!
# Moves keep the tables in agreement

A container keeps its id, its name and its ports for ever; what a move changes is its status. So the
tables go on to agree, as long as the ids that are handed out were not used before: fewer than
`idLimit` of them are different from each other.
-/

namespace DockerSim

open Command

/-- So many ids of containers are different from each other. -/
def idLimit : Nat := Nat.pow 16 12

/-- The tables agree, and the ids up to a number are still free. -/
structure Scene.Agrees (limit : Nat) (x : Scene) : Prop where
  images : ∀ ⦃key i⦄, x.images.get? key = some i → i.key = key
  containers : ∀ ⦃key c⦄, x.containers.get? key = some c → c.id = key
  names : NamesApart x.containers
  spare : ∀ ⦃n⦄, x.supply.drawn < n → n ≤ limit → x.containers.get? (Supply.hexText 12 n) = none

/-- The second record is one of the same container. It is removed if the first is. -/
structure Container.Same (c d : Container) : Prop where
  id : d.id = c.id
  name : d.name = c.name
  ports : d.ports = c.ports
  active : d.isActive = true → c.isActive = true

namespace Container

variable {c d : Container}

theorem same_stopped {t : Instant} (h : c.isRunning = true) : c.Same (c.stopped t) := by
  refine ⟨rfl, rfl, rfl, fun _ => ?_⟩
  unfold isRunning at h
  unfold isActive
  rw [of_decide_eq_true h]
  rfl

theorem same_started {t : Instant} {output : List String} (h : c.isActive = true) :
    c.Same (c.started t output) := ⟨rfl, rfl, rfl, fun _ => h⟩

theorem same_removed {t : Option Instant} (h : c.isActive = true) : c.Same (c.removed t) :=
  ⟨rfl, rfl, rfl, fun _ => h⟩

theorem isActive_of_isRunning (h : c.isRunning = true) : c.isActive = true := by
  unfold isRunning at h
  unfold isActive
  rw [of_decide_eq_true h]
  rfl

end Container

variable {terms : Terms} {x y : Scene} {limit : Nat}

/-- What a move does to the containers: nothing, or one is added, or one is changed. -/
inductive Turnover (x : Scene) (y : Scene) : Prop
  | none (same : y.containers = x.containers)
  | added {c : Container} {v : Supply} (free : isNameTaken x.containers c.name = false)
      (id : Supply.Hands x.supply c.id v) (le : v ≤ y.supply)
      (new : y.containers = x.containers.insert c.id c)
  | changed {key : String} {c d : Container} (found : x.containers.get? key = some c)
      (same : c.Same d) (new : y.containers = x.containers.insert d.id d)

theorem Move.turnover (h : Move terms x y) : Turnover x y := by
  cases h with
  | pass _ _ => exact .none rfl
  | image _ _ _ => exact .none rfl
  | create _ free _ made _ told => exact .added free made.id told.le rfl
  | stop _ found running _ _ => exact .changed found (Container.same_stopped running) rfl
  | start _ found active _ _ _ _ _ => exact .changed found (Container.same_started active) rfl
  | remove _ _ found active _ _ _ => exact .changed found (Container.same_removed active) rfl
  | drop _ found active _ _ => exact .changed found (Container.same_removed active) rfl

theorem Move.images_cases (h : Move terms x y) :
    y.images = x.images ∨ ∃ i : Image, y.images = x.images.insert i.key i := by
  cases h with
  | image _ _ _ => exact .inr ⟨_, rfl⟩
  | _ => exact .inl rfl

/-- An id that is handed out now is not the id of a container yet. -/
theorem Scene.Agrees.fresh (h : x.Agrees limit) {id : String} {v : Supply}
    (hid : Supply.Hands x.supply id v) (hv : v.drawn ≤ limit) : x.containers.get? id = none := by
  obtain ⟨n, h1, h2, rfl⟩ := hid
  exact h.spare h1 (Nat.le_trans h2 hv)

theorem NamesApart.insert {containers : Table Container} {c : Container}
    (h : NamesApart containers)
    (hc : c.isActive = true → ∀ ⦃k d⦄, containers.get? k = some d → d.isActive = true →
      d.name = c.name → k = c.id) : NamesApart (containers.insert c.id c) := by
  intro k k' a a' hk hk' ha ha' hn
  rw [Table.get?_insert] at hk hk'
  split at hk
  · next he =>
    cases hk
    split at hk'
    · next he' => rw [he, he']
    · rw [he]
      exact (hc ha hk' ha' hn.symm).symm
  · split at hk'
    · next he' =>
      cases hk'
      rw [he']
      exact hc ha' hk ha hn
    · exact h hk hk' ha ha' hn

/-- **A move keeps the tables in agreement.** -/
theorem Move.agrees (h : Move terms x y) (hx : x.Agrees limit)
    (hl : limit ≤ x.supply.drawn + idLimit) : y.Agrees limit := by
  have hle := h.supply_le.drawn
  have himages : ∀ ⦃key i⦄, y.images.get? key = some i → i.key = key := by
    intro key i hi
    rcases h.images_cases with he | ⟨j, he⟩
    · rw [he] at hi
      exact hx.images hi
    · rw [he, Table.get?_insert] at hi
      split at hi
      · next hk =>
        cases hi
        exact hk.symm
      · exact hx.images hi
  cases h.turnover with
  | none same =>
    refine ⟨himages, ?_, ?_, ?_⟩
    · rw [same]
      exact hx.containers
    · rw [same]
      exact hx.names
    · rw [same]
      exact fun n h1 h2 => hx.spare (Nat.lt_of_le_of_lt hle h1) h2
  | @added c v free id le new =>
    refine ⟨himages, ?_, ?_, ?_⟩
    · intro key d hd
      rw [new, Table.get?_insert] at hd
      split at hd
      · next hk =>
        cases hd
        exact hk.symm
      · exact hx.containers hd
    · rw [new]
      exact hx.names.insert fun _ k d hd ha hn => absurd hn (isNameTaken_eq_false_iff.1 free hd ha)
    · intro n h1 h2
      obtain ⟨m, hm, hmv, hid⟩ := id
      have hmn : m < n := Nat.lt_of_le_of_lt (Nat.le_trans hmv le.drawn) h1
      have hne : Supply.hexText 12 n ≠ c.id := by
        rw [hid]
        refine (Supply.hexText_ne hmn ?_).symm
        unfold idLimit at hl
        omega
      rw [new, Table.get?_insert_of_ne _ _ hne]
      exact hx.spare (Nat.lt_of_le_of_lt hle h1) h2
  | @changed key c d found same new =>
    have hkey : d.id = key := same.id.trans (hx.containers found)
    refine ⟨himages, ?_, ?_, ?_⟩
    · intro k e he
      rw [new, Table.get?_insert] at he
      split at he
      · next hk =>
        cases he
        exact hk.symm
      · exact hx.containers he
    · rw [new]
      refine hx.names.insert fun ha k e he hea hn => ?_
      rw [hkey]
      exact hx.names he found hea (same.active ha) (hn.trans same.name)
    · intro n h1 h2
      have hnone := hx.spare (Nat.lt_of_le_of_lt hle h1) h2
      have hne : Supply.hexText 12 n ≠ d.id := by
        rintro he
        rw [he, hkey, found] at hnone
        cases hnone
      rw [new, Table.get?_insert_of_ne _ _ hne]
      exact hnone

theorem Moves.agrees (h : Moves terms x y) (hx : x.Agrees limit)
    (hl : limit ≤ x.supply.drawn + idLimit) : y.Agrees limit := by
  induction h with
  | refl => exact hx
  | tail hm h ih =>
    have hle := (Moves.supply_le hm).drawn
    exact h.agrees ih (by omega)

/-- No container is ever forgotten. -/
theorem Moves.contains (h : Moves terms x y) {id : String}
    (hx : x.containers.contains id = true) : y.containers.contains id = true := by
  induction h with
  | refl => exact hx
  | tail _ h ih =>
    cases h.turnover with
    | none same => rwa [same]
    | added _ _ _ new =>
      rw [new]
      exact contains_insert_of_contains ih
    | changed _ _ new =>
      rw [new]
      exact contains_insert_of_contains ih

end DockerSim
