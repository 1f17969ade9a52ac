import DockerSim.Proofs.Digits
import DockerSim.Proofs.Reached

/-!
# Times along a run

The clock moves on at every reading, and what is read is stored in records and in the log. So the
times of a reached state are in order: the log tells of one instant after the other, a container was
created before it was started and started before it was stopped, and nothing is dated later than the
clock (`Reached.times_ordered`). No event has the id of another one.

The log of a reached state is drawn event by event from the first supply on (`Chronicle`), which
says both how its times and how its ids follow each other. For the rest the proof goes move by move.
-/

namespace DockerSim

open Command

/-! ## Instants in order -/

namespace Instant

instance : LT Instant := ⟨fun s t => s.before t = true⟩

instance : LE Instant := ⟨fun s t => t.before s = false⟩

variable {r s t : Instant}

theorem lt_iff : s < t ↔ s.seconds < t.seconds ∨ s.seconds = t.seconds ∧ s.nanos < t.nanos := by
  show s.before t = true ↔ _
  simp [before]

theorem le_iff : s ≤ t ↔ s.seconds < t.seconds ∨ s.seconds = t.seconds ∧ s.nanos ≤ t.nanos := by
  show t.before s = false ↔ _
  simp only [before, Bool.or_eq_false_iff, Bool.and_eq_false_iff, decide_eq_false_iff_not,
    beq_eq_false_iff_ne]
  omega

theorem le_refl (t : Instant) : t ≤ t := le_iff.2 (.inr ⟨rfl, Nat.le_refl _⟩)

theorem le_of_lt (h : s < t) : s ≤ t := by
  rw [lt_iff] at h
  rw [le_iff]
  omega

theorem le_trans (h : r ≤ s) (h' : s ≤ t) : r ≤ t := by
  rw [le_iff] at *
  omega

theorem lt_of_le_of_lt (h : r ≤ s) (h' : s < t) : r < t := by
  rw [le_iff] at h
  rw [lt_iff] at *
  omega

end Instant

namespace Supply

variable {u v : Supply} {t : Instant}

theorem clock_le (h : u ≤ v) : u.clock ≤ v.clock := by
  have hseconds := h.seconds
  have hnanos := h.nanos
  rw [Instant.le_iff]
  omega

theorem Shows.clock_lt (h : Shows u t v) : u.clock < t := Instant.lt_iff.2 (.inl h.after)

theorem Shows.le_clock (h : Shows u t v) : t ≤ v.clock := by
  have hseconds := h.upTo
  have hnanos := h.nanos
  have hsame := h.le.nanos
  rw [Instant.le_iff]
  omega

end Supply

/-! ## Times of records -/

/-- The times of a record of a container. -/
def Container.times (c : Container) : List Instant :=
  c.createdAt :: (c.startedAt.toList ++ c.stoppedAt.toList)

/-- The times of the records that a notice is about, as they are written to the log. -/
def Notice.times : Notice → List Instant
  | .pullComplete i | .buildComplete i => [i.createdAt]
  | .created c => c.times
  | _ => []

/-- All times of records and events. -/
def State.times (s : State) : List Instant :=
  s.images.values.map Image.createdAt ++ s.containers.values.flatMap Container.times ++
    s.eventLog.map Event.time

/-- The times of a container are in order: it was started when it was created or later, it has no
time of a stop while it is running, and the one it has afterwards is later than its last start. -/
structure Container.Ordered (c : Container) : Prop where
  begun : c.status ≠ .created
  started : ∃ t, c.startedAt = some t ∧ c.createdAt ≤ t
  running : c.status = .running → c.stoppedAt = none
  ended : c.status = .stopped ∨ c.status = .removed →
    ∃ t t', c.startedAt = some t ∧ c.stoppedAt = some t' ∧ t < t'

/-! ## Events that are drawn one after the other -/

namespace Drawn

variable {u v : Supply} {ns : List Notice} {es : List Event}

theorem shows_of_draw {kind : EventKind} {payload : Json} {summary : String} {e : Event}
    (h : Event.draw kind payload summary u = (e, v)) :
    Supply.Shows u e.time v ∧ e.id = Supply.uuidText (u.drawn + 1) ∧ u.drawn + 1 ≤ v.drawn := by
  unfold Event.draw at h
  simp only [Draw.bind_eq_iff, Draw.pure_eq_iff] at h
  obtain ⟨id, w, hid, time, x, htime, rfl, rfl⟩ := h
  have hle := Supply.uuid_advances hid
  obtain ⟨rfl, rfl⟩ := Supply.uuid_eq_iff.1 hid
  have hshows := Supply.shows_of_now htime
  exact ⟨hshows.mono hle (Supply.le_refl _), rfl, hshows.le.drawn⟩

theorem shows (h : Drawn u ns es v) : ∀ e ∈ es, Supply.Shows u e.time v := by
  induction h with
  | nil _ => exact fun _ he => nomatch he
  | cons hle hd hrest ih =>
    have hw := eventDraw_advances _ _ _ hd
    refine List.forall_mem_cons.2 ⟨(shows_of_draw hd).1.mono hle hrest.le, fun e he => ?_⟩
    exact (ih e he).mono (Supply.le_trans hle hw) (Supply.le_refl _)

/-- **The events are dated one after the other.** -/
theorem times_increase (h : Drawn u ns es v) : es.Pairwise fun a b => a.time < b.time := by
  induction h with
  | nil _ => exact .nil
  | cons hle hd hrest ih =>
    refine List.pairwise_cons.2 ⟨fun e he => ?_, ih⟩
    exact Instant.lt_of_le_of_lt (shows_of_draw hd).1.le_clock (hrest.shows e he).clock_lt

/-- The id of an event is made from a number that is drawn on the way. -/
theorem numbered (h : Drawn u ns es v) :
    ∀ e ∈ es, ∃ n, u.drawn < n ∧ n ≤ v.drawn ∧ e.id = Supply.uuidText n := by
  induction h with
  | nil _ => exact fun _ he => nomatch he
  | cons hle hd hrest ih =>
    obtain ⟨-, hid, hdrawn⟩ := shows_of_draw hd
    have hu := hle.drawn
    have hx := hrest.le.drawn
    refine List.forall_mem_cons.2 ⟨⟨_, by omega, by omega, hid⟩, fun e he => ?_⟩
    obtain ⟨n, hn, hn', hid'⟩ := ih e he
    exact ⟨n, by omega, hn', hid'⟩

/-- **The events have different ids**, as long as the numbers fit in the digits of an id. -/
theorem ids_differ (h : Drawn u ns es v) (hv : v.drawn ≤ u.drawn + Nat.pow 16 32) :
    es.Pairwise fun a b => a.id ≠ b.id := by
  induction h with
  | nil _ => exact .nil
  | cons hle hd hrest ih =>
    obtain ⟨-, hid, hdrawn⟩ := shows_of_draw hd
    have hu := hle.drawn
    refine List.pairwise_cons.2 ⟨fun e he => ?_, ih (by omega)⟩
    obtain ⟨n, hn, hn', hid'⟩ := hrest.numbered e he
    rw [hid, hid']
    exact Supply.uuidText_ne (by omega) (by omega)

/-- Every event tells of one of the notices. -/
theorem tells (h : Drawn u ns es v) :
    ∀ e ∈ es, ∃ n ∈ ns, e.kind = n.kind ∧ e.payload = n.payload.canonical := by
  induction h with
  | nil _ => exact fun _ he => nomatch he
  | cons _ hd _ ih =>
    refine List.forall_mem_cons.2 ⟨⟨_, List.mem_cons_self, Event.of_draw hd⟩, fun e he => ?_⟩
    obtain ⟨n, hn, htells⟩ := ih e he
    exact ⟨n, List.mem_cons_of_mem _ hn, htells⟩

end Drawn

/-! ## Moves -/

/-- The log was drawn from the first supply on, for notices about records that are not later than
the clock. -/
def Chronicle (log : List Event) (u : Supply) : Prop :=
  ∃ ns, Drawn .fresh ns log u ∧ ∀ n ∈ ns, ∀ t ∈ n.times, t ≤ u.clock

/-- Times are in order, and none is later than the clock. -/
structure Scene.Timely (x : Scene) : Prop where
  images : ∀ ⦃key i⦄, x.images.get? key = some i → i.createdAt ≤ x.supply.clock
  containers : ∀ ⦃key c⦄, x.containers.get? key = some c →
    c.Ordered ∧ ∀ t ∈ c.times, t ≤ x.supply.clock
  log : Chronicle x.log x.supply

variable {u v w : Supply} {log es : List Event} {ns : List Notice} {c : Container} {i : Image}
  {t : Instant}

theorem Chronicle.append (h : Chronicle log u) (huv : u ≤ v) (told : Drawn v ns es w)
    (hns : ∀ n ∈ ns, ∀ t ∈ n.times, t ≤ v.clock) : Chronicle (log ++ es) w := by
  obtain ⟨ms, hlog, hms⟩ := h
  have hvw := Supply.clock_le told.le
  have huw := Instant.le_trans (Supply.clock_le huv) hvw
  refine ⟨ms ++ ns, hlog.append (told.mono huv (Supply.le_refl _)), fun n hn t ht => ?_⟩
  rcases List.mem_append.1 hn with hn | hn
  · exact Instant.le_trans (hms n hn t ht) huw
  · exact Instant.le_trans (hns n hn t ht) hvw

/-! ### What is told of records -/

namespace Notice

variable {lines : Nat → Prop} {n m : Notice}

theorem mem_ifPorts (h : n ∈ ifPorts c m) : n = m := by
  unfold ifPorts at h
  split at h
  · cases h
  · exact List.mem_singleton.1 h

theorem untimed_ports (hn : n.times = []) (hm : m.times = []) :
    ∀ k ∈ ifPorts c n ++ [m], k.times = [] := by
  intro k hk
  rcases List.mem_append.1 hk with hk | hk
  · rw [mem_ifPorts hk, hn]
  · rw [List.mem_singleton.1 hk, hm]

theorem Aside.times (h : n.Aside lines) : n.times = [] := by
  cases n <;> first | rfl | exact absurd h id

theorem OfImage.times (h : OfImage lines i ns) : ∀ n ∈ ns, ∀ t ∈ n.times, t = i.createdAt := by
  cases h <;> simp [Notice.times]

theorem OfCreate.times (h : OfCreate c ns) : ∀ n ∈ ns, ∀ t ∈ n.times, t ∈ c.times := by
  cases h with
  | run =>
    intro n hn t ht
    rcases List.mem_cons.1 hn with rfl | hn
    · exact ht
    · rw [untimed_ports rfl rfl n hn] at ht
      cases ht
  | service service i => simp [Notice.times]

theorem OfStart.times (h : OfStart c ns) : ∀ n ∈ ns, n.times = [] := by
  cases h with
  | start => exact untimed_ports rfl rfl
  | service service i => simp [Notice.times]

theorem OfRemove.times (h : OfRemove c ns) : ∀ n ∈ ns, n.times = [] := by
  cases h with
  | rm => exact untimed_ports rfl rfl
  | service service => simp [Notice.times]

end Notice

/-- Notices without times. -/
theorem Chronicle.append_untimed (h : Chronicle log u) (huv : u ≤ v) (told : Drawn v ns es w)
    (hns : ∀ n ∈ ns, n.times = []) : Chronicle (log ++ es) w :=
  h.append huv told fun n hn t ht => by
    rw [hns n hn] at ht
    cases ht

/-! ### Records that are changed -/

namespace Container

theorem Made.mem_times (h : c.Made u v) : ∀ t ∈ c.times, t = c.createdAt := by
  simp [times, h.started, h.unstopped]

theorem Made.ordered (h : c.Made u v) : c.Ordered where
  begun := by
    rw [h.status]
    exact Status.noConfusion
  started := ⟨_, h.started, Instant.le_refl _⟩
  running _ := h.unstopped
  ended hs := by
    rw [h.status] at hs
    rcases hs with hs | hs <;> cases hs

theorem mem_times_iff : t ∈ c.times ↔
    t = c.createdAt ∨ c.startedAt = some t ∨ c.stoppedAt = some t := by
  simp [times]

theorem Ordered.stoppedAt (h : c.Ordered) {time : Instant} (htime : ∀ t ∈ c.times, t < time) :
    (c.stopped time).Ordered where
  begun := Status.noConfusion
  started := h.started
  running := fun hs => nomatch hs
  ended _ := by
    obtain ⟨t, ht, -⟩ := h.started
    exact ⟨t, time, ht, rfl, htime t (mem_times_iff.2 (.inr (.inl ht)))⟩

/-- A container that is started again forgets its stop. -/
theorem Ordered.startedNow {time : Instant} (output : List String)
    (htime : ∀ t ∈ c.times, t < time) : (c.started time output).Ordered where
  begun := Status.noConfusion
  started := ⟨time, rfl, Instant.le_of_lt (htime _ (mem_times_iff.2 (.inl rfl)))⟩
  running _ := rfl
  ended hs := by rcases hs with hs | hs <;> cases hs

/-- A container that was running is removed with the time of its stop. -/
theorem Ordered.removedNow (h : c.Ordered) {time : Instant} (htime : ∀ t ∈ c.times, t < time) :
    (c.removed (some time)).Ordered where
  begun := Status.noConfusion
  started := h.started
  running := fun hs => nomatch hs
  ended _ := by
    obtain ⟨t, ht, -⟩ := h.started
    exact ⟨t, time, ht, rfl, htime t (mem_times_iff.2 (.inr (.inl ht)))⟩

/-- A container that was stopped keeps the time of its stop. -/
theorem Ordered.removedLater (h : c.Ordered) (active : c.isActive = true)
    (idle : ¬c.isRunning = true) : (c.removed none).Ordered where
  begun := Status.noConfusion
  started := h.started
  running := fun hs => nomatch hs
  ended _ := by
    have hbegun := h.begun
    have hstopped : c.status = .stopped := by
      unfold isActive at active
      unfold isRunning at idle
      cases hs : c.status <;> simp_all
    exact h.ended (.inl hstopped)

end Container

/-! ### Moves -/

variable {terms : Terms} {x y : Scene}

/-- A record that is put in place, in order and not later than the clock that goes on. -/
theorem Scene.Timely.insert (hx : x.Timely) {key : String} (hc : c.Ordered)
    (hw : x.supply ≤ w) (htimes : ∀ t ∈ c.times, t ≤ w.clock) :
    ∀ ⦃k d⦄, (x.containers.insert key c).get? k = some d →
      d.Ordered ∧ ∀ t ∈ d.times, t ≤ w.clock := by
  refine Table.forall_get?_insert ⟨hc, htimes⟩ fun k d hd => ?_
  obtain ⟨hordered, hold⟩ := hx.containers hd
  exact ⟨hordered, fun t ht => Instant.le_trans (hold t ht) (Supply.clock_le hw)⟩

theorem Scene.Timely.images_later (hx : x.Timely) (hw : x.supply ≤ w) :
    ∀ ⦃key i⦄, x.images.get? key = some i → i.createdAt ≤ w.clock :=
  fun _ _ hi => Instant.le_trans (hx.images hi) (Supply.clock_le hw)

theorem Scene.Timely.containers_later (hx : x.Timely) (hw : x.supply ≤ w) :
    ∀ ⦃key c⦄, x.containers.get? key = some c → c.Ordered ∧ ∀ t ∈ c.times, t ≤ w.clock := by
  intro key c hc
  obtain ⟨hordered, hold⟩ := hx.containers hc
  exact ⟨hordered, fun t ht => Instant.le_trans (hold t ht) (Supply.clock_le hw)⟩

/-- What is read from the clock now is later than every time of a container that is there. -/
theorem Scene.Timely.later (hx : x.Timely) {key : String} (found : x.containers.get? key = some c)
    {time : Instant} (shows : Supply.Shows x.supply time v) : ∀ t ∈ c.times, t < time :=
  fun t ht => Instant.lt_of_le_of_lt ((hx.containers found).2 t ht) shows.clock_lt

/-- **A move keeps times in order.** Every time that it stores is read from the clock after all that
are stored, and before the events of the move are drawn. -/
theorem Move.timely (h : Move terms x y) (hx : x.Timely) : y.Timely := by
  have hle := h.supply_le
  cases h with
  | pass aside told =>
    exact ⟨hx.images_later hle, hx.containers_later hle,
      hx.log.append_untimed (Supply.le_refl _) told fun n hn => (aside n hn).times⟩
  | image made about told =>
    have hclock := Supply.clock_le told.le
    refine ⟨Table.forall_get?_insert ?_ (hx.images_later hle), hx.containers_later hle,
      hx.log.append made.time.le told fun n hn t ht => ?_⟩
    · exact Instant.le_trans made.time.le_clock hclock
    · rw [about.times n hn t ht]
      exact made.time.le_clock
  | create creating free claimed made about told =>
    have htimes : ∀ t ∈ Container.times _, t ≤ _ := fun t ht =>
      made.mem_times t ht ▸ made.created.le_clock
    refine ⟨hx.images_later hle, hx.insert made.ordered hle fun t ht => ?_,
      hx.log.append made.created.le told fun n hn t ht => htimes t (about.times n hn t ht)⟩
    exact Instant.le_trans (htimes t ht) (Supply.clock_le told.le)
  | @stop _ c time _ v w keeping found running shows told =>
    have hclock := Instant.le_trans shows.le_clock (Supply.clock_le told.le)
    refine ⟨hx.images_later hle, hx.insert ((hx.containers found).1.stoppedAt
      (hx.later found shows)) hle fun t ht => ?_, hx.log.append_untimed shows.le told ?_⟩
    · rcases Container.mem_times_iff.1 ht with rfl | ht | ht
      · exact (hx.containers_later hle found).2 _ (Container.mem_times_iff.2 (.inl rfl))
      · exact (hx.containers_later hle found).2 _ (Container.mem_times_iff.2 (.inr (.inl ht)))
      · cases ht
        exact hclock
    · refine List.forall_mem_cons.2 ⟨rfl, fun n hn => ?_⟩
      rw [Notice.mem_ifPorts hn]
      rfl
  | @start _ c time output _ _ v w other found active idle unheld shows about told =>
    have hclock := Instant.le_trans shows.le_clock (Supply.clock_le told.le)
    refine ⟨hx.images_later hle, hx.insert (Container.Ordered.startedNow output
      (hx.later found shows)) hle fun t ht => ?_, hx.log.append_untimed shows.le told about.times⟩
    rcases Container.mem_times_iff.1 ht with rfl | ht | ht
    · exact (hx.containers_later hle found).2 _ (Container.mem_times_iff.2 (.inl rfl))
    · cases ht
      exact hclock
    · cases ht
  | @remove _ c time _ _ v w keeping other found active stopped about told =>
    have hold := (hx.containers_later hle found).2
    by_cases hr : c.isRunning = true
    · -- the stop of a running container is dated now
      obtain ⟨now, rfl, shows⟩ : ∃ now, time = some now ∧ Supply.Shows x.supply now v := by
        unfold StoppedAt at stopped
        rwa [if_pos hr] at stopped
      have hclock := Instant.le_trans shows.le_clock (Supply.clock_le told.le)
      refine ⟨hx.images_later hle, hx.insert ((hx.containers found).1.removedNow
        (hx.later found shows)) hle fun t ht => ?_, hx.log.append_untimed shows.le told about.times⟩
      rcases Container.mem_times_iff.1 ht with rfl | ht | ht
      · exact hold _ (Container.mem_times_iff.2 (.inl rfl))
      · exact hold _ (Container.mem_times_iff.2 (.inr (.inl ht)))
      · cases ht
        exact hclock
    · obtain ⟨rfl, hsupply⟩ : time = none ∧ x.supply ≤ v := by
        unfold StoppedAt at stopped
        rwa [if_neg hr] at stopped
      exact ⟨hx.images_later hle, hx.insert ((hx.containers found).1.removedLater active hr) hle
        hold, hx.log.append_untimed hsupply told about.times⟩
  | @drop _ c _ w allowed found active idle told =>
    have hr : ¬c.isRunning = true := by simp [idle]
    refine ⟨hx.images_later hle, hx.insert ((hx.containers found).1.removedLater active hr) hle
      (hx.containers_later hle found).2, hx.log.append_untimed (Supply.le_refl _) told ?_⟩
    exact List.forall_mem_singleton.2 rfl

/-- **Moves keep times in order.** -/
theorem Moves.timely (h : Moves terms x y) (hx : x.Timely) : y.Timely := by
  induction h with
  | refl => exact hx
  | tail _ h ih => exact h.timely ih

/-! ## Reached states -/

theorem timely_empty : (Scene.of .empty .fresh).Timely where
  images := fun _ _ h => nomatch h
  containers := fun _ _ h => nomatch h
  log := ⟨[], .nil (Supply.le_refl _), fun _ hn => nomatch hn⟩

namespace Reached

variable {s : State}

theorem timely (h : Reached s u) : (Scene.of s u).Timely := by
  obtain ⟨as, os, h⟩ := h
  refine State.submitAll_keeps (P := fun s u => (Scene.of s u).Timely) ?_ h timely_empty
  intro a s t o u v hr hs
  exact (a.leads_anyway hr).moves.timely hs

/-- **Times are in order in a reached state.** The log is dated by one instant after the other, and
as long as the numbers of the draws fit in an id, which those of 64 bits do, no two events have the
same id. The times of a container agree with its status. No time is later than the clock, and
neither is one in a record that the log tells of. -/
theorem times_ordered (h : Reached s u) :
    (s.eventLog.Pairwise fun a b => a.time < b.time) ∧
    (u.drawn ≤ Nat.pow 16 32 → s.eventLog.Pairwise fun a b => a.id ≠ b.id) ∧
    (∀ id c, s.containers.get? id = some c →
      (∃ t, c.startedAt = some t ∧ c.createdAt ≤ t) ∧
      (c.status = .running → c.stoppedAt = none) ∧
      (c.status = .stopped ∨ c.status = .removed →
        ∃ t t', c.startedAt = some t ∧ c.stoppedAt = some t' ∧ t < t')) ∧
    (∀ t ∈ s.times, t ≤ u.clock) ∧
    (∀ e ∈ s.eventLog, ∃ n : Notice, e.kind = n.kind ∧ e.payload = n.payload.canonical ∧
      ∀ t ∈ n.times, t ≤ u.clock) := by
  obtain ⟨himages, hcontainers, ns, hlog, hns⟩ := h.timely
  refine ⟨hlog.times_increase, fun hu => hlog.ids_differ ?_, fun id c hc => ?_, fun t ht => ?_,
    fun e he => ?_⟩
  · exact Nat.le_trans hu (Nat.le_add_left _ _)
  · obtain ⟨hordered, -⟩ := hcontainers hc
    exact ⟨hordered.started, hordered.running, hordered.ended⟩
  · unfold State.times at ht
    rcases List.mem_append.1 ht with ht | ht
    · rcases List.mem_append.1 ht with ht | ht
      · obtain ⟨i, hi, rfl⟩ := List.mem_map.1 ht
        obtain ⟨key, hkey⟩ := Table.mem_values_iff.1 hi
        exact himages hkey
      · obtain ⟨c, hc, ht⟩ := List.mem_flatMap.1 ht
        obtain ⟨key, hkey⟩ := Table.mem_values_iff.1 hc
        exact (hcontainers hkey).2 t ht
    · obtain ⟨e, he, rfl⟩ := List.mem_map.1 ht
      exact (hlog.shows e he).le_clock
  · obtain ⟨n, hn, hkind, hpayload⟩ := hlog.tells e he
    exact ⟨n, hkind, hpayload, hns n hn⟩

/-- Of three containers one goes on running after it was stopped and started again, one is stopped
and one is removed while it runs. -/
def threeFates : List Submission := [
  .ofLine "docker pull nginx",
  .ofLine "docker run -d -p 8080:80 --name web nginx",
  .ofLine "docker run -d --name job nginx",
  .ofLine "docker run -d --name old nginx",
  .ofLine "docker stop web job",
  .ofLine "docker start web",
  .ofLine "docker rm -f old"]

theorem times_ordered_threeFates :
    let r := State.empty.submitAll threeFates .fresh
    r.1.1.containers.values.map (fun c => (c.name, c.status)) =
        [("web", .running), ("job", .stopped), ("old", .removed)] ∧
      (r.1.1.eventLog.Pairwise fun a b => a.time < b.time) ∧
      (r.1.1.eventLog.Pairwise fun a b => a.id ≠ b.id) ∧
      ∀ t ∈ r.1.1.times, t ≤ r.2.clock := by
  have computed : (State.empty.submitAll threeFates .fresh).1.1.containers.values.map
      (fun c => (c.name, c.status)) =
        [("web", .running), ("job", .stopped), ("old", .removed)] ∧
      (State.empty.submitAll threeFates .fresh).2.drawn ≤ Nat.pow 16 32 := by decide +kernel
  obtain ⟨hfates, hdrawn⟩ := computed
  obtain ⟨htimes, hids, -, hclock, -⟩ := times_ordered (reached_submitAll threeFates)
  exact ⟨hfates, htimes, hids hdrawn, hclock⟩

end Reached

end DockerSim
