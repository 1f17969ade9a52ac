import DockerSim.Proofs.Codec
import DockerSim.Proofs.Moves.Basic

/-!
# Moves keep states storable

Whatever a move makes can be written: sizes and ports are in range, the times that are shown lie
between the beginning of the clock and where it stands, and the payload of an event is in order. So
states stay storable for as long as the clock stands in the calendar and the numbers of lines fit in
64 bits.
-/

namespace DockerSim

open Command Json

/-! ## Times -/

/-- The clock stands in the calendar. It cannot be read outside of it. -/
def Supply.InCalendar (u : Supply) : Prop := Instant.inRange u.clock.date.year = true

/-- An instant between two others is not in a later or an earlier year. -/
theorem Instant.inRange_of_between {s t : Instant} (hs : Supply.fresh.clock.seconds ≤ s.seconds)
    (hst : s.seconds ≤ t.seconds) (ht : inRange t.date.year = true) :
    inRange s.date.year = true := by
  have hday : Supply.fresh.clock.seconds / secondsPerDay ≤ s.seconds / secondsPerDay :=
    Int.ediv_le_ediv (by decide) hs
  have hday' : s.seconds / secondsPerDay ≤ t.seconds / secondsPerDay :=
    Int.ediv_le_ediv (by decide) hst
  have hlow := CivilDate.year_mono hday
  have hhigh := CivilDate.year_mono hday'
  have hfresh : (CivilDate.ofDays (Supply.fresh.clock.seconds / secondsPerDay)).year = 2024 := by
    decide
  unfold inRange date at *
  simp only [Bool.and_eq_true, decide_eq_true_eq] at *
  omega

theorem Supply.InCalendar.of_le {u v : Supply} (hv : v.InCalendar) (hu : Supply.fresh ≤ u)
    (h : u ≤ v) : u.InCalendar :=
  Instant.inRange_of_between hu.seconds h.seconds hv

/-- A time that was shown is proper. -/
theorem Supply.Shows.proper {u v : Supply} {t : Instant} (h : Supply.Shows u t v)
    (hu : Supply.fresh ≤ u) (hv : v.InCalendar) : t.Proper where
  inCalendar :=
    Instant.inRange_of_between (Int.le_trans hu.seconds (Int.le_of_lt h.after)) h.upTo hv
  fraction := by
    have hnanos : t.nanos = 0 := h.nanos.trans hu.nanos
    left
    rw [hnanos]
    decide

/-! ## Events -/

/-- The records that are told about fit in what is written. -/
def Notice.Storable : Notice → Prop
  | pullComplete i | buildComplete i => i.Storable
  | buildStep _ total => total < UInt64.size
  | buildFailed _ errors | stackFailed _ errors => ∀ f ∈ errors, f.line < UInt64.size
  | created c => c.Storable
  | bound c | released c => ∀ p ∈ c.ports, p.Storable
  | _ => True

theorem Finding.printable_toJson {room : Nat} {f : Finding} (h : f.line < UInt64.size) :
    Printable (room + 1) f.toJson := by
  have hfirst : firstColumn < UInt64.size := by decide
  have hlast : lastColumn < UInt64.size := by decide
  unfold toJson
  rw [printable_obj]
  intro e he
  rcases List.mem_append.1 he with he | he
  · simp only [List.mem_cons, List.not_mem_nil, or_false] at he
    rcases he with rfl | rfl | rfl | rfl | rfl | rfl | rfl | rfl <;> simp [h, hfirst, hlast]
  · obtain ⟨fix, -, rfl⟩ := List.mem_map.1 he
    exact printable_str fix

theorem printable_portsJson {room : Nat} {ports : List PortMapping}
    (h : ∀ p ∈ ports, p.Storable) : Printable (room + 2) (portsJson ports) :=
  printable_map.2 fun p hp => PortMapping.printable_toJson (h p hp)

theorem printable_findings {room : Nat} {errors : List Finding}
    (h : ∀ f ∈ errors, f.line < UInt64.size) :
    Printable (room + 2) (.arr (errors.map Finding.toJson)) :=
  printable_map.2 fun f hf => Finding.printable_toJson (h f hf)

theorem Notice.printable_payload {n : Notice} (h : n.Storable) (room : Nat) :
    Printable (room + 4) n.payload := by
  unfold payload
  cases n with
  | pullComplete i => simp [printable_obj, Image.printable_toJson h]
  | buildComplete i => simp [printable_obj, Image.printable_toJson h]
  | buildStep name total =>
    have htotal : total < UInt64.size := h
    simp [printable_obj, htotal]
  | buildFailed name errors => simp [printable_obj, printable_findings h]
  | created c => simp [printable_obj, Container.printable_toJson h]
  | bound c => simp [printable_obj, printable_portsJson h]
  | released c => simp [printable_obj, printable_portsJson h]
  | stackFailed path errors => simp [printable_obj, printable_findings h]
  | _ => simp [printable_obj]

theorem storable_of_draw {n : Notice} {summary : String} {e : Event} {u v : Supply}
    (h : Event.draw n.kind n.payload summary u = (e, v)) (hn : n.Storable)
    (hu : Supply.fresh ≤ u) (hv : v.InCalendar) : e.Storable := by
  unfold Event.draw at h
  simp only [Draw.bind_eq_iff, Draw.pure_eq_iff] at h
  obtain ⟨id, w, hid, time, x, htime, rfl, rfl⟩ := h
  have hw : Supply.fresh ≤ w := Supply.le_trans hu (Supply.uuid_advances hid)
  exact ⟨(Supply.shows_of_now htime).proper hw hv, canonical_canonical _,
    fun room => (Notice.printable_payload hn room).canonical⟩

/-- **Events that are drawn for storable records are storable.** -/
theorem Drawn.storable {u v : Supply} {ns : List Notice} {es : List Event} (h : Drawn u ns es v)
    (hns : ∀ n ∈ ns, n.Storable) (hu : Supply.fresh ≤ u) (hv : v.InCalendar) :
    ∀ e ∈ es, e.Storable := by
  induction h with
  | nil _ => exact fun _ he => absurd he List.not_mem_nil
  | @cons u v w x n ns summary e es hle hd hrest ih =>
    have hfresh : Supply.fresh ≤ v := Supply.le_trans hu hle
    have hfresh' : Supply.fresh ≤ w := Supply.le_trans hfresh (eventDraw_advances _ _ _ hd)
    intro e' he'
    rcases List.mem_cons.1 he' with rfl | he'
    · exact storable_of_draw hd (hns n List.mem_cons_self) hfresh (hv.of_le hfresh' hrest.le)
    · exact ih (fun m hm => hns m (List.mem_cons_of_mem _ hm)) hfresh' hv e' he'

/-! ## Notices of moves -/

variable {lines : Nat → Prop} {i : Image} {c : Container} {n : Notice} {ns : List Notice}

theorem Notice.Aside.storable (h : n.Aside lines) (hlines : ∀ k, lines k → k < UInt64.size) :
    n.Storable := by
  cases n with
  | buildFailed _ _ => exact fun f hf => hlines _ (h f hf)
  | stackFailed _ _ => exact fun f hf => hlines _ (h f hf)
  | ran _ _ => trivial
  | _ => exact absurd h id

theorem Notice.ifPorts_storable {m : Notice} (h : m.Storable) : ∀ n ∈ ifPorts c m, n.Storable := by
  unfold ifPorts
  split
  · exact fun _ hn => absurd hn List.not_mem_nil
  · exact List.forall_mem_singleton.2 h

theorem Notice.OfImage.storable (h : OfImage lines i ns) (hi : i.Storable)
    (hlines : ∀ k, lines k → k < UInt64.size) : ∀ n ∈ ns, n.Storable := by
  cases h with
  | pulled =>
    rw [List.forall_mem_cons, List.forall_mem_singleton]
    exact ⟨trivial, hi⟩
  | built name total few =>
    rw [List.forall_mem_cons, List.forall_mem_singleton]
    exact ⟨hlines _ few, hi⟩

theorem Notice.OfCreate.storable (h : OfCreate c ns) (hc : c.Storable) :
    ∀ n ∈ ns, n.Storable := by
  cases h with
  | run =>
    have hbound : ∀ n ∈ ifPorts c (.bound c), n.Storable := ifPorts_storable hc.ports
    rw [List.cons_append, List.forall_mem_cons, List.forall_mem_append, List.forall_mem_singleton]
    exact ⟨hc, hbound, trivial⟩
  | service service i => exact List.forall_mem_singleton.2 trivial

theorem Notice.OfStart.storable (h : OfStart c ns) (hc : c.Storable) : ∀ n ∈ ns, n.Storable := by
  cases h with
  | start =>
    have hbound : ∀ n ∈ ifPorts c (.bound c), n.Storable := ifPorts_storable hc.ports
    rw [List.forall_mem_append, List.forall_mem_singleton]
    exact ⟨hbound, trivial⟩
  | service service i => exact List.forall_mem_singleton.2 trivial

theorem Notice.OfRemove.storable (h : OfRemove c ns) (hc : c.Storable) : ∀ n ∈ ns, n.Storable := by
  cases h with
  | rm =>
    have hreleased : ∀ n ∈ ifPorts c (.released c), n.Storable := ifPorts_storable hc.ports
    rw [List.forall_mem_append, List.forall_mem_singleton]
    exact ⟨hreleased, trivial⟩
  | service service => exact List.forall_mem_singleton.2 trivial

/-! ## Moves -/

/-- What the moves are about can be written. -/
structure Scene.Storable (x : Scene) : Prop where
  images : ∀ ⦃key i⦄, x.images.get? key = some i → i.Storable
  containers : ∀ ⦃key c⦄, x.containers.get? key = some c → c.Storable
  log : ∀ e ∈ x.log, e.Storable

variable {terms : Terms} {x y : Scene}

/-- A container that was created is storable. -/
theorem Container.Made.storable {bound : Table String} {u v : Supply} (h : c.Made u v)
    (claimed : Claimed bound c.ports) (hu : Supply.fresh ≤ u) (hv : v.InCalendar) :
    c.Storable where
  ports := fun p hp => ⟨(claimed.inRange p hp).1, (claimed.inRange p hp).2⟩
  created := h.created.proper hu hv
  started := by
    intro t ht
    rw [h.started] at ht
    cases ht
    exact h.created.proper hu hv
  stopped := by
    intro t ht
    rw [h.unstopped] at ht
    cases ht

theorem StoppedAt.properIf {u v : Supply} {time : Option Instant} (h : StoppedAt c u time v)
    (hu : Supply.fresh ≤ u) (hv : v.InCalendar) : Instant.ProperIf time := by
  unfold StoppedAt at h
  intro t ht
  split at h
  · obtain ⟨t', he, hshows⟩ := h
    rw [he] at ht
    cases ht
    exact hshows.proper hu hv
  · rw [h.1] at ht
    cases ht

theorem Container.Storable.stoppedAt (h : c.Storable) {t : Instant} (ht : t.Proper) :
    (c.stopped t).Storable where
  ports := h.ports
  created := h.created
  started := h.started
  stopped := fun _ he => Option.some.inj he ▸ ht

theorem Container.Storable.startedAt (h : c.Storable) {t : Instant} (output : List String)
    (ht : t.Proper) : (c.started t output).Storable where
  ports := h.ports
  created := h.created
  started := fun _ he => Option.some.inj he ▸ ht
  stopped := fun _ he => nomatch he

theorem Container.Storable.removedAt (h : c.Storable) {time : Option Instant}
    (ht : Instant.ProperIf time) : (c.removed time).Storable where
  ports := h.ports
  created := h.created
  started := h.started
  stopped := by
    intro t he
    rcases (Option.orElse_eq_some _ _ _).1 he with he | ⟨-, he⟩
    · exact ht t he
    · exact h.stopped t he

/-- The images of a scene stay storable, whatever is told. -/
theorem Move.images_storable (h : Move terms x y)
    (hx : ∀ ⦃key i⦄, x.images.get? key = some i → i.Storable) (hfresh : Supply.fresh ≤ x.supply)
    (hy : y.supply.InCalendar) : ∀ ⦃key i⦄, y.images.get? key = some i → i.Storable := by
  cases h with
  | image made about told =>
    have hv := hy.of_le (Supply.le_trans hfresh made.time.le) told.le
    exact Table.forall_get?_insert ⟨made.size, made.time.proper hfresh hv⟩ hx
  | _ => exact hx

theorem Moves.images_storable (h : Moves terms x y)
    (hx : ∀ ⦃key i⦄, x.images.get? key = some i → i.Storable) (hfresh : Supply.fresh ≤ x.supply)
    (hy : y.supply.InCalendar) : ∀ ⦃key i⦄, y.images.get? key = some i → i.Storable := by
  induction h with
  | refl => exact hx
  | tail hm h ih =>
    have hle := Supply.le_trans hfresh (Moves.supply_le hm)
    exact h.images_storable (ih (hy.of_le hle h.supply_le)) hle hy

/-- **A move keeps a scene storable.** -/
theorem Move.storable (h : Move terms x y) (hlines : ∀ k, terms.lines k → k < UInt64.size)
    (hx : x.Storable) (hfresh : Supply.fresh ≤ x.supply) (hy : y.supply.InCalendar) :
    y.Storable := by
  -- A time that a move shows lies before the events of the move are drawn, and these end in `y`.
  have later : ∀ {v : Supply}, x.supply ≤ v → Supply.fresh ≤ v :=
    fun hv => Supply.le_trans hfresh hv
  cases h with
  | pass aside told =>
    have hes := told.storable (fun n hn => (aside n hn).storable hlines) hfresh hy
    exact ⟨hx.images, hx.containers, List.forall_mem_append.2 ⟨hx.log, hes⟩⟩
  | image made about told =>
    have hv := hy.of_le (later made.time.le) told.le
    have hi : Image.Storable _ := ⟨made.size, made.time.proper hfresh hv⟩
    have hes := told.storable (about.storable hi hlines) (later made.time.le) hy
    exact ⟨Table.forall_get?_insert hi hx.images, hx.containers,
      List.forall_mem_append.2 ⟨hx.log, hes⟩⟩
  | create creating free claimed made about told =>
    have hv := hy.of_le (later made.created.le) told.le
    have hc := made.storable claimed hfresh hv
    have hes := told.storable (about.storable hc) (later made.created.le) hy
    exact ⟨hx.images, Table.forall_get?_insert hc hx.containers,
      List.forall_mem_append.2 ⟨hx.log, hes⟩⟩
  | stop keeping found running time told =>
    have hold := hx.containers found
    have ht := time.proper hfresh (hy.of_le (later time.le) told.le)
    have hes := told.storable (List.forall_mem_cons.2
      ⟨trivial, Notice.ifPorts_storable (m := .released _) hold.ports⟩) (later time.le) hy
    exact ⟨hx.images, Table.forall_get?_insert (hold.stoppedAt ht) hx.containers,
      List.forall_mem_append.2 ⟨hx.log, hes⟩⟩
  | start other found active idle unheld time about told =>
    have hold := hx.containers found
    have ht := time.proper hfresh (hy.of_le (later time.le) told.le)
    have hes := told.storable (about.storable hold) (later time.le) hy
    exact ⟨hx.images, Table.forall_get?_insert (hold.startedAt _ ht) hx.containers,
      List.forall_mem_append.2 ⟨hx.log, hes⟩⟩
  | remove keeping other found active time about told =>
    have hold := hx.containers found
    have hes := told.storable (about.storable hold) (later time.le) hy
    have ht : Instant.ProperIf _ := time.properIf hfresh (hy.of_le (later time.le) told.le)
    exact ⟨hx.images, Table.forall_get?_insert (hold.removedAt ht) hx.containers,
      List.forall_mem_append.2 ⟨hx.log, hes⟩⟩
  | drop allowed found active idle told =>
    have hold := hx.containers found
    have hes := told.storable (List.forall_mem_singleton.2 trivial) hfresh hy
    have hc : (Container.removed _ none).Storable := hold.removedAt fun t he => nomatch he
    exact ⟨hx.images, Table.forall_get?_insert hc hx.containers,
      List.forall_mem_append.2 ⟨hx.log, hes⟩⟩

/-- **Moves keep a scene storable**, for as long as the clock stands in the calendar. -/
theorem Moves.storable (h : Moves terms x y) (hlines : ∀ k, terms.lines k → k < UInt64.size)
    (hx : x.Storable) (hfresh : Supply.fresh ≤ x.supply) (hy : y.supply.InCalendar) :
    y.Storable := by
  induction h with
  | refl => exact hx
  | tail hm h ih =>
    have hle := Supply.le_trans hfresh (Moves.supply_le hm)
    exact h.storable hlines (ih (hy.of_le hle h.supply_le)) hle hy

end DockerSim
