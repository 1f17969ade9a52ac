import DockerSim.Proofs.Journal
import DockerSim.Proofs.Moves.Agree
import DockerSim.Proofs.Moves.Stack

/-!
# What bringing up services achieves

A service is up when the container that is tracked for it runs and has its name (`isUp`). Bringing
up one service fails exactly when the service is not up afterwards, tells of the service exactly
when it was not up before and is up then, and leaves the other services as they were (`Raises`).
Along an order without repetitions this adds up (`Raises.cons`).

What carries this is that tracked containers have the names of their services (`Sound`). So no two
services share a container, and the id of a container that is made is not tracked for any other.
-/

namespace DockerSim

open Command Stack

/-- The container that is tracked for a service is running and has its name. -/
def Stack.isUp (tracked : Table String) (containers : Table Container) (service : String) : Bool :=
  ((tracked.get? service).bind containers.get?).any fun c => c.isRunning && c.name = service

/-- The events tell that services were started, one after the other. -/
def TellStarts (es : List Event) (services : List String) : Prop :=
  es.map (fun e => (e.kind, e.payload.text? "service")) =
    services.map fun service => (.composeServiceStarted, some service)

theorem tellStarts_of_drawn {u v : Supply} {es : List Event} {service id : String} {image : Image}
    (h : Drawn u [.serviceStarted service id image] es v) : TellStarts es [service] := by
  obtain ⟨e, rfl, hk, hp⟩ := h.eq_one
  unfold TellStarts
  rw [List.map_singleton, List.map_singleton, hk, hp]
  simp [Notice.kind, Notice.payload, Json.text?, Json.field?_canonical, Json.canonicalFields,
    Table.ofList, Table.get?_insert, Json.str?]

theorem TellStarts.append {es fs : List Event} {services others : List String}
    (h : TellStarts es services) (h' : TellStarts fs others) :
    TellStarts (es ++ fs) (services ++ others) := by
  unfold TellStarts at *
  rw [List.map_append, List.map_append, h, h']

namespace Stack.Progress

variable {p q : Stack.Progress} {service : String} {c : Container}

def isUp (p : Stack.Progress) : String → Bool := Stack.isUp p.tracked p.containers

theorem isUp_eq_false (h : ∀ c, p.tracked? service = some c → c.isRunning = false) :
    p.isUp service = false := by
  unfold isUp Stack.isUp
  cases hc : (p.tracked.get? service).bind p.containers.get? with
  | none => rfl
  | some c =>
    cases hr : c.isRunning with
    | false => simp [hr]
    | true =>
      have hfound : p.tracked? service = some c := by
        unfold tracked?
        rw [hc, Option.filter_some, if_pos (Container.isActive_of_isRunning hr)]
      rw [h c hfound] at hr
      cases hr

/-- The tables agree, and the containers that are tracked are there and have the names of their
services. -/
structure Sound (s : State) (limit : Nat) (p : Stack.Progress) (u : Supply) : Prop where
  agrees : (p.scene s u).Agrees limit
  named : ∀ ⦃service id⦄, p.tracked.get? service = some id →
    ∃ c, p.containers.get? id = some c ∧ c.name = service

/-- What bringing up some services does to them and to the others. -/
structure Raises (p : Stack.Progress) (services : List String) (q : Stack.Progress) : Prop where
  failed : q.failed = (p.failed || services.any fun n => !q.isUp n)
  others : ∀ ⦃other⦄, other ∉ services → q.isUp other = p.isUp other
  told : ∃ es, q.events = p.events ++ es ∧
    TellStarts es (services.filter fun n => !p.isUp n && q.isUp n)

/-- A service that runs already. -/
theorem raises_nothing (hfailed : q.failed = p.failed) (hup : q.isUp = p.isUp)
    (hevents : q.events = p.events) (h : p.isUp service = true) : p.Raises [service] q := by
  refine ⟨by simp [hfailed, hup, h], fun other _ => by rw [hup], [], by simp [hevents], ?_⟩
  simp [h, TellStarts]

/-- A service that cannot be brought up. -/
theorem raises_failed (hfailed : q.failed = true) (hup : q.isUp = p.isUp)
    (hevents : q.events = p.events) (h : p.isUp service = false) : p.Raises [service] q := by
  refine ⟨by simp [hfailed, hup, h], fun other _ => by rw [hup], [], by simp [hevents], ?_⟩
  simp [hup, TellStarts]

/-- A service that is up now, and was not before. -/
theorem raises_started {es : List Event} (hfailed : q.failed = p.failed)
    (hothers : ∀ ⦃other⦄, other ≠ service → q.isUp other = p.isUp other)
    (hevents : q.events = p.events ++ es) (htold : TellStarts es [service])
    (h : p.isUp service = false) (h' : q.isUp service = true) : p.Raises [service] q :=
  ⟨by simp [hfailed, h'], fun _ ho => hothers (by simpa using ho), es, hevents,
    by simpa [h, h'] using htold⟩

/-- One service is brought up, and then others. -/
theorem Raises.cons {t : Stack.Progress} {services : List String} (h : p.Raises [service] q)
    (h' : q.Raises services t) (hnew : service ∉ services) : p.Raises (service :: services) t := by
  have hup : t.isUp service = q.isUp service := h'.others hnew
  obtain ⟨es, hes, htold⟩ := h.told
  obtain ⟨fs, hfs, htold'⟩ := h'.told
  refine ⟨?_, ?_, es ++ fs, ?_, ?_⟩
  · rw [h'.failed, h.failed, List.any_cons, List.any_cons, List.any_nil, hup, Bool.or_false,
      Bool.or_assoc]
  · intro other ho
    rw [List.mem_cons, not_or] at ho
    rw [h'.others ho.2, h.others (by simpa using ho.1)]
  · rw [hfs, hes, List.append_assoc]
  · have hone : [service].filter (fun n => !p.isUp n && q.isUp n) =
        [service].filter fun n => !p.isUp n && t.isUp n := by
      refine List.filter_congr fun n hn => ?_
      rw [List.mem_singleton.1 hn, hup]
    have hrest : services.filter (fun n => !q.isUp n && t.isUp n) =
        services.filter fun n => !p.isUp n && t.isUp n := by
      refine List.filter_congr fun n hn => ?_
      have hne : n ∉ [service] := by
        rintro hmem
        rw [List.mem_singleton.1 hmem] at hn
        exact hnew hn
      rw [h.others hne]
    rw [hone] at htold
    rw [hrest] at htold'
    have happend := htold.append htold'
    rwa [← List.filter_append, List.singleton_append] at happend

/-- A container that is put in place leaves a service alone that it is not tracked for. -/
theorem isUp_insert {tracked : Table String} {containers : Table Container} {key : String}
    (h : ∀ ⦃id⦄, tracked.get? service = some id → id ≠ key) :
    Stack.isUp tracked (containers.insert key c) service =
      Stack.isUp tracked containers service := by
  unfold Stack.isUp
  cases ht : tracked.get? service with
  | none => rfl
  | some id => rw [Option.bind_some, Option.bind_some, Table.get?_insert_of_ne _ _ (h ht)]

namespace Sound

variable {s : State} {limit : Nat} {u : Supply}

/-- The active container of a service is tracked by its id and has the name of the service. -/
theorem found (hs : p.Sound s limit u) (h : p.tracked? service = some c) :
    p.tracked.get? service = some c.id ∧ p.containers.get? c.id = some c ∧ c.name = service := by
  obtain ⟨-, id, hid, hc⟩ := trackedContainer_spec h
  obtain ⟨d, hd, hname⟩ := hs.named hid
  have hcd : c = d := Option.some.inj (hc.symm.trans hd)
  subst hcd
  have hkey : c.id = id := hs.agrees.containers hc
  subst hkey
  exact ⟨hid, hc, hname⟩

/-- A container is tracked for no service but the one it is named after. -/
theorem service_eq (hs : p.Sound s limit u) (hc : p.containers.get? c.id = some c)
    (h : p.tracked.get? service = some c.id) : service = c.name := by
  obtain ⟨d, hd, hname⟩ := hs.named h
  rw [hc] at hd
  cases hd
  exact hname.symm

/-- The names stay when a container is put in place of one of the same name, or of none. -/
theorem named_insert (hs : p.Sound s limit u)
    (h : ∀ ⦃d⦄, p.containers.get? c.id = some d → c.name = d.name) ⦃service id : String⦄
    (hid : p.tracked.get? service = some id) :
    ∃ d, (p.containers.insert c.id c).get? id = some d ∧ d.name = service := by
  obtain ⟨d, hd, hname⟩ := hs.named hid
  by_cases hk : id = c.id
  · subst hk
    exact ⟨c, Table.get?_insert_self _ _ _, (h hd).trans hname⟩
  · exact ⟨d, (Table.get?_insert_of_ne _ _ hk).trans hd, hname⟩

end Sound

end Stack.Progress

/-! ## One service -/

open Stack.Progress (Sound Raises Works)

variable {terms : Terms} {s : State} {u v : Supply} {p q : Stack.Progress} {svc : Service}
  {image : Image} {detached : Bool} {limit : Nat}

/-- The containers that are tracked go on to have the names of their services. -/
theorem BringsUp.named (h : BringsUp detached p svc image u q v) (hs : p.Sound s limit u)
    (hv : v.drawn ≤ limit) ⦃service id : String⦄ (hid : q.tracked.get? service = some id) :
    ∃ c, q.containers.get? id = some c ∧ c.name = service := by
  cases h with
  | @restarted c _ _ found _ unheld made =>
    obtain ⟨-, hc, -⟩ := hs.found found
    obtain ⟨time, logs, event, u1, -, -, rfl⟩ := restart_spec unheld made
    refine hs.named_insert (c := c.started time logs) (fun d hd => ?_) hid
    have hcd : c = d := Option.some.inj (hc.symm.trans hd)
    rw [← hcd]
    rfl
  | created _ _ _ made =>
    obtain ⟨c, started, event, u1, hname, rfl, hmade, told, rfl⟩ := create_spec made
    have hfresh := hs.agrees.fresh hmade.id (Nat.le_trans told.le.drawn hv)
    replace hfresh : p.containers.get? c.id = none := hfresh
    rw [Table.get?_insert] at hid
    split at hid
    · next he =>
      cases hid
      exact ⟨c, Table.get?_insert_self _ _ _, hname.trans he.symm⟩
    · refine hs.named_insert (fun d hd => ?_) hid
      rw [hfresh] at hd
      cases hd
  | _ => exact hs.named hid

/-- **Bringing up a service fails, tells and changes what it should.** -/
theorem BringsUp.raises (h : BringsUp detached p svc image u q v) (hs : p.Sound s limit u)
    (hv : v.drawn ≤ limit) : p.Raises [svc.name] q := by
  have absent : p.tracked? svc.name = none → p.isUp svc.name = false := by
    refine fun ht => Stack.Progress.isUp_eq_false fun c hc => ?_
    rw [ht] at hc
    cases hc
  have idle : ∀ {c : Container}, p.tracked? svc.name = some c → c.isRunning = false →
      p.isUp svc.name = false := by
    refine fun ht hr => Stack.Progress.isUp_eq_false fun d hd => ?_
    rw [ht] at hd
    cases hd
    exact hr
  cases h with
  | already found running =>
    obtain ⟨hid, hc, hname⟩ := hs.found found
    refine Stack.Progress.raises_nothing rfl rfl rfl ?_
    simp [Stack.Progress.isUp, Stack.isUp, hid, hc, running, hname]
  | held found hr _ => exact Stack.Progress.raises_failed rfl rfl rfl (idle found hr)
  | nameTaken ht _ => exact Stack.Progress.raises_failed rfl rfl rfl (absent ht)
  | portTaken ht _ _ => exact Stack.Progress.raises_failed rfl rfl rfl (absent ht)
  | @restarted c _ _ found hr unheld made =>
    obtain ⟨hid, hc, hname⟩ := hs.found found
    obtain ⟨time, logs, event, u1, -, told, rfl⟩ := restart_spec unheld made
    refine Stack.Progress.raises_started rfl ?_ rfl (tellStarts_of_drawn told) (idle found hr) ?_
    · intro other hne
      refine Stack.Progress.isUp_insert fun id hother he => hne ?_
      rw [he] at hother
      exact (hs.service_eq hc hother).trans hname
    · simp [Stack.Progress.isUp, Stack.isUp, hid, Container.started, Container.isRunning, hname]
  | created ht free claimed made =>
    obtain ⟨c, started, event, u1, hname, rfl, hmade, told, rfl⟩ := create_spec made
    have hfresh := hs.agrees.fresh hmade.id (Nat.le_trans told.le.drawn hv)
    replace hfresh : p.containers.get? c.id = none := hfresh
    refine Stack.Progress.raises_started rfl ?_ rfl (tellStarts_of_drawn told) (absent ht) ?_
    · intro other hne
      have hsame : (p.tracked.insert svc.name c.id).get? other = p.tracked.get? other :=
        Table.get?_insert_of_ne _ _ hne
      show Stack.isUp (p.tracked.insert svc.name c.id) (p.containers.insert c.id c) other = _
      rw [Stack.Progress.isUp_insert]
      · unfold Stack.Progress.isUp Stack.isUp
        rw [hsame]
      · rintro id hid rfl
        obtain ⟨d, hd, -⟩ := hs.named (hsame ▸ hid)
        rw [hfresh] at hd
        cases hd
    · simp [Stack.Progress.isUp, Stack.isUp, Container.isRunning, hmade.status, hname]

/-! ## All services -/

/-- **Services that are brought up in an order fail, tell and change what they should.** -/
theorem bringUpAll_raises {services : List Service} {images : Table Image}
    (bringing : terms.bringsUp) :
    ∀ {order : List String} {p q : Stack.Progress} {u : Supply}, order.Nodup →
      (∀ name ∈ order, ∃ svc image,
        serviceWithImage services images name = some (svc, image) ∧ svc.name = name) →
      bringUpAll detached services images order p u = (q, v) → p.Sound s limit u →
      limit ≤ u.drawn + idLimit → v.drawn ≤ limit → p.Raises order q ∧ q.Sound s limit v
  | [], p, q, u, _, _, h, hs, _, _ => by
    obtain ⟨rfl, rfl⟩ := Draw.pure_eq_iff.1 h
    exact ⟨⟨by simp, fun _ _ => rfl, [], by simp, rfl⟩, hs⟩
  | name :: order, p, q, u, hnodup, found, h, hs, hl, hv => by
    obtain ⟨hnew, hrest⟩ := List.nodup_cons.1 hnodup
    obtain ⟨⟨svc, image, hsvc, rfl⟩, hfound⟩ := List.forall_mem_cons.1 found
    obtain ⟨p', u', h2, hone, -⟩ := bringUpAll_cons h
    have hcase := bringUp_cases (hone svc image hsvc)
    have hworks : Works terms s p u p' u' := hcase.works bringing
    have hle : u.drawn ≤ u'.drawn := hworks.moves.supply_le.drawn
    have hworks' : Works terms s p' u' q v := bringUpAll_works bringing h2
    have hle' : u'.drawn ≤ v.drawn := hworks'.moves.supply_le.drawn
    have hv' := Nat.le_trans hle' hv
    have hsound : p'.Sound s limit u' := ⟨hworks.moves.agrees hs.agrees hl, hcase.named hs hv'⟩
    obtain ⟨hothers, hq⟩ :=
      bringUpAll_raises bringing hrest hfound h2 hsound (by omega) hv
    exact ⟨(hcase.raises hs hv').cons hothers hnew, hq⟩

end DockerSim
