import DockerSim.Proofs.InstantText
import DockerSim.Proofs.Json.Records
import DockerSim.Session.File

/-!
# Records are read back

A record is storable when its numbers and times can be written: sizes and ports fit in their kinds,
times are proper, and the payload of an event is in order and can be printed. A storable record is
read back from its JSON value, and the value can be printed.
-/

namespace DockerSim

open Json

variable {room : Nat}

/-! ## Times and names -/

theorem Instant.ofJson?_toJson {t : Instant} (h : t.Proper) :
    Instant.ofJson? t.toJson = some t := by
  unfold Instant.ofJson? Instant.toJson
  rw [str?_str, Option.bind_some, Instant.ofText?_text h]

@[simp] theorem Instant.printable_toJson (t : Instant) : Printable room t.toJson := printable_str _

/-- A time that may be missing is proper. -/
def Instant.ProperIf (o : Option Instant) : Prop := ∀ t, o = some t → t.Proper

theorem Instant.option?_ofOption {o : Option Instant} (h : ProperIf o) :
    option? Instant.ofJson? (.ofOption Instant.toJson o) = some o :=
  Json.option?_ofOption (fun _ he => nomatch he) fun t ht => Instant.ofJson?_toJson (h t ht)

@[simp] theorem Instant.printable_ofOption (o : Option Instant) :
    Printable room (.ofOption Instant.toJson o) := by
  cases o with
  | none => exact printable_null
  | some t => exact t.printable_toJson

theorem Protocol.name?_name (p : Protocol) :
    Json.name? [("tcp", .tcp), ("udp", .udp)] (.str p.name) = some p := by
  cases p <;> rfl

theorem Status.ofJson?_name (s : Status) : Status.ofJson? (.str s.name) = some s := by
  cases s <;> rfl

theorem NetworkDriver.ofJson?_name (d : NetworkDriver) :
    NetworkDriver.ofJson? (.str d.name) = some d := by
  cases d <;> rfl

theorem EventKind.name?_name (k : EventKind) :
    Json.name? EventKind.names (.str k.name) = some k := by
  cases k <;> rfl

/-! ## Records -/

structure Image.Storable (i : Image) : Prop where
  size : i.size < UInt64.size
  created : i.createdAt.Proper

theorem Image.ofJson?_toJson {i : Image} (h : i.Storable) : Image.ofJson? i.toJson = some i := by
  unfold ofJson? toJson
  refine record_found rfl (by decide) ?_
  simp (disch := decide) only [bind_found, Record.need_head, Record.need_tail, str?_str,
    nat?_nat h.size, Instant.ofJson?_toJson h.created, listOf?_strs]

theorem Image.printable_toJson {i : Image} (h : i.Storable) : Printable (room + 2) i.toJson := by
  unfold toJson
  simp [printable_obj, h.size]

structure PortMapping.Storable (p : PortMapping) : Prop where
  host : p.host < portBound
  container : p.container < portBound

theorem PortMapping.ofJson?_toJson {p : PortMapping} (h : p.Storable) :
    PortMapping.ofJson? p.toJson = some p := by
  unfold ofJson? toJson
  refine record_found rfl (by decide) ?_
  simp (disch := decide) only [bind_found, Record.need_head, Record.need_tail, nat?_nat h.host,
    nat?_nat h.container, Protocol.name?_name]

theorem PortMapping.printable_toJson {p : PortMapping} (h : p.Storable) :
    Printable (room + 1) p.toJson := by
  have hbound : portBound ≤ UInt64.size := by decide
  unfold toJson
  simp [printable_obj, Nat.lt_of_lt_of_le h.host hbound, Nat.lt_of_lt_of_le h.container hbound]

theorem Mount.ofJson?_toJson (m : Mount) : Mount.ofJson? m.toJson = some m := by
  unfold ofJson? toJson
  refine record_found rfl (by decide) ?_
  simp (disch := decide) only [bind_found, Record.need_head, Record.need_tail, str?_str]

theorem Mount.printable_toJson (m : Mount) : Printable (room + 1) m.toJson := by
  unfold toJson
  simp [printable_obj]

structure Container.Storable (c : Container) : Prop where
  ports : ∀ p ∈ c.ports, p.Storable
  created : c.createdAt.Proper
  started : Instant.ProperIf c.startedAt
  stopped : Instant.ProperIf c.stoppedAt

theorem Container.ofJson?_toJson {c : Container} (h : c.Storable) :
    Container.ofJson? c.toJson = some c := by
  have hports := listOf?_map (f := PortMapping.ofJson?) (g := PortMapping.toJson)
    fun p hp => PortMapping.ofJson?_toJson (h.ports p hp)
  have hmounts := listOf?_map (f := Mount.ofJson?) (g := Mount.toJson) (l := c.mounts)
    fun m _ => Mount.ofJson?_toJson m
  unfold ofJson? toJson
  refine record_found rfl (by decide) ?_
  simp (disch := decide) only [bind_found, Record.need_head, Record.need_tail,
    Record.option_head, Record.option_tail, str?_str, Status.ofJson?_name, hports, tableOf?_strs,
    Instant.ofJson?_toJson h.created, Instant.option?_ofOption h.started,
    Instant.option?_ofOption h.stopped, listOf?_strs, hmounts]

theorem Container.printable_toJson {c : Container} (h : c.Storable) :
    Printable (room + 3) c.toJson := by
  have hports : Printable (room + 2) (.arr (c.ports.map PortMapping.toJson)) :=
    printable_map.2 fun p hp => PortMapping.printable_toJson (h.ports p hp)
  have hmounts : Printable (room + 2) (.arr (c.mounts.map Mount.toJson)) :=
    printable_map.2 fun m _ => m.printable_toJson
  unfold toJson
  simp [printable_obj, hports, hmounts, printable_ofTable]

theorem Network.ofJson?_toJson (n : Network) : Network.ofJson? n.toJson = some n := by
  unfold ofJson? toJson
  refine record_found rfl (by decide) ?_
  simp (disch := decide) only [bind_found, Record.need_head, Record.need_tail, str?_str,
    NetworkDriver.ofJson?_name, listOf?_strs]

theorem Network.printable_toJson (n : Network) : Printable (room + 2) n.toJson := by
  unfold toJson
  simp [printable_obj]

theorem Volume.ofJson?_toJson (v : Volume) : Volume.ofJson? v.toJson = some v := by
  unfold ofJson? toJson
  refine record_found rfl (by decide) ?_
  simp (disch := decide) only [bind_found, Record.need_head, Record.need_tail, str?_str]

theorem Volume.printable_toJson (v : Volume) : Printable (room + 1) v.toJson := by
  unfold toJson
  simp [printable_obj]

theorem Stack.ofJson?_toJson (s : Stack) : Stack.ofJson? s.toJson = some s := by
  unfold ofJson? toJson
  refine record_found rfl (by decide) ?_
  simp (disch := decide) only [bind_found, Record.need_head, Record.need_tail, str?_str,
    listOf?_strs, tableOf?_strs]

theorem Stack.printable_toJson (s : Stack) : Printable (room + 2) s.toJson := by
  unfold toJson
  simp [printable_obj, printable_ofTable]

structure Event.Storable (e : Event) : Prop where
  time : e.time.Proper
  order : e.payload.canonical = e.payload
  payload : ∀ room, Printable (room + 4) e.payload

theorem Event.ofJson?_toJson {e : Event} (h : e.Storable) : Event.ofJson? e.toJson = some e := by
  have hpayload : any? e.payload = some e.payload := by
    have hp := h.payload 0
    rw [← h.order] at hp ⊢
    exact any?_canonical hp
  unfold ofJson? toJson
  refine record_found rfl (by decide) ?_
  simp (disch := decide) only [bind_found, Record.need_head, Record.need_tail, str?_str,
    EventKind.name?_name, Instant.ofJson?_toJson h.time, hpayload]

theorem Event.printable_toJson {e : Event} (h : e.Storable) : Printable (room + 5) e.toJson := by
  unfold toJson
  simp [printable_obj, h.payload]

/-! ## Command lines -/

theorem Flag.ofJson?_toJson (f : Flag) : Flag.ofJson? f.toJson = some f := by
  cases f with
  | switch on => rfl
  | value v => rfl
  | values vs =>
    show (List.mapM str? (vs.map .str)).map Flag.values = some (.values vs)
    rw [mapM_map (f := str?) (g := .str) fun _ _ => rfl, Option.map_some]

theorem CommandLine.ofJson?_toJson (c : CommandLine) : CommandLine.ofJson? c.toJson = some c := by
  have hsub : option? str? (.ofOption .str c.subcommand) = some c.subcommand :=
    Json.option?_ofOption (fun _ he => nomatch he) fun _ _ => rfl
  have hflags : tableOf? Flag.ofJson? (.ofTable Flag.toJson c.flags) = some c.flags :=
    tableOf?_ofTable fun e _ => Flag.ofJson?_toJson e.2
  unfold ofJson? toJson
  refine record_found rfl (by decide) ?_
  simp (disch := decide) only [bind_found, Record.need_head, Record.need_tail,
    Record.option_head, Record.option_tail, str?_str, hsub, listOf?_strs, hflags]

theorem Flag.printable_toJson (f : Flag) : Printable (room + 1) f.toJson := by
  cases f with
  | switch on => simp [toJson, Printable]
  | value v => exact printable_str v
  | values vs => exact printable_strs vs

theorem CommandLine.printable_toJson (c : CommandLine) : Printable (room + 3) c.toJson := by
  have hsub : Printable (room + 2) (.ofOption .str c.subcommand) := by
    cases c.subcommand with
    | none => exact printable_null
    | some sub => exact printable_str sub
  have hflags : Printable (room + 2) (.ofTable Flag.toJson c.flags) :=
    printable_ofTable.2 fun e _ => e.2.printable_toJson
  unfold toJson
  simp [printable_obj, hsub, hflags]

/-! ## States -/

structure State.Storable (s : State) : Prop where
  images : ∀ ⦃key i⦄, s.images.get? key = some i → i.Storable
  containers : ∀ ⦃key c⦄, s.containers.get? key = some c → c.Storable
  log : ∀ e ∈ s.eventLog, e.Storable

theorem State.ofJson?_toJson {s : State} (h : s.Storable) : State.ofJson? s.toJson = some s := by
  have himages : tableOf? Image.ofJson? (.ofTable Image.toJson s.images) = some s.images :=
    tableOf?_ofTable fun _ he => Image.ofJson?_toJson (h.images (Table.get?_eq_some_iff.2 he))
  have hcontainers :
      tableOf? Container.ofJson? (.ofTable Container.toJson s.containers) = some s.containers :=
    tableOf?_ofTable fun _ he =>
      Container.ofJson?_toJson (h.containers (Table.get?_eq_some_iff.2 he))
  have hnetworks : tableOf? Network.ofJson? (.ofTable Network.toJson s.networks) =
      some s.networks := tableOf?_ofTable fun e _ => Network.ofJson?_toJson e.2
  have hvolumes : tableOf? Volume.ofJson? (.ofTable Volume.toJson s.volumes) = some s.volumes :=
    tableOf?_ofTable fun e _ => Volume.ofJson?_toJson e.2
  have hstacks : tableOf? Stack.ofJson? (.ofTable Stack.toJson s.composeStacks) =
      some s.composeStacks := tableOf?_ofTable fun e _ => Stack.ofJson?_toJson e.2
  have hlog : listOf? Event.ofJson? (.arr (s.eventLog.map Event.toJson)) = some s.eventLog :=
    listOf?_map fun e he => Event.ofJson?_toJson (h.log e he)
  have hpending : option? CommandLine.ofJson? (.ofOption CommandLine.toJson s.pending) =
      some s.pending :=
    Json.option?_ofOption (fun _ he => nomatch he) fun c _ => c.ofJson?_toJson
  have herror : option? str? (.ofOption .str s.lastError) = some s.lastError :=
    Json.option?_ofOption (fun _ he => nomatch he) fun _ _ => rfl
  unfold ofJson? toJson
  refine record_found rfl (by decide) ?_
  simp (disch := decide) only [bind_found, Record.withDefault_head, Record.withDefault_tail,
    Record.option_head, Record.option_tail, himages, hcontainers, hnetworks, hvolumes, hstacks,
    hlog, tableOf?_strs, hpending, herror]

theorem State.printable_toJson {s : State} (h : s.Storable) : Printable (room + 7) s.toJson := by
  have himages : Printable (room + 6) (.ofTable Image.toJson s.images) :=
    printable_ofTable.2 fun _ he =>
      Image.printable_toJson (h.images (Table.get?_eq_some_iff.2 he))
  have hcontainers : Printable (room + 6) (.ofTable Container.toJson s.containers) :=
    printable_ofTable.2 fun _ he =>
      Container.printable_toJson (h.containers (Table.get?_eq_some_iff.2 he))
  have hnetworks : Printable (room + 6) (.ofTable Network.toJson s.networks) :=
    printable_ofTable.2 fun e _ => e.2.printable_toJson
  have hvolumes : Printable (room + 6) (.ofTable Volume.toJson s.volumes) :=
    printable_ofTable.2 fun e _ => e.2.printable_toJson
  have hstacks : Printable (room + 6) (.ofTable Stack.toJson s.composeStacks) :=
    printable_ofTable.2 fun e _ => e.2.printable_toJson
  have hlog : Printable (room + 6) (.arr (s.eventLog.map Event.toJson)) :=
    printable_map.2 fun e he => Event.printable_toJson (h.log e he)
  have hports : Printable (room + 6) (.ofTable .str s.boundPorts) :=
    printable_ofTable.2 fun e _ => printable_str e.2
  have hpending : Printable (room + 6) (.ofOption CommandLine.toJson s.pending) := by
    cases s.pending with
    | none => exact printable_null
    | some c => exact c.printable_toJson
  have herror : Printable (room + 6) (.ofOption .str s.lastError) := by
    cases s.lastError with
    | none => exact printable_null
    | some e => exact printable_str e
  unfold toJson
  simp [printable_obj, himages, hcontainers, hnetworks, hvolumes, hstacks, hlog, hports, hpending,
    herror]

/-! ## Session files -/

namespace Session

/-- **A saved session is loaded as it was saved**, when its time is proper and its state is storable
and valid. -/
theorem load_encode {s : Session} {t : Instant} (hversion : s.version = sessionVersion)
    (hsaved : s.savedAt = some t) (ht : t.Proper) (hs : s.engine.Storable)
    (hvalid : s.engine.fault? = none) : load (some s.encode) = .ok s := by
  have hproper : Instant.ProperIf s.savedAt := by
    intro t' ht'
    rw [hsaved] at ht'
    exact Option.some.inj ht' ▸ ht
  have hjson : s.toJson = .obj [("version", .nat s.version),
      ("savedAt", .ofOption Instant.toJson s.savedAt), ("engine", s.engine.toJson)] := by
    unfold toJson
    rw [hsaved]
    rfl
  have hread : ofJson? s.toJson = some s := by
    have hnat : s.version < UInt32.size := by
      rw [hversion]
      decide
    rw [hjson]
    unfold ofJson?
    refine record_found rfl (by decide) ?_
    simp (disch := decide) only [bind_found, Record.need_head, Record.need_tail,
      Record.option_head, Record.option_tail, nat?_nat hnat,
      Instant.option?_ofOption hproper, State.ofJson?_toJson hs]
  have hprint : Printable maxDepth s.toJson := by
    have hdepth : maxDepth = 119 + 7 + 1 := rfl
    have hstate : Printable (119 + 7) s.engine.toJson := State.printable_toJson hs
    have hnat : s.version < UInt64.size := by
      rw [hversion]
      decide
    rw [hjson, hdepth, printable_obj]
    simp only [List.forall_mem_cons, printable_nat]
    exact ⟨hnat, Instant.printable_ofOption _, hstate, fun _ he => absurd he List.not_mem_nil⟩
  unfold load encode
  dsimp only
  rw [ofText?_pretty hprint, Option.map_some, Option.getD_some]
  unfold ofSaved checked
  simp only [hread, hversion, hvalid, ne_eq, not_true_eq_false, if_false]

end Session

end DockerSim
