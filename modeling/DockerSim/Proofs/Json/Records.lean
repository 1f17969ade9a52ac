import DockerSim.Json.Decode
import DockerSim.Proofs.Json.Text
import DockerSim.Table.Lemmas

/-!
# Parts of records are read back

What is read from an array, a map or the fields of an object is what was written, when every part is
read back. A value whose objects are brought into order stays as it is when that is done again, so
it is read back as any value.
-/

namespace DockerSim.Json

/-! ## Printable parts -/

variable {room : Nat}

theorem printableItems_iff : ∀ {items : List Json},
    PrintableItems room items ↔ ∀ j ∈ items, Printable room j
  | [] => by simp [PrintableItems]
  | j :: js => by
    rw [PrintableItems, printableItems_iff, List.forall_mem_cons]

theorem printableFields_iff : ∀ {fields : List (String × Json)},
    PrintableFields room fields ↔ ∀ e ∈ fields, Printable room e.2
  | [] => by simp [PrintableFields]
  | (k, j) :: fields => by
    rw [PrintableFields, printableFields_iff, List.forall_mem_cons]

@[simp] theorem printable_null : Printable room .null := by simp [Printable]

@[simp] theorem printable_str (s : String) : Printable room (.str s) := by simp [Printable]

@[simp] theorem printable_nat {n : Nat} : Printable room (.nat n) ↔ n < UInt64.size := by
  unfold nat Printable FitsNumber
  have : UInt64.size = 18446744073709551616 := rfl
  omega

theorem printable_arr {items : List Json} :
    Printable (room + 1) (.arr items) ↔ ∀ j ∈ items, Printable room j := by
  rw [Printable, Nat.add_sub_cancel, printableItems_iff]
  simp

theorem printable_obj {fields : List (String × Json)} :
    Printable (room + 1) (.obj fields) ↔ ∀ e ∈ fields, Printable room e.2 := by
  rw [Printable, Nat.add_sub_cancel, printableFields_iff]
  simp

@[simp] theorem printable_strs (ss : List String) : Printable (room + 1) (.strs ss) := by
  unfold strs
  simp [printable_arr]

theorem printable_map {α : Type} {f : α → Json} {l : List α} :
    Printable (room + 1) (.arr (l.map f)) ↔ ∀ a ∈ l, Printable room (f a) := by
  simp [printable_arr]

theorem printable_ofTable {α : Type} {f : α → Json} {t : Table α} :
    Printable (room + 1) (.ofTable f t) ↔ ∀ e ∈ t.entries, Printable room (f e.2) := by
  unfold ofTable
  rw [printable_obj, List.forall_mem_map]

/-! ## Objects in order -/

@[simp] theorem canonical_str (s : String) : (Json.str s).canonical = .str s := rfl

@[simp] theorem canonical_nat (n : Nat) : (Json.nat n).canonical = .nat n := rfl

theorem canonicalItems_str : ∀ ss : List String, canonicalItems (ss.map .str) = ss.map .str
  | [] => rfl
  | s :: ss => by
    rw [List.map_cons, canonicalItems, canonical_str, canonicalItems_str ss]

@[simp] theorem canonical_strs (ss : List String) : (Json.strs ss).canonical = .strs ss := by
  rw [strs, canonical, canonicalItems_str]

mutual

theorem canonical_canonical : ∀ j : Json, j.canonical.canonical = j.canonical
  | .arr items => by
    rw [canonical, canonical, canonicalItems_canonicalItems items]
  | .obj fields => by
    have hfields : canonicalFields (Table.ofList (canonicalFields fields)).entries =
        (Table.ofList (canonicalFields fields)).entries :=
      canonicalFields_eq _ fun e he => canonical_of_mem fields e (Table.mem_of_mem_ofList he)
    rw [canonical, canonical, hfields, Table.ofList_entries]
  | .null | .bool _ | .int _ | .real _ | .str _ | .unusable => rfl

theorem canonicalItems_canonicalItems : ∀ items : List Json,
    canonicalItems (canonicalItems items) = canonicalItems items
  | [] => rfl
  | j :: js => by
    rw [canonicalItems, canonicalItems, canonical_canonical j, canonicalItems_canonicalItems js]

theorem canonical_of_mem : ∀ (fields : List (String × Json)),
    ∀ e ∈ canonicalFields fields, e.2.canonical = e.2
  | [], _, he => absurd he List.not_mem_nil
  | (k, j) :: fields, e, he => by
    rcases List.mem_cons.1 he with rfl | he
    · exact canonical_canonical j
    · exact canonical_of_mem fields e he

theorem canonicalFields_eq : ∀ (fields : List (String × Json)),
    (∀ e ∈ fields, e.2.canonical = e.2) → canonicalFields fields = fields
  | [], _ => rfl
  | (k, j) :: fields, h => by
    rw [canonicalFields, h _ List.mem_cons_self,
      canonicalFields_eq fields fun e he => h e (List.mem_cons_of_mem _ he)]

end

mutual

theorem Printable.canonical : ∀ {room : Nat} (j : Json), Printable room j →
    Printable room j.canonical
  | room, .arr items, h => by
    rw [Printable] at h
    rw [Json.canonical, Printable]
    exact ⟨h.1, PrintableItems.canonical items h.2⟩
  | room, .obj fields, h => by
    rw [Printable] at h
    rw [Json.canonical, Printable, printableFields_iff]
    exact ⟨h.1, fun e he => PrintableFields.canonical fields h.2 e (Table.mem_of_mem_ofList he)⟩
  | _, .null, h | _, .bool _, h | _, .int _, h | _, .real _, h | _, .str _, h
  | _, .unusable, h => h

theorem PrintableItems.canonical : ∀ {room : Nat} (items : List Json), PrintableItems room items →
    PrintableItems room (canonicalItems items)
  | _, [], h => h
  | room, j :: js, h => by
    rw [PrintableItems] at h
    rw [canonicalItems, PrintableItems]
    exact ⟨Printable.canonical j h.1, PrintableItems.canonical js h.2⟩

theorem PrintableFields.canonical : ∀ {room : Nat} (fields : List (String × Json)),
    PrintableFields room fields → ∀ e ∈ canonicalFields fields, Printable room e.2
  | _, [], _, _, he => absurd he List.not_mem_nil
  | room, (k, j) :: fields, h, e, he => by
    rw [PrintableFields] at h
    rcases List.mem_cons.1 he with rfl | he
    · exact Printable.canonical j h.1
    · exact PrintableFields.canonical fields h.2 e he

end

mutual

theorem Printable.isUsable : ∀ {room : Nat} (j : Json), Printable room j → j.isUsable = true
  | room, .arr items, h => by
    rw [Printable] at h
    exact PrintableItems.areUsable items h.2
  | room, .obj fields, h => by
    rw [Printable] at h
    exact PrintableFields.haveUsable fields h.2
  | _, .null, _ | _, .bool _, _ | _, .int _, _ | _, .real _, _ | _, .str _, _ => rfl
  | _, .unusable, h => absurd h (by unfold Printable; exact id)

theorem PrintableItems.areUsable : ∀ {room : Nat} (items : List Json), PrintableItems room items →
    Json.areUsable items = true
  | _, [], _ => rfl
  | room, j :: js, h => by
    rw [PrintableItems] at h
    rw [Json.areUsable, Printable.isUsable j h.1, PrintableItems.areUsable js h.2]
    rfl

theorem PrintableFields.haveUsable : ∀ {room : Nat} (fields : List (String × Json)),
    PrintableFields room fields → Json.haveUsable fields = true
  | _, [], _ => rfl
  | room, (k, j) :: fields, h => by
    rw [PrintableFields] at h
    rw [Json.haveUsable, Printable.isUsable j h.1, PrintableFields.haveUsable fields h.2]
    rfl

end

/-- A value in order is read back as any value. -/
theorem any?_canonical {j : Json} (h : Printable room j.canonical) :
    any? j.canonical = some j.canonical := by
  unfold any?
  rw [h.isUsable, if_pos rfl, canonical_canonical]

/-! ## Reading parts -/

theorem nat?_nat {bound n : Nat} (h : n < bound) : nat? bound (.nat n) = some n := by
  unfold nat? nat int?
  simp [h]

variable {α : Type} {f : Json → Option α} {g : α → Json}

theorem mapM_map {l : List α} (h : ∀ a ∈ l, f (g a) = some a) : (l.map g).mapM f = some l := by
  induction l with
  | nil => rfl
  | cons a l ih =>
    rw [List.map_cons, List.mapM_cons, h a List.mem_cons_self,
      ih fun b hb => h b (List.mem_cons_of_mem _ hb)]
    rfl

theorem listOf?_map {l : List α} (h : ∀ a ∈ l, f (g a) = some a) :
    listOf? f (.arr (l.map g)) = some l := mapM_map h

theorem listOf?_strs (ss : List String) : listOf? str? (.strs ss) = some ss :=
  listOf?_map fun _ _ => rfl

theorem tableOf?_ofTable {t : Table α} (h : ∀ e ∈ t.entries, f (g e.2) = some e.2) :
    tableOf? f (.ofTable g t) = some t := by
  have hmap : (t.entries.map fun e => (e.1, g e.2)).mapM
      (fun e => (f e.2).map fun a => (e.1, a)) = some t.entries := by
    generalize t.entries = l at h
    induction l with
    | nil => rfl
    | cons e l ih =>
      rw [List.map_cons, List.mapM_cons, h e List.mem_cons_self,
        ih fun b hb => h b (List.mem_cons_of_mem _ hb)]
      rfl
  show Option.map Table.ofList (List.mapM _ (t.entries.map fun e : String × α => (e.1, g e.2))) = _
  rw [hmap, Option.map_some, Table.ofList_entries]

theorem tableOf?_strs (t : Table String) : tableOf? str? (.ofTable .str t) = some t :=
  tableOf?_ofTable fun _ _ => rfl

/-- A part that may be missing is read back when it is never written as nothing. -/
theorem option?_ofOption {o : Option α} (hg : ∀ a, g a ≠ .null)
    (h : ∀ a, o = some a → f (g a) = some a) : option? f (.ofOption g o) = some o := by
  cases o with
  | none => rfl
  | some a =>
    show option? f (g a) = _
    have ha := h a rfl
    unfold option?
    split
    · next he => exact absurd he (hg a)
    · rw [ha, Option.map_some]

theorem str?_str (s : String) : str? (.str s) = some s := rfl

/-! ## Reading records -/

theorem bind_found {β : Type} (a : α) (k : α → Option β) : (some a >>= k) = k a := by
  rw [Option.bind_eq_bind, Option.bind_some]

/-- What is read from the fields of an object is read from the object, when its fields are the known
ones in some order. -/
theorem record_found_of_perm {β : Type} {fields : List (String × Json)} {names : List String}
    {lenient : Bool} {k : Record → Option β} {b : β} (h : (fields.map (·.1)).Perm names)
    (hn : names.Nodup) (hk : k fields = some b) :
    (record? names lenient (.obj fields) >>= k) = some b := by
  have hfilter : (fields.filter fun e => names.contains e.1) = fields := by
    rw [List.filter_eq_self]
    intro e he
    rw [List.contains_iff_mem, ← h.mem_iff]
    exact List.mem_map_of_mem he
  unfold record?
  simp only [hfilter, if_pos (h.nodup_iff.2 hn)]
  exact hk

theorem record_found {β : Type} {fields : List (String × Json)} {names : List String}
    {lenient : Bool} {k : Record → Option β} {b : β} (h : fields.map (·.1) = names)
    (hn : names.Nodup) (hk : k fields = some b) :
    (record? names lenient (.obj fields) >>= k) = some b :=
  record_found_of_perm (.of_eq h) hn hk

namespace Record

variable (r : Record) {name other : String} (j : Json) (f : Json → Option α)

theorem lookup_tail (h : name ≠ other) :
    List.lookup name ((other, j) :: r) = List.lookup name r := by
  rw [List.lookup_cons, beq_false_of_ne h]

theorem need_head : need ((name, j) :: r) name f = f j := by
  unfold need
  rw [List.lookup_cons_self, Option.bind_some]

theorem need_tail (h : name ≠ other) : need ((other, j) :: r) name f = need r name f := by
  unfold need
  rw [lookup_tail r j h]

theorem option_head : option ((name, j) :: r) name f = option? f j := by
  unfold option
  rw [List.lookup_cons_self]

theorem option_tail (h : name ≠ other) : option ((other, j) :: r) name f = option r name f := by
  unfold option
  rw [lookup_tail r j h]

theorem withDefault_head (a : α) : withDefault ((name, j) :: r) name a f = f j := by
  unfold withDefault
  rw [List.lookup_cons_self]

theorem withDefault_tail (a : α) (h : name ≠ other) :
    withDefault ((other, j) :: r) name a f = withDefault r name a f := by
  unfold withDefault
  rw [lookup_tail r j h]

end Record

end DockerSim.Json
