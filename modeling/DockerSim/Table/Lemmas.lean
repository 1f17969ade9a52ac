import DockerSim.Table

/-!
# Looking up in tables

What each operation on a table does to `get?`. A table is determined by what `get?` finds in it, and
its entries are exactly the pairs that `get?` finds.
-/

namespace DockerSim.Table

variable {α : Type u} {β : Type v}

/-! ## Lists of entries -/

theorem lookup_cons_pair (k key : String) (v : α) (l : List (String × α)) :
    ((key, v) :: l).lookup k = if k = key then some v else l.lookup k := by
  rw [List.lookup_cons]
  by_cases h : k = key
  · simp [h]
  · have hb : (k == key) = false := by simpa using h
    simp [h, hb]

theorem lookup_insertEntry (key k : String) (value : α) :
    ∀ l : List (String × α),
      (insertEntry key value l).lookup k = if k = key then some value else l.lookup k
  | [] => by rw [insertEntry, lookup_cons_pair]
  | (k', v) :: rest => by
    have ih := lookup_insertEntry key k value rest
    unfold insertEntry
    split
    · rw [lookup_cons_pair]
    · split
      · next heq =>
        subst heq
        rw [lookup_cons_pair, lookup_cons_pair]
        by_cases h : k = key <;> simp [h]
      · next hne =>
        rw [lookup_cons_pair, lookup_cons_pair, ih]
        by_cases h : k = k'
        · subst h
          simp [Ne.symm hne]
        · simp [h]

/-- In a list with increasing keys, a key is found with every value it is listed with. -/
theorem lookup_eq_some_iff_mem {l : List (String × α)} (hl : l.Pairwise (·.1 < ·.1))
    {k : String} {v : α} : l.lookup k = some v ↔ (k, v) ∈ l := by
  induction l with
  | nil => simp
  | cons e rest ih =>
    obtain ⟨k', v'⟩ := e
    have hp := List.pairwise_cons.1 hl
    rw [lookup_cons_pair, List.mem_cons]
    by_cases hk : k = k'
    · subst hk
      simp only [if_true, Option.some.injEq, Prod.mk.injEq, true_and]
      constructor
      · rintro rfl
        exact .inl rfl
      · rintro (rfl | hm)
        · rfl
        · exact absurd (hp.1 _ hm) (String.lt_irrefl k)
    · simp [hk, ih hp.2]

theorem lookup_eq_none_of_lt {l : List (String × α)} {k : String} (h : ∀ e ∈ l, k < e.1) :
    l.lookup k = none := by
  induction l with
  | nil => rfl
  | cons e rest ih =>
    obtain ⟨k', v⟩ := e
    have hk : k ≠ k' := fun hk => String.lt_irrefl k' (hk ▸ h (k', v) List.mem_cons_self)
    rw [lookup_cons_pair, if_neg hk, ih fun e he => h e (List.mem_cons_of_mem _ he)]

theorem lookup_filter {l : List (String × α)} (hl : l.Pairwise (·.1 < ·.1))
    (p : String → α → Bool) (k : String) :
    (l.filter fun e => p e.1 e.2).lookup k = (l.lookup k).filter (p k) := by
  refine Option.ext fun v => ?_
  rw [lookup_eq_some_iff_mem (hl.filter _), List.mem_filter, Option.filter_eq_some_iff,
    lookup_eq_some_iff_mem hl]

theorem lookup_map (f : String → α → β) (k : String) :
    ∀ l : List (String × α), (l.map fun e => (e.1, f e.1 e.2)).lookup k = (l.lookup k).map (f k)
  | [] => rfl
  | (k', v) :: rest => by
    rw [List.map_cons, lookup_cons_pair, lookup_cons_pair, lookup_map f k rest]
    by_cases hk : k = k'
    · simp [hk]
    · simp [hk]

/-- Lists with increasing keys that find the same are the same. -/
theorem eq_of_lookup_eq :
    ∀ {l m : List (String × α)}, l.Pairwise (·.1 < ·.1) → m.Pairwise (·.1 < ·.1) →
      (∀ k, l.lookup k = m.lookup k) → l = m
  | [], [], _, _, _ => rfl
  | [], (k, v) :: _, _, _, h => by simpa using h k
  | (k, v) :: _, [], _, _, h => by simpa using h k
  | (k, v) :: l, (k', v') :: m, hl, hm, h => by
    have hpl := List.pairwise_cons.1 hl
    have hpm := List.pairwise_cons.1 hm
    have hk : k = k' := by
      have h1 : (k, v) ∈ (k', v') :: m :=
        (lookup_eq_some_iff_mem hm).1 (by rw [← h k, lookup_cons_pair, if_pos rfl])
      have h2 : (k', v') ∈ (k, v) :: l :=
        (lookup_eq_some_iff_mem hl).1 (by rw [h k', lookup_cons_pair, if_pos rfl])
      rcases List.mem_cons.1 h1 with e | h1
      · exact (Prod.mk.inj e).1
      · rcases List.mem_cons.1 h2 with e | h2
        · exact (Prod.mk.inj e).1.symm
        · exact absurd (String.lt_trans (hpl.1 _ h2) (hpm.1 _ h1)) (String.lt_irrefl k)
    subst hk
    have hv : v = v' := by simpa [lookup_cons_pair] using h k
    subst hv
    rw [eq_of_lookup_eq hpl.2 hpm.2 fun x => ?_]
    by_cases hx : x = k
    · subst hx
      rw [lookup_eq_none_of_lt hpl.1, lookup_eq_none_of_lt hpm.1]
    · have := h x
      rwa [lookup_cons_pair, lookup_cons_pair, if_neg hx, if_neg hx] at this

/-! ## Tables -/

theorem get?_eq_some_iff {t : Table α} {k : String} {v : α} :
    t.get? k = some v ↔ (k, v) ∈ t.entries :=
  lookup_eq_some_iff_mem t.increasing

/-- Tables that find the same are the same. -/
theorem ext_get? {s t : Table α} (h : ∀ k, s.get? k = t.get? k) : s = t := by
  obtain ⟨l, hl⟩ := s
  obtain ⟨m, hm⟩ := t
  rw [mk.injEq]
  exact eq_of_lookup_eq hl hm h

theorem contains_iff {t : Table α} {k : String} :
    t.contains k = true ↔ ∃ v, t.get? k = some v := Option.isSome_iff_exists

theorem mem_keys_iff {t : Table α} {k : String} : k ∈ t.keys ↔ t.contains k = true := by
  simp only [keys, List.mem_map, Prod.exists, exists_and_right, exists_eq_right, contains_iff,
    get?_eq_some_iff]

/-- The keys are listed in increasing order. -/
theorem increasing_keys (t : Table α) : t.keys.Pairwise (· < ·) :=
  List.pairwise_map.2 t.increasing

theorem nodup_keys (t : Table α) : t.keys.Nodup := by
  refine t.increasing_keys.imp fun {a b} hlt he => ?_
  rw [he] at hlt
  exact String.lt_irrefl _ hlt

@[simp] theorem get?_empty (k : String) : (∅ : Table α).get? k = none := rfl

theorem get?_insert (t : Table α) (key k : String) (value : α) :
    (t.insert key value).get? k = if k = key then some value else t.get? k :=
  lookup_insertEntry key k value t.entries

@[simp] theorem get?_insert_self (t : Table α) (key : String) (value : α) :
    (t.insert key value).get? key = some value := by
  rw [get?_insert, if_pos rfl]

theorem get?_insert_of_ne (t : Table α) {key k : String} (value : α) (h : k ≠ key) :
    (t.insert key value).get? k = t.get? k := by
  rw [get?_insert, if_neg h]

theorem contains_insert (t : Table α) (key k : String) (value : α) :
    (t.insert key value).contains k = true ↔ k = key ∨ t.contains k = true := by
  rw [contains, contains, get?_insert]
  by_cases h : k = key <;> simp [h]

/-- A value that is found already is put in its place. -/
theorem insert_eq_self {t : Table α} {key : String} {value : α} (h : t.get? key = some value) :
    t.insert key value = t := by
  refine ext_get? fun k => ?_
  rw [get?_insert]
  split
  · next hk => rw [hk, h]
  · rfl

theorem get?_filter (p : String → α → Bool) (t : Table α) (k : String) :
    (t.filter p).get? k = (t.get? k).filter (p k) :=
  lookup_filter t.increasing p k

theorem get?_erase (t : Table α) (key k : String) :
    (t.erase key).get? k = if k = key then none else t.get? k := by
  rw [erase, get?_filter]
  by_cases h : k = key
  · subst h
    cases t.get? k <;> simp
  · cases t.get? k <;> simp [h]

/-- A value that is put in a free place is erased again. -/
theorem erase_insert {t : Table α} {key : String} (h : t.get? key = none) (value : α) :
    (t.insert key value).erase key = t := by
  refine ext_get? fun k => ?_
  rw [get?_erase]
  split
  · next hk => rw [hk, h]
  · next hk => exact get?_insert_of_ne t value hk

theorem get?_mapValues (f : String → α → β) (t : Table α) (k : String) :
    (t.mapValues f).get? k = (t.get? k).map (f k) :=
  lookup_map f k t.entries

theorem mapValues_insert (f : String → α → β) (t : Table α) (key : String) (value : α) :
    (t.insert key value).mapValues f = (t.mapValues f).insert key (f key value) := by
  refine ext_get? fun k => ?_
  rw [get?_mapValues, get?_insert, get?_insert, get?_mapValues]
  split
  · next h => rw [h, Option.map_some]
  · rfl

/-- What is true of a value and of all that a table finds is true of all it finds with the value. -/
theorem forall_get?_insert {P : α → Prop} {t : Table α} {key : String} {a : α} (ha : P a)
    (ht : ∀ ⦃k b⦄, t.get? k = some b → P b) : ∀ ⦃k b⦄, (t.insert key a).get? k = some b → P b := by
  intro k b hb
  rw [get?_insert] at hb
  split at hb
  · cases hb
    exact ha
  · exact ht hb

/-! ## Tables made of lists -/

/-- The table with the entries of a list put in, one after the other. -/
def insertAll (t : Table α) (l : List (String × α)) : Table α :=
  l.foldl (fun t e => t.insert e.1 e.2) t

theorem get?_insertAll {k : String} : ∀ {l : List (String × α)} (t : Table α),
    l.Pairwise (·.1 < ·.1) → (t.insertAll l).get? k = (l.lookup k).or (t.get? k)
  | [], t, _ => rfl
  | (key, v) :: l, t, h => by
    have hp := List.pairwise_cons.1 h
    rw [insertAll, List.foldl_cons, ← insertAll, get?_insertAll _ hp.2, get?_insert,
      lookup_cons_pair]
    by_cases hk : k = key
    · rw [if_pos hk, if_pos hk, hk, lookup_eq_none_of_lt hp.1]
      rfl
    · rw [if_neg hk, if_neg hk]

/-- The entries of a table make the table. -/
theorem ofList_entries (t : Table α) : ofList t.entries = t := by
  refine ext_get? fun k => ?_
  show (insertAll ∅ t.entries).get? k = _
  rw [get?_insertAll _ t.increasing, get?_empty, Option.or_none]
  rfl

theorem mem_of_mem_insertAll {e : String × α} : ∀ {l : List (String × α)} {t : Table α},
    e ∈ (t.insertAll l).entries → e ∈ l ∨ e ∈ t.entries
  | [], _, h => .inr h
  | a :: l, t, h => by
    rcases mem_of_mem_insertAll (l := l) (t := t.insert a.1 a.2) h with h | h
    · exact .inl (List.mem_cons_of_mem _ h)
    · rcases key_mem_insertEntry h with rfl | h
      · exact .inl List.mem_cons_self
      · exact .inr h

/-- The entries of a table that is made of a list come from the list. -/
theorem mem_of_mem_ofList {e : String × α} {l : List (String × α)} (h : e ∈ (ofList l).entries) :
    e ∈ l := by
  rcases mem_of_mem_insertAll h with h | h
  · exact h
  · exact absurd h List.not_mem_nil

theorem contains_insertAll {k : String} : ∀ (l : List (String × α)) (t : Table α),
    (t.insertAll l).contains k = true ↔ k ∈ l.map (·.1) ∨ t.contains k = true
  | [], t => by simp [insertAll]
  | e :: l, t => by
    rw [insertAll, List.foldl_cons, ← insertAll, contains_insertAll l, contains_insert,
      List.map_cons, List.mem_cons, or_left_comm, or_assoc]

/-- The keys of a table that is made of a list are those of the list. -/
theorem mem_keys_ofList {k : String} {l : List (String × α)} :
    k ∈ (ofList l).keys ↔ k ∈ l.map (·.1) := by
  rw [mem_keys_iff]
  show ((∅ : Table α).insertAll l).contains k = true ↔ _
  rw [contains_insertAll, or_iff_left]
  exact Bool.false_ne_true

/-! ## Tables within tables -/

/-- Every entry of the first table is one of the second. -/
def Within (s t : Table α) : Prop := ∀ ⦃k a⦄, s.get? k = some a → t.get? k = some a

theorem Within.refl (t : Table α) : t.Within t := fun _ _ h => h

theorem Within.trans {s t r : Table α} (h : s.Within t) (h' : t.Within r) : s.Within r :=
  fun _ _ hs => h' (h hs)

theorem Within.contains {s t : Table α} (h : s.Within t) {key : String}
    (hs : s.contains key = true) : t.contains key = true := by
  obtain ⟨a, ha⟩ := contains_iff.1 hs
  exact contains_iff.2 ⟨a, h ha⟩

theorem within_insert {t : Table α} {key : String} (h : t.get? key = none) (a : α) :
    t.Within (t.insert key a) := by
  intro k b hk
  rw [get?_insert_of_ne]
  · exact hk
  · rintro rfl
    rw [h] at hk
    cases hk

end DockerSim.Table
