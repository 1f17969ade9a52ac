import DockerSim.Yaml.Reader
import Mathlib.Data.List.Nodup

/-!
# Keys of mappings

A mapping that is read has each key once, and so has every mapping that is the value of an entry of
it. Entries are only ever added by `YamlMap.insert`, which replaces the value of a key in place; the
functions of the reader keep the invariant, one lemma for each of them, by induction on the fuel.
-/

namespace DockerSim

/-! ## Mappings -/

/-- If the value is a mapping, it has each key once. -/
def Yaml.KeysOnce (y : Yaml) : Prop := ∀ ⦃m⦄, y.map? = some m → (YamlMap.keys m).Nodup

namespace YamlMap

variable {m : YamlMap} {key : String} {value : Yaml}

/-- The mapping has each key once, and so have its values. -/
structure Proper (m : YamlMap) : Prop where
  keys : m.keys.Nodup
  values : ∀ e ∈ m, e.2.KeysOnce

theorem proper_nil : Proper [] := ⟨List.nodup_nil, fun _ he => absurd he List.not_mem_nil⟩

theorem mem_insert {e : String × Yaml} (h : e ∈ m.insert key value) :
    e = (key, value) ∨ e ∈ m := by
  induction m with
  | nil => exact .inl (List.mem_singleton.1 h)
  | cons a m ih =>
    unfold insert at h
    split at h
    · next hk =>
      rcases List.mem_cons.1 h with rfl | h
      · exact .inl (by rw [← hk])
      · exact .inr (List.mem_cons_of_mem _ h)
    · rcases List.mem_cons.1 h with rfl | h
      · exact .inr List.mem_cons_self
      · exact (ih h).imp id (List.mem_cons_of_mem _)

theorem mem_keys_insert {k : String} (h : k ∈ (m.insert key value).keys) :
    k = key ∨ k ∈ m.keys := by
  obtain ⟨e, he, rfl⟩ := List.mem_map.1 h
  rcases mem_insert he with rfl | he
  · exact .inl rfl
  · exact .inr (List.mem_map_of_mem he)

theorem nodup_keys_insert (h : m.keys.Nodup) : (m.insert key value).keys.Nodup := by
  induction m with
  | nil => exact List.nodup_singleton _
  | cons a m ih =>
    obtain ⟨ha, hm⟩ := List.nodup_cons.1 h
    unfold insert
    split
    · exact List.nodup_cons.2 ⟨ha, hm⟩
    · next hk =>
      refine List.nodup_cons.2 ⟨fun hmem => ?_, ih hm⟩
      exact (mem_keys_insert hmem).elim hk ha

theorem Proper.insert (h : m.Proper) (hv : value.KeysOnce) : (m.insert key value).Proper := by
  refine ⟨nodup_keys_insert h.keys, fun e he => ?_⟩
  rcases mem_insert he with rfl | he
  · exact hv
  · exact h.values e he

theorem get?_insert (m : YamlMap) (key : String) (v : Yaml) :
    (m.insert key v).get? key = some v := by
  induction m with
  | nil => simp [insert, get?]
  | cons e m ih =>
    unfold insert
    split
    · next hk => simp [get?, hk]
    · next hk =>
      have hne : (key == e.1) = false := by simpa using Ne.symm hk
      rw [get?, List.lookup_cons, hne]
      exact ih

theorem get?_insert_of_ne (m : YamlMap) {key k : String} (v : Yaml) (h : k ≠ key) :
    (m.insert key v).get? k = m.get? k := by
  have hkey : (k == key) = false := by simpa using h
  induction m with
  | nil => rw [insert, get?, List.lookup_cons, hkey]; rfl
  | cons e m ih =>
    unfold insert
    split
    · next he =>
      rw [get?, get?, List.lookup_cons, List.lookup_cons, he, hkey]
    · rw [get?, get?, List.lookup_cons, List.lookup_cons]
      rw [get?, get?] at ih
      rw [ih]

/-- What is found behind a change of one key is its new value, or was found before. -/
theorem of_get?_insert {m : YamlMap} {key k : String} {v w : Yaml}
    (h : (m.insert key v).get? k = some w) : k = key ∧ v = w ∨ m.get? k = some w := by
  by_cases hk : k = key
  · subst hk
    rw [get?_insert] at h
    exact .inl ⟨rfl, Option.some.inj h⟩
  · rw [get?_insert_of_ne _ _ hk] at h
    exact .inr h

theorem contains_insert (m : YamlMap) (key k : String) (v : Yaml) :
    (m.insert key v).contains k = true ↔ k = key ∨ m.contains k = true := by
  unfold contains
  by_cases h : k = key
  · simp [h, get?_insert]
  · simp [h, get?_insert_of_ne]

/-- In a mapping that has each key once, a key is found with every value it is listed with. -/
theorem get?_eq_some_iff (h : m.keys.Nodup) : m.get? key = some value ↔ (key, value) ∈ m := by
  induction m with
  | nil => simp [get?]
  | cons e m ih =>
    obtain ⟨k, v⟩ := e
    obtain ⟨hk, hm⟩ := List.nodup_cons.1 h
    have hrest : m.lookup key = some value ↔ (key, value) ∈ m := ih hm
    rw [get?, List.lookup_cons, List.mem_cons]
    by_cases hkey : key = k
    · subst hkey
      have hfree : (key, value) ∉ m := by
        intro hmem
        exact hk (List.mem_map.2 ⟨_, hmem, rfl⟩)
      simp [hfree, eq_comm]
    · have hne : (key == k) = false := by simpa using hkey
      rw [hne, hrest, Prod.mk.injEq]
      simp [hkey]

end YamlMap

namespace Yaml

open YamlMap

theorem keysOnce_map {m : YamlMap} (h : m.keys.Nodup) : (Yaml.map m).KeysOnce := by
  intro m' hm
  cases hm
  exact h

theorem keysOnce_of_map? {y : Yaml} (h : y.map? = none) : y.KeysOnce := by
  intro m hm
  rw [h] at hm
  cases hm

theorem map?_ofScalar (cs : List Char) : (ofScalar cs).map? = none := by
  unfold ofScalar
  dsimp only
  split
  · rfl
  · rfl
  · rfl
  · rfl
  · split
    · rfl
    · split
      · rfl
      · split
        · cases float? cs <;> rfl
        · rfl

theorem keysOnce_ofScalar (cs : List Char) : (ofScalar cs).KeysOnce :=
  keysOnce_of_map? (map?_ofScalar cs)

theorem keysOnce_empty : (Yaml.map []).KeysOnce := keysOnce_map List.nodup_nil

/-! ## Readings -/

variable {fuel column : Nat} {entries : YamlMap} {text : List Char} {lines : List Line}

/-- The reading gives a value with the property, if it gives one. -/
abbrev Gives {α : Type} (P : α → Prop) : Except Halt (α × List Line) → Prop :=
  Meets (fun v _ => P v) fun _ => True

theorem Gives.of_result {α : Type} {P : α → Prop} {r : Except Halt (α × List Line)}
    {hr : r ≠ .error .exhausted} {x : Except YamlError (α × List Line)} (h : Gives P r)
    (hx : result r hr = x) : ∀ v rest, x = .ok (v, rest) → P v := by
  rintro v rest rfl
  match r, h, hr with
  | .ok x, h, _ => cases hx; exact h
  | .error (.refused e), _, _ => cases hx
  | .error .exhausted, _, hr => exact absurd rfl hr

/-- The functions of the reader keep mappings proper. What a sequence holds is not looked at. -/
structure KeepsProper (fuel : Nat) : Prop where
  entries : ∀ column entries lines, entries.Proper →
    Gives YamlMap.Proper (readEntries fuel column entries lines)
  entry : ∀ column entries text lines, entries.Proper →
    Gives YamlMap.Proper (readEntry fuel column entries text lines)
  nested : ∀ column lines, Gives KeysOnce (readNested fuel column lines)

namespace KeepsProper

theorem entries_succ (h : KeepsProper fuel) (hp : entries.Proper) :
    Gives YamlMap.Proper (readEntries (fuel + 1) column entries lines) := by
  cases lines with
  | nil => exact hp
  | cons line rest =>
    unfold readEntries
    split
    · exact hp
    · split
      · trivial
      · split
        · trivial
        · exact Meets.bind (h.entry _ _ _ _ hp) fun entries rest => h.entries _ entries rest

theorem entry_succ (h : KeepsProper fuel) (hp : entries.Proper) :
    Gives YamlMap.Proper (readEntry (fuel + 1) column entries text lines) := by
  unfold readEntry
  split
  · exact hp
  · split
    · exact Meets.bind (h.nested column lines) fun v _ hv => hp.insert hv
    · split
      · exact hp.insert keysOnce_empty
      · exact hp.insert (keysOnce_ofScalar _)

theorem nested_succ (h : KeepsProper fuel) :
    Gives KeysOnce (readNested (fuel + 1) column lines) := by
  have items (column lines) :
      Gives KeysOnce (readItems fuel column [] lines >>= fun x => .ok (.seq x.1, x.2)) := by
    cases readItems fuel column [] lines with
    | error halt => trivial
    | ok x => exact keysOnce_of_map? rfl
  cases lines with
  | nil => exact keysOnce_empty
  | cons next rest =>
    unfold readNested
    split
    · split
      · exact items _ _
      · exact Meets.bind (h.entries _ [] _ proper_nil) fun _ _ hm => keysOnce_map hm.keys
    · split
      · exact items _ _
      · exact keysOnce_empty

end KeepsProper

theorem keepsProper : ∀ fuel, KeepsProper fuel
  | 0 => ⟨fun _ _ _ _ => trivial, fun _ _ _ _ _ => trivial, fun _ _ => trivial⟩
  | fuel + 1 =>
    have h := keepsProper fuel
    ⟨fun _ _ _ => h.entries_succ, fun _ _ _ _ => h.entry_succ, fun _ _ => h.nested_succ⟩

/-- **A document that is read has each key once**, and so has every mapping that is the value of one
of its keys. -/
theorem parse_proper {content : String} {doc : YamlMap} (h : parse content = .ok doc) :
    doc.Proper := by
  unfold parse ofLines at h
  generalize linesOf content = lines at h
  cases lines with
  | nil =>
    cases h
    exact proper_nil
  | cons first rest =>
    dsimp only at h
    split at h
    · cases h
    · generalize hread : result _ _ = r at h
      have hproper := ((keepsProper _).entries first.column [] _ proper_nil).of_result hread
      match r, h with
      | .error e, h => cases h
      | .ok (entries, []), h => cases h; exact hproper _ _ rfl
      | .ok (entries, line :: behind), h => cases h

end Yaml

end DockerSim
