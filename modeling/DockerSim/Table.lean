/-!
# Tables

Finite maps from texts to values. A table keeps its entries in increasing order of the keys, by code
points, so each key has one entry and a table is listed in one order only.
-/

namespace DockerSim

/-- A finite map keyed by text, listed by increasing key. -/
structure Table (α : Type u) where
  entries : List (String × α)
  increasing : entries.Pairwise (·.1 < ·.1)
deriving DecidableEq

namespace Table

variable {α : Type u} {β : Type v}

def empty : Table α := ⟨[], .nil⟩

instance : EmptyCollection (Table α) := ⟨empty⟩
instance : Inhabited (Table α) := ⟨empty⟩

/-! ## Looking up -/

def get? (t : Table α) (key : String) : Option α := t.entries.lookup key

def contains (t : Table α) (key : String) : Bool := (t.get? key).isSome

def keys (t : Table α) : List String := t.entries.map (·.1)

def values (t : Table α) : List α := t.entries.map (·.2)

def size (t : Table α) : Nat := t.entries.length

def isEmpty (t : Table α) : Bool := t.entries.isEmpty

/-! ## Changing -/

/-- The entries with `key` holding `value`, at its place in the order. -/
def insertEntry (key : String) (value : α) : List (String × α) → List (String × α)
  | [] => [(key, value)]
  | (k, v) :: rest =>
    if key < k then (key, value) :: (k, v) :: rest
    else if key = k then (key, value) :: rest
    else (k, v) :: insertEntry key value rest

theorem key_mem_insertEntry {key : String} {value : α} {e : String × α} :
    ∀ {l : List (String × α)}, e ∈ insertEntry key value l → e = (key, value) ∨ e ∈ l
  | [], h => by simpa [insertEntry] using h
  | (k, v) :: rest, h => by
    unfold insertEntry at h
    split at h
    · simpa using h
    · split at h
      · rcases List.mem_cons.1 h with h | h
        · exact .inl h
        · exact .inr (List.mem_cons_of_mem _ h)
      · rcases List.mem_cons.1 h with h | h
        · exact .inr (h ▸ List.mem_cons_self)
        · rcases key_mem_insertEntry h with h | h
          · exact .inl h
          · exact .inr (List.mem_cons_of_mem _ h)

theorem increasing_insertEntry {key : String} {value : α} :
    ∀ {l : List (String × α)}, l.Pairwise (·.1 < ·.1) →
      (insertEntry key value l).Pairwise (·.1 < ·.1)
  | [], _ => by simp [insertEntry]
  | (k, v) :: rest, h => by
    have hk := List.pairwise_cons.1 h
    unfold insertEntry
    split
    · next hlt =>
      refine List.pairwise_cons.2 ⟨?_, h⟩
      intro e he
      rcases List.mem_cons.1 he with rfl | he
      · exact hlt
      · exact String.lt_trans hlt (hk.1 e he)
    · next hlt =>
      split
      · next heq => subst heq; exact List.pairwise_cons.2 hk
      · next hne =>
        refine List.pairwise_cons.2 ⟨?_, increasing_insertEntry hk.2⟩
        intro e he
        rcases key_mem_insertEntry he with rfl | he
        · exact Std.lt_of_le_of_ne (Std.not_lt.1 hlt) (Ne.symm hne)
        · exact hk.1 e he

/-- The table with `key` holding `value`, whatever it held before. -/
def insert (t : Table α) (key : String) (value : α) : Table α :=
  ⟨insertEntry key value t.entries, increasing_insertEntry t.increasing⟩

/-- The entries that satisfy `p`. -/
def filter (p : String → α → Bool) (t : Table α) : Table α :=
  ⟨t.entries.filter fun (k, v) => p k v, t.increasing.filter _⟩

def erase (t : Table α) (key : String) : Table α := t.filter fun k _ => k ≠ key

/-- The same keys, with `f` applied to the values. -/
def mapValues (f : String → α → β) (t : Table α) : Table β :=
  ⟨t.entries.map fun (k, v) => (k, f k v), by
    simpa [List.pairwise_map] using t.increasing⟩

/-- The entries of a list, the later of two with the same key winning. -/
def ofList (l : List (String × α)) : Table α := l.foldl (fun t (k, v) => t.insert k v) empty

/-- The first entry, by key, whose value satisfies `p`. -/
def find? (p : α → Bool) (t : Table α) : Option (String × α) := t.entries.find? fun (_, v) => p v

end Table

end DockerSim
