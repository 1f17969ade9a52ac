import DockerSim.Text

/-!
# Settings documents

A TOML document is a table: a list of entries with different keys. Tables come about in four ways,
and how one came about decides what may still be added to it. Headers and the paths in front of
values lead through tables that exist and make those that do not.
-/

namespace DockerSim

/-- How a table came about. -/
inductive TableOrigin where
  /-- By a header of its own. -/
  | header
  /-- By the header of a table inside it. -/
  | implied
  /-- By a path with dots in front of a value. -/
  | dotted
  /-- Written in braces, once and for all. -/
  | inline
deriving DecidableEq, Repr

inductive Toml where
  | text (s : String)
  | switch (b : Bool)
  /-- A number, a date or a time, of which only the form is checked. -/
  | plain
  | list (items : List Toml)
  | table (origin : TableOrigin) (entries : List (String × Toml))
  /-- The tables under a repeated header, the last one first. -/
  | tables (items : List (List (String × Toml)))

abbrev TomlEntries := List (String × Toml)

namespace Toml

def text? : Toml → Option String
  | text s => some s
  | _ => none

def switch? : Toml → Option Bool
  | switch b => some b
  | _ => none

def texts? : Toml → Option (List String)
  | list items => items.mapM text?
  | _ => none

end Toml

namespace TomlEntries

/-- The value of a key as `read` takes it, `default` when the key is absent; nothing when it has a
value of another kind. -/
def value? (entries : TomlEntries) (key : String) (default : α) (read : Toml → Option α) :
    Option α :=
  match entries.lookup key with
  | none => some default
  | some value => read value

/-- The entries with a new value for a key that has one. -/
def replace (entries : TomlEntries) (key : String) (value : Toml) : TomlEntries :=
  entries.map fun (k, v) => if k = key then (k, value) else (k, v)

/-- The entries after a change to the table at the end of a path, which begins in a table of the
given origin. Tables that are missing on the way are made. A table in braces cannot be entered, and
one that has a header cannot be entered by a path with dots. -/
def change (missing : TableOrigin) (f : TableOrigin → TomlEntries → Option TomlEntries)
    (origin : TableOrigin) : (path : List String) → TomlEntries → Option TomlEntries
  | [], entries => f origin entries
  | key :: path, entries =>
    match entries.lookup key with
    | none => do
      some (entries ++ [(key, .table missing (← change missing f missing path []))])
    | some (.table inner table) =>
      if inner = .inline || (inner = .header && missing = .dotted) then none
      else do
        some (entries.replace key (.table inner (← change missing f inner path table)))
    | some (.tables (last :: earlier)) => do
      some (entries.replace key (.tables ((← change missing f .header path last) :: earlier)))
    | some _ => none

/-- The entries with a value for a new key at the end of a path with dots. Such a path must not end
in a table that it did not make or that was not made by one like it. -/
def assign (path : List String) (key : String) (value : Toml) (entries : TomlEntries) :
    Option TomlEntries :=
  let add (origin : TableOrigin) (table : TomlEntries) : Option TomlEntries :=
    if (origin = .dotted) = path.isEmpty || (table.lookup key).isSome then none
    else some (table ++ [(key, value)])
  change .dotted add .header path entries

/-- The entries with a value for a new key below the header that was read last. -/
def assignBelow (header path : List String) (key : String) (value : Toml)
    (entries : TomlEntries) : Option TomlEntries :=
  change .implied (fun _ => assign path key value) .header header entries

/-- The entries with the table that a header opens. It must be new, or implied by earlier
headers. -/
def openTable (path : List String) (key : String) (entries : TomlEntries) : Option TomlEntries :=
  let add (_ : TableOrigin) (table : TomlEntries) : Option TomlEntries :=
    match table.lookup key with
    | none => some (table ++ [(key, .table .header [])])
    | some (.table .implied inner) => some (table.replace key (.table .header inner))
    | some _ => none
  change .implied add .header path entries

/-- The entries with the table that a repeated header opens. -/
def openItem (path : List String) (key : String) (entries : TomlEntries) : Option TomlEntries :=
  let add (_ : TableOrigin) (table : TomlEntries) : Option TomlEntries :=
    match table.lookup key with
    | none => some (table ++ [(key, .tables [[]])])
    | some (.tables items) => some (table.replace key (.tables ([] :: items)))
    | some _ => none
  change .implied add .header path entries

end TomlEntries

end DockerSim
