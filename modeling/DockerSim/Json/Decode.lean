import DockerSim.Json.Basic

/-!
# Reading records from JSON

A record is written as an object, in which its fields come in any order and unknown fields are
passed over, or as an array that holds all its fields in their fixed order. A known field that
occurs twice in an object is refused. A name from a closed list is a text, or an object whose one
field has that name and is null.
-/

namespace DockerSim.Json

def str? : Json → Option String
  | .str s => some s
  | _ => none

def int? : Json → Option Int
  | .int n => some n
  | _ => none

/-- A whole number from zero up to `bound - 1`. -/
def nat? (bound : Nat) (j : Json) : Option Nat := do
  let n ← j.int?
  if 0 ≤ n && n < bound then some n.toNat else none

def listOf? (f : Json → Option α) : Json → Option (List α)
  | .arr items => items.mapM f
  | _ => none

/-- A map, the last value of a key counting. -/
def tableOf? (f : Json → Option α) : Json → Option (Table α)
  | .obj fields => (fields.mapM fun e => (f e.2).map fun a => (e.1, a)).map Table.ofList
  | _ => none

/-- A value, or `null`. -/
def option? (f : Json → Option α) : Json → Option (Option α)
  | .null => some none
  | j => (f j).map some

/-- Any value, its objects read as maps. -/
def any? (j : Json) : Option Json := if j.isUsable then some j.canonical else none

/-- One of a closed list of names. -/
def name? (names : List (String × α)) : Json → Option α
  | .str s => names.lookup s
  | .obj [(s, .null)] => names.lookup s
  | _ => none

/-! ## Records -/

/-- The fields of a record that are present. -/
abbrev Record := List (String × Json)

/-- The known fields of a value, with `names` the fixed order of the fields. An array may be cut
short only when `lenient`. -/
def record? (names : List String) (lenient : Bool) : Json → Option Record
  | .obj fields =>
    let known := fields.filter fun (k, _) => names.contains k
    if (known.map (·.1)).Nodup then some known else none
  | .arr items =>
    if items.length = names.length || (lenient && items.length < names.length) then
      some (names.zip items)
    else none
  | _ => none

namespace Record

/-- A field that must be present. -/
def need (r : Record) (name : String) (f : Json → Option α) : Option α :=
  (r.lookup name).bind f

/-- A field that may be absent or null. -/
def option (r : Record) (name : String) (f : Json → Option α) : Option (Option α) :=
  match r.lookup name with
  | none => some none
  | some j => option? f j

/-- A field that has a value of its own when it is absent. -/
def withDefault (r : Record) (name : String) (default : α) (f : Json → Option α) : Option α :=
  match r.lookup name with
  | none => some default
  | some j => f j

end Record

end DockerSim.Json
