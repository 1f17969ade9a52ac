import DockerSim.Binary64.Basic
import DockerSim.Table

/-!
# JSON values

A value keeps the fields of an object as they were written, in order and with repetitions. Whoever
reads a record from it decides what a repetition means; `Json.canonical` is the reading as a map, in
which the last value of a key counts and the keys are listed in increasing order.

A text can be well formed and still hold parts that are no data. Such a part is kept as `unusable`:
it does no harm where a value is passed over, and nothing can be read from it.
-/

namespace DockerSim

inductive Json where
  | null
  | bool (b : Bool)
  /-- A whole number from `-2 ^ 63` to `2 ^ 64 - 1`. -/
  | int (n : Int)
  | real (x : Binary64)
  | str (s : String)
  | arr (items : List Json)
  | obj (fields : List (String × Json))
  /-- A text or an object key with half a surrogate pair, a number beyond the doubles, or arrays and
  objects nested too deeply. -/
  | unusable
deriving Inhabited

namespace Json

mutual

/-- The value with the fields of its objects read as maps. -/
def canonical : Json → Json
  | .arr items => .arr (canonicalItems items)
  | .obj fields => .obj (Table.ofList (canonicalFields fields)).entries
  | j => j

def canonicalItems : List Json → List Json
  | [] => []
  | j :: js => canonical j :: canonicalItems js

def canonicalFields : List (String × Json) → List (String × Json)
  | [] => []
  | (k, j) :: fields => (k, canonical j) :: canonicalFields fields

end

mutual

/-- No part of the value is unusable. -/
def isUsable : Json → Bool
  | .arr items => areUsable items
  | .obj fields => haveUsable fields
  | .unusable => false
  | _ => true

def areUsable : List Json → Bool
  | [] => true
  | j :: js => isUsable j && areUsable js

def haveUsable : List (String × Json) → Bool
  | [] => true
  | (_, j) :: fields => isUsable j && haveUsable fields

end

/-- An array of texts. -/
def strs (ss : List String) : Json := .arr (ss.map .str)

def nat (n : Nat) : Json := .int n

/-- A value, or `null`. -/
def ofOption (f : α → Json) : Option α → Json
  | none => .null
  | some a => f a

def ofTable (f : α → Json) (t : Table α) : Json := .obj (t.entries.map fun (k, v) => (k, f v))

end Json

end DockerSim
