import DockerSim.Binary64.Decimal

/-!
# YAML values

The values that the reader of stack files produces. A mapping keeps its keys in the order of the
document; writing a key again replaces its value in place.
-/

namespace DockerSim

inductive Yaml where
  | null
  | bool (b : Bool)
  | int (n : Int)
  | float (x : Binary64)
  | str (s : String)
  | seq (items : List Yaml)
  | map (entries : List (String × Yaml))
deriving Inhabited

/-- Keys and values in document order, each key once. -/
abbrev YamlMap := List (String × Yaml)

namespace YamlMap

def get? (m : YamlMap) (key : String) : Option Yaml := m.lookup key

/-- The mapping with a value for `key`: in the place of its old value, or at the end. -/
def insert (m : YamlMap) (key : String) (value : Yaml) : YamlMap :=
  match m with
  | [] => [(key, value)]
  | (k, v) :: rest => if k = key then (k, value) :: rest else (k, v) :: insert rest key value

def keys (m : YamlMap) : List String := m.map (·.1)

def contains (m : YamlMap) (key : String) : Bool := (m.get? key).isSome

end YamlMap

namespace Yaml

def map? : Yaml → Option YamlMap
  | .map m => some m
  | _ => none

def str? : Yaml → Option String
  | .str s => some s
  | _ => none

/-- The text of a string or a number. -/
def text? : Yaml → Option String
  | .str s => some s
  | .int n => some (.ofList ((if n < 0 then ['-'] else []) ++ Chars.digits 10 n.natAbs))
  | .float x => some (.ofList x.text)
  | _ => none

/-- The value says something: it is not `null`, `false` or an empty string. -/
def isSet : Yaml → Bool
  | .null => false
  | .bool b => b
  | .str s => s ≠ ""
  | _ => true

end Yaml

/-- The key is present with a value that says something. -/
def YamlMap.has (m : YamlMap) (key : String) : Bool := (m.get? key).any Yaml.isSet

end DockerSim
