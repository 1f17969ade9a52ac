/-!
# Spelling of keywords

The edit distance between two words counts the single characters to insert, delete or replace. It is
computed row by row; a keyword that is not known is compared with all that are.
-/

namespace DockerSim.Spelling

/-- The cells of the next row from left to right. `left` is the cell before, `corner` and `row` are
the cells of the row above, `cs` the characters of the columns. -/
def rowFrom (a : Char) (left corner : Nat) : List Nat → List Char → List Nat
  | above :: row, b :: bs =>
    let cell := min (min (corner + if a = b then 0 else 1) (above + 1)) (left + 1)
    cell :: rowFrom a cell above row bs
  | _, _ => []

/-- The row after one more character of the first word. -/
def nextRow (a : Char) (row : List Nat) (bs : List Char) : List Nat :=
  match row with
  | corner :: above => (corner + 1) :: rowFrom a (corner + 1) corner above bs
  | [] => []

/-- The least number of single-character edits that turn `as` into `bs`. -/
def distance (as bs : List Char) : Nat :=
  let last := as.foldl (fun row a => nextRow a row bs) (List.range (bs.length + 1))
  last.getLastD 0

/-- The first of the nearest words, if it is at most `limit` edits away. -/
def closest (limit : Nat) (word : String) (known : List String) : Option String :=
  let near := (known.map fun k => (distance word.toList k.toList, k)).filter (·.1 ≤ limit)
  (near.foldl (fun best e =>
    match best with
    | some b => if e.1 < b.1 then some e else some b
    | none => some e) none).map (·.2)

end DockerSim.Spelling
