import DockerSim.Compose.Check
import DockerSim.Dockerfile.Check
import Mathlib.Data.List.TakeWhile

/-!
# The checks index inside their lists

The parts of the checks that work with indices, with the indices written out where one can be out of
range (`Indexed`): the lines of a service in a stack file, the last two parts of a port mapping, the
rows of the edit distance, the words of a `FROM`, and the first instruction of a Dockerfile. No
index is out of range, on any input, and what is found is the same.
-/

namespace DockerSim

/-! ## Slices of lists -/

/-- The list from an index on. -/
def fromIndex? {α : Type} (xs : List α) (i : Nat) : Option (List α) :=
  if i ≤ xs.length then some (xs.drop i) else none

/-- The list between two indices, the first of which must not be behind the second. -/
def betweenIndices? {α : Type} (xs : List α) (i j : Nat) : Option (List α) :=
  if i ≤ j ∧ j ≤ xs.length then some ((xs.take j).drop i) else none

section Lists

variable {α : Type} {before after : List α} {a : α}

theorem fromIndex?_append (before after : List α) :
    fromIndex? (before ++ after) before.length = some after := by
  unfold fromIndex?
  rw [if_pos (by rw [List.length_append]; exact Nat.le_add_right _ _), List.drop_left]

theorem betweenIndices?_append (before inside after : List α) :
    betweenIndices? (before ++ (inside ++ after)) before.length
      (before.length + inside.length) = some inside := by
  have hlength : before.length + inside.length ≤ (before ++ (inside ++ after)).length := by
    simp only [List.length_append]
    omega
  unfold betweenIndices?
  rw [if_pos ⟨Nat.le_add_right _ _, hlength⟩, ← List.append_assoc, ← List.length_append,
    List.take_left, List.drop_left]

/-- A search finds `a` with `before` in front of it and `after` behind it. -/
structure Found (p : α → Bool) (xs before : List α) (a : α) (after : List α) : Prop where
  split : xs = before ++ a :: after
  holds : p a = true
  absent : ∀ x ∈ before, p x = false

namespace Found

variable {p : α → Bool} {xs : List α} (h : Found p xs before a after)

include h

theorem findIdx?_eq : xs.findIdx? p = some before.length := by
  rw [h.split, List.findIdx?_append, List.findIdx?_eq_none_iff.2 h.absent, List.findIdx?_cons,
    h.holds]
  simp

theorem any_eq : xs.any p = true := by
  rw [h.split, List.any_append, List.any_cons, h.holds, Bool.true_or, Bool.or_true]

theorem takeWhile_eq : xs.takeWhile (fun x => !p x) = before := by
  rw [h.split, List.takeWhile_append_of_pos fun x hx => by rw [h.absent x hx]; rfl,
    List.takeWhile_cons, h.holds, Bool.not_true, if_neg Bool.false_ne_true, List.append_nil]

theorem dropWhile_eq : xs.dropWhile (fun x => !p x) = a :: after := by
  rw [h.split, List.dropWhile_append_of_pos fun x hx => by rw [h.absent x hx]; rfl,
    List.dropWhile_cons, h.holds, Bool.not_true, if_neg Bool.false_ne_true]

end Found

/-- A search stops at the first element that is looked for, or finds none. -/
theorem search_cases (p : α → Bool) (xs : List α) :
    (∀ x ∈ xs, p x = false) ∨ ∃ before a after, Found p xs before a after := by
  induction xs with
  | nil => exact .inl fun _ hx => nomatch hx
  | cons x xs ih =>
    by_cases hx : p x = true
    · exact .inr ⟨[], x, xs, rfl, hx, fun _ hx => nomatch hx⟩
    · rw [Bool.not_eq_true] at hx
      rcases ih with habsent | ⟨before, a, after, rfl, ha, hbefore⟩
      · exact .inl (List.forall_mem_cons.2 ⟨hx, habsent⟩)
      · exact .inr ⟨x :: before, a, after, rfl, ha, List.forall_mem_cons.2 ⟨hx, hbefore⟩⟩

theorem fromIndex?_behind (before : List α) (a : α) (after : List α) :
    fromIndex? (before ++ a :: after) (before.length + 1) = some after := by
  have := fromIndex?_append (before ++ [a]) after
  simpa using this

end Lists

/-! ## The lines of a service -/

namespace Compose

namespace Indexed

/-- The index of the line of a service, and the one behind its block. -/
def serviceRange (lines : List ScanLine) (service : String) : Option (Option (Nat × Nat)) :=
  match lines.findIdx? fun l => l.column = 0 && l.hasKey "services" with
  | none => some none
  | some services =>
    match lines[services + 1]? with
    | none => some none
    | some first => do
      let column := first.column
      let below ← fromIndex? lines (services + 1)
      match (below.takeWhile fun l => column ≤ l.column).findIdx? fun l =>
          l.column = column && l.hasKey service with
      | none => some none
      | some offset =>
        let start := offset + services + 1
        let behind ← fromIndex? lines (start + 1)
        let stop := match behind.findIdx? fun l => l.column ≤ column with
          | none => lines.length
          | some offset => start + 1 + offset
        some (some (start, stop))

def serviceLine (lines : List ScanLine) (service : String) : Option Nat := do
  match ← serviceRange lines service with
  | none => some 1
  | some (start, _) => (lines[start]?).map ScanLine.number

def fieldLine (lines : List ScanLine) (service key : String) : Option Nat := do
  match ← serviceRange lines service with
  | none => some 1
  | some (start, stop) =>
    let block ← betweenIndices? lines (start + 1) stop
    let header ← lines[start]?
    match block.find? fun l => l.hasKey key with
    | some l => some l.number
    | none => some header.number

end Indexed

/-- The block behind a line reaches up to the next line that is not deeper. -/
theorem betweenIndices?_block (column : Nat) (front : List ScanLine) (header : ScanLine)
    (behind : List ScanLine) :
    betweenIndices? (front ++ header :: behind) (front.length + 1)
      (match behind.findIdx? fun l => l.column ≤ column with
        | none => (front ++ header :: behind).length
        | some offset => front.length + 1 + offset) =
      some (behind.takeWhile fun l => column < l.column) := by
  have hblock : ∀ block rest, behind = block ++ rest →
      betweenIndices? (front ++ header :: behind) (front.length + 1)
        (front.length + 1 + block.length) = some block := by
    rintro block rest rfl
    have := betweenIndices?_append (front ++ [header]) block rest
    simpa using this
  have htest : (fun l : ScanLine => decide (column < l.column)) =
      fun l => !decide (l.column ≤ column) := by
    funext l
    rw [← decide_not, decide_eq_decide, Nat.not_le]
  rw [htest]
  rcases search_cases (fun l : ScanLine => decide (l.column ≤ column)) behind with
    habsent | ⟨block, next, rest, hfound⟩
  · have htake : (behind.takeWhile fun l => !decide (l.column ≤ column)) = behind :=
      List.takeWhile_eq_self_iff.2 fun l hl => by rw [habsent l hl]; rfl
    have hlength : (front ++ header :: behind).length = front.length + 1 + behind.length := by
      simp
      omega
    rw [List.findIdx?_eq_none_iff.2 habsent, htake]
    dsimp only
    rw [hlength, hblock behind [] (List.append_nil _).symm]
  · rw [hfound.findIdx?_eq, hfound.takeWhile_eq]
    exact hblock block _ hfound.split

/-- The range of a service is where its line and its block are. -/
theorem serviceRange_spec (lines : List ScanLine) (service : String) :
    match serviceBlock lines service with
    | none => Indexed.serviceRange lines service = some none
    | some (header, block) => ∃ start stop,
        Indexed.serviceRange lines service = some (some (start, stop)) ∧
          lines[start]? = some header ∧ betweenIndices? lines (start + 1) stop = some block := by
  unfold serviceBlock Indexed.serviceRange
  rcases search_cases (fun l : ScanLine => decide (l.column = 0) && l.hasKey "services") lines with
    habsent | ⟨above, top, below, htop⟩
  · have hdrop : lines.dropWhile
        (fun l : ScanLine => !(decide (l.column = 0) && l.hasKey "services")) = [] :=
      List.dropWhile_eq_nil_iff.2 fun l hl => by rw [habsent l hl]; rfl
    simp only [List.findIdx?_eq_none_iff.2 habsent, hdrop, List.drop_nil]
  have hfirst : lines[above.length + 1]? = below.head? := by
    rw [List.head?_eq_getElem?, htop.split, List.getElem?_append_right (by omega)]
    simp
  have hbehind : fromIndex? lines (above.length + 1) = some below := by
    rw [htop.split, fromIndex?_behind]
  simp only [htop.findIdx?_eq, htop.dropWhile_eq, List.drop_succ_cons, List.drop_zero, hfirst,
    hbehind]
  cases hbelow : below with
  | nil => rfl
  | cons first rest =>
    dsimp only [List.head?_cons, Option.bind_eq_bind, Option.bind_some]
    rw [← hbelow]
    rcases search_cases (fun l : ScanLine => decide (l.column = first.column) && l.hasKey service)
        (below.takeWhile fun l => decide (first.column ≤ l.column)) with
      habsent | ⟨others, header, more, hinside⟩
    · have hany : ((below.takeWhile fun l => decide (first.column ≤ l.column)).any
          fun l => decide (l.column = first.column) && l.hasKey service) = false :=
        List.any_eq_false.2 fun l hl => by rw [habsent l hl]; exact Bool.false_ne_true
      simp only [hany, List.findIdx?_eq_none_iff.2 habsent, Bool.not_false, if_true]
    · obtain ⟨behind, hheader⟩ : ∃ behind, Found
          (fun l : ScanLine => decide (l.column = first.column) && l.hasKey service)
          below others header behind := by
        refine ⟨more ++ below.dropWhile fun l => decide (first.column ≤ l.column), ?_,
          hinside.holds, hinside.absent⟩
        conv => lhs; rw [← List.takeWhile_append_dropWhile
          (p := fun l : ScanLine => decide (first.column ≤ l.column)) (l := below), hinside.split]
        simp
      obtain ⟨front, hfront⟩ : ∃ front, front = above ++ top :: others := ⟨_, rfl⟩
      have hlines : lines = front ++ header :: behind := by
        rw [htop.split, hfront, hheader.split]
        simp
      have hindex : others.length + above.length + 1 = front.length := by
        rw [hfront]
        simp
        omega
      simp only [hinside.any_eq, hinside.findIdx?_eq, hheader.dropWhile_eq, hlines, hindex,
        fromIndex?_behind, Bool.not_true, Bool.false_eq_true, if_false, Option.bind_some]
      exact ⟨_, _, rfl, by simp, betweenIndices?_block _ _ _ _⟩

/-- **The line of a service is inside the file.** -/
theorem serviceLine_indexed (lines : List ScanLine) (service : String) :
    Indexed.serviceLine lines service = some (serviceLine lines service) := by
  have hspec := serviceRange_spec lines service
  unfold Indexed.serviceLine serviceLine
  cases hblock : serviceBlock lines service with
  | none =>
    rw [hblock] at hspec
    rw [hspec]
    rfl
  | some found =>
    rw [hblock] at hspec
    obtain ⟨start, stop, hrange, hheader, -⟩ := hspec
    rw [hrange]
    show (lines[start]?).map ScanLine.number = _
    rw [hheader]
    rfl

theorem fieldLine_indexed (lines : List ScanLine) (service key : String) :
    Indexed.fieldLine lines service key = some (fieldLine lines service key) := by
  have hspec := serviceRange_spec lines service
  unfold Indexed.fieldLine fieldLine
  cases hblock : serviceBlock lines service with
  | none =>
    rw [hblock] at hspec
    rw [hspec]
    rfl
  | some found =>
    obtain ⟨header, block⟩ := found
    rw [hblock] at hspec
    obtain ⟨start, stop, hrange, hheader, hinside⟩ := hspec
    simp only [hrange, hheader, hinside, Option.bind_eq_bind, Option.bind_some]
    cases block.find? fun l => l.hasKey key <;> rfl

/-! ## Ports -/

namespace Indexed

def checkPort (name : String) (entry : Yaml) : Option (List ComposeProblem) :=
  match entry.text? with
  | none => some [.portNotText name]
  | some spec =>
    let parts := Text.split ':' spec
    if parts.length < 2 then some []
    else do
      let host ← parts[parts.length - 2]?
      let container ← parts[parts.length - 1]?
      some (if isPortNumber host && isPortNumber container then [] else [.badPort name spec])

end Indexed

theorem checkPort_indexed (name : String) (entry : Yaml) :
    Indexed.checkPort name entry = some (checkPort name entry) := by
  unfold Indexed.checkPort checkPort
  cases entry.text? with
  | none => rfl
  | some spec =>
    dsimp only
    generalize Text.split ':' spec = parts
    cases hreverse : parts.reverse with
    | nil =>
      rw [List.reverse_eq_nil_iff] at hreverse
      subst hreverse
      rfl
    | cons container rest =>
      have hparts := congrArg List.reverse hreverse
      rw [List.reverse_reverse, List.reverse_cons] at hparts
      cases rest with
      | nil =>
        rw [hparts]
        rfl
      | cons host rest =>
        have hlength : parts.length = rest.length + 2 := by simp [hparts]
        have hhost : parts[parts.length - 2]? = some host := by
          rw [hlength, hparts]
          simp
        have hcontainer : parts[parts.length - 1]? = some container := by
          rw [hlength, hparts]
          simp
        rw [if_neg (by omega), hhost, hcontainer]
        rfl

end Compose

/-! ## Edit distance -/

namespace Spelling

namespace Indexed

/-- A row with the cell behind column `j` filled in, from the row above and the cell before. -/
def fillCell (a : Char) (prev row : List Nat) : Char × Nat → Option (List Nat)
  | (b, j) => do
    let corner ← prev[j]?
    let above ← prev[j + 1]?
    let left ← row[j]?
    let cell := min (min (corner + if a = b then 0 else 1) (above + 1)) (left + 1)
    if j + 1 < row.length then some (row.set (j + 1) cell) else none

def fillRow (bs : List Char) (prev : List Nat) : Char × Nat → Option (List Nat)
  | (a, i) => bs.zipIdx.foldlM (fillCell a prev) (List.replicate (bs.length + 1) (i + 1))

def distance (as bs : List Char) : Option Nat := do
  let last ← as.zipIdx.foldlM (fillRow bs) (List.range (bs.length + 1))
  last[bs.length]?

end Indexed

theorem length_rowFrom (a : Char) : ∀ (left corner : Nat) (above : List Nat) (bs : List Char),
    above.length = bs.length → (rowFrom a left corner above bs).length = bs.length
  | _, _, [], [], _ => rfl
  | left, corner, cell :: above, b :: bs, h => by
    rw [rowFrom, List.length_cons, length_rowFrom a _ _ above bs (Nat.succ.inj h),
      List.length_cons]

/-- The cells of a row are filled in from left to right. -/
theorem fillCells_eq (a : Char) (blank : Nat) : ∀ (bs : List Char) (done before above : List Nat)
    (left corner : Nat), above.length = bs.length → before.length = done.length →
    (bs.zipIdx done.length).foldlM (Indexed.fillCell a (before ++ corner :: above))
      (done ++ left :: List.replicate bs.length blank) =
        some (done ++ left :: rowFrom a left corner above bs)
  | [], done, before, [], left, corner, _, _ => rfl
  | b :: bs, done, before, cell :: above, left, corner, habove, hbefore => by
    obtain ⟨next, hnext⟩ : ∃ next,
      next = min (min (corner + if a = b then 0 else 1) (cell + 1)) (left + 1) := ⟨_, rfl⟩
    have hfill : Indexed.fillCell a (before ++ corner :: cell :: above)
        (done ++ left :: List.replicate (b :: bs).length blank) (b, done.length) =
          some ((done ++ [left]) ++ next :: List.replicate bs.length blank) := by
      have hcorner : (before ++ corner :: cell :: above)[done.length]? = some corner := by
        simp [← hbefore]
      have hcell : (before ++ corner :: cell :: above)[done.length + 1]? = some cell := by
        rw [← hbefore, List.getElem?_append_right (by omega)]
        simp
      have hleft : (done ++ left :: List.replicate (b :: bs).length blank)[done.length]? =
          some left := by simp
      have hlength : done.length + 1 <
          (done ++ left :: List.replicate (b :: bs).length blank).length := by simp
      unfold Indexed.fillCell
      simp only [hcorner, hcell, hleft, Option.bind_eq_bind, Option.bind_some, if_pos hlength,
        ← hnext]
      rw [List.set_append_right _ _ (by omega)]
      simp [List.replicate_succ]
    have hrest := fillCells_eq a blank bs (done ++ [left]) (before ++ [corner]) above next cell
      (Nat.succ.inj habove) (by simp [hbefore])
    rw [List.zipIdx_cons, List.foldlM_cons, hfill, Option.bind_eq_bind, Option.bind_some, rowFrom,
      ← hnext]
    simpa using hrest

variable {bs : List Char}

/-- A row begins with its number and has a cell for each column. -/
theorem fillRow_eq {a : Char} {i : Nat} {above : List Nat} (h : above.length = bs.length) :
    Indexed.fillRow bs (i :: above) (a, i) = some (nextRow a (i :: above) bs) :=
  fillCells_eq a (i + 1) bs [] [] above (i + 1) i h rfl

theorem fillRows_eq : ∀ (as : List Char) (i : Nat) {above : List Nat}, above.length = bs.length →
    ∃ last, (as.zipIdx i).foldlM (Indexed.fillRow bs) (i :: above) = some last ∧
      last = as.foldl (fun row a => nextRow a row bs) (i :: above) ∧ last.length = bs.length + 1
  | [], i, above, h => ⟨i :: above, rfl, rfl, congrArg Nat.succ h⟩
  | a :: as, i, above, h => by
    have hlength := length_rowFrom a (i + 1) i above bs h
    obtain ⟨last, hfold, hlast, hlen⟩ := fillRows_eq as (i + 1) hlength
    refine ⟨last, ?_, hlast, hlen⟩
    rw [List.zipIdx_cons, List.foldlM_cons, fillRow_eq h]
    exact hfold

/-- **No cell outside the rows is read or written.** -/
theorem distance_indexed (as bs : List Char) :
    Indexed.distance as bs = some (distance as bs) := by
  have hcolumns : (List.range' 1 bs.length).length = bs.length := List.length_range'
  obtain ⟨last, hfold, hlast, hlen⟩ := fillRows_eq as 0 hcolumns
  have hrange : List.range (bs.length + 1) = 0 :: List.range' 1 bs.length := by
    rw [List.range_eq_range', List.range'_succ]
  unfold Indexed.distance distance
  rw [hrange, hfold, ← hlast]
  show last[bs.length]? = some (last.getLastD 0)
  obtain ⟨row, cell, rfl⟩ : ∃ row cell, last = row ++ [cell] :=
    ⟨last.dropLast, last.getLast (List.ne_nil_of_length_eq_add_one hlen),
      (List.dropLast_concat_getLast _).symm⟩
  have hrow : row.length = bs.length := by simpa using hlen
  simp [← hrow]

end Spelling

/-! ## Instructions -/

namespace Dockerfile

namespace Indexed

/-- The neighbouring words of a row of words. -/
def pairs : List String → List (List String)
  | v :: w :: words => [v, w] :: pairs (w :: words)
  | _ => []

def stageName (words : List String) : Option (Option String) := do
  let found ← (pairs words).findM? fun pair =>
    (pair[0]?).map fun keyword => decide (keyword.toList.map Chars.lowerAscii = ['a', 's'])
  match found with
  | some pair => (pair[1]?).map some
  | none => some none

def checkInstructions (is : List Instruction) : Option (List Finding) :=
  if is.isEmpty then some []
  else if (withKeyword "FROM" is).isEmpty then
    (is[0]?).map fun first => [DockerfileProblem.missingFrom.finding first.line]
  else
    some (checkFirst is ++ checkEach [] is ++ checkRuns is ++ checkShellForms is ++ checkServing is)

end Indexed

theorem stageName_indexed (words : List String) :
    Indexed.stageName words = some (stageName words) := by
  induction words using stageName.induct with
  | case1 keyword name rest h =>
    simp [Indexed.stageName, Indexed.pairs, stageName, List.findM?, h]
  | case2 keyword name rest h ih =>
    rw [stageName, if_neg h, ← ih]
    simp [Indexed.stageName, Indexed.pairs, List.findM?, h]
  | case3 words h =>
    have hpairs : Indexed.pairs words = [] := by
      rw [Indexed.pairs]
      exact h
    rw [stageName, Indexed.stageName, hpairs]
    · rfl
    · exact h

theorem checkInstructions_indexed (is : List Instruction) :
    Indexed.checkInstructions is = some (checkInstructions is) := by
  unfold Indexed.checkInstructions checkInstructions
  cases is with
  | nil => rfl
  | cons first rest =>
    rw [List.isEmpty_cons, if_neg Bool.false_ne_true]
    exact (apply_ite some _ _ _).symm

end Dockerfile

end DockerSim
