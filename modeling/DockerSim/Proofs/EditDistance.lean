import DockerSim.Dockerfile.Problem
import Mathlib.Order.Bounds.Basic
import Mathlib.Data.List.Induction

/-!
# Edit distance

The distance of two words is the least number of edits between them, an edit being a character that
is inserted, deleted or replaced (`isLeast_distance`). The distance is computed row by row, each row
from the one above; the cells of a row are the distances of a beginning of the first word from the
beginnings of the second one (`foldl_nextRow`), which are known from the words without their last
characters (`least`). The keyword that is suggested is the first of those with the least distance
(`closest_eq_find?`).
-/

namespace DockerSim.Spelling

/-! ## Edits -/

/-- One character is inserted, deleted or replaced. -/
inductive Edit : List Char → List Char → Prop
  | insert (front behind : List Char) (c : Char) : Edit (front ++ behind) (front ++ c :: behind)
  | delete (front behind : List Char) (c : Char) : Edit (front ++ c :: behind) (front ++ behind)
  | replace (front behind : List Char) (c d : Char) :
    Edit (front ++ c :: behind) (front ++ d :: behind)

/-- One word becomes the other by some number of edits. -/
inductive Edits : Nat → List Char → List Char → Prop
  | none (cs : List Char) : Edits 0 cs cs
  | cons {n : Nat} {as bs cs : List Char} (edit : Edit as bs) (edits : Edits n bs cs) :
    Edits (n + 1) as cs

variable {as bs cs : List Char} {a b c d : Char} {m n : Nat}

theorem Edit.cons (h : Edit as bs) (c : Char) : Edit (c :: as) (c :: bs) := by
  cases h with
  | insert front behind d => exact .insert (c :: front) behind d
  | delete front behind d => exact .delete (c :: front) behind d
  | replace front behind d e => exact .replace (c :: front) behind d e

theorem Edit.reverse (h : Edit as bs) : Edit as.reverse bs.reverse := by
  cases h with
  | insert front behind c => simpa using Edit.insert behind.reverse front.reverse c
  | delete front behind c => simpa using Edit.delete behind.reverse front.reverse c
  | replace front behind c d => simpa using Edit.replace behind.reverse front.reverse c d

theorem Edits.behind (h : Edits n as bs) (c : Char) : Edits n (c :: as) (c :: bs) := by
  induction h with
  | none cs => exact .none _
  | cons edit _ ih => exact .cons (edit.cons c) ih

theorem Edits.reverse (h : Edits n as bs) : Edits n as.reverse bs.reverse := by
  induction h with
  | none cs => exact .none _
  | cons edit _ ih => exact .cons edit.reverse ih

theorem Edits.reverse_iff : Edits n as.reverse bs.reverse ↔ Edits n as bs :=
  ⟨fun h => by simpa using h.reverse, Edits.reverse⟩

/-! ## The least number of edits -/

/-- The least number of edits, by the first characters of the two words. -/
def least : List Char → List Char → Nat
  | [], bs => bs.length
  | as, [] => as.length
  | a :: as, b :: bs =>
    min (min (least as bs + if a = b then 0 else 1) (least as (b :: bs) + 1))
      (least (a :: as) bs + 1)
termination_by as bs => as.length + bs.length

theorem least_nil (bs : List Char) : least [] bs = bs.length := by rw [least]

theorem least_nil_right (as : List Char) : least as [] = as.length := by
  cases as with
  | nil => exact least_nil []
  | cons a as => rw [least]; nofun

theorem least_cons_cons (a : Char) (as : List Char) (b : Char) (bs : List Char) :
    least (a :: as) (b :: bs) =
      min (min (least as bs + if a = b then 0 else 1) (least as (b :: bs) + 1))
        (least (a :: as) bs + 1) := by rw [least]

/-- What bounds the three ways to come to a first character bounds the least number of edits. -/
theorem le_least_cons_cons_iff : n ≤ least (a :: as) (b :: bs) ↔
    n ≤ (least as bs + if a = b then 0 else 1) ∧ n ≤ least as (b :: bs) + 1 ∧
      n ≤ least (a :: as) bs + 1 := by
  rw [least_cons_cons, Nat.le_min, Nat.le_min, and_assoc]

theorem least_cons_le (a : Char) (as bs : List Char) : least (a :: as) bs ≤ least as bs + 1 := by
  cases bs with
  | nil => rw [least_nil_right, least_nil_right, List.length_cons]
  | cons b bs => exact (le_least_cons_cons_iff.1 (Nat.le_refl _)).2.1

theorem least_le_cons (as : List Char) (b : Char) (bs : List Char) :
    least as (b :: bs) ≤ least as bs + 1 := by
  cases as with
  | nil => rw [least_nil, least_nil, List.length_cons]
  | cons a as => exact (le_least_cons_cons_iff.1 (Nat.le_refl _)).2.2

/-- Different first characters may be replaced by each other. -/
theorem least_cons_cons_le (a : Char) (as : List Char) (b : Char) (bs : List Char) :
    least (a :: as) (b :: bs) ≤ least as bs + if a = b then 0 else 1 :=
  (le_least_cons_cons_iff.1 (Nat.le_refl _)).1

theorem least_self (as : List Char) : least as as = 0 := by
  induction as with
  | nil => exact least_nil []
  | cons a as ih =>
    have hle := least_cons_cons_le a as a as
    rw [ih, if_pos rfl] at hle
    exact Nat.le_zero.1 hle

/-- An edit behind a first character is as good as one without it. -/
theorem least_behind (h : ∀ cs, least as cs ≤ least bs cs + 1) (c : Char) :
    ∀ cs, least (c :: as) cs ≤ least (c :: bs) cs + 1
  | [] => by
    have hnil := h []
    rw [least_nil_right, least_nil_right] at hnil ⊢
    exact Nat.succ_le_succ hnil
  | d :: cs => by
    have hcorner := least_cons_cons_le c as d cs
    have habove := least_cons_le c as (d :: cs)
    have hleft := least_le_cons (c :: as) d cs
    have hcs := h cs
    have hdcs := h (d :: cs)
    have ih := least_behind h c cs
    rw [least_cons_cons c bs]
    omega

/-- **An edit changes the least number of edits by one at most.** -/
theorem Edit.least_le (h : Edit as bs) (cs : List Char) : least as cs ≤ least bs cs + 1 := by
  -- what stands in front of the edit is the same in both words
  have hfront : ∀ {as bs : List Char}, (∀ cs, least as cs ≤ least bs cs + 1) →
      ∀ front cs, least (front ++ as) cs ≤ least (front ++ bs) cs + 1 := by
    intro as bs h front
    induction front with
    | nil => exact h
    | cons c front ih => exact least_behind ih c
  cases h with
  | insert front behind c =>
    refine hfront (fun cs => ?_) front cs
    induction cs with
    | nil => rw [least_nil_right, least_nil_right, List.length_cons]; omega
    | cons d cs ih =>
      have hleft := least_le_cons behind d cs
      rw [least_cons_cons c behind]
      omega
  | delete front behind c => exact hfront (least_cons_le c behind) front cs
  | replace front behind c d =>
    refine hfront (fun cs => ?_) front cs
    induction cs with
    | nil => rw [least_nil_right, least_nil_right, List.length_cons, List.length_cons]; omega
    | cons e cs ih =>
      have hcorner := least_cons_cons_le c behind e cs
      have habove := least_cons_le c behind (e :: cs)
      have hleft := least_le_cons (c :: behind) e cs
      rw [least_cons_cons d behind]
      have hcost : (if c = e then 0 else 1) ≤ 1 := by split <;> omega
      omega

theorem Edits.least_le (h : Edits n as bs) : least as bs ≤ n := by
  induction h with
  | none cs => exact (least_self cs).le
  | cons edit _ ih => exact (edit.least_le _).trans (Nat.succ_le_succ ih)

/-- **So many edits are enough.** -/
theorem edits_least : ∀ as bs : List Char, Edits (least as bs) as bs
  | [], [] => by rw [least_nil]; exact .none []
  | [], b :: bs => by
    have h := edits_least [] bs
    rw [least_nil] at h ⊢
    exact .cons (.insert [] [] b) (h.behind b)
  | a :: as, [] => by
    have h := edits_least as []
    rw [least_nil_right] at h ⊢
    exact .cons (.delete [] as a) h
  | a :: as, b :: bs => by
    have hcorner := edits_least as bs
    have habove := edits_least as (b :: bs)
    have hleft := edits_least (a :: as) bs
    have hcases : least (a :: as) (b :: bs) = (least as bs + if a = b then 0 else 1) ∨
        least (a :: as) (b :: bs) = least as (b :: bs) + 1 ∨
        least (a :: as) (b :: bs) = least (a :: as) bs + 1 := by
      rw [least_cons_cons]
      omega
    rcases hcases with h | h | h
    · rw [h]
      by_cases hab : a = b
      · subst hab
        rw [if_pos rfl]
        exact hcorner.behind a
      · rw [if_neg hab]
        exact .cons (.replace [] as a b) (hcorner.behind b)
    · rw [h]
      exact .cons (.delete [] as a) habove
    · rw [h]
      exact .cons (.insert [] (a :: as) b) (hleft.behind b)
termination_by as bs => as.length + bs.length

/-! ## The rows -/

/-- The cells of a row: how far `xs` is from each longer beginning of a word. Both are read
backwards, and `ys` is the beginning so far. -/
def cells (xs ys : List Char) : List Char → List Nat
  | [] => []
  | b :: bs => least xs (b :: ys) :: cells xs (b :: ys) bs

/-- The row for a beginning of the first word, which is read backwards. -/
def rowOf (xs bs : List Char) : List Nat := least xs [] :: cells xs [] bs

variable {xs ys : List Char}

/-- The cells of the next row come from those of the row above. -/
theorem rowFrom_cells (a : Char) (xs : List Char) : ∀ bs ys : List Char,
    rowFrom a (least (a :: xs) ys) (least xs ys) (cells xs ys bs) bs = cells (a :: xs) ys bs
  | [], _ => rfl
  | b :: bs, ys => by
    rw [cells, rowFrom, ← least_cons_cons a xs b ys, rowFrom_cells a xs bs (b :: ys), cells]

theorem nextRow_rowOf (a : Char) (xs bs : List Char) :
    nextRow a (rowOf xs bs) bs = rowOf (a :: xs) bs := by
  have hfirst : least xs [] + 1 = least (a :: xs) [] := by
    rw [least_nil_right, least_nil_right, List.length_cons]
  unfold rowOf nextRow
  dsimp only
  rw [hfirst, rowFrom_cells]

/-- **After a beginning of the first word, the row is that of the beginning.** -/
theorem foldl_nextRow (bs : List Char) : ∀ as xs : List Char,
    as.foldl (fun row a => nextRow a row bs) (rowOf xs bs) = rowOf (as.reverse ++ xs) bs
  | [], _ => rfl
  | a :: as, xs => by
    rw [List.foldl_cons, nextRow_rowOf, foldl_nextRow bs as (a :: xs), List.reverse_cons,
      List.append_assoc, List.singleton_append]

theorem cells_nil : ∀ bs ys : List Char, cells [] ys bs = List.range' (ys.length + 1) bs.length
  | [], _ => rfl
  | b :: bs, ys => by
    rw [cells, cells_nil bs (b :: ys), least_nil, List.length_cons, List.length_cons,
      List.range'_succ]

theorem range_eq_rowOf (bs : List Char) : List.range (bs.length + 1) = rowOf [] bs := by
  rw [rowOf, cells_nil, List.range_eq_range', List.range'_succ, least_nil_right]
  rfl

/-- The last cell is for the whole word. -/
theorem getLastD_cells (xs : List Char) : ∀ bs ys : List Char,
    (least xs ys :: cells xs ys bs).getLastD 0 = least xs (bs.reverse ++ ys)
  | [], _ => rfl
  | b :: bs, ys => by
    have ih := getLastD_cells xs bs (b :: ys)
    rw [List.getLastD_cons] at ih
    rw [cells, List.getLastD_cons, List.getLastD_cons, ih, List.reverse_cons, List.append_assoc,
      List.singleton_append]

theorem distance_eq_least (as bs : List Char) :
    distance as bs = least as.reverse bs.reverse := by
  unfold distance
  dsimp only
  rw [range_eq_rowOf, foldl_nextRow, List.append_nil]
  exact (getLastD_cells as.reverse bs []).trans (by rw [List.append_nil])

/-- **The distance is the least number of edits.** -/
theorem isLeast_distance (as bs : List Char) : IsLeast {n | Edits n as bs} (distance as bs) := by
  rw [distance_eq_least]
  refine ⟨Edits.reverse_iff.1 ?_, fun n h => ?_⟩
  · exact edits_least as.reverse bs.reverse
  · exact (Edits.reverse_iff.2 h).least_le

/-! ## Suggestions -/

/-- The best entry so far, or another one that is nearer. -/
def nearer (best : Option (Nat × String)) (e : Nat × String) : Option (Nat × String) :=
  match best with
  | some b => if e.1 < b.1 then some e else some b
  | none => some e

/-- Nothing in a list is nearer than the entry. -/
def isNearest (l : List (Nat × String)) (e : Nat × String) : Bool := l.all fun x => e.1 ≤ x.1

/-- **The entry that is left is the first of the nearest ones.** -/
theorem foldl_nearer_some : ∀ (l : List (Nat × String)) (b : Nat × String),
    l.foldl nearer (some b) = (b :: l).find? (isNearest (b :: l))
  | [], b => by simp [isNearest]
  | x :: l, b => by
    rw [List.foldl_cons, nearer]
    by_cases hx : x.1 < b.1
    · -- the best entry so far is not among the nearest any more, and tells nothing about the others
      have hb : isNearest (b :: x :: l) b = false := by simp [isNearest, hx]
      have hsame : isNearest (b :: x :: l) = isNearest (x :: l) := by
        funext e
        rw [Bool.eq_iff_iff]
        simp only [isNearest, List.all_cons, Bool.and_eq_true, decide_eq_true_iff]
        exact ⟨fun h => h.2, fun h => ⟨by omega, h⟩⟩
      have hskip : (b :: x :: l).find? (isNearest (b :: x :: l)) =
          (x :: l).find? (isNearest (b :: x :: l)) := List.find?_cons_of_neg (by rw [hb]; nofun)
      rw [if_pos hx, foldl_nearer_some l x, hskip, hsame]
    · -- the new entry is not nearer than the best one, and tells nothing about the others
      have hsame : isNearest (b :: x :: l) = isNearest (b :: l) := by
        funext e
        rw [Bool.eq_iff_iff]
        simp only [isNearest, List.all_cons, Bool.and_eq_true, decide_eq_true_iff]
        exact ⟨fun h => ⟨h.1, h.2.2⟩, fun h => ⟨h.1, by omega, h.2⟩⟩
      rw [if_neg hx, foldl_nearer_some l b, hsame, List.find?_cons, List.find?_cons]
      cases hb : isNearest (b :: l) b with
      | true => rfl
      | false =>
        have hfirst : isNearest (b :: l) x = false := by
          rw [Bool.eq_false_iff] at hb ⊢
          intro h
          refine hb (List.all_eq_true.2 fun y hy => ?_)
          have hxb := List.all_eq_true.1 h b List.mem_cons_self
          have hxy := List.all_eq_true.1 h y hy
          rw [decide_eq_true_iff] at hxb hxy ⊢
          omega
        rw [List.find?_cons, hfirst]

theorem foldl_nearer_none (l : List (Nat × String)) :
    l.foldl nearer none = l.find? (isNearest l) := by
  cases l with
  | nil => rfl
  | cons b l => exact foldl_nearer_some l b

theorem isSome_foldl_nearer : ∀ (l : List (Nat × String)) (best : Option (Nat × String)),
    (l.foldl nearer best).isSome = (best.isSome || !l.isEmpty)
  | [], best => by simp
  | e :: l, best => by
    rw [List.foldl_cons, isSome_foldl_nearer l]
    cases best with
    | none => rfl
    | some b =>
      unfold nearer
      dsimp only
      split <;> rfl

variable {limit : Nat} {word : String} {known : List String}

/-- Some word is suggested if and only if one is near enough. -/
theorem isSome_closest_iff : (closest limit word known).isSome = true ↔
    ∃ k ∈ known, distance word.toList k.toList ≤ limit := by
  unfold closest
  dsimp only
  rw [Option.isSome_map]
  show ((List.foldl nearer none _).isSome = true) ↔ _
  rw [isSome_foldl_nearer, Option.isSome_none, Bool.false_or, Bool.not_eq_true',
    List.isEmpty_eq_false_iff_exists_mem]
  simp

/-- **The word that is suggested is the first of the nearest ones**, if they are near enough. -/
theorem closest_eq_find? (limit : Nat) (word : String) (known : List String) :
    closest limit word known = known.find? fun k =>
      distance word.toList k.toList ≤ limit &&
        known.all fun j => distance word.toList k.toList ≤ distance word.toList j.toList := by
  unfold closest
  dsimp only
  show (List.foldl nearer none _).map _ = _
  rw [foldl_nearer_none, List.find?_filter, List.find?_map, Option.map_map]
  refine Option.map_id'.trans (congrArg (List.find? · known) (funext fun k => ?_))
  rw [Bool.eq_iff_iff]
  simp only [Function.comp_apply, isNearest, List.all_filter, List.all_map, Bool.and_eq_true,
    decide_eq_true_iff, List.all_eq_true, Bool.or_eq_true, Bool.not_eq_true',
    decide_eq_false_iff_not]
  refine and_congr_right fun hk => forall₂_congr fun j _ => ⟨?_, .inr⟩
  rintro (h | h)
  · omega
  · exact h

/-- **Distances count the fewest edits, and suggestions are the nearest.** The distance of two texts
is the least number of characters to insert, delete or replace. For a keyword an instruction is
suggested if and only if one is within two edits, and it is the first of the known instructions that
no other is nearer than. -/
theorem suggestion_nearest :
    (∀ a b : String, IsLeast {n | Edits n a.toList b.toList} (distance a.toList b.toList)) ∧
      ∀ keyword : String,
        ((DockerfileProblem.closestInstruction keyword).isSome = true ↔
          ∃ k ∈ DockerfileProblem.knownInstructions, ∃ n ≤ 2,
            Edits n keyword.toList k.toList) ∧
        DockerfileProblem.closestInstruction keyword =
          DockerfileProblem.knownInstructions.find? fun k =>
            distance keyword.toList k.toList ≤ 2 &&
              DockerfileProblem.knownInstructions.all fun j =>
                distance keyword.toList k.toList ≤ distance keyword.toList j.toList := by
  refine ⟨fun a b => isLeast_distance _ _, fun keyword => ⟨?_, closest_eq_find? _ _ _⟩⟩
  rw [DockerfileProblem.closestInstruction, isSome_closest_iff]
  refine exists_congr fun k => and_congr_right fun _ => ⟨fun h => ?_, ?_⟩
  · exact ⟨_, h, (isLeast_distance _ _).1⟩
  · rintro ⟨n, hn, hedits⟩
    exact ((isLeast_distance _ _).2 hedits).trans hn

/-- Two instructions are one edit away from this keyword, and the first of them is suggested. -/
example : DockerfileProblem.closestInstruction "ADN" = some "ADD" := by decide +kernel

end DockerSim.Spelling
