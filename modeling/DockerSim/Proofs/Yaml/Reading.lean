import DockerSim.Proofs.FindingLines
import DockerSim.Proofs.Spellings

/-!
# Reading on from the lines of a document

What is read is the outline after the lines so far (`outlineOf`), and a document is cut between any
two of its lines: the lines of a text are those of its beginning and those of the rest, numbered on,
and what the rest comes to depends on the beginning by the outline alone. A line that is refused is
the one that the error names.
-/

namespace DockerSim

/-! ## Lines of a text -/

namespace Chars

variable {line : List Char}

/-- A line that a line feed ends loses a carriage return in front of it. -/
theorem lines_append_feed (h : '\n' ∉ line) (rest : List Char) :
    lines (line ++ '\n' :: rest) = dropReturn line :: lines rest := by
  unfold lines
  rw [split_eq_splitOn, List.splitOn_append_cons_self_of_not_mem h, ← split_eq_splitOn]
  cases hrest : split '\n' rest with
  | nil => exact absurd hrest (splitBy_ne_nil _ rest)
  | cons piece pieces => rw [endLines]; simp

/-- A text without a line feed is one line, or none. -/
theorem lines_of_not_mem (h : '\n' ∉ line) : lines line = if line.isEmpty then [] else [line] := by
  unfold lines
  rw [split_eq_splitOn, List.splitOn_eq_singleton h]
  rfl

end Chars

namespace Yaml

/-! ## Lines of a document -/

/-- The numbers of lines are those of the raw lines they come from. -/
theorem number_bounds {l : Line} {raws : List (List Char)} {n : Nat} {started : Bool}
    (h : l ∈ linesFrom n started raws) : n ≤ l.number ∧ l.number < n + raws.length :=
  number_of_mem_linesFrom (P := fun k => n ≤ k ∧ k < n + raws.length)
    (fun _ hk hk' => ⟨hk, hk'⟩) l h

/-- Lines are found one after the other: those of the rest are numbered on, and whether a marker
counts there is settled by the beginning. It does not once it has not. -/
theorem linesFrom_append : ∀ (front : List (List Char)) (n : Nat) (started : Bool),
    ∃ started', (started = true → started' = true) ∧ ∀ rest, linesFrom n started (front ++ rest) =
      linesFrom n started front ++ linesFrom (n + front.length) started' rest
  | [], n, started => ⟨started, id, fun _ => rfl⟩
  | raw :: front, n, started => by
    cases hline : Line.ofChars? n raw with
    | none =>
      obtain ⟨started', hkeep, h⟩ := linesFrom_append front (n + 1) started
      refine ⟨started', hkeep, fun rest => ?_⟩
      simp only [List.cons_append, linesFrom, hline, h, List.length_cons]
      rw [Nat.add_assoc, Nat.add_comm 1]
    | some line =>
      by_cases hmark : (!started && Chars.trimStart raw = ['-', '-', '-']) = true
      · obtain ⟨started', -, h⟩ := linesFrom_append front (n + 1) false
        have hstarted : started ≠ true := by
          rintro rfl
          cases hmark
        refine ⟨started', fun h => absurd h hstarted, fun rest => ?_⟩
        simp only [List.cons_append, linesFrom, hline, if_pos hmark, h, List.length_cons]
        rw [Nat.add_assoc, Nat.add_comm 1]
      · obtain ⟨started', hkeep, h⟩ := linesFrom_append front (n + 1) true
        refine ⟨started', fun _ => hkeep rfl, fun rest => ?_⟩
        simp only [List.cons_append, linesFrom, hline, if_neg hmark, h, List.length_cons]
        rw [Nat.add_assoc, Nat.add_comm 1]

/-- A line that says something, and is no marker, is found in front of those of the rest. -/
theorem linesFrom_cons {line : Line} {raw : List Char} {n : Nat} {started : Bool}
    (h : Line.ofChars? n raw = some line)
    (hmark : started = true ∨ Chars.trimStart raw ≠ ['-', '-', '-']) (rest : List (List Char)) :
    linesFrom n started (raw :: rest) = line :: linesFrom (n + 1) true rest := by
  have hnot : ¬(!started && Chars.trimStart raw = ['-', '-', '-']) = true := by
    rcases hmark with rfl | hmark
    · exact Bool.false_ne_true
    · rw [decide_eq_false hmark, Bool.and_false]
      exact Bool.false_ne_true
  rw [linesFrom, h]
  exact if_neg hnot

/-! ## Outlines -/

variable {front : List Line}

/-- More lines are read from the outline that those in front of them have led to. -/
theorem outlineOf_append (h : front ≠ []) (rest : List Line) :
    outlineOf (front ++ rest) = outlineOf front >>= fun o => rest.foldlM Outline.step o := by
  obtain ⟨first, lines, rfl⟩ := List.exists_cons_of_ne_nil h
  unfold outlineOf
  dsimp only [List.cons_append]
  split
  · rfl
  · rw [← List.cons_append, List.foldlM_append]

/-- The outline after some lines is that in which the last of them was placed. -/
theorem exists_step_of_outlineOf {line : Line} {o : Outline}
    (h : outlineOf (front ++ [line]) = .ok o) : ∃ o', Outline.step o' line = .ok o := by
  cases front with
  | nil =>
    unfold outlineOf at h
    dsimp only [List.nil_append] at h
    split at h
    · cases h
    · refine ⟨.start line.column, ?_⟩
      rw [← h, List.foldlM_cons]
      cases (Outline.start line.column).step line <;> rfl
  | cons first lines =>
    rw [outlineOf_append (List.cons_ne_nil _ _)] at h
    cases ho : outlineOf (first :: lines) with
    | error e => rw [ho] at h; cases h
    | ok o' =>
      rw [ho] at h
      refine ⟨o', ?_⟩
      rw [← h]
      show _ = [line].foldlM Outline.step o'
      rw [List.foldlM_cons]
      cases o'.step line <;> rfl

/-! ## The block a line goes to -/

variable {line line' : Line}

theorem OpenMapping.of_place_add {m : OpenMapping} (h : m.place line = .add) :
    line.column = m.column ∧ isItem line.text = false := by
  unfold place at h
  dsimp only at h
  split at h
  · cases h
  · split at h
    · cases h
    · split at h
      · cases h
      · split at h
        · cases h
        · split at h
          · cases h
          · next hdeeper hleft hitem => exact ⟨by omega, by simpa using hitem⟩

theorem OpenMapping.of_place_skip {m : OpenMapping} (h : m.place line = .skip) :
    m.gap = .skipped ∧ m.column < line.column := by
  unfold place at h
  dsimp only at h
  split at h
  · next hskip => simpa using hskip
  · split at h
    · cases h
    · split at h
      · cases h
      · split at h
        · cases h
        · split at h <;> cases h

theorem OpenSequence.of_place_add {s : OpenSequence} (h : s.place line = .add) :
    line.column = s.column ∧ isItem line.text = true := by
  unfold place at h
  dsimp only at h
  split at h
  · cases h
  · split at h
    · cases h
    · split at h
      · cases h
      · next hdeeper hstays =>
        rw [Bool.or_eq_true, not_or, decide_eq_true_iff, Bool.not_eq_true,
          Bool.not_eq_false'] at hstays
        exact ⟨by omega, hstays.2⟩

theorem OpenSequence.place_ne_skip (s : OpenSequence) (line : Line) : s.place line ≠ .skip := by
  unfold place
  dsimp only
  split
  · nofun
  · split
    · nofun
    · split <;> nofun

/-- The block that the next line meets first. -/
def Outline.innermost (o : Outline) : OpenBlock := o.inner.headD (.mapping o.root)

theorem Outline.exists_put {o : Outline} {m : OpenMapping} (h : o.innermost = .mapping m) :
    ∃ seat : Seat, o = seat.put m := by
  obtain ⟨inner, root⟩ := o
  cases inner with
  | nil => cases h; exact ⟨.top, rfl⟩
  | cons b outer => cases h; exact ⟨.inside ⟨outer, root⟩, rfl⟩

/-- A line that is read is passed over by the block that is innermost from then on, or it is added
to a block, one that was open or a new one, and what it adds to is innermost. -/
inductive Outline.Takes (line : Line) (o : Outline) : Prop
  | skip {m : OpenMapping} (place : m.place line = .skip) (inside : o.innermost = .mapping m)
  | add {b : OpenBlock} (place : b.place line = .add)
      (inside : (b.add line).head? = some o.innermost)

theorem OpenBlock.head?_add (b : OpenBlock) (line : Line) : ∃ b', (b.add line).head? = some b' := by
  cases b with
  | mapping m => exact ⟨_, rfl⟩
  | sequence s =>
    unfold add
    dsimp only
    split <;> exact ⟨_, rfl⟩

/-- A block that a line opens is one that it is added to. -/
theorem OpenBlock.exists_ofLine (line : Line) :
    ∃ b : OpenBlock, b.place line = .add ∧ ofLine line = b.add line := by
  unfold ofLine
  split
  · next h => exact ⟨_, by simp [place, OpenSequence.place, h], rfl⟩
  · next h => exact ⟨_, by simp [place, OpenMapping.place, h], rfl⟩

theorem Outline.takes_of_add {b : OpenBlock} (h : b.place line = .add) (outer : List OpenBlock)
    (root : OpenMapping) : Takes line { inner := b.add line ++ outer, root } := by
  obtain ⟨b', hb'⟩ := b.head?_add line
  refine .add h ?_
  obtain ⟨blocks, hblocks⟩ := List.head?_eq_some_iff.1 hb'
  rw [hb', hblocks]
  rfl

theorem Outline.takes_opened (o : Outline) : (o.opened line).Takes line := by
  obtain ⟨b, hb, hline⟩ := OpenBlock.exists_ofLine line
  rw [opened, hline]
  exact takes_of_add hb _ _

theorem Outline.takes_of_step {o o' : Outline} (h : o.step line = .ok o') : o'.Takes line := by
  induction o using Outline.induction with
  | top m =>
    rw [Seat.step_top] at h
    split at h
    · next hplace => cases h; exact .skip hplace rfl
    · cases h; exact takes_opened _
    · next hplace => cases h; exact .add (b := .mapping m) hplace rfl
    · cases h
    · cases h
  | push o b ih =>
    rw [step_push] at h
    split at h
    · next hplace =>
      cases h
      cases b with
      | mapping m => exact .skip hplace rfl
      | sequence s => exact absurd hplace (s.place_ne_skip line)
    · cases h; exact takes_opened _
    · next hplace => cases h; exact takes_of_add hplace _ _
    · exact ih _ h
    · cases h

end Yaml

end DockerSim
